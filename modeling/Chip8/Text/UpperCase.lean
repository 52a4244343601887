/-!
Upper case as far as it leads to ASCII: the ASCII letters, and the letters beyond ASCII whose upper
case is made of ASCII letters. Every other character stays, since neither it nor its upper case can
be part of a name or a numeral in ASCII.
-/

namespace Chip8.Text

def upperChar (c : Char) : List Char :=
  match c.toNat with
  | 0xDF => ['S', 'S']
  | 0x131 => ['I']
  | 0x17F => ['S']
  | 0xFB00 => ['F', 'F']
  | 0xFB01 => ['F', 'I']
  | 0xFB02 => ['F', 'L']
  | 0xFB03 => ['F', 'F', 'I']
  | 0xFB04 => ['F', 'F', 'L']
  | 0xFB05 => ['S', 'T']
  | 0xFB06 => ['S', 'T']
  | _ => [c.toUpper]

def upper (cs : List Char) : List Char :=
  cs.flatMap upperChar

end Chip8.Text
