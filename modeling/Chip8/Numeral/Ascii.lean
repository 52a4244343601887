import Chip8.Text.Blank
import Chip8.Text.DecimalDigit

namespace Chip8.Numeral

/-- The ASCII form of a character of a numeral: a decimal digit of any script becomes the ASCII
digit of its value. -/
def asciiChar (c : Char) : Char :=
  if c.toNat < 128 then c
  else match Text.decimalValue? c with
    | some d => Char.ofNat (48 + d)
    | none => c

/-- The characters of a numeral: blanks at both ends dropped, digits in ASCII. -/
def body (s : String) : List Char :=
  (Text.trim Text.isNumeralBlank s.toList).map asciiChar

def splitSign : List Char → Bool × List Char
  | '-' :: rest => (true, rest)
  | '+' :: rest => (false, rest)
  | rest => (false, rest)

def isDigit (c : Char) : Bool :=
  48 ≤ c.toNat && c.toNat ≤ 57

end Chip8.Numeral
