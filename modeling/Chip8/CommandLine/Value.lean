import Chip8.Keypad
import Chip8.Speed

namespace Chip8.CommandLine

/-- Reads an address: hexadecimal digits, bare or after `0x` or `$`. -/
def readAddress (s : String) : Except Error Int :=
  let digits := match Text.trim Text.isBlank s.toList with
    | '$' :: rest => String.ofList rest
    | cs => String.ofList cs
  match Numeral.readInt .hexadecimal digits with
  | some n => .ok n
  | none => .error (.notHexadecimal digits)

/-- Reads a key: a hexadecimal numeral of a value from 0 to 15. -/
def readKey (s : String) : Except Error (Fin 16) :=
  match Numeral.readInt .hexadecimal s with
  | some n => (HostValue.int n).toKey.mapError fun _ => .invalidKeyText s
  | none => .error (.invalidKeyText s)

def readSpeed (s : String) : Except Error Speed :=
  Speed.parse (.text s)

end Chip8.CommandLine
