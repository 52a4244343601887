import Chip8.Error
import Chip8.Numeral.Integer
import Chip8.Text.UpperCase

namespace Chip8

inductive SpeedRequest
  | number (n : Int)
  | flag (b : Bool)
  | text (s : String)
  deriving DecidableEq, Repr

/-- A speed: a preset, or a number of instructions per second. -/
inductive Speed
  | preset (p : Preset)
  | rate (n : Nat)
  deriving DecidableEq, Repr

namespace Speed

def value : Speed → Nat
  | .preset p => p.rate
  | .rate n => n

def preset? : Speed → Option Preset
  | .preset p => some p
  | .rate _ => none

/-- The speed of a number, which must be positive. The error shows `value`. -/
def ofInt (n : Int) (value : HostValue) : Except Error Speed :=
  if n ≤ 0 then .error (.speedNotPositive value) else .ok (.rate n.toNat)

/-- A text as names and numerals are looked up: without blanks at its ends, in upper case, with
underscores for hyphens. -/
def normalize (s : String) : String :=
  String.ofList ((Text.upper (Text.trim Text.isBlank s.toList)).map fun c =>
    if c = '-' then '_' else c)

def parse : SpeedRequest → Except Error Speed
  | .number n => ofInt n (.int n)
  | .flag b => ofInt (if b then 1 else 0) (.bool b)
  | .text s =>
    let key := normalize s
    match Preset.ofName? key with
    | some p => .ok (.preset p)
    | none =>
      match Numeral.readInt .prefixed key with
      | some n => ofInt n (.int n)
      | none => .error (.unknownSpeed s)

end Speed

end Chip8
