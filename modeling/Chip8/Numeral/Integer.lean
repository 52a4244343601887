import Chip8.Numeral.Ascii

namespace Chip8.Numeral

inductive Base
  | decimal
  /-- Base sixteen, with or without the prefix `0x`. -/
  | hexadecimal
  /-- The prefixes `0x`, `0o` and `0b` name the base; without one it is ten, and then only zero may
  start with the digit zero. -/
  | prefixed
  deriving DecidableEq, Repr

def digitValue? (c : Char) : Option Nat :=
  if isDigit c then some (c.toNat - 48)
  else if 65 ≤ c.toNat ∧ c.toNat ≤ 90 then some (c.toNat - 55)
  else if 97 ≤ c.toNat ∧ c.toNat ≤ 122 then some (c.toNat - 87)
  else none

def digitIn? (base : Nat) (c : Char) : Option Nat :=
  (digitValue? c).filter (· < base)

/-- Reads the rest of a run of digits after at least one digit: more digits, or an underscore and a
digit. -/
def digitsFrom (base : Nat) (value : Nat) : List Char → Option Nat
  | [] => some value
  | '_' :: c :: rest =>
    match digitIn? base c with
    | some d => digitsFrom base (value * base + d) rest
    | none => none
  | c :: rest =>
    match digitIn? base c with
    | some d => digitsFrom base (value * base + d) rest
    | none => none

/-- Reads a nonempty run of digits with single underscores between them. -/
def digits? (base : Nat) : List Char → Option Nat
  | [] => none
  | c :: rest =>
    match digitIn? base c with
    | some d => digitsFrom base d rest
    | none => none

/-- The digits after a prefix, where one underscore may come first. -/
def afterPrefix? (base : Nat) : List Char → Option Nat
  | '_' :: rest => digits? base rest
  | rest => digits? base rest

def maxDecimalDigits : Nat :=
  4300

/-- A run of decimal digits, if there are not too many. -/
def decimal? (cs : List Char) : Option Nat :=
  if cs.countP isDigit ≤ maxDecimalDigits then digits? 10 cs else none

/-- The base that the second character of a numeral names after a zero. -/
def prefixBase? (c : Char) : Option Nat :=
  if c = 'x' ∨ c = 'X' then some 16
  else if c = 'o' ∨ c = 'O' then some 8
  else if c = 'b' ∨ c = 'B' then some 2
  else none

/-- The magnitude of a numeral without its sign. -/
def magnitude? (base : Base) (cs : List Char) : Option Nat :=
  match base, cs with
  | .decimal, _ => decimal? cs
  | .hexadecimal, '0' :: c :: rest =>
    if prefixBase? c = some 16 then afterPrefix? 16 rest else digits? 16 cs
  | .hexadecimal, _ => digits? 16 cs
  | .prefixed, '0' :: c :: rest =>
    match prefixBase? c with
    | some b => afterPrefix? b rest
    | none => (decimal? cs).filter (· = 0)
  | .prefixed, _ => decimal? cs

/-- The integer that a text is a numeral of. -/
def readInt (base : Base) (s : String) : Option Int :=
  let (negative, cs) := splitSign (body s)
  (magnitude? base cs).map fun n => if negative then -(n : Int) else n

end Chip8.Numeral
