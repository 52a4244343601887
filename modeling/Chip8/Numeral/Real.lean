import Chip8.Binary64
import Chip8.Numeral.Ascii

namespace Chip8.Numeral

/-- A text without its underscores, if each of them stands between two digits. -/
def dropUnderscores? : List Char → Option (List Char)
  | [] => some []
  | '_' :: _ => none
  | [c] => some [c]
  | c :: '_' :: d :: rest =>
    if isDigit c && isDigit d then (dropUnderscores? (d :: rest)).map (c :: ·) else none
  | c :: d :: rest => (dropUnderscores? (d :: rest)).map (c :: ·)

def digitsValue (cs : List Char) : Nat :=
  cs.foldl (fun n c => n * 10 + (c.toNat - 48)) 0

/-- The exponent after the mantissa, if the text there is empty or an exponent. -/
def exponent? : List Char → Option Int
  | [] => some 0
  | c :: rest =>
    if c = 'e' ∨ c = 'E' then
      let (negative, ds) := splitSign rest
      if ds.isEmpty || !ds.all isDigit then none
      else some (if negative then -(digitsValue ds : Int) else digitsValue ds)
    else none

/-- The number nearest to `digits · 10 ^ exponent`, with `count` the number of digits. Exponents far
outside the range of binary64 are decided by the place of the first digit. -/
def decimalNear (negative : Bool) (digits count : Nat) (exponent : Int) : Binary64 :=
  if digits = 0 then .finite negative 0 (-1074)
  else if exponent + count < -400 then .finite negative 0 (-1074)
  else if exponent > 400 then .infinite negative
  else .ofDecimal negative digits exponent

/-- The number that a text of digits, point and exponent stands for. -/
def decimalReal? (negative : Bool) (cs : List Char) : Option Binary64 :=
  let whole := cs.takeWhile isDigit
  let afterWhole := cs.drop whole.length
  let (fraction, afterFraction) :=
    match afterWhole with
    | '.' :: rest => (rest.takeWhile isDigit, rest.dropWhile isDigit)
    | rest => ([], rest)
  let ds := (whole ++ fraction).dropWhile (· = '0')
  if whole.isEmpty && fraction.isEmpty then none
  else (exponent? afterFraction).map fun e =>
    decimalNear negative (digitsValue ds) ds.length (e - fraction.length)

def readReal (s : String) : Option Binary64 :=
  match dropUnderscores? (body s) with
  | none => none
  | some cs =>
    let (negative, cs) := splitSign cs
    let word := cs.map Char.toLower
    if word = "inf".toList ∨ word = "infinity".toList then some (.infinite negative)
    else if word = "nan".toList then some .nan
    else decimalReal? negative cs

end Chip8.Numeral
