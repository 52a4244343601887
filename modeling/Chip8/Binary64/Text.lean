import Chip8.Binary64

namespace Chip8.Binary64

/-- Decimal digits and the place of the point: `digits` has `count` digits and the value is
`0.digits · 10 ^ point`. -/
structure Decimal where
  digits : Nat
  count : Nat
  point : Int

/-- Whether `m · 2 ^ e` is at least `10 ^ k`. -/
def reachesPowerOfTen (m : Nat) (e k : Int) : Bool :=
  pow2 (-e).toNat * pow10 k.toNat ≤ m * pow2 e.toNat * pow10 (-k).toNat

/-- The least `p` with `m · 2 ^ e < 10 ^ p`, for a positive mantissa. -/
def decimalPoint (m : Nat) (e : Int) : Int :=
  let guess := (Nat.log2 m + e) * 30103 / 100000
  if reachesPowerOfTen m e (guess + 1) then guess + 2
  else if reachesPowerOfTen m e guess then guess + 1
  else guess

/-- The numerator and denominator of `m · 2 ^ e / 10 ^ k`. -/
def overPowerOfTen (m : Nat) (e k : Int) : Nat × Nat :=
  (m * pow2 e.toNat * pow10 (-k).toNat, pow2 (-e).toNat * pow10 k.toNat)

/-- A positive number rounded to a count of significant digits, a tie to the even digit. -/
def roundDigits (m : Nat) (e : Int) (count : Nat) : Decimal :=
  let p := decimalPoint m e
  let v := overPowerOfTen m e (p - count)
  let q := roundQuotient v.1 v.2
  if q = pow10 count then ⟨pow10 (count - 1), count, p + 1⟩ else ⟨q, count, p⟩

/-- Whether the decimal `c · 10 ^ k` reads back as the positive number `m · 2 ^ e`: it lies between
the midpoints to the two neighbours, which themselves belong to an even mantissa. -/
def readsBack (m : Nat) (e : Int) (c : Nat) (k : Int) : Bool :=
  let one := overPowerOfTen 1 (e - 2) k
  let low := (4 * m - if m = pow2 52 ∧ e ≠ -1074 then 1 else 2) * one.1
  let high := (4 * m + 2) * one.1
  let here := c * one.2
  if m % 2 = 0 then low ≤ here && here ≤ high else low < here && here < high

/-- The decimals of `count` digits next to a positive number, kept if they read back as it; of two
the nearer, from a tie the even one. -/
def nearestReadingBack? (m : Nat) (e : Int) (count : Nat) : Option Nat :=
  let k := decimalPoint m e - count
  let v := overPowerOfTen m e k
  let q := v.1 / v.2
  let nearest := roundQuotient v.1 v.2
  let other := if nearest = q then q + 1 else q
  if readsBack m e nearest k then some nearest
  else if readsBack m e other k then some other
  else none

/-- The fewest digits that read back as a positive number, searched upward from `count`. -/
def shortestFrom (m : Nat) (e : Int) (count : Nat) : Nat → Decimal
  | 0 => roundDigits m e count
  | fuel + 1 =>
    match nearestReadingBack? m e count with
    | some c =>
      let p := decimalPoint m e
      if c = pow10 count then ⟨pow10 (count - 1), count, p + 1⟩ else ⟨c, count, p⟩
    | none => shortestFrom m e (count + 1) fuel

/-- The fewest digits that read back as a positive number. Seventeen always do. -/
def shortest (m : Nat) (e : Int) : Decimal :=
  shortestFrom m e 1 16

structure NumberStyle where
  /-- The highest place of the point that is written without an exponent. -/
  maxPoint : Int
  /-- Whether an integral number keeps a point and a zero. -/
  keepsPoint : Bool

/-- The style of numbers in messages: an exponent from 10¹⁶ on, and always a point. -/
def NumberStyle.full : NumberStyle :=
  ⟨16, true⟩

/-- The style of six significant digits: an exponent from 10⁶ on, and no needless point. -/
def NumberStyle.compact : NumberStyle :=
  ⟨6, false⟩

def fixedDigits : Nat → Nat → List Char
  | 0, _ => []
  | width + 1, n => fixedDigits width (n / 10) ++ [Char.ofNat (48 + n % 10)]

def dropTrailingZeros (ds : List Char) : List Char :=
  match (ds.reverse.dropWhile (· = '0')).reverse with
  | [] => ['0']
  | kept => kept

def exponentText (n : Int) : List Char :=
  (if n < 0 then '-' else '+') ::
    (if n.natAbs < 10 then ['0', Char.ofNat (48 + n.natAbs)] else (toString n.natAbs).toList)

/-- The text of digits with the point after the first `point` of them. Points from -3 to the
highest of the style are written out, others with an exponent. -/
def NumberStyle.layOut (style : NumberStyle) (ds : List Char) (point : Int) : List Char :=
  if -4 < point ∧ point ≤ style.maxPoint then
    if point ≤ 0 then
      '0' :: '.' :: (List.replicate (-point).toNat '0' ++ ds)
    else
      let p := point.toNat
      if ds.length ≤ p then
        ds ++ List.replicate (p - ds.length) '0' ++ (if style.keepsPoint then ['.', '0'] else [])
      else
        ds.take p ++ '.' :: ds.drop p
  else
    let fraction := ds.drop 1
    ds.take 1 ++ (if fraction.isEmpty then [] else '.' :: fraction) ++
      'e' :: exponentText (point - 1)

/-- The text of a number in a style, its digits chosen by `choose`. -/
def render (style : NumberStyle) (choose : Nat → Int → Decimal) : Binary64 → String
  | .nan => "nan"
  | .infinite negative => if negative then "-inf" else "inf"
  | .finite negative m e =>
    let body :=
      if m = 0 then style.layOut ['0'] 1
      else
        let d := choose m e
        style.layOut (dropTrailingZeros (fixedDigits d.count d.digits)) d.point
    String.ofList (if negative then '-' :: body else body)

def text : Binary64 → String :=
  render .full shortest

def compactText : Binary64 → String :=
  render .compact fun m e => roundDigits m e 6

end Chip8.Binary64
