/-!
Binary floating point of 64 bits, as exact arithmetic. A finite number is a sign, a mantissa and a
binary exponent; every operation computes its exact result as a quotient of integers and rounds it
once, to the nearest number and from a tie to the even mantissa.
-/

namespace Chip8

/-- A binary64 number. Finite numbers made by `Binary64.round` have a mantissa below 2⁵³ and an
exponent of at least -1074, and their mantissa is at least 2⁵² unless the exponent is -1074. -/
inductive Binary64
  | nan
  | infinite (negative : Bool)
  | finite (negative : Bool) (mantissa : Nat) (exponent : Int)
  deriving DecidableEq, Repr

namespace Binary64

def pow2 (k : Nat) : Nat :=
  Nat.pow 2 k

def pow10 (k : Nat) : Nat :=
  Nat.pow 10 k

def zero : Binary64 :=
  .finite false 0 (-1074)

/-- A quotient rounded to the nearest integer, a tie to the even one. -/
def roundQuotient (num den : Nat) : Nat :=
  let q := num / den
  let r := num % den
  if 2 * r < den then q else if den < 2 * r then q + 1 else q + q % 2

/-- The two parts of the fraction `num / (den · 2 ^ exponent)`. -/
def scaled (num den : Nat) (exponent : Int) : Nat × Nat :=
  (num * pow2 (-exponent).toNat, den * pow2 exponent.toNat)

/-- The exponent at which the mantissa of `num / den` has 53 bits before rounding, or -1074 if that
exponent is smaller. -/
def exponentFor (num den : Nat) : Int :=
  let guess := max ((Nat.log2 num : Int) - Nat.log2 den - 53) (-1074)
  let s := scaled num den guess
  if s.1 / s.2 ≥ pow2 53 then guess + 1 else guess

/-- The binary64 number nearest to a fraction with the given sign. -/
def round (negative : Bool) (num den : Nat) : Binary64 :=
  if num = 0 then .finite negative 0 (-1074)
  else
    let e := exponentFor num den
    let s := scaled num den e
    let m := roundQuotient s.1 s.2
    let (m, e) := if m = pow2 53 then (pow2 52, e + 1) else (m, e)
    if e > 971 then .infinite negative else .finite negative m e

def ofInt? (n : Int) : Option Binary64 :=
  match round (n < 0) n.natAbs 1 with
  | .infinite _ => none
  | x => some x

/-- The number nearest to a decimal fraction `digits · 10 ^ exponent`. -/
def ofDecimal (negative : Bool) (digits : Nat) (exponent : Int) : Binary64 :=
  round negative (digits * pow10 exponent.toNat) (pow10 (-exponent).toNat)

def isPositive : Binary64 → Bool
  | .nan => false
  | .infinite negative => !negative
  | .finite negative m _ => !negative && m ≠ 0

def isNonpositive : Binary64 → Bool
  | .nan => false
  | .infinite negative => negative
  | .finite negative m _ => negative || m = 0

def mul : Binary64 → Binary64 → Binary64
  | .nan, _ => .nan
  | _, .nan => .nan
  | .infinite s, .infinite t => .infinite (s != t)
  | .infinite s, .finite t m _ => if m = 0 then .nan else .infinite (s != t)
  | .finite s m _, .infinite t => if m = 0 then .nan else .infinite (s != t)
  | .finite s m e, .finite t n f =>
    let p := scaled 1 1 (-(e + f))
    round (s != t) (m * n * p.1) p.2

def div : Binary64 → Binary64 → Binary64
  | .nan, _ => .nan
  | _, .nan => .nan
  | .infinite _, .infinite _ => .nan
  | .infinite s, .finite t _ _ => .infinite (s != t)
  | .finite s _ _, .infinite t => .finite (s != t) 0 (-1074)
  | .finite s m e, .finite t n f =>
    if n = 0 then (if m = 0 then .nan else .infinite (s != t))
    else
      let p := scaled 1 1 (f - e)
      round (s != t) (m * p.1) (n * p.2)

def signed (negative : Bool) (m : Nat) : Int :=
  if negative then -(m : Int) else m

def sub : Binary64 → Binary64 → Binary64
  | .nan, _ => .nan
  | _, .nan => .nan
  | .infinite s, .infinite t => if s = t then .nan else .infinite s
  | .infinite s, .finite _ _ _ => .infinite s
  | .finite _ _ _, .infinite t => .infinite !t
  | .finite s m e, .finite t n f =>
    let low := min e f
    let d := signed s m * pow2 (e - low).toNat - signed t n * pow2 (f - low).toNat
    if d = 0 then .finite (s && !t) 0 (-1074)
    else
      let p := scaled 1 1 (-low)
      round (d < 0) (d.natAbs * p.1) p.2

/-- The greatest integer below or at a finite number. -/
def floorFinite (negative : Bool) (m : Nat) (e : Int) : Int :=
  signed negative m * pow2 e.toNat / pow2 (-e).toNat

def truncateFinite (negative : Bool) (m : Nat) (e : Int) : Int :=
  signed negative (m * pow2 e.toNat / pow2 (-e).toNat)

def toBits : Binary64 → Nat
  | .nan => 0x7FF8000000000000
  | .infinite negative => (if negative then pow2 63 else 0) + 0x7FF0000000000000
  | .finite negative m e =>
    (if negative then pow2 63 else 0) +
      (if m < pow2 52 then m else (e + 1075).toNat * pow2 52 + (m - pow2 52))

end Binary64

end Chip8
