import Chip8.Error

namespace Chip8

/-- A clock: instructions per second, ticks per second, and the last timestamp. -/
structure Clock where
  rate : Nat
  timerRate : Number
  last : Option Binary64 := none
  deriving DecidableEq, Repr

def Binary64.floor : Binary64 → Except Error Int
  | .nan => .error .integerOfNan
  | .infinite _ => .error .integerOfInfinity
  | .finite negative m e => .ok (floorFinite negative m e)

def Binary64.truncate : Binary64 → Except Error Int
  | .nan => .error .integerOfNan
  | .infinite _ => .error .integerOfInfinity
  | .finite negative m e => .ok (truncateFinite negative m e)

def Binary64.ofInt (n : Int) : Except Error Binary64 :=
  match ofInt? n with
  | some x => .ok x
  | none => .error .realOutOfRange

def Number.toReal : Number → Except Error Binary64
  | .int n => Binary64.ofInt n
  | .real x => .ok x

namespace Clock

/-- A clock of a positive rate. A fraction of the rate is dropped. -/
def new (rate : Number) (timerRate : Number) : Except Error Clock :=
  if rate.isNonpositive then .error (.rateNotPositive rate)
  else do
    let n ← match rate with
      | .int n => pure n
      | .real x => x.truncate
    return { rate := n.toNat, timerRate }

/-- A rate times the elapsed seconds, rounded down; zero unless the time is positive. -/
def due (rate : Number) (elapsed : Binary64) : Except Error Int :=
  if elapsed.isPositive then do
    let r ← rate.toReal
    (r.mul elapsed).floor
  else .ok 0

def cyclesDue (c : Clock) (elapsed : Binary64) : Except Error Int :=
  due (.int c.rate) elapsed

def ticksDue (c : Clock) (elapsed : Binary64) : Except Error Int :=
  due c.timerRate elapsed

/-- The seconds since the last timestamp, zero for the first one and never negative. The clock
remembers the new timestamp. -/
def elapsedSince (c : Clock) (now : Binary64) : Binary64 × Clock :=
  let elapsed := match c.last with
    | none => .zero
    | some last =>
      let d := now.sub last
      if d.isPositive then d else .zero
  (elapsed, { c with last := some now })

def restart (c : Clock) : Clock :=
  { c with last := none }

end Clock

end Chip8
