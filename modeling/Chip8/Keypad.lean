import Chip8.Error

namespace Chip8

/-- The key that a value of the host names: an integer from 0 to 15. -/
def HostValue.toKey : HostValue → Except Error (Fin 16)
  | .int n =>
    if h : 0 ≤ n ∧ n < 16 then .ok ⟨n.toNat, by omega⟩ else .error (.invalidKey (.int n))
  | value => .error (.invalidKey value)

structure Keypad where
  keys : Vector Bool 16 := Vector.replicate 16 false
  deriving DecidableEq, Repr

namespace Keypad

def isDown (k : Keypad) (key : Fin 16) : Bool :=
  k.keys.get key

/-- Whether the key that a value names is down. -/
def query (k : Keypad) (value : HostValue) : Except Error Bool :=
  match value.toKey with
  | .ok key => .ok (k.isDown key)
  | .error e => .error e

def press (k : Keypad) (key : Fin 16) : Keypad :=
  { k with keys := k.keys.setIfInBounds key true }

def release (k : Keypad) (key : Fin 16) : Keypad :=
  { k with keys := k.keys.setIfInBounds key false }

/-- Changes the key that a value names, and refuses a value that names none. -/
def change (k : Keypad) (value : HostValue) (f : Keypad → Fin 16 → Keypad) :
    Except Error Unit × Keypad :=
  match value.toKey with
  | .ok key => (.ok (), f k key)
  | .error e => (.error e, k)

def keyDown (k : Keypad) (value : HostValue) : Except Error Unit × Keypad :=
  k.change value press

def keyUp (k : Keypad) (value : HostValue) : Except Error Unit × Keypad :=
  k.change value release

def pressed (k : Keypad) : List (Fin 16) :=
  (List.finRange 16).filter k.isDown

def first? (k : Keypad) : Option (Fin 16) :=
  (List.finRange 16).find? k.isDown

end Keypad

end Chip8
