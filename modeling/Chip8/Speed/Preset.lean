namespace Chip8

inductive Preset
  | slow
  | moderate
  | normal
  | fast
  | ultraFast
  deriving DecidableEq, Repr

namespace Preset

def all : List Preset :=
  [.slow, .moderate, .normal, .fast, .ultraFast]

def name : Preset → String
  | .slow => "SLOW"
  | .moderate => "MODERATE"
  | .normal => "NORMAL"
  | .fast => "FAST"
  | .ultraFast => "ULTRA_FAST"

def rate : Preset → Nat
  | .slow => 150
  | .moderate => 500
  | .normal => 840
  | .fast => 1500
  | .ultraFast => 3000

def ofName? (name : String) : Option Preset :=
  all.find? fun p => p.name == name

theorem ofName?_name (p : Preset) : ofName? p.name = some p := by
  cases p <;> rfl

end Preset

end Chip8
