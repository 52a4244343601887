import Chip8.Error

namespace Chip8

inductive Event
  | displayUpdated
  | soundOn
  | soundOff
  deriving DecidableEq, Repr

namespace Event

def all : List Event :=
  [.displayUpdated, .soundOn, .soundOff]

def name : Event → String
  | .displayUpdated => "display_updated"
  | .soundOn => "sound_on"
  | .soundOff => "sound_off"

def ofName (name : String) : Except Error Event :=
  match all.find? fun e => e.name == name with
  | some e => .ok e
  | none => .error (.unknownEvent name)

end Event

end Chip8
