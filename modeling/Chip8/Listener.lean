import Chip8.Machine
import Chip8.Speed

/-!
The listeners of a host as data: a name, the event it reports, and what it does when it is called.
A listener may ask of the emulator what its host may ask, any number of times, and go on with the
answers.
-/

namespace Chip8

/-- What a host may ask of an emulator. -/
inductive Request
  | load (program : List UInt8) (speed : Option SpeedRequest)
  | reset
  | step
  | run (maxSteps : Int)
  | advance (elapsed : Binary64)
  | tick (now : Binary64)
  | keyDown (key : HostValue)
  | keyUp (key : HostValue)
  /-- Registers a listener by name, or one that only takes note if the name is new. -/
  | listen (event : Event) (name : String)
  | unlisten (event : Event) (name : Option String)

inductive Answer
  | nothing
  | stop (reason : Option StopReason)
  | executed (count : Nat)
  deriving DecidableEq, Repr

/-- What a listener does: it ends, fails, or asks something and goes on. How it goes on depends on
the answer, which may be an error, and on the machine it finds then. -/
inductive Script
  | done
  | fail (e : Error)
  | ask (r : Request) (next : Except Error Answer → Machine → Script)

/-- The script of one request, which fails if the request does. -/
def Script.once (r : Request) : Script :=
  .ask r fun answer _ =>
    match answer with
    | .ok _ => .done
    | .error e => .fail e

structure Notice where
  listener : String
  event : Event
  pc : Int
  deriving DecidableEq, Repr

/-- What a listener does after it has taken note of an event. -/
inductive Action
  | record
  | fail (e : Error)
  | key (value : HostValue)
  /-- Removes a listener by name from the event, or all of them. -/
  | remove (name : Option String)
  /-- Adds a listener to the event. -/
  | add (name : String)
  | step
  | load (program : List UInt8)
  /-- Follows a script that depends on all notices so far, which tell one call from the next, and on
  the machine. -/
  | script (behave : Array Notice → Machine → Script)

/-- The script of an action for an event, after some notices, on a machine. -/
def Action.toScript (event : Event) (notices : Array Notice) (m : Machine) : Action → Script
  | .record => .done
  | .fail e => .fail e
  | .key value => .once (.keyDown value)
  | .remove name => .once (.unlisten event name)
  | .add name => .once (.listen event name)
  | .step => .once .step
  | .load program => .once (.load program none)
  | .script behave => behave notices m

structure Listener where
  name : String
  event : Event
  action : Action := .record

/-- The listeners of an emulator: all that were ever named, and the registrations in order. -/
structure Listeners where
  known : List Listener := []
  registered : List (Event × Listener) := []

namespace Listeners

def forEvent (ls : Listeners) (event : Event) : List Listener :=
  (ls.registered.filter fun r => r.1 = event).map Prod.snd

/-- Registers a listener for an event. A name that is known stands for the listener it was first
given to; otherwise the listener becomes known. -/
def add (ls : Listeners) (event : Event) (l : Listener) : Listeners :=
  match ls.known.find? fun k => k.name == l.name with
  | some k => { ls with registered := ls.registered ++ [(event, k)] }
  | none => { known := ls.known ++ [l], registered := ls.registered ++ [(event, l)] }

/-- Removes the registrations of an event that carry a name, or all of that event. -/
def remove (ls : Listeners) (event : Event) (name : Option String) : Listeners :=
  { ls with registered := ls.registered.filter fun r =>
      !(r.1 = event && name.all fun n => r.2.name == n) }

end Listeners

end Chip8
