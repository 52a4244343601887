import Chip8.Emulator.Run

namespace Chip8

/-- A call of the host: a request, or a listener for an event. -/
inductive HostCall
  | request (r : Request)
  | listen (event : Event) (l : Listener)

namespace HostCall

def load (program : List UInt8) (speed : Option SpeedRequest) : HostCall :=
  .request (.load program speed)

def reset : HostCall :=
  .request .reset

def step : HostCall :=
  .request .step

def run (maxSteps : Int) : HostCall :=
  .request (.run maxSteps)

def advance (elapsed : Binary64) : HostCall :=
  .request (.advance elapsed)

def tick (now : Binary64) : HostCall :=
  .request (.tick now)

def keyDown (key : HostValue) : HostCall :=
  .request (.keyDown key)

def keyUp (key : HostValue) : HostCall :=
  .request (.keyUp key)

def unlisten (event : Event) (name : Option String) : HostCall :=
  .request (.unlisten event name)

end HostCall

namespace Emulator

def perform (e : Emulator) : HostCall → Reply Answer
  | .request r => e.serve notify r
  | .listen event l => (.ok .nothing, e.addListener event l)

/-- Performs calls one after the other, whatever each of them gives. -/
def performAll (e : Emulator) : List HostCall → List (Except Error Answer) × Emulator
  | [] => ([], e)
  | c :: rest =>
    let (answer, e) := e.perform c
    let (answers, e) := e.performAll rest
    (answer :: answers, e)

end Emulator

end Chip8
