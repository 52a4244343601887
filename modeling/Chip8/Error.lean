import Chip8.FilePath
import Chip8.Hex
import Chip8.HostValue
import Chip8.Speed.Preset

namespace Chip8

/-- Why execution stopped, or that it was only out of time. -/
inductive StopReason
  | halt
  | illegal
  | stack
  | timeout
  deriving DecidableEq, Repr

def StopReason.name : StopReason → String
  | .halt => "HALT"
  | .illegal => "ILLEGAL"
  | .stack => "STACK"
  | .timeout => "TIMEOUT"

/-- The reach of indices and counts: they are below it, and indices not below its negative. -/
def indexReach : Int :=
  0x8000000000000000

inductive Fault
  | illegalOpcode (pc : Int) (word : Nat)
  | stackOverflow (pc : Int)
  | stackUnderflow (pc : Int)
  /-- A stack overflow that a listener reports as its own. -/
  | reportedOverflow
  deriving DecidableEq, Repr

namespace Fault

def reason : Fault → StopReason
  | .illegalOpcode _ _ => .illegal
  | .stackOverflow _ => .stack
  | .stackUnderflow _ => .stack
  | .reportedOverflow => .stack

def message : Fault → String
  | .illegalOpcode pc word =>
    "Unknown opcode $" ++ Hex.padded 4 word ++ " at $" ++ Hex.padded 4 pc
  | .stackOverflow pc => "Call stack overflow at PC=$" ++ Hex.padded 4 pc ++ " (depth 16)"
  | .stackUnderflow pc => "Return with empty call stack at PC=$" ++ Hex.padded 4 pc
  | .reportedOverflow => "from listener"

end Fault

/-- An error of a call. A count or an index is out of reach from `indexReach` on; a value that is
missing is one that the command line was to give. -/
inductive Error
  | fault (f : Fault)
  | programTooLarge (size limit : Nat)
  | invalidKey (value : HostValue)
  | invalidStart (address : Int)
  | unknownSpeed (text : String)
  | speedNotPositive (value : HostValue)
  | rateNotPositive (rate : Number)
  | byteOutOfRange
  | pixelOutOfRange
  | negativeSize
  | outOfMemory
  | indexOutOfReach
  | countOutOfReach
  | integerOfInfinity
  | integerOfNan
  | realOutOfRange
  | unknownEvent (name : String)
  | notHexadecimal (text : String)
  | invalidKeyText (text : String)
  | listenerFailed
  | nestingTooDeep
  | file (e : FileError)
  | speedMissing
  | seedMissing
  | frameRateMissing
  | secondsMissing
  | pixelTextMissing (column : Nat)
  deriving DecidableEq

namespace Error

/-- The most characters of a quoted text that a message on a hexadecimal numeral shows. -/
def maxShownCharacters : Nat :=
  200

def message : Error → String
  | .fault f => f.message
  | .programTooLarge size limit =>
    "Program is " ++ toString size ++ " bytes, program region holds " ++ toString limit ++ " bytes"
  | .invalidKey value => "Key index must be between 0 and 15, got " ++ value.describe
  | .invalidStart address =>
    "Initial address must be between 0x200 and 0xFFF, got 0x" ++ Hex.text address
  | .unknownSpeed text =>
    "Unknown speed " ++ Text.quoted text ++ " (expected one of: "
      ++ ", ".intercalate (Preset.all.map fun p => p.name.map Char.toLower) ++ ", or a number)"
  | .speedNotPositive value => "Speed must be positive, got " ++ value.describe
  | .rateNotPositive rate => "cycles_per_second must be positive, got " ++ rate.describe
  | .byteOutOfRange => "byte must be in range(0, 256)"
  | .pixelOutOfRange => "bytearray index out of range"
  | .negativeSize => "negative count"
  | .outOfMemory => ""
  | .indexOutOfReach | .countOutOfReach => "cannot fit 'int' into an index-sized integer"
  | .integerOfInfinity => "cannot convert float infinity to integer"
  | .integerOfNan => "cannot convert float NaN to integer"
  | .realOutOfRange => "int too large to convert to float"
  | .unknownEvent name => Text.quoted name ++ " is not a valid Event"
  | .notHexadecimal text =>
    "invalid literal for int() with base 16: "
      ++ String.ofList ((Text.quoted text).toList.take maxShownCharacters)
  | .invalidKeyText text => "invalid key " ++ Text.quoted text ++ " (expected 0-F)"
  | .listenerFailed => "host failure"
  | .nestingTooDeep => "maximum recursion depth exceeded"
  | .file e => e.message
  | .speedMissing => "'list' object has no attribute 'strip'"
  | .seedMissing =>
    "The only supported seed types are: None,\nint, float, str, bytes, and bytearray."
  | .frameRateMissing => "'>' not supported between instances of 'list' and 'int'"
  | .secondsMissing =>
    "int() argument must be a string, a bytes-like object or a real number, not 'list'"
  | .pixelTextMissing column =>
    "sequence item " ++ toString column ++ ": expected str instance, list found"

/-- Whether an error is one of the machine and its tools, so that a run of the machine reports it
through its result. -/
def isOfMachine : Error → Bool
  | .fault _ => true
  | .programTooLarge _ _ => true
  | .invalidKey _ => true
  | .invalidStart _ => true
  | _ => false

/-- Answers that may be errors can be compared if their values can. -/
instance {α : Type} [DecidableEq α] : DecidableEq (Except Error α)
  | .ok a, .ok b => decidable_of_iff (a = b) (by simp)
  | .error e, .error f => decidable_of_iff (e = f) (by simp)
  | .ok _, .error _ | .error _, .ok _ => .isFalse nofun

end Error

end Chip8
