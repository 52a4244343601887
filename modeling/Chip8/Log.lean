import Chip8.Text.Blank

namespace Chip8

inductive Level
  | debug
  | info
  | warning
  | error
  | critical
  deriving DecidableEq, Repr

namespace Level

def all : List Level :=
  [.debug, .info, .warning, .error, .critical]

def name : Level → String
  | .debug => "DEBUG"
  | .info => "INFO"
  | .warning => "WARNING"
  | .error => "ERROR"
  | .critical => "CRITICAL"

def ofName? (name : String) : Option Level :=
  all.find? fun l => l.name == name

def rank : Level → Nat
  | .debug => 0
  | .info => 1
  | .warning => 2
  | .error => 3
  | .critical => 4

def paddedName (l : Level) : String :=
  Text.padRight 7 l.name

end Level

structure Record where
  level : Level
  logger : String
  message : String
  deriving DecidableEq, Repr

def packageLogger : String :=
  "chip8vm"

/-- Whether a logger is the common one or one of its parts. -/
def belongsToPackage (logger : String) : Bool :=
  logger == packageLogger || (packageLogger ++ ".").isPrefixOf logger

/-- Where log records go: to the console from a level on, and to a file. -/
structure LogSetup where
  console : Level
  file : Option String
  deriving DecidableEq, Repr

namespace LogSetup

/-- The lightest level that is recorded at all: everything if there is a file. -/
def level (s : LogSetup) : Level :=
  if s.file.isSome then .debug else s.console

def handlers (s : LogSetup) : Nat :=
  if s.file.isSome then 2 else 1

def accepts (s : LogSetup) (r : Record) : Bool :=
  belongsToPackage r.logger && s.level.rank ≤ r.level.rank

def shows (s : LogSetup) (r : Record) : Bool :=
  s.accepts r && s.console.rank ≤ r.level.rank

end LogSetup

end Chip8
