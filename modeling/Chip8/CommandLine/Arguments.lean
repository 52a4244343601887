import Chip8.CommandLine.Reading
import Chip8.CommandLine.Value
import Chip8.Log
import Chip8.Memory
import Chip8.Numeral.Real

namespace Chip8.CommandLine

def version : String :=
  "0.1.0"

/-- What a flag of one word is given: a value, or nothing, since a divider as its word is dropped. -/
inductive Given (α : Type)
  | value (v : α)
  | nothing
  deriving DecidableEq, Repr

namespace Given

variable {α : Type}

def orError (given : Given α) (e : Error) : Except Error α :=
  match given with
  | .value v => .ok v
  | .nothing => .error e

def toOption : Given α → Option α
  | .value v => some v
  | .nothing => none

end Given

/-- A run of a program: its path, the speed, the simulated seconds and frames per second, the keys
held down, the seed of random bytes, whether to trace, and the texts of lit and dark pixels. -/
structure RunOptions where
  program : String := ""
  speed : Given Speed := .value (.preset .normal)
  seconds : Given Binary64 := .value (.round false 1 1)
  framesPerSecond : Given Int := .value 30
  keys : List (Fin 16) := []
  seed : Option (Given Int) := none
  trace : Bool := false
  on : Given String := .value "#"
  off : Given String := .value "."

/-- A listing of a program: its path and the address to start at. -/
structure ListOptions where
  program : String := ""
  start : Int := programStart

inductive Command
  | run (o : RunOptions)
  | list (o : ListOptions)

/-- The settings of a command line, and the words of its command that nothing took. -/
structure Arguments where
  verbose : Bool := false
  quiet : Bool := false
  logFile : Option String := none
  command : Option Command := none
  leftover : List String := []

def firstWord (words : List String) : String :=
  words.headD ""

def switch {σ : Type} (names : List String) (set : σ → σ) : Flag σ :=
  ⟨names, .none, fun _ s => .settings (set s)⟩

def helpFlag {σ : Type} (usage : String) : Flag σ :=
  ⟨["-h", "--help"], .none, fun _ _ => .ending (.information ("usage: " ++ usage ++ "\n"))⟩

/-- Reads a word as a value of some kind, or complains that it is no such value. -/
def asKind {α : Type} (kind : String) (read : String → Option α) (word : String) :
    Except String α :=
  match read word with
  | some v => .ok v
  | none => .error ("invalid " ++ kind ++ " value: " ++ Text.quoted word)

def asSpeed (word : String) : Except String Speed :=
  (readSpeed word).mapError Error.message

/-- A flag of one word that is read as a value. -/
def valueFlag {σ α : Type} (name : String) (read : String → Except String α)
    (set : Given α → σ → σ) : Flag σ :=
  ⟨[name], .one, fun words s =>
    match words with
    | [] => .settings (set .nothing s)
    | word :: _ =>
      match read word with
      | .ok v => .settings (set (.value v) s)
      | .error complaint => .complaint complaint⟩

def textFlag {σ : Type} (name : String) (set : Given String → σ → σ) : Flag σ :=
  valueFlag name .ok set

/-- The settings with keys to hold down, in place of those given before. -/
def readKeys (words : List String) (o : RunOptions) : Outcome RunOptions :=
  match words.mapM readKey with
  | .ok keys => .settings { o with keys }
  | .error e => .complaint e.message

def runGrammar : Grammar RunOptions where
  program := "chip8vm run"
  flags := [
    helpFlag "chip8vm run [options] program",
    valueFlag "--speed" asSpeed fun v o => { o with speed := v },
    valueFlag "--seconds" (asKind "float" Numeral.readReal) fun v o => { o with seconds := v },
    valueFlag "--fps" (asKind "int" (Numeral.readInt .decimal)) fun v o =>
      { o with framesPerSecond := v },
    ⟨["--press"], .many, readKeys⟩,
    valueFlag "--seed" (asKind "int" (Numeral.readInt .decimal)) fun v o =>
      { o with seed := some v },
    switch ["--trace"] fun o => { o with trace := true },
    textFlag "--on" fun v o => { o with on := v },
    textFlag "--off" fun v o => { o with off := v }]
  slots := [⟨"program", .one, fun words o => .settings { o with program := firstWord words }⟩]

def listGrammar : Grammar ListOptions where
  program := "chip8vm disasm"
  flags := [helpFlag "chip8vm disasm program [start]"]
  slots := [
    ⟨"program", .one, fun words o => .settings { o with program := firstWord words }⟩,
    ⟨"start", .optional, fun words o =>
      match asKind "parse_int_arg" (fun word => (readAddress word).toOption) (firstWord words) with
      | .ok v => .settings { o with start := v }
      | .error complaint => .complaint complaint⟩]

def readCommand {σ : Type} (g : Grammar σ) (standard : σ) (make : σ → Command)
    (words : List String) (a : Arguments) : Outcome Arguments :=
  match g.read words standard with
  | .ok (o, leftover) => .settings { a with command := some (make o), leftover }
  | .error e => .ending e

def selectCommand (words : List String) (a : Arguments) : Outcome Arguments :=
  match words with
  | "run" :: rest => readCommand runGrammar {} .run rest a
  | "disasm" :: rest => readCommand listGrammar {} .list rest a
  | _ => .complaint ("invalid choice: " ++ Text.quoted (firstWord words)
      ++ " (choose from 'run', 'disasm')")

def grammar : Grammar Arguments where
  program := "chip8vm"
  flags := [
    helpFlag "chip8vm [options] run|disasm ...",
    ⟨["--version"], .none, fun _ _ => .ending (.information ("chip8vm " ++ version ++ "\n"))⟩,
    switch ["--verbose", "-v"] fun a => { a with verbose := true },
    switch ["--quiet", "-q"] fun a => { a with quiet := true },
    textFlag "--log-file" fun v a => { a with logFile := v.toOption }]
  slots := [⟨"command", .command, selectCommand⟩]

/-- Reads a command line. Words that nothing took are an error. -/
def readArguments (words : List String) : Except Ending Arguments := do
  let (a, leftover) ← grammar.read words {}
  match leftover ++ a.leftover with
  | [] => return a
  | unknown => .error (.usage grammar.program
      ("unrecognized arguments: " ++ " ".intercalate unknown))

namespace Arguments

def program (a : Arguments) : String :=
  match a.command with
  | some (.run o) => o.program
  | some (.list o) => o.program
  | none => ""

def traces (a : Arguments) : Bool :=
  match a.command with
  | some (.run o) => o.trace
  | _ => false

/-- Where log records go: to the console errors alone if quiet, everything if verbose or tracing,
else warnings and errors; and to the log file if it has a name. -/
def logSetup (a : Arguments) : LogSetup where
  console := if a.quiet then .error else if a.verbose || a.traces then .debug else .warning
  file := a.logFile.filter (· ≠ "")

end Arguments

end Chip8.CommandLine
