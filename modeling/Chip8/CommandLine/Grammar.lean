import Chip8.Text.DecimalDigit
import Chip8.Text.Quoted

/-!
Command line grammars, and the sorting of words by them. A grammar has flags, which may stand
anywhere, and slots, which take the remaining words in order. A word is a flag, an argument, or the
divider `--`, after which everything is an argument.
-/

namespace Chip8.CommandLine

inductive Ending
  /-- A wrong command line: the program or subprogram that complains, and its complaint. -/
  | usage (program message : String)
  /-- A request for information, which is printed. -/
  | information (text : String)
  deriving DecidableEq, Repr

inductive FlagArity
  | none
  | one
  | many
  deriving DecidableEq, Repr

/-- How many words a slot takes: one, one or none, or a command with everything after it. -/
inductive SlotArity
  | one
  | optional
  | command
  deriving DecidableEq, Repr

/-- What is to be done with the words of a flag or slot: new settings, a complaint, or an ending. -/
inductive Outcome (σ : Type)
  | settings (s : σ)
  | complaint (message : String)
  | ending (e : Ending)

/-- A flag: its spellings, the words it takes, and what they mean. -/
structure Flag (σ : Type) where
  names : List String
  arity : FlagArity
  action : List String → σ → Outcome σ

/-- A slot: its name, the words it takes, and what they mean. -/
structure Slot (σ : Type) where
  name : String
  arity : SlotArity
  action : List String → σ → Outcome σ

structure Grammar (σ : Type) where
  program : String
  flags : List (Flag σ)
  slots : List (Slot σ)

/-- A flag found in a word: the flag if there is one, its spelling, and a value in the same word. -/
structure FlagMatch (σ : Type) where
  flag : Option (Flag σ)
  spelling : String
  value : Option String

inductive Kind (σ : Type)
  | argument
  | divider
  | flag (m : FlagMatch σ)

namespace Kind

variable {σ : Type}

def isArgument : Kind σ → Bool
  | .argument => true
  | _ => false

def isDivider : Kind σ → Bool
  | .divider => true
  | _ => false

def isFlag : Kind σ → Bool
  | .flag _ => true
  | _ => false

end Kind

def Flag.title {σ : Type} (f : Flag σ) : String :=
  "/".intercalate f.names

def aboutArgument (name message : String) : String :=
  "argument " ++ name ++ ": " ++ message

/-- Whether a word reads as a negative number: a minus sign and digits, with at most one point that
has a digit after it. One line end may follow. -/
def isNegativeNumber (cs : List Char) : Bool :=
  let isDigit := fun c => (Text.decimalValue? c).isSome
  let cs := if cs.getLast? = some '\n' then cs.dropLast else cs
  match cs with
  | '-' :: rest =>
    match rest.dropWhile isDigit with
    | [] => !rest.isEmpty
    | '.' :: fraction => !fraction.isEmpty && fraction.all isDigit
    | _ => false
  | _ => false

def cutAtEquals (s : String) : String × Option String :=
  let cs := s.toList
  match cs.dropWhile (· ≠ '=') with
  | [] => (s, none)
  | _ :: value => (String.ofList (cs.takeWhile (· ≠ '=')), some (String.ofList value))

namespace Grammar

variable {σ : Type}

def spellings (g : Grammar σ) : List (String × Flag σ) :=
  g.flags.flatMap fun f => f.names.map fun name => (name, f)

def flag? (g : Grammar σ) (spelling : String) : Option (Flag σ) :=
  (g.spellings.find? fun p => p.1 == spelling).map Prod.snd

/-- The flags that an abbreviated word may stand for. After two hyphens a word abbreviates any
spelling it begins; after one hyphen its first letter may also be a flag with the rest as value. -/
def abbreviated (g : Grammar σ) (word : String) : List (FlagMatch σ) :=
  match word.toList with
  | '-' :: '-' :: _ =>
    let (start, value) := cutAtEquals word
    (g.spellings.filter fun p => start.isPrefixOf p.1).map fun p => ⟨some p.2, p.1, value⟩
  | cs =>
    let letter := String.ofList (cs.take 2)
    g.spellings.filterMap fun p =>
      if p.1 = letter then some ⟨some p.2, p.1, some (String.ofList (cs.drop 2))⟩
      else if word.isPrefixOf p.1 then some ⟨some p.2, p.1, none⟩
      else none

/-- What a word before the divider is, or a complaint that it is ambiguous. -/
def sortWord (g : Grammar σ) (word : String) : Except Ending (Kind σ) :=
  if !"-".isPrefixOf word || word == "-" then .ok .argument
  else
    match g.flag? word with
    | some f => .ok (.flag ⟨some f, word, none⟩)
    | none =>
      let (start, value) := cutAtEquals word
      match value, g.flag? start with
      | some v, some f => .ok (.flag ⟨some f, start, some v⟩)
      | _, _ =>
        match g.abbreviated word with
        | [m] => .ok (.flag m)
        | [] =>
          if isNegativeNumber word.toList || word.toList.contains ' ' then .ok .argument
          else .ok (.flag ⟨none, word, none⟩)
        | several => .error (.usage g.program ("ambiguous option: " ++ word ++ " could match "
            ++ ", ".intercalate (several.map FlagMatch.spelling)))

def sortWords (g : Grammar σ) : List String → Except Ending (List (String × Kind σ))
  | [] => .ok []
  | word :: rest =>
    if word = "--" then .ok ((word, .divider) :: rest.map fun w => (w, .argument))
    else do
      let kind ← g.sortWord word
      return (word, kind) :: (← g.sortWords rest)

end Grammar

end Chip8.CommandLine
