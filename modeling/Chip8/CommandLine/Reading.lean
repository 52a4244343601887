import Chip8.CommandLine.Grammar

namespace Chip8.CommandLine

/-- The number of words that a slot takes from the front, dividers around its arguments included. -/
def SlotArity.take? {σ : Type} (arity : SlotArity) (kinds : List (Kind σ)) : Option Nat :=
  let before := (kinds.takeWhile Kind.isDivider).length
  let rest := kinds.drop before
  let starts := (rest.head?.map Kind.isArgument).getD false
  let after := ((rest.drop 1).takeWhile Kind.isDivider).length
  match arity with
  | .one => if starts then some (before + 1 + after) else none
  | .optional => if starts then some (before + 1 + after) else some before
  | .command => if starts then some kinds.length else none

/-- The numbers of words that slots take from the front one after the other, for as many slots as
can. -/
def takeSlots {σ : Type} : List SlotArity → List (Kind σ) → List Nat
  | [], _ => []
  | arity :: more, kinds =>
    match arity.take? kinds with
    | none => []
    | some n => n :: takeSlots more (kinds.drop n)

/-- Reading in progress: the words left, the slots left, the settings so far, and the words that
nothing took. -/
structure Reading (σ : Type) where
  words : List (String × Kind σ)
  slots : List (Slot σ)
  settings : σ
  leftover : List String := []

namespace Grammar

variable {σ : Type}

/-- The settings of an outcome, or the end of reading. A complaint is about the named argument. -/
def resolve (g : Grammar σ) (name : String) : Outcome σ → Except Ending σ
  | .settings s => .ok s
  | .complaint message => .error (.usage g.program (aboutArgument name message))
  | .ending e => .error e

/-- Gives words to a slot. The first divider among them is dropped, except before a command; an
optional slot without words is passed over. -/
def fillSlot (g : Grammar σ) (slot : Slot σ) (words : List String) (s : σ) : Except Ending σ :=
  let words := if slot.arity = .command then words else words.erase "--"
  if slot.arity = .optional && words.isEmpty then .ok s
  else g.resolve slot.name (slot.action words s)

/-- Gives words from the front to slots, in the numbers given. -/
def fillSlots (g : Grammar σ) (r : Reading σ) : List Nat → Except Ending (Reading σ)
  | [] => .ok r
  | n :: more =>
    match r.slots with
    | [] => .ok r
    | slot :: slots => do
      let settings ← g.fillSlot slot ((r.words.take n).map Prod.fst) r.settings
      g.fillSlots { r with words := r.words.drop n, slots, settings } more

def takePositional (g : Grammar σ) (r : Reading σ) : Except Ending (Reading σ) :=
  g.fillSlots r (takeSlots (r.slots.map Slot.arity) (r.words.map Prod.snd))

/-- The words that a flag takes from those after it. -/
def wordsFor (g : Grammar σ) (f : Flag σ) (rest : List (String × Kind σ)) :
    Except Ending (List String) :=
  match f.arity with
  | .none => .ok []
  | .one =>
    match rest with
    | (word, .argument) :: _ => .ok [word]
    | _ => .error (.usage g.program (aboutArgument f.title "expected one argument"))
  | .many => .ok ((rest.takeWhile fun w => w.2.isArgument).map Prod.fst)

def ignoredValue (g : Grammar σ) (f : Flag σ) (value : String) : Ending :=
  .usage g.program (aboutArgument f.title ("ignored explicit argument " ++ Text.quoted value))

/-- What one word of flags amounts to: the flags with their words, and the number of words taken
from those after it. -/
structure Expansion (σ : Type) where
  flags : List (Flag σ × List String)
  taken : Nat := 0

def expandPlain (g : Grammar σ) (rest : List (String × Kind σ)) (f : Flag σ) :
    Except Ending (Expansion σ) := do
  let words ← g.wordsFor f rest
  return { flags := [(f, words)], taken := words.length }

/-- The flags that letters stand for in one word after a flag `f`. What follows the letter of a flag
that takes words is its word; a letter that is no flag is taken for a value of the flag before
it. -/
def expandLetters (g : Grammar σ) (rest : List (String × Kind σ)) (f : Flag σ) :
    List Char → Except Ending (Expansion σ)
  | [] => g.expandPlain rest f
  | c :: more =>
    if f.arity ≠ .none then .ok { flags := [(f, [String.ofList (c :: more)])] }
    else
      match g.flag? (String.ofList ['-', c]) with
      | none => .error (g.ignoredValue f (String.ofList (c :: more)))
      | some next => do
        let x ← g.expandLetters rest next more
        return { x with flags := (f, []) :: x.flags }

/-- The flags in a word and the words they take. A value after a flag that takes none is read as
letters if one hyphen stands before the flag. -/
def expand (g : Grammar σ) (rest : List (String × Kind σ)) (f : Flag σ) (spelling : String) :
    Option String → Except Ending (Expansion σ)
  | none => g.expandPlain rest f
  | some value =>
    if f.arity ≠ .none then .ok { flags := [(f, [value])] }
    else if "--".isPrefixOf spelling || value = "" then .error (g.ignoredValue f value)
    else g.expandLetters rest f value.toList

/-- Does what flags mean, one after the other. A divider among their words is dropped. -/
def applyFlags (g : Grammar σ) (s : σ) : List (Flag σ × List String) → Except Ending σ
  | [] => .ok s
  | (f, words) :: more => do
    let s ← g.resolve f.title (f.action (words.erase "--") s)
    g.applyFlags s more

/-- Takes a flag from the front with the words that belong to it. -/
def takeFlag (g : Grammar σ) (word : String) (m : FlagMatch σ) (rest : List (String × Kind σ))
    (r : Reading σ) : Except Ending (Reading σ) :=
  match m.flag with
  | none => .ok { r with words := rest, leftover := r.leftover ++ [word] }
  | some f => do
    let x ← g.expand rest f m.spelling m.value
    let settings ← g.applyFlags r.settings x.flags
    return { r with words := rest.drop x.taken, settings }

/-- Takes words until no flag is left among them: what slots can take before the next flag, else the
flag itself. Each round takes a word, so their number bounds the rounds. -/
def takeWords (g : Grammar σ) (r : Reading σ) : Nat → Except Ending (Reading σ)
  | 0 => .ok r
  | fuel + 1 =>
    let before := r.words.takeWhile fun w => !w.2.isFlag
    match r.words.drop before.length with
    | (word, .flag m) :: rest => do
      if before.isEmpty then
        g.takeWords (← g.takeFlag word m rest r) fuel
      else
        let filled ← g.takePositional r
        if filled.words.length < r.words.length then g.takeWords filled fuel
        else
          let skipped := { filled with leftover := filled.leftover ++ before.map Prod.fst }
          g.takeWords (← g.takeFlag word m rest skipped) fuel
    | _ => .ok r

/-- Reads a command line: the settings, and the words that nothing took. -/
def read (g : Grammar σ) (words : List String) (settings : σ) :
    Except Ending (σ × List String) := do
  let words ← g.sortWords words
  let r ← g.takeWords { words, slots := g.slots, settings } (words.length + 1)
  let r ← g.takePositional r
  match (r.slots.filter fun slot => slot.arity ≠ .optional).map Slot.name with
  | [] => return (r.settings, r.leftover ++ r.words.map Prod.fst)
  | missing => .error (.usage g.program
      ("the following arguments are required: " ++ ", ".intercalate missing))

end Grammar

end Chip8.CommandLine
