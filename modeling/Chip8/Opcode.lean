import Chip8.Hex

/-!
Instruction words. A word is sixteen bits: the top nibble names a family, the others hold
parameters. `Opcode` lists the 34 instructions, `Opcode.entry` is their table, and `Opcode.lookup`
finds the instruction of a word by masking off parameter nibbles, fewest first.
-/

namespace Chip8

inductive Field
  | x
  | y
  | n
  | nn
  | nnn
  deriving DecidableEq, Repr

/-- The value of a parameter in a word. Only the low sixteen bits of the word matter. -/
def Field.value (word : Int) : Field → Nat
  | .x => (word / 256 % 16).toNat
  | .y => (word / 16 % 16).toNat
  | .n => (word % 16).toNat
  | .nn => (word % 256).toNat
  | .nnn => (word % 4096).toNat

def regX (word : Int) : Fin 16 :=
  ⟨Field.x.value word, by simp only [Field.value]; omega⟩

def regY (word : Int) : Fin 16 :=
  ⟨Field.y.value word, by simp only [Field.value]; omega⟩

def lowNibble (word : Int) : Nat :=
  Field.n.value word

def lowByte (word : Int) : UInt8 :=
  UInt8.ofNat (Field.nn.value word)

def address (word : Int) : Nat :=
  Field.nnn.value word

/-- Which nibbles of a pattern are parameters. -/
inductive Layout
  | fixed
  | nnn
  | xnn
  | xy
  | xyn
  | x
  deriving DecidableEq, Repr

/-- The parameters that a layout names, in the order of its nibbles. -/
def Layout.fields : Layout → List Field
  | .fixed => []
  | .nnn => [.nnn]
  | .xnn => [.x, .nn]
  | .xy => [.x, .y]
  | .xyn => [.x, .y, .n]
  | .x => [.x]

/-- The bits of a word that a layout does not use for parameters. -/
def Layout.literalMask : Layout → Nat
  | .fixed => 0xFFFF
  | .nnn => 0xF000
  | .xnn => 0xF000
  | .xy => 0xF00F
  | .xyn => 0xF000
  | .x => 0xF0FF

inductive Operand
  | vx
  | vy
  | v0
  | index
  | indirect
  | delay
  | sound
  | key
  | glyph
  | decimal
  | nibble
  | byte
  | address
  deriving DecidableEq, Repr

def Operand.text (word : Int) : Operand → String
  | .vx => "V" ++ Hex.text (Field.x.value word)
  | .vy => "V" ++ Hex.text (Field.y.value word)
  | .v0 => "V0"
  | .index => "I"
  | .indirect => "[I]"
  | .delay => "DT"
  | .sound => "ST"
  | .key => "K"
  | .glyph => "F"
  | .decimal => "B"
  | .nibble => Hex.text (Field.n.value word)
  | .byte => Hex.padded 2 (Field.nn.value word)
  | .address => Hex.padded 4 (Field.nnn.value word)

inductive Opcode
  | clear
  | ret
  | jump
  | call
  | skipIfByte
  | skipUnlessByte
  | skipIfSame
  | setByte
  | addByte
  | copy
  | or
  | and
  | xor
  | add
  | subtract
  | shiftRight
  | subtractFrom
  | shiftLeft
  | skipUnlessSame
  | setIndex
  | jumpOffset
  | random
  | draw
  | skipIfKey
  | skipUnlessKey
  | readDelay
  | waitKey
  | setDelay
  | setSound
  | addIndex
  | glyph
  | decimal
  | store
  | load
  deriving DecidableEq, Repr

/-- What the table holds of an instruction: its word with all parameter nibbles zero, the layout of
its parameters, its mnemonic and its operands. -/
structure Entry where
  key : Nat
  layout : Layout
  mnemonic : String
  operands : List Operand

namespace Opcode

def all : List Opcode :=
  [.clear, .ret, .jump, .call, .skipIfByte, .skipUnlessByte, .skipIfSame, .setByte, .addByte,
    .copy, .or, .and, .xor, .add, .subtract, .shiftRight, .subtractFrom, .shiftLeft,
    .skipUnlessSame, .setIndex, .jumpOffset, .random, .draw, .skipIfKey, .skipUnlessKey,
    .readDelay, .waitKey, .setDelay, .setSound, .addIndex, .glyph, .decimal, .store, .load]

def entry : Opcode → Entry
  | .clear => ⟨0x00E0, .fixed, "CLS", []⟩
  | .ret => ⟨0x00EE, .fixed, "RET", []⟩
  | .jump => ⟨0x1000, .nnn, "JP", [.address]⟩
  | .call => ⟨0x2000, .nnn, "CALL", [.address]⟩
  | .skipIfByte => ⟨0x3000, .xnn, "SE", [.vx, .byte]⟩
  | .skipUnlessByte => ⟨0x4000, .xnn, "SNE", [.vx, .byte]⟩
  | .skipIfSame => ⟨0x5000, .xy, "SE", [.vx, .vy]⟩
  | .setByte => ⟨0x6000, .xnn, "LD", [.vx, .byte]⟩
  | .addByte => ⟨0x7000, .xnn, "ADD", [.vx, .byte]⟩
  | .copy => ⟨0x8000, .xy, "LD", [.vx, .vy]⟩
  | .or => ⟨0x8001, .xy, "OR", [.vx, .vy]⟩
  | .and => ⟨0x8002, .xy, "AND", [.vx, .vy]⟩
  | .xor => ⟨0x8003, .xy, "XOR", [.vx, .vy]⟩
  | .add => ⟨0x8004, .xy, "ADD", [.vx, .vy]⟩
  | .subtract => ⟨0x8005, .xy, "SUB", [.vx, .vy]⟩
  | .shiftRight => ⟨0x8006, .xy, "SHR", [.vx, .vy]⟩
  | .subtractFrom => ⟨0x8007, .xy, "SUBN", [.vx, .vy]⟩
  | .shiftLeft => ⟨0x800E, .xy, "SHL", [.vx, .vy]⟩
  | .skipUnlessSame => ⟨0x9000, .xy, "SNE", [.vx, .vy]⟩
  | .setIndex => ⟨0xA000, .nnn, "LD", [.index, .address]⟩
  | .jumpOffset => ⟨0xB000, .nnn, "JP", [.v0, .address]⟩
  | .random => ⟨0xC000, .xnn, "RND", [.vx, .byte]⟩
  | .draw => ⟨0xD000, .xyn, "DRW", [.vx, .vy, .nibble]⟩
  | .skipIfKey => ⟨0xE09E, .x, "SKP", [.vx]⟩
  | .skipUnlessKey => ⟨0xE0A1, .x, "SKNP", [.vx]⟩
  | .readDelay => ⟨0xF007, .x, "LD", [.vx, .delay]⟩
  | .waitKey => ⟨0xF00A, .x, "LD", [.vx, .key]⟩
  | .setDelay => ⟨0xF015, .x, "LD", [.delay, .vx]⟩
  | .setSound => ⟨0xF018, .x, "LD", [.sound, .vx]⟩
  | .addIndex => ⟨0xF01E, .x, "ADD", [.index, .vx]⟩
  | .glyph => ⟨0xF029, .x, "LD", [.glyph, .vx]⟩
  | .decimal => ⟨0xF033, .x, "LD", [.decimal, .vx]⟩
  | .store => ⟨0xF055, .x, "LD", [.indirect, .vx]⟩
  | .load => ⟨0xF065, .x, "LD", [.vx, .indirect]⟩

/-- The word of an instruction with all its parameters zero. -/
def key (op : Opcode) : Nat :=
  op.entry.key

def layout (op : Opcode) : Layout :=
  op.entry.layout

def mnemonic (op : Opcode) : String :=
  op.entry.mnemonic

/-- A word spells an instruction if it equals the key in every bit outside the parameters. -/
def Spells (op : Opcode) (word : Int) : Prop :=
  (word % 65536).toNat &&& op.layout.literalMask = op.key

instance (op : Opcode) (word : Int) : Decidable (op.Spells word) :=
  inferInstanceAs (Decidable (_ = _))

/-- The pattern of an instruction: its key in four digits, with letters for the parameters. -/
def pattern (op : Opcode) : String :=
  let digit := fun shift => Hex.digit (op.key >>> (4 * shift) % 16)
  String.ofList (match op.layout with
    | .fixed => [digit 3, digit 2, digit 1, digit 0]
    | .nnn => [digit 3, 'N', 'N', 'N']
    | .xnn => [digit 3, 'X', 'N', 'N']
    | .xy => [digit 3, 'X', 'Y', digit 0]
    | .xyn => [digit 3, 'X', 'Y', 'N']
    | .x => [digit 3, 'X', digit 1, digit 0])

def ofKey? (k : Nat) : Option Opcode :=
  all.find? fun op => op.key == k

def masks : List Nat :=
  [0xF0FF, 0xF00F, 0xF000]

/-- The instruction of a word: the first mask whose result is a key of the table decides. -/
def lookup (word : Int) : Option Opcode :=
  let bits := (word % 65536).toNat
  masks.findSome? fun mask => ofKey? (bits &&& mask)

def operandText (op : Opcode) (word : Int) : String :=
  ", ".intercalate (op.entry.operands.map (Operand.text word))

/-- The text of an instruction: its mnemonic, and its operands after a blank if it has any. -/
def text (op : Opcode) (word : Int) : String :=
  match op.entry.operands with
  | [] => op.mnemonic
  | _ => op.mnemonic ++ " " ++ op.operandText word

end Opcode

end Chip8
