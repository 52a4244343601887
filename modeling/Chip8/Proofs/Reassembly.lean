import Chip8.Proofs.InstructionText

namespace Chip8.Proofs.Reassembly

open Chip8.Disassembly
open Chip8.Proofs.Decoding
open Chip8.Proofs.InstructionText

/-- The digits of a word that a field consists of. -/
def positions : Field → List Nat
  | .x => [2]
  | .y => [1]
  | .n => [0]
  | .nn => [1, 0]
  | .nnn => [2, 1, 0]

theorem value_eq_digits (f : Field) (word : Int) :
    f.value word = (positions f).foldl (fun n k => 16 * n + digit (bits word) k) 0 := by
  cases f <;>
    simp only [positions, List.foldl_cons, List.foldl_nil, Field.value, digit, bits,
      Nat.shiftRight_eq_div_pow] <;>
    omega

theorem value_eq_of_digits {f : Field} {word word' : Int}
    (h : ∀ k ∈ positions f, digit (bits word) k = digit (bits word') k) :
    f.value word = f.value word' := by
  rw [value_eq_digits, value_eq_digits]
  apply List.foldl_ext
  intro n k hk
  rw [h k hk]

theorem positions_free {l : Layout} {f : Field} (h : f ∈ l.fields) {k : Nat}
    (hk : k ∈ positions f) : k < 4 ∧ digit l.literalMask k = 0 := by
  have hall : ∀ f ∈ l.fields, ∀ k ∈ positions f, k < 4 ∧ digit l.literalMask k = 0 := by
    cases l <;> decide
  exact hall f h k hk

theorem digit_key_of_free {op : Opcode} {k : Nat} (h : digit op.layout.literalMask k = 0) :
    digit op.key k = 0 := by
  rw [← key_and_literalMask, digit_and, h, Nat.and_zero]

/-- A digit of a spelling: that of the word where its instruction has a field, and that of the key
elsewhere. -/
def spelt (op : Opcode) (word : Int) (k : Nat) : Nat :=
  if digit op.layout.literalMask k = 0 then digit (bits word) k else digit op.key k

theorem spelt_lt (op : Opcode) (word : Int) (k : Nat) : spelt op word k < 16 := by
  rw [spelt]
  split
  · exact digit_lt _ _
  · exact digit_lt _ _

theorem eq_digits {n : Nat} (h : n < 65536) :
    n = 4096 * digit n 3 + 256 * digit n 2 + 16 * digit n 1 + digit n 0 := by
  simp only [digit, Nat.shiftRight_eq_div_pow]
  omega

theorem spelling_eq (op : Opcode) (word : Int) :
    spelling op word =
      4096 * spelt op word 3 + 256 * spelt op word 2 + 16 * spelt op word 1 + spelt op word 0 := by
  have hkey := eq_digits (key_lt op)
  have hfree : ∀ k, digit op.layout.literalMask k = 0 → digit op.key k = 0 :=
    fun k => digit_key_of_free
  have h₀ := hfree 0
  have h₁ := hfree 1
  have h₂ := hfree 2
  have h₃ := hfree 3
  simp only [spelling, spelt, value_eq_digits]
  generalize op.layout = layout, digit (bits word) = d, digit op.key = c at h₀ h₁ h₂ h₃ hkey
  cases layout <;>
    simp [Layout.fields, positions, weight, Layout.literalMask, digit] at h₀ h₁ h₂ h₃ ⊢ <;>
    omega

theorem digit_spelling (op : Opcode) (word : Int) {k : Nat} (hk : k < 4) :
    digit (spelling op word) k = spelt op word k := by
  have h₀ := spelt_lt op word 0
  have h₁ := spelt_lt op word 1
  have h₂ := spelt_lt op word 2
  have h₃ := spelt_lt op word 3
  rw [spelling_eq, digit, Nat.shiftRight_eq_div_pow]
  rcases (by omega : k = 0 ∨ k = 1 ∨ k = 2 ∨ k = 3) with rfl | rfl | rfl | rfl <;> omega

theorem spelling_lt (op : Opcode) (word : Int) : spelling op word < 65536 := by
  have h₀ := spelt_lt op word 0
  have h₁ := spelt_lt op word 1
  have h₂ := spelt_lt op word 2
  have h₃ := spelt_lt op word 3
  rw [spelling_eq]
  omega

theorem bits_natCast {n : Nat} (h : n < 65536) : bits n = n := by
  simp only [bits]
  omega

theorem free_or_literal (op : Opcode) {k : Nat} (hk : k < 4) :
    digit op.layout.literalMask k = 0 ∨ digit op.layout.literalMask k = 15 := by
  have hall : ∀ l : Layout, ∀ k < 4, digit l.literalMask k = 0 ∨ digit l.literalMask k = 15 := by
    intro l
    cases l <;> decide
  exact hall op.layout k hk

theorem digit_spelling_and_mask (op : Opcode) (word : Int) {k : Nat} (hk : k < 4) :
    digit (spelling op word) k &&& digit op.layout.literalMask k = digit op.key k := by
  rw [digit_spelling op word hk, spelt]
  rcases free_or_literal op hk with hfree | hliteral
  · rw [hfree, Nat.and_zero, digit_key_of_free hfree]
  · rw [hliteral, if_neg (by decide), and_fifteen (digit_lt _ _)]

theorem spells_spelling (op : Opcode) (word : Int) : op.Spells (spelling op word) := by
  rw [spells_iff_digits, bits_natCast (spelling_lt op word)]
  exact ⟨digit_spelling_and_mask op word (by decide), digit_spelling_and_mask op word (by decide),
    digit_spelling_and_mask op word (by decide), digit_spelling_and_mask op word (by decide)⟩

theorem value_spelling {op : Opcode} {f : Field} (h : f ∈ op.layout.fields) (word : Int) :
    f.value (spelling op word) = f.value word := by
  apply value_eq_of_digits
  intro k hk
  obtain ⟨hlt, hfree⟩ := positions_free h hk
  rw [bits_natCast (spelling_lt op word), digit_spelling op word hlt, spelt, if_pos hfree]

/-- The letters that stand for a field in a pattern. -/
def letters : Field → List Char
  | .x => ['X']
  | .y => ['Y']
  | .n => ['N']
  | .nn => ['N', 'N']
  | .nnn => ['N', 'N', 'N']

/-- Whether the pattern of an instruction names a field: the letters of the field are all the equal
letters that follow each other somewhere in it. -/
def Names (op : Opcode) (f : Field) : Prop :=
  letters f ∈ op.pattern.toList.splitBy (· == ·)

theorem names_iff {op : Opcode} {f : Field} : Names op f ↔ f ∈ op.layout.fields := by
  have hall : ∀ op ∈ Opcode.all, ∀ f ∈ [Field.x, .y, .n, .nn, .nnn],
      letters f ∈ op.pattern.toList.splitBy (· == ·) ↔ f ∈ op.layout.fields := by decide
  exact hall op (mem_all op) f (by cases f <;> decide)

/-- A digit that an instruction ignores: it is no parameter, and a mask that does not keep it finds
the instruction. -/
def Ignores (op : Opcode) (k : Nat) : Prop :=
  digit op.layout.literalMask k = 15 ∧
    ∃ mask ∈ Opcode.masks, op.key &&& mask = op.key ∧ digit mask k = 0

theorem digit_mask {mask : Nat} (h : mask ∈ Opcode.masks) {k : Nat} (hk : k < 4) :
    digit mask k = 0 ∨ digit mask k = 15 := by
  have hall : ∀ mask ∈ Opcode.masks, ∀ k < 4, digit mask k = 0 ∨ digit mask k = 15 := by decide
  exact hall mask h k hk

theorem digit_spelling_of_lookup {op : Opcode} {word : Int} (h : Opcode.lookup word = some op)
    {k : Nat} (hk : k < 4) : digit (spelling op word) k = digit (bits word) k ∨ Ignores op k := by
  obtain ⟨mask, hmask, hfound⟩ := List.exists_of_findSome?_eq_some h
  have hkey : bits word &&& mask = op.key := (key_of_ofKey? hfound).symm
  rw [digit_spelling op word hk, spelt]
  rcases free_or_literal op hk with hfree | hliteral
  · exact .inl (if_pos hfree)
  rw [hliteral, if_neg (by decide)]
  rcases digit_mask hmask hk with hdropped | hkept
  · exact .inr ⟨hliteral, mask, hmask, by rw [← hkey, Nat.and_assoc, Nat.and_self], hdropped⟩
  · left
    rw [← hkey, digit_and, hkept, and_fifteen (digit_lt _ _)]

theorem spelling_of_spells {op : Opcode} {word : Int} (h : op.Spells word) :
    spelling op word = bits word := by
  have hdigit : ∀ k < 4, digit (bits word) k &&& digit op.layout.literalMask k = digit op.key k →
      digit (spelling op word) k = digit (bits word) k := by
    intro k hk hand
    rw [digit_spelling op word hk, spelt]
    rcases free_or_literal op hk with hfree | hliteral
    · exact if_pos hfree
    · rw [hliteral, and_fifteen (digit_lt _ _)] at hand
      rw [hliteral, if_neg (by decide), hand]
  obtain ⟨h₃, h₂, h₁, h₀⟩ := (spells_iff_digits op word).mp h
  rw [eq_iff_digits (spelling_lt op word) (bits_lt word)]
  exact ⟨hdigit 3 (by decide) h₃, hdigit 2 (by decide) h₂, hdigit 1 (by decide) h₁,
    hdigit 0 (by decide) h₀⟩

/-- What is recovered from the text of an instruction: a word of the same instruction with the same
fields, whose other digits are those of the given word too unless the instruction ignores them. -/
structure Recovers (op : Opcode) (word : Int) (n : Nat) : Prop where
  text : assemble (op.text word) = some n
  column : ∀ width, assemble (Text.padRight width (op.text word)) = some n
  line : ∀ address w : Nat, (w : Int) = word → assemble (lineOf address w).text = some n
  leads : n < 65536 ∧ Opcode.lookup n = some op
  fields : ∀ f, Names op f → f.value n = f.value word
  digits : ∀ k < 4, digit n k = digit (bits word) k ∨ Ignores op k
  whole : op.Spells word → n = bits word

theorem recovers_spelling {op : Opcode} {word : Int} (h : Opcode.lookup word = some op) :
    Recovers op word (spelling op word) where
  text := assemble_of_pieces (pieces_text op word)
  column := fun width => assemble_of_pieces (pieces_padRight op word width)
  line := by
    rintro address w rfl
    have htext : (lineOf address w).text = op.text w := by
      simp only [lineOf, Line.text, h]
    rw [htext]
    exact assemble_of_pieces (pieces_text op w)
  leads := ⟨spelling_lt op word, lookup_of_spells (spells_spelling op word)⟩
  fields := fun f hf => value_spelling (names_iff.mp hf) word
  digits := fun k hk => digit_spelling_of_lookup h hk
  whole := spelling_of_spells

theorem text_congr {op : Opcode} {word word' : Int}
    (h : ∀ f ∈ op.layout.fields, f.value word = f.value word') :
    op.text word = op.text word' := by
  have hoperands : op.entry.operands.map (Operand.text word) =
      op.entry.operands.map (Operand.text word') := by
    apply List.map_congr_left
    intro o ho
    rw [← String.toList_inj, toList_text, toList_text]
    cases hshown : shown o with
    | none => rfl
    | some f =>
        have hfield : f ∈ op.layout.fields := by
          rw [← shown_operands]
          exact List.mem_filterMap.mpr ⟨o, ho, hshown⟩
        simp only [h f hfield]
  simp only [Opcode.text, Opcode.operandText, hoperands]

/-- Two words have the same text exactly if they lead to the same instruction and agree in all its
fields, and each of them is recovered from its text up to the digits that are ignored. -/
theorem text_unambiguous {op op' : Opcode} {word word' : Int} (h : Opcode.lookup word = some op)
    (h' : Opcode.lookup word' = some op') :
    (op.text word = op'.text word' ↔ op = op' ∧ ∀ f, Names op f → f.value word = f.value word') ∧
      ∃ n, Recovers op word n := by
  have hword := recovers_spelling h
  have hword' := recovers_spelling h'
  refine ⟨⟨?_, ?_⟩, spelling op word, hword⟩
  · intro htext
    have hsame : spelling op word = spelling op' word' := by
      apply Option.some.inj
      rw [← hword.text, ← hword'.text, htext]
    have hop : op = op' := by
      apply Option.some.inj
      rw [← hword.leads.2, ← hword'.leads.2, hsame]
    subst hop
    refine ⟨rfl, fun f hf => ?_⟩
    rw [← hword.fields f hf, ← hword'.fields f hf, hsame]
  · rintro ⟨rfl, hfields⟩
    exact text_congr fun f hf => hfields f (names_iff.mpr hf)

theorem text_ignored_digit :
    (Opcode.lookup (-1481) = some .readDelay ∧ Opcode.lookup 0xFA07 = some .readDelay) ∧
      bits (-1481) = 0xFA37 ∧ Opcode.text .readDelay (-1481) = Opcode.text .readDelay 0xFA07 ∧
      assemble "LD VA, DT" = some 0xFA07 ∧ ∃ n, Recovers .readDelay (-1481) n := by
  have hword : Opcode.lookup (-1481) = some .readDelay := by decide
  have hword' : Opcode.lookup 0xFA07 = some .readDelay := by decide
  obtain ⟨htext, hrecovers⟩ := text_unambiguous hword hword'
  have hfields : ∀ f, Names .readDelay f → f.value (-1481) = f.value 0xFA07 := by
    intro f hf
    have hx : f = .x := List.mem_singleton.mp (names_iff.mp hf)
    rw [hx]
    rfl
  exact ⟨⟨hword, hword'⟩, by decide, htext.mpr ⟨rfl, hfields⟩, by decide +kernel, hrecovers⟩

end Chip8.Proofs.Reassembly
