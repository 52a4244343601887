import Chip8.Disassembly
import Chip8.Proofs.Decoding
import Chip8.Proofs.HexNumerals
import Chip8.Text.Blank
import Mathlib.Data.List.Forall2

namespace Chip8.Proofs.InstructionText

open Chip8.Disassembly
open Chip8.Proofs.Decoding
open Chip8.Proofs.HexNumerals

/-- The field that an operand shows, if it shows one. -/
def shown : Operand → Option Field
  | .vx => some .x
  | .vy => some .y
  | .nibble => some .n
  | .byte => some .nn
  | .address => some .nnn
  | _ => none

/-- What stands before the field of an operand, or all of its text if it shows no field. -/
def stem : Operand → List Char
  | .vx | .vy => ['V']
  | .v0 => ['V', '0']
  | .index => ['I']
  | .indirect => ['[', 'I', ']']
  | .delay => ['D', 'T']
  | .sound => ['S', 'T']
  | .key => ['K']
  | .glyph => ['F']
  | .decimal => ['B']
  | .nibble | .byte | .address => []

/-- The digits that are shown of a field at least. -/
def width : Field → Nat
  | .x | .y | .n => 0
  | .nn => 2
  | .nnn => 4

/-- What one more in a field adds to a word. -/
def weight : Field → Nat
  | .x => 256
  | .y => 16
  | .n | .nn | .nnn => 1

/-- The values of a field are below it. -/
def limit : Field → Nat
  | .x | .y | .n => 16
  | .nn => 256
  | .nnn => 4096

/-- The number whose digits stand after a stem. -/
def numberAfter (front cs : List Char) : Option Nat :=
  if front.isPrefixOf cs then Numeral.digits? 16 (cs.drop front.length) else none

/-- Reads the text of an operand: what its field adds to the word, if it shows one. -/
def readOperand (o : Operand) (cs : List Char) : Option Nat :=
  match shown o with
  | none => if cs = stem o then some 0 else none
  | some f => ((numberAfter (stem o) cs).filter (· < limit f)).map (weight f * ·)

def readOperands : List Operand → List (List Char) → Option Nat
  | [], [] => some 0
  | o :: os, t :: ts =>
    match readOperand o t, readOperands os ts with
    | some n, some rest => some (n + rest)
    | _, _ => none
  | _, _ => none

/-- Reads a mnemonic and operands as an instruction. -/
def readAs (op : Opcode) (mnemonic : List Char) (operands : List (List Char)) : Option Nat :=
  if mnemonic = op.mnemonic.toList then
    (readOperands op.entry.operands operands).map (op.key + ·)
  else none

/-- The pieces of a text between blanks, without commas. -/
def pieces (s : String) : List (List Char) :=
  ((s.toList.filter (· ≠ ',')).splitOn ' ').filter (· ≠ [])

/-- The word of the first instruction as which a text can be read. -/
def assemble (s : String) : Option Nat :=
  match pieces s with
  | [] => none
  | mnemonic :: operands => Opcode.all.findSome? fun op => readAs op mnemonic operands

/-- The word of an instruction that has the fields of a given word. -/
def spelling (op : Opcode) (word : Int) : Nat :=
  op.key + (op.layout.fields.map fun f => weight f * f.value word).sum

theorem toList_text (o : Operand) (word : Int) :
    (o.text word).toList =
      stem o ++ match shown o with
        | none => []
        | some f => (Hex.padded (width f) (f.value word)).toList := by
  cases o <;> simp [Operand.text, stem, shown, width, Hex.text]

theorem value_lt_limit (f : Field) (word : Int) : f.value word < limit f := by
  cases f <;> simp only [Field.value, limit] <;> omega

theorem numberAfter_append (front : List Char) (width n : Nat) :
    numberAfter front (front ++ (Hex.padded width n).toList) = some n := by
  rw [numberAfter, if_pos (by simp), List.drop_left, digits?_padded]

theorem readOperand_text (o : Operand) (word : Int) :
    readOperand o (o.text word).toList =
      some (((shown o).map fun f => weight f * f.value word).getD 0) := by
  rw [toList_text, readOperand]
  cases shown o with
  | none => simp
  | some f => simp [numberAfter_append, value_lt_limit]

theorem readOperands_texts (os : List Operand) (word : Int) :
    readOperands os (os.map fun o => (o.text word).toList) =
      some ((os.filterMap shown).map fun f => weight f * f.value word).sum := by
  induction os with
  | nil => rfl
  | cons o rest ih =>
      simp only [List.map_cons, readOperands, readOperand_text, ih, List.filterMap_cons]
      cases shown o with
      | none => simp
      | some f => simp

theorem shown_operands (op : Opcode) : op.entry.operands.filterMap shown = op.layout.fields := by
  cases op <;> rfl

theorem readAs_text (op : Opcode) (word : Int) :
    readAs op op.mnemonic.toList (op.entry.operands.map fun o => (o.text word).toList) =
      some (spelling op word) := by
  rw [readAs, if_pos rfl, readOperands_texts, shown_operands, Option.map_some, spelling]

/-- Whether the text of the second operand may be read as that of the first, as far as their stems
tell. -/
def resembles (o' o : Operand) : Bool :=
  match shown o', shown o with
  | none, none => stem o' = stem o
  | some _, some _ => stem o' = stem o
  | some _, none => (numberAfter (stem o') (stem o)).isSome
  | none, some _ => (numberAfter (stem o) (stem o')).isSome

theorem stem_of_shown {o : Operand} {f : Field} (h : shown o = some f) :
    stem o = ['V'] ∨ stem o = [] := by
  cases o <;> simp [shown, stem] at h ⊢

theorem not_mem_padded {c : Char} (h : Numeral.digitIn? 16 c = none) (width n : Nat) :
    c ∉ (Hex.padded width n).toList := by
  intro hmem
  obtain ⟨d, hd, rfl⟩ := mem_padded hmem
  rw [digitIn?_digit hd] at h
  cases h

theorem digitIn?_letter : Numeral.digitIn? 16 'V' = none := by
  decide

theorem numberAfter_of_stems {front front' : List Char} (h : front = ['V'] ∨ front = [])
    (h' : front' = ['V'] ∨ front' = []) {width n m : Nat}
    (hread : numberAfter front' (front ++ (Hex.padded width n).toList) = some m) :
    front' = front := by
  -- The letter of a register is no digit, so it stands in both texts or in none.
  rcases h with rfl | rfl <;> rcases h' with rfl | rfl
  · rfl
  · simp [numberAfter, Numeral.digits?, digitIn?_letter] at hread
  · rw [numberAfter, List.nil_append] at hread
    split at hread
    · rename_i hfront
      have hmem := (List.isPrefixOf_iff_prefix.mp hfront).subset (List.mem_singleton_self 'V')
      exact absurd hmem (not_mem_padded digitIn?_letter width n)
    · cases hread
  · rfl

theorem resembles_of_read {o o' : Operand} {word : Int} {n : Nat}
    (h : readOperand o' (o.text word).toList = some n) : resembles o' o := by
  rw [toList_text, readOperand] at h
  rw [resembles]
  -- Without a field an operand is its stem, so there a stem is read as it stands.
  cases hshown' : shown o' <;> cases hshown : shown o <;> simp only [hshown, hshown'] at h ⊢
  case none.none =>
    rw [List.append_nil, Option.ite_none_right_eq_some] at h
    simp [h.1]
  case none.some f =>
    rw [Option.ite_none_right_eq_some] at h
    rw [← h.1, numberAfter_append, Option.isSome_some]
  case some.none f' =>
    rw [List.append_nil] at h
    obtain ⟨m, hfiltered, -⟩ := Option.map_eq_some_iff.mp h
    rw [(Option.filter_eq_some_iff.mp hfiltered).1, Option.isSome_some]
  case some.some f' f =>
    obtain ⟨m, hfiltered, -⟩ := Option.map_eq_some_iff.mp h
    rw [decide_eq_true_eq]
    exact numberAfter_of_stems (stem_of_shown hshown) (stem_of_shown hshown')
      (Option.filter_eq_some_iff.mp hfiltered).1

theorem all_resemble_of_read {os os' : List Operand} {word : Int} {n : Nat}
    (h : readOperands os' (os.map fun o => (o.text word).toList) = some n) :
    List.Forall₂ (fun o' o => resembles o' o) os' os := by
  induction os' generalizing os n with
  | nil =>
      cases os with
      | nil => exact .nil
      | cons o rest => cases h
  | cons o' rest' ih =>
      cases os with
      | nil => cases h
      | cons o rest =>
          rw [List.map_cons, readOperands] at h
          split at h
          · rename_i hfirst hrest
            exact .cons (resembles_of_read hfirst) (ih hrest)
          · cases h

theorem eq_of_resembles {op op' : Opcode} (hmnemonic : op'.mnemonic = op.mnemonic)
    (h : List.Forall₂ (fun o' o => resembles o' o) op'.entry.operands op.entry.operands) :
    op' = op := by
  have hall : ∀ op ∈ Opcode.all, ∀ op' ∈ Opcode.all, op'.mnemonic = op.mnemonic →
      List.Forall₂ (fun o' o => resembles o' o) op'.entry.operands op.entry.operands →
        op' = op := by decide +kernel
  exact hall op (mem_all op) op' (mem_all op') hmnemonic h

theorem eq_of_readAs {op op' : Opcode} {word : Int} {n : Nat}
    (h : readAs op' op.mnemonic.toList (op.entry.operands.map fun o => (o.text word).toList) =
      some n) : op' = op := by
  rw [readAs] at h
  split at h
  · rename_i hmnemonic
    obtain ⟨sum, hsum, -⟩ := Option.map_eq_some_iff.mp h
    exact eq_of_resembles (String.toList_inj.mp hmnemonic).symm (all_resemble_of_read hsum)
  · cases h

/-- A text that is one piece: there is something in it, but no blank and no comma. -/
structure Plain (cs : List Char) : Prop where
  nonempty : cs ≠ []
  blank : ' ' ∉ cs
  comma : ',' ∉ cs

theorem plain_padded (width n : Nat) : Plain (Hex.padded width n).toList where
  nonempty := by
    intro hnil
    have hread := digits?_padded width n
    rw [hnil] at hread
    cases hread
  blank := not_mem_padded (by decide) width n
  comma := not_mem_padded (by decide) width n

theorem plain_append {cs cs' : List Char} (hblank : ' ' ∉ cs) (hcomma : ',' ∉ cs)
    (h : Plain cs') : Plain (cs ++ cs') where
  nonempty := List.append_ne_nil_of_right_ne_nil cs h.nonempty
  blank := List.not_mem_append hblank h.blank
  comma := List.not_mem_append hcomma h.comma

theorem stem_chars (o : Operand) :
    ' ' ∉ stem o ∧ ',' ∉ stem o ∧ (shown o = none → stem o ≠ []) := by
  cases o <;> decide

theorem plain_operand (o : Operand) (word : Int) : Plain (o.text word).toList := by
  obtain ⟨hblank, hcomma, hnonempty⟩ := stem_chars o
  rw [toList_text]
  cases hshown : shown o with
  | none =>
      rw [List.append_nil]
      exact ⟨hnonempty hshown, hblank, hcomma⟩
  | some f => exact plain_append hblank hcomma (plain_padded _ _)

theorem plain_mnemonic (op : Opcode) : Plain op.mnemonic.toList := by
  cases op <;> constructor <;> decide

theorem Plain.filter {cs : List Char} (h : Plain cs) : cs.filter (· ≠ ',') = cs := by
  rw [List.filter_eq_self]
  intro c hc
  rw [decide_eq_true_eq]
  rintro rfl
  exact h.comma hc

theorem filter_intercalate {ts : List (List Char)} (h : ∀ t ∈ ts, Plain t) :
    ([',', ' '].intercalate ts).filter (· ≠ ',') = [' '].intercalate ts := by
  induction ts with
  | nil => rfl
  | cons t rest ih =>
      cases rest with
      | nil =>
          rw [List.intercalate_singleton, List.intercalate_singleton,
            (h t List.mem_cons_self).filter]
      | cons t' rest' =>
          rw [List.intercalate_cons_cons, List.intercalate_cons_cons, List.filter_append,
            List.filter_append, ih fun t ht => h t (List.mem_cons_of_mem _ ht),
            (h t List.mem_cons_self).filter]
          rfl

def piecesOf (op : Opcode) (word : Int) : List (List Char) :=
  op.mnemonic.toList :: op.entry.operands.map fun o => (o.text word).toList

theorem plain_of_mem {op : Opcode} {word : Int} {t : List Char} (h : t ∈ piecesOf op word) :
    Plain t := by
  rcases List.mem_cons.mp h with rfl | hoperand
  · exact plain_mnemonic op
  · obtain ⟨o, -, rfl⟩ := List.mem_map.mp hoperand
    exact plain_operand o word

theorem toList_text_filter (op : Opcode) (word : Int) :
    (op.text word).toList.filter (· ≠ ',') = [' '].intercalate (piecesOf op word) := by
  have hplain : ∀ t ∈ op.entry.operands.map fun o => (o.text word).toList, Plain t := by
    intro t ht
    exact plain_of_mem (List.mem_cons_of_mem _ ht)
  rw [Opcode.text, piecesOf]
  cases hoperands : op.entry.operands with
  | nil => rw [List.map_nil, List.intercalate_singleton, (plain_mnemonic op).filter]
  | cons o rest =>
      have hseparator : (", " : String).toList = [',', ' '] := rfl
      have hlist : (op.operandText word).toList =
          [',', ' '].intercalate ((o :: rest).map fun o => (o.text word).toList) := by
        rw [Opcode.operandText, String.toList_intercalate, List.map_map, hoperands, hseparator]
        rfl
      rw [hoperands] at hplain
      rw [String.toList_append, String.toList_append, List.filter_append, List.filter_append,
        (plain_mnemonic op).filter, hlist, filter_intercalate hplain, List.map_cons,
        List.intercalate_cons_cons]
      rfl

theorem filter_splitOn_blanks (cs : List Char) (blanks : Nat) :
    ((cs ++ List.replicate blanks ' ').splitOn ' ').filter (· ≠ []) =
      (cs.splitOn ' ').filter (· ≠ []) := by
  induction blanks with
  | zero => rw [List.replicate_zero, List.append_nil]
  | succ blanks ih =>
      rw [List.replicate_succ', ← List.append_assoc, List.splitOn_append_cons_self,
        List.filter_append, ih]
      exact List.append_nil _

theorem pieces_padRight (op : Opcode) (word : Int) (column : Nat) :
    pieces (Text.padRight column (op.text word)) = piecesOf op word := by
  have hsplit : ([' '].intercalate (piecesOf op word)).splitOn ' ' = piecesOf op word :=
    List.splitOn_intercalate ' ' (fun t ht => (plain_of_mem ht).blank) (List.cons_ne_nil _ _)
  have hblanks : ∀ blanks : Nat,
      (List.replicate blanks ' ').filter (· ≠ ',') = List.replicate blanks ' ' := by
    intro blanks
    exact List.filter_replicate_of_pos (by decide)
  rw [pieces, Text.padRight, String.toList_ofList, List.rightpad, List.filter_append, hblanks,
    toList_text_filter, filter_splitOn_blanks, hsplit, List.filter_eq_self]
  intro t ht
  simpa using (plain_of_mem ht).nonempty

theorem padRight_zero (s : String) : Text.padRight 0 s = s := by
  simp [Text.padRight, List.rightpad]

theorem pieces_text (op : Opcode) (word : Int) : pieces (op.text word) = piecesOf op word := by
  rw [← padRight_zero (op.text word), pieces_padRight]

theorem assemble_of_pieces {op : Opcode} {word : Int} {s : String}
    (h : pieces s = piecesOf op word) : assemble s = some (spelling op word) := by
  -- Only the instruction itself can be read, so it does not matter in which order they are tried.
  have hread := readAs_text op word
  rw [assemble, h]
  change Opcode.all.findSome? (fun op' => readAs op' op.mnemonic.toList _) = _
  generalize hfound : List.findSome? _ Opcode.all = found
  cases found with
  | none =>
      rw [List.findSome?_eq_none_iff.mp hfound op (mem_all op)] at hread
      cases hread
  | some n =>
      obtain ⟨op', -, hread'⟩ := List.exists_of_findSome?_eq_some hfound
      rw [← hread', eq_of_readAs hread', hread]

end Chip8.Proofs.InstructionText
