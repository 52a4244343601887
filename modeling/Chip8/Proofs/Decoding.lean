import Chip8.Opcode
import Mathlib.Data.Int.Bitwise
import Mathlib.Data.List.Forall2

/-!
The language of the search for an instruction. A word leads to the instruction that it spells, since
the masks are tried finest first and no other key agrees with that of the instruction outside its
parameters; and it leads to none exactly if its first nibble, low byte and low nibble rule out every
key.
-/

namespace Chip8.Proofs.Decoding

theorem key_of_ofKey? {k : Nat} {op : Opcode} (h : Opcode.ofKey? k = some op) : op.key = k := by
  rw [Opcode.ofKey?] at h
  simpa using List.find?_some h

theorem ofKey?_key (op : Opcode) : Opcode.ofKey? op.key = some op := by
  cases op <;> rfl

theorem key_and_family {op : Opcode} (h : op.layout.literalMask = 0xF000) :
    op.key &&& 0xF000 = op.key := by
  revert h
  cases op <;> decide

theorem spells_of_lookup {op : Opcode} {word : Int} (hop : Opcode.lookup word = some op)
    (hlayout : op.layout.literalMask = 0xF000) : op.Spells word := by
  -- The masks of a search keep the first nibble, so an instruction told by it alone is spelt by
  -- each word that leads to it.
  obtain ⟨mask, hmask, hfound⟩ := List.exists_of_findSome?_eq_some hop
  have hkey := key_of_ofKey? hfound
  have hfamily : mask &&& 0xF000 = 0xF000 := by
    simp only [Opcode.masks, List.mem_cons, List.not_mem_nil, or_false] at hmask
    rcases hmask with rfl | rfl | rfl <;> rfl
  rw [Opcode.Spells, hlayout, ← hfamily, ← Nat.and_assoc, ← hkey, key_and_family hlayout]

theorem mem_all (op : Opcode) : op ∈ Opcode.all := by
  cases op <;> decide

def bits (word : Int) : Nat :=
  (word % 65536).toNat

theorem bits_lt (word : Int) : bits word < 65536 := by
  simp only [bits]
  omega

/-- The mask by which the search finds an instruction. -/
def searchMask (op : Opcode) : Nat :=
  op.layout.literalMask &&& 0xF0FF

theorem searchMask_mem (op : Opcode) : searchMask op ∈ Opcode.masks := by
  cases op <;> decide

theorem masks_nested : Opcode.masks.Pairwise fun finer coarser => finer &&& coarser = coarser := by
  decide

/-- No other key agrees with that of an instruction in the bits by which it is found. -/
theorem eq_of_key_and_searchMask {op op' : Opcode} (h : op'.key &&& searchMask op = op.key) :
    op' = op := by
  have hall : ∀ op ∈ Opcode.all, ∀ op' ∈ Opcode.all,
      op'.key &&& searchMask op = op.key → op' = op := by decide
  exact hall op (mem_all op) op' (mem_all op') h

theorem key_and_finest (op : Opcode) : op.key &&& 0xF0FF = op.key := by
  cases op <;> rfl

theorem and_searchMask_of_spells {op : Opcode} {word : Int} (h : op.Spells word) :
    bits word &&& searchMask op = op.key := by
  rw [searchMask, ← Nat.and_assoc, bits, h, key_and_finest]

theorem lookup_of_spells {op : Opcode} {word : Int} (h : op.Spells word) :
    Opcode.lookup word = some op := by
  -- A mask that is tried before keeps all bits of the one that finds the instruction, so it finds
  -- no other.
  have hbits := and_searchMask_of_spells h
  obtain ⟨finer, coarser, hsplit⟩ := List.append_of_mem (searchMask_mem op)
  have hnested := masks_nested
  rw [hsplit, List.pairwise_append] at hnested
  have hfound : Opcode.ofKey? (bits word &&& searchMask op) = some op := by rw [hbits, ofKey?_key]
  change Opcode.masks.findSome? (fun mask => Opcode.ofKey? (bits word &&& mask)) = some op
  rw [hsplit, List.findSome?_append, List.findSome?_cons, hfound]
  cases hfiner : finer.findSome? fun mask => Opcode.ofKey? (bits word &&& mask) with
  | none => rfl
  | some op' =>
      obtain ⟨mask, hmask, hop'⟩ := List.exists_of_findSome?_eq_some hfiner
      have hfine : mask &&& searchMask op = searchMask op :=
        hnested.2.2 mask hmask _ List.mem_cons_self
      have heq : op' = op := by
        apply eq_of_key_and_searchMask
        rw [key_of_ofKey? hop', Nat.and_assoc, hfine, hbits]
      rw [heq]
      rfl

/-- A digit of a number in hexadecimal, counted from the last. -/
def digit (n k : Nat) : Nat :=
  n >>> (4 * k) % 16

theorem digit_lt (n k : Nat) : digit n k < 16 :=
  Nat.mod_lt _ (by decide)

theorem digit_and (a b k : Nat) : digit (a &&& b) k = digit a k &&& digit b k := by
  simp only [digit, Nat.shiftRight_and_distrib]
  exact Nat.and_mod_two_pow (n := 4)

theorem and_fifteen {d : Nat} (h : d < 16) : d &&& 15 = d :=
  (Nat.and_two_pow_sub_one_eq_mod d 4).trans (Nat.mod_eq_of_lt h)

theorem eq_iff_digits {a b : Nat} (ha : a < 65536) (hb : b < 65536) :
    a = b ↔ digit a 3 = digit b 3 ∧ digit a 2 = digit b 2 ∧ digit a 1 = digit b 1 ∧
      digit a 0 = digit b 0 := by
  simp only [digit, Nat.shiftRight_eq_div_pow]
  omega

/-- A letter of a pattern stands for any digit, and a digit for itself. -/
def Fits (c : Char) (d : Nat) : Prop :=
  c ∈ ['X', 'Y', 'N'] ∨ c = Hex.digit d

def Matches (pattern : String) (word : Int) : Prop :=
  List.Forall₂ Fits pattern.toList
    [digit (bits word) 3, digit (bits word) 2, digit (bits word) 1, digit (bits word) 0]

theorem fits_digit_iff {a b : Nat} (ha : a < 16) (hb : b < 16) : Fits (Hex.digit a) b ↔ a = b := by
  have hall : ∀ a < 16, ∀ b < 16,
      (Hex.digit a ∈ ['X', 'Y', 'N'] ∨ Hex.digit a = Hex.digit b ↔ a = b) := by decide
  exact hall a ha b hb

theorem key_and_literalMask (op : Opcode) : op.key &&& op.layout.literalMask = op.key := by
  cases op <;> rfl

theorem key_lt (op : Opcode) : op.key < 65536 := by
  cases op <;> decide

theorem spells_iff_digits (op : Opcode) (word : Int) :
    op.Spells word ↔
      digit (bits word) 3 &&& digit op.layout.literalMask 3 = digit op.key 3 ∧
        digit (bits word) 2 &&& digit op.layout.literalMask 2 = digit op.key 2 ∧
        digit (bits word) 1 &&& digit op.layout.literalMask 1 = digit op.key 1 ∧
        digit (bits word) 0 &&& digit op.layout.literalMask 0 = digit op.key 0 := by
  have hmasked : bits word &&& op.layout.literalMask < 65536 :=
    Nat.lt_of_le_of_lt Nat.and_le_left (bits_lt word)
  rw [Opcode.Spells, ← bits, eq_iff_digits hmasked (key_lt op), digit_and, digit_and, digit_and,
    digit_and]

/-- What a pattern shows of a digit: that of the key where the mask keeps it, and a letter where it
keeps nothing. -/
inductive Shows (mask key k : Nat) : Char → Prop
  | literal (hmask : digit mask k = 15) : Shows mask key k (Hex.digit (digit key k))
  | parameter (hmask : digit mask k = 0) {c : Char} (hc : c ∈ ['X', 'Y', 'N']) : Shows mask key k c

theorem Shows.fits_iff {mask key k : Nat} {c : Char} (h : Shows mask key k c)
    (hkey : key &&& mask = key) {d : Nat} (hd : d < 16) :
    Fits c d ↔ d &&& digit mask k = digit key k := by
  cases h with
  | literal hmask =>
      rw [hmask, and_fifteen hd, fits_digit_iff (digit_lt key k) hd, eq_comm]
  | parameter hmask hc =>
      rw [← hkey, digit_and, hmask, Nat.and_zero, Nat.and_zero]
      exact iff_of_true (.inl hc) rfl

theorem pattern_shows (op : Opcode) :
    ∃ c₃ c₂ c₁ c₀, op.pattern.toList = [c₃, c₂, c₁, c₀] ∧
      Shows op.layout.literalMask op.key 3 c₃ ∧ Shows op.layout.literalMask op.key 2 c₂ ∧
      Shows op.layout.literalMask op.key 1 c₁ ∧ Shows op.layout.literalMask op.key 0 c₀ := by
  rw [Opcode.pattern, String.toList_ofList]
  generalize op.layout = layout, op.key = key
  cases layout with
  | fixed => exact ⟨_, _, _, _, rfl, .literal rfl, .literal rfl, .literal rfl, .literal rfl⟩
  | nnn | xnn =>
      exact ⟨_, _, _, _, rfl, .literal rfl, .parameter rfl (by decide), .parameter rfl (by decide),
        .parameter rfl (by decide)⟩
  | xyn =>
      exact ⟨_, _, _, _, rfl, .literal rfl, .parameter rfl (by decide), .parameter rfl (by decide),
        .parameter rfl (by decide)⟩
  | xy =>
      exact ⟨_, _, _, _, rfl, .literal rfl, .parameter rfl (by decide), .parameter rfl (by decide),
        .literal rfl⟩
  | x =>
      exact ⟨_, _, _, _, rfl, .literal rfl, .parameter rfl (by decide), .literal rfl, .literal rfl⟩

theorem spells_iff_matches (op : Opcode) (word : Int) :
    op.Spells word ↔ Matches op.pattern word := by
  obtain ⟨c₃, c₂, c₁, c₀, hpattern, h₃, h₂, h₁, h₀⟩ := pattern_shows op
  have hkey := key_and_literalMask op
  have hlt := digit_lt (bits word)
  rw [spells_iff_digits, Matches, hpattern]
  simp only [List.forall₂_cons, List.Forall₂.nil, and_true, h₃.fits_iff hkey (hlt 3),
    h₂.fits_iff hkey (hlt 2), h₁.fits_iff hkey (hlt 1), h₀.fits_iff hkey (hlt 0)]

/-- The first digit of a word, which names its family. -/
def family (word : Int) : Nat :=
  (word / 4096 % 16).toNat

/-- The words that no instruction has: of the families with several instructions told by their low
byte, those with another low byte, if no instruction of the family is told by their last digit. -/
def Unassigned (word : Int) : Prop :=
  (family word = 0x0 ∧ Field.nn.value word ∉ [0xE0, 0xEE]) ∨
  (family word = 0xE ∧ Field.nn.value word ∉ [0x9E, 0xA1]) ∨
  (family word = 0xF ∧ Field.nn.value word ∉ [0x15, 0x18, 0x1E, 0x29, 0x33, 0x55, 0x65] ∧
    Field.n.value word ∉ [0x7, 0xA])

theorem ofKey?_eq_none_iff (k : Nat) : Opcode.ofKey? k = none ↔ ∀ op : Opcode, op.key ≠ k := by
  rw [Opcode.ofKey?, List.find?_eq_none]
  constructor
  · intro h op
    simpa using h op (mem_all op)
  · intro h op _
    simpa using h op

/-- What the keys of a family leave for the low twelve bits. -/
def tails (h : Nat) : List Nat :=
  (Opcode.all.filter fun op => op.key / 4096 = h).map fun op => op.key % 4096

theorem and_first_digit {n : Nat} (h : n < 65536) : n &&& 0xF000 = 4096 * (n / 4096) := by
  rw [eq_iff_digits (Nat.lt_of_le_of_lt Nat.and_le_left h) (by omega)]
  simp only [digit_and, show digit 0xF000 3 = 15 from rfl, show digit 0xF000 2 = 0 from rfl,
    show digit 0xF000 1 = 0 from rfl, show digit 0xF000 0 = 0 from rfl, Nat.and_zero,
    and_fifteen (digit_lt n 3)]
  simp only [digit, Nat.shiftRight_eq_div_pow]
  omega

theorem lookup_eq_some_iff_family {op : Opcode} (hlayout : op.layout.literalMask = 0xF000)
    (word : Int) : Opcode.lookup word = some op ↔ 4096 * family word = op.key := by
  have hfamily : bits word / 4096 = family word := by
    simp only [bits, family]
    omega
  have hspells : op.Spells word ↔ 4096 * family word = op.key := by
    rw [Opcode.Spells, hlayout, ← bits, and_first_digit (bits_lt word), hfamily]
  rw [← hspells]
  constructor
  · intro hop
    exact spells_of_lookup hop hlayout
  · exact lookup_of_spells

theorem family_of_lt {word : Nat} (h : word < 65536) : family word = word / 4096 := by
  simp only [family]
  omega

theorem and_or_low {n low : Nat} (hn : n < 65536) (hlow : low < 4096)
    (hmod : n &&& low = n % (low + 1)) :
    n &&& (0xF000 ||| low) = 4096 * (n / 4096) + n % (low + 1) := by
  have hlt : n % (low + 1) < 4096 := Nat.lt_of_lt_of_le (Nat.mod_lt _ (Nat.succ_pos low)) hlow
  rw [Nat.and_or_distrib_left, and_first_digit hn, hmod]
  exact (Nat.two_pow_add_eq_or_of_lt (i := 12) hlt _).symm

theorem spells_of_low {op : Opcode} {low : Nat} (hmask : op.layout.literalMask = 0xF000 ||| low)
    (hlow : low < 4096) (hmod : ∀ n, n &&& low = n % (low + 1)) {word : Nat}
    (hword : word < 65536) (hkey : 4096 * (word / 4096) + word % (low + 1) = op.key) :
    op.Spells word := by
  have hbits : bits word = word := by
    simp only [bits]
    omega
  rw [Opcode.Spells, ← bits, hbits, hmask, and_or_low hword hlow (hmod word), hkey]

theorem lookup_of_registers {op : Opcode} (hlayout : op.layout = .xy) {word : Nat} {x y : Fin 16}
    (hword : word = op.key + 256 * x.val + 16 * y.val) :
    Opcode.lookup word = some op ∧ regX word = x ∧ regY word = y := by
  have hx := x.isLt
  have hy := y.isLt
  have hkey : op.key = 4096 * (op.key / 4096) + op.key % 16 ∧ op.key < 65536 := by
    revert hlayout
    cases op <;> decide
  refine ⟨?_, Fin.ext ?_, Fin.ext ?_⟩
  · have hmask : op.layout.literalMask = 0xF000 ||| 15 := by
      rw [hlayout]
      rfl
    apply lookup_of_spells
    apply spells_of_low hmask (by decide) fun n => Nat.and_two_pow_sub_one_eq_mod n 4
    · omega
    · omega
  · simp only [regX, Field.value]
    omega
  · simp only [regY, Field.value]
    omega

theorem lookup_of_register {op : Opcode} (hlayout : op.layout = .x) {word : Nat} {x : Fin 16}
    (hword : word = op.key + 256 * x.val) :
    Opcode.lookup word = some op ∧ regX word = x := by
  have hx := x.isLt
  have hkey : op.key = 4096 * (op.key / 4096) + op.key % 256 ∧ op.key < 65536 := by
    revert hlayout
    cases op <;> decide
  refine ⟨?_, Fin.ext ?_⟩
  · have hmask : op.layout.literalMask = 0xF000 ||| 255 := by
      rw [hlayout]
      rfl
    apply lookup_of_spells
    apply spells_of_low hmask (by decide) fun n => Nat.and_two_pow_sub_one_eq_mod n 8
    · omega
    · omega
  · simp only [regX, Field.value]
    omega

theorem ofKey?_eq_none_iff_tails {h r : Nat} (hr : r < 4096) :
    Opcode.ofKey? (4096 * h + r) = none ↔ r ∉ tails h := by
  rw [ofKey?_eq_none_iff]
  simp only [tails, List.mem_map, List.mem_filter, mem_all, true_and, decide_eq_true_eq,
    not_exists, not_and]
  constructor
  · intro hnone op hfamily htail
    have := hnone op
    omega
  · intro hnone op hkey
    exact hnone op (by omega) (by omega)

theorem ofKey?_masked_eq_none_iff (word : Int) (low : Nat) (hlow : low < 4096)
    (hmod : ∀ n : Nat, n &&& low = n % (low + 1)) :
    Opcode.ofKey? (bits word &&& (0xF000 ||| low)) = none ↔
      bits word % (low + 1) ∉ tails (family word) := by
  have hfirst : bits word / 4096 = family word := by
    simp only [bits, family]
    omega
  have hlt : bits word % (low + 1) < 4096 :=
    Nat.lt_of_lt_of_le (Nat.mod_lt _ (Nat.succ_pos low)) hlow
  rw [and_or_low (bits_lt word) hlow (hmod _), hfirst, ofKey?_eq_none_iff_tails hlt]

theorem lookup_eq_none_iff_tails (word : Int) :
    Opcode.lookup word = none ↔ bits word % 256 ∉ tails (family word) ∧
      bits word % 16 ∉ tails (family word) ∧ bits word % 1 ∉ tails (family word) := by
  have hbyte := ofKey?_masked_eq_none_iff word 255 (by decide)
    fun n => Nat.and_two_pow_sub_one_eq_mod n 8
  have hdigit := ofKey?_masked_eq_none_iff word 15 (by decide)
    fun n => Nat.and_two_pow_sub_one_eq_mod n 4
  have hnone := ofKey?_masked_eq_none_iff word 0 (by decide)
    fun n => Nat.and_two_pow_sub_one_eq_mod n 0
  rw [← hbyte, ← hdigit, ← hnone]
  change Opcode.masks.findSome? (fun mask => Opcode.ofKey? (bits word &&& mask)) = none ↔ _
  simp [List.findSome?_eq_none_iff, Opcode.masks]

theorem zero_mem_tails : ∀ h < 14, 0 < h → 0 ∈ tails h := by
  decide

theorem lookup_eq_none_iff (word : Int) : Opcode.lookup word = none ↔ Unassigned word := by
  have hbyte : bits word % 256 = Field.nn.value word := by
    simp only [bits, Field.value]
    omega
  have hdigit : bits word % 16 = Field.nn.value word % 16 := by
    simp only [bits, Field.value]
    omega
  have hlast : Field.n.value word = Field.nn.value word % 16 := by
    simp only [Field.value]
    omega
  have hfamily : family word < 16 := by
    simp only [family]
    omega
  rw [lookup_eq_none_iff_tails, Unassigned, hbyte, hdigit, hlast, Nat.mod_one]
  generalize family word = h, Field.nn.value word = b at hfamily
  rcases (by omega : h = 0 ∨ (0 < h ∧ h < 14) ∨ h = 14 ∨ h = 15) with rfl | ⟨hpos, hlt⟩ | rfl | rfl
  · have htails : tails 0 = [0xE0, 0xEE] := by decide
    simp only [htails, List.mem_cons, List.not_mem_nil, or_false, true_and]
    omega
  · -- These families have an instruction that the first digit alone tells.
    have hzero := zero_mem_tails h hlt hpos
    refine iff_of_false (fun hnone => hnone.2.2 hzero) ?_
    omega
  · have htails : tails 14 = [0x9E, 0xA1] := by decide
    simp only [htails, List.mem_cons, List.not_mem_nil, or_false, true_and]
    omega
  · have htails : tails 15 = [0x07, 0x0A, 0x15, 0x18, 0x1E, 0x29, 0x33, 0x55, 0x65] := by decide
    simp only [htails, List.mem_cons, List.not_mem_nil, or_false, true_and]
    omega

theorem land_mask (word : Int) {mask : Nat} (h : mask < 65536) :
    Int.land word mask = ((bits word &&& mask : Nat) : Int) := by
  have hhigh : ∀ k, 16 ≤ k → mask.testBit k = false := by
    intro k hk
    apply Nat.testBit_lt_two_pow
    calc
      mask < 2 ^ 16 := h
      _ ≤ 2 ^ k := Nat.pow_le_pow_right (by decide) hk
  cases word with
  | ofNat m =>
      have hbits : bits (Int.ofNat m) = m % 2 ^ 16 := by
        simp only [bits, Int.ofNat_eq_natCast]
        omega
      change ((m &&& mask : Nat) : Int) = _
      rw [hbits]
      refine congrArg Int.ofNat (Nat.eq_of_testBit_eq fun k => ?_)
      rw [Nat.testBit_and, Nat.testBit_and, Nat.testBit_mod_two_pow]
      by_cases hk : k < 16
      · simp [hk]
      · simp [hhigh k (by omega)]
  | negSucc m =>
      have hbits : bits (Int.negSucc m) = 2 ^ 16 - (m % 2 ^ 16 + 1) := by
        simp only [bits]
        omega
      have hlt : m % 2 ^ 16 < 2 ^ 16 := Nat.mod_lt _ (Nat.two_pow_pos 16)
      change ((mask.ldiff m : Nat) : Int) = _
      rw [hbits]
      refine congrArg Int.ofNat (Nat.eq_of_testBit_eq fun k => ?_)
      rw [Nat.testBit_and, Nat.testBit_ldiff, Nat.testBit_two_pow_sub_succ hlt,
        Nat.testBit_mod_two_pow]
      by_cases hk : k < 16
      · simp [hk, Bool.and_comm]
      · simp [hhigh k (by omega)]

theorem lookup_eq_land (word : Int) :
    Opcode.lookup word =
      Opcode.masks.findSome? fun mask : Nat => Opcode.ofKey? (Int.land word mask).toNat := by
  have hfinest := land_mask word (show 0xF0FF < 65536 by decide)
  have hmiddle := land_mask word (show 0xF00F < 65536 by decide)
  have hcoarsest := land_mask word (show 0xF000 < 65536 by decide)
  simp only [Opcode.masks, List.findSome?_cons, hfinest, hmiddle, hcoarsest, Int.toNat_natCast]
  rfl

/-- The search has exactly this language, for words of any size and sign. -/
theorem lookup_exact (word : Int) :
    (Opcode.lookup word = none ↔ Unassigned word) ∧
      (∀ op : Opcode, Matches op.pattern word → Opcode.lookup word = some op) ∧
      (∀ op op' : Opcode, Matches op.pattern word → Matches op'.pattern word → op = op') ∧
      (Opcode.lookup word =
        Opcode.masks.findSome? fun mask : Nat => Opcode.ofKey? (Int.land word mask).toNat) ∧
      Opcode.lookup word = Opcode.lookup (word % 65536) := by
  have hspelt : ∀ op : Opcode, Matches op.pattern word → Opcode.lookup word = some op := by
    intro op hmatch
    exact lookup_of_spells ((spells_iff_matches op word).mpr hmatch)
  refine ⟨lookup_eq_none_iff word, hspelt, ?_, lookup_eq_land word, ?_⟩
  · intro op op' hmatch hmatch'
    exact Option.some.inj ((hspelt op hmatch).symm.trans (hspelt op' hmatch'))
  · rw [Opcode.lookup, Opcode.lookup, Int.emod_emod_of_dvd word (Int.dvd_refl 65536)]

theorem lookup_negative_sum :
    Matches Opcode.add.pattern (-30028) ∧ Opcode.ofKey? (bits (-30028) &&& 0xF000) = some .copy ∧
      Opcode.lookup (-30028) = some .add := by
  have hmatch : Matches Opcode.add.pattern (-30028) :=
    (spells_iff_matches .add (-30028)).mp (by decide)
  exact ⟨hmatch, by decide, (lookup_exact (-30028)).2.1 .add hmatch⟩

end Chip8.Proofs.Decoding
