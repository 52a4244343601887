import Chip8.Proofs.HexNumerals

namespace Chip8.Proofs.NumeralCharacters

open Chip8.Numeral
open Chip8.Proofs.HexNumerals

theorem toNat_toUpper (c : Char) :
    c.toUpper.toNat = if 97 ≤ c.toNat ∧ c.toNat ≤ 122 then c.toNat - 32 else c.toNat := by
  have hrange : ('a'.val ≤ c.val ∧ c.val ≤ 'z'.val) ↔ 97 ≤ c.toNat ∧ c.toNat ≤ 122 := by
    simp [UInt32.le_iff_toNat_le]
  delta Char.toUpper
  by_cases hlower : 'a'.val ≤ c.val ∧ c.val ≤ 'z'.val
  · have hshift : ('A'.val - 'a'.val).toNat = 2 ^ 32 - 32 := by decide
    have hletter := hrange.mp hlower
    rw [dif_pos hlower, if_pos hletter, ← Char.toNat_val, UInt32.toNat_add, hshift, Char.toNat_val]
    omega
  · rw [dif_neg hlower, if_neg (mt hrange.mpr hlower)]

theorem toUpper_eq_iff {c d : Char} (hlower : ¬ (97 ≤ d.toNat ∧ d.toNat ≤ 122))
    (hupper : ¬ (65 ≤ d.toNat ∧ d.toNat ≤ 90)) : c.toUpper = d ↔ c = d := by
  rw [← Char.toNat_inj, ← Char.toNat_inj, toNat_toUpper]
  split <;> omega

theorem map_toUpper_ne_cons {d : Char} (hlower : ¬ (97 ≤ d.toNat ∧ d.toNat ≤ 122))
    (hupper : ¬ (65 ≤ d.toNat ∧ d.toNat ≤ 90)) {cs : List Char}
    (h : ∀ rest, cs = d :: rest → False) (rest : List Char)
    (hmap : cs.map Char.toUpper = d :: rest) : False := by
  obtain ⟨c, after, rfl, hc, -⟩ := List.map_eq_cons_iff.mp hmap
  exact h after (by rw [(toUpper_eq_iff hlower hupper).mp hc])

theorem isDigit_toUpper (c : Char) : isDigit c.toUpper = isDigit c := by
  rw [isDigit, isDigit, toNat_toUpper]
  grind

theorem digitIn?_toUpper (base : Nat) (c : Char) : digitIn? base c.toUpper = digitIn? base c := by
  have hvalue : digitValue? c.toUpper = digitValue? c := by
    rw [digitValue?, digitValue?, isDigit_toUpper, toNat_toUpper]
    grind [isDigit]
  rw [digitIn?, digitIn?, hvalue]

theorem prefixBase?_toUpper (c : Char) : prefixBase? c.toUpper = prefixBase? c := by
  simp only [prefixBase?, ← Char.toNat_inj, toNat_toUpper]
  grind

theorem digitsFrom_map_toUpper (base value : Nat) (cs : List Char) :
    digitsFrom base value (cs.map Char.toUpper) = digitsFrom base value cs := by
  have hunderscore : '_'.toUpper = '_' := by decide
  induction value, cs using digitsFrom.induct base with
  | case1 value => rfl
  | case2 value c rest d hd ih =>
      simp only [List.map_cons, hunderscore, digitsFrom, digitIn?_toUpper, hd, ih]
  | case3 value c rest hnone =>
      simp only [List.map_cons, hunderscore, digitsFrom, digitIn?_toUpper, hnone]
  | case4 value c rest hc d hd ih =>
      rw [List.map_cons, digitsFrom_cons ((digitIn?_toUpper base c).trans hd), digitsFrom_cons hd,
        ih]
  | case5 value c rest hc hnone =>
      rw [List.map_cons, digitsFrom, digitsFrom]
      · rw [digitIn?_toUpper, hnone]
      · exact hc
      · intro c' rest' hunder hrest
        obtain ⟨c'', rest'', hsplit, -, -⟩ := List.map_eq_cons_iff.mp hrest
        exact hc _ _ ((toUpper_eq_iff (by decide) (by decide)).mp hunder) hsplit

theorem digits?_map_toUpper (base : Nat) (cs : List Char) :
    digits? base (cs.map Char.toUpper) = digits? base cs := by
  cases cs with
  | nil => rfl
  | cons c rest => simp only [List.map_cons, digits?, digitIn?_toUpper, digitsFrom_map_toUpper]

theorem afterPrefix?_cons {c : Char} (hc : c ≠ '_') (base : Nat) (rest : List Char) :
    afterPrefix? base (c :: rest) = digits? base (c :: rest) := by
  rw [afterPrefix?]
  grind

theorem afterPrefix?_map_toUpper (base : Nat) (cs : List Char) :
    afterPrefix? base (cs.map Char.toUpper) = afterPrefix? base cs := by
  cases cs with
  | nil => rfl
  | cons c rest =>
      by_cases hunderscore : c = '_'
      · subst hunderscore
        exact digits?_map_toUpper base rest
      · have hupper : c.toUpper ≠ '_' :=
          mt (toUpper_eq_iff (by decide) (by decide)).mp hunderscore
        rw [List.map_cons, afterPrefix?_cons hupper, afterPrefix?_cons hunderscore,
          ← List.map_cons, digits?_map_toUpper]

theorem decimal?_map_toUpper (cs : List Char) : decimal? (cs.map Char.toUpper) = decimal? cs := by
  have hdigit : isDigit ∘ Char.toUpper = isDigit := funext isDigit_toUpper
  rw [decimal?, decimal?, List.countP_map, hdigit, digits?_map_toUpper]

theorem map_toUpper_ne_zero_cons {cs : List Char}
    (h : ∀ (c : Char) (rest : List Char), cs = '0' :: c :: rest → False) (c : Char)
    (rest : List Char) (hupper : cs.map Char.toUpper = '0' :: c :: rest) : False := by
  obtain ⟨c₀, after, rfl, hzero, hafter⟩ := List.map_eq_cons_iff.mp hupper
  obtain ⟨c₁, rest₁, rfl, -, -⟩ := List.map_eq_cons_iff.mp hafter
  rw [toUpper_eq_iff (by decide) (by decide)] at hzero
  exact h c₁ rest₁ (by rw [hzero])

theorem magnitude?_map_toUpper (base : Base) (cs : List Char) :
    magnitude? base (cs.map Char.toUpper) = magnitude? base cs := by
  have hzero : '0'.toUpper = '0' := by decide
  fun_cases magnitude? base cs with
  | case1 cs => exact decimal?_map_toUpper cs
  | case2 c rest hbase | case3 c rest hbase =>
      have hdigits := digits?_map_toUpper 16 ('0' :: c :: rest)
      simp only [List.map_cons, hzero] at hdigits ⊢
      simp only [magnitude?, prefixBase?_toUpper, hbase, afterPrefix?_map_toUpper, hdigits,
        ↓reduceIte]
  | case4 cs hother =>
      rw [magnitude?, digits?_map_toUpper]
      exact map_toUpper_ne_zero_cons hother
  | case5 c rest base hbase | case6 c rest hbase =>
      have hdecimal := decimal?_map_toUpper ('0' :: c :: rest)
      simp only [List.map_cons, hzero] at hdecimal ⊢
      simp only [magnitude?, prefixBase?_toUpper, hbase, afterPrefix?_map_toUpper, hdecimal]
  | case7 cs hother =>
      rw [magnitude?, decimal?_map_toUpper]
      exact map_toUpper_ne_zero_cons hother

theorem trim_map {p : Char → Bool} {f : Char → Char} (h : ∀ c, p (f c) = p c) (cs : List Char) :
    Text.trim p (cs.map f) = (Text.trim p cs).map f := by
  have hsame : p ∘ f = p := funext h
  simp only [Text.trim, List.dropWhile_map, hsame, ← List.map_reverse]

theorem isBlank_of_printable {c : Char} (h : 33 ≤ c.toNat ∧ c.toNat ≤ 126) :
    Text.isBlank c = false := by
  have hwide : c.toNat ∉ Text.wideBlanks := by
    intro hmem
    have hall : ∀ n ∈ Text.wideBlanks, 126 < n := by decide
    have hlarge := hall _ hmem
    omega
  simp only [Text.isBlank, Text.isNumeralBlank, List.contains_eq_mem, hwide]
  grind

theorem isNumeralBlank_of_printable {c : Char} (h : 33 ≤ c.toNat ∧ c.toNat ≤ 126) :
    Text.isNumeralBlank c = false := by
  have hblank := isBlank_of_printable h
  rw [Text.isBlank, Bool.or_eq_false_iff] at hblank
  exact hblank.1

theorem isNumeralBlank_toUpper (c : Char) :
    Text.isNumeralBlank c.toUpper = Text.isNumeralBlank c := by
  by_cases hlower : 97 ≤ c.toNat ∧ c.toNat ≤ 122
  · have hupper : c.toUpper.toNat = c.toNat - 32 := by rw [toNat_toUpper, if_pos hlower]
    rw [isNumeralBlank_of_printable (by omega), isNumeralBlank_of_printable (by omega)]
  · have hupper : c.toUpper = c := by rw [← Char.toNat_inj, toNat_toUpper, if_neg hlower]
    rw [hupper]

theorem decimalValue?_lt {c : Char} {d : Nat} (h : Text.decimalValue? c = some d) : d < 10 := by
  obtain ⟨start, hfound, rfl⟩ := Option.map_eq_some_iff.mp h
  have hrange := List.find?_some hfound
  grind

theorem asciiChar_toUpper (c : Char) : asciiChar c.toUpper = (asciiChar c).toUpper := by
  by_cases hascii : c.toNat < 128
  · have hupper : c.toUpper.toNat < 128 := by
      rw [toNat_toUpper]
      split <;> omega
    rw [asciiChar, asciiChar, if_pos hupper, if_pos hascii]
  · have hupper : c.toUpper = c := by
      rw [← Char.toNat_inj, toNat_toUpper, if_neg (by omega)]
    rw [hupper, asciiChar, if_neg hascii]
    split
    · rename_i d hd
      have hall : ∀ d < 10, (Char.ofNat (48 + d)).toUpper = Char.ofNat (48 + d) := by decide
      exact (hall d (decimalValue?_lt hd)).symm
    · exact hupper.symm

theorem splitSign_map_toUpper (cs : List Char) :
    splitSign (cs.map Char.toUpper) = ((splitSign cs).1, (splitSign cs).2.map Char.toUpper) := by
  fun_cases splitSign cs with
  | case1 rest => rfl
  | case2 rest => rfl
  | case3 rest hminus hplus =>
      rw [splitSign]
      · exact map_toUpper_ne_cons (by decide) (by decide) hminus
      · exact map_toUpper_ne_cons (by decide) (by decide) hplus

theorem readInt_eq (base : Base) (s : String) :
    readInt base s = (magnitude? base (splitSign (body s)).2).map fun n : Nat =>
      if (splitSign (body s)).1 then -(n : Int) else n := by
  simp only [readInt]
  cases magnitude? base (splitSign (body s)).2 <;> rfl

theorem readInt_map_toUpper (base : Base) (cs : List Char) :
    readInt base (String.ofList (cs.map Char.toUpper)) = readInt base (String.ofList cs) := by
  have hbody : body (String.ofList (cs.map Char.toUpper)) =
      (body (String.ofList cs)).map Char.toUpper := by
    simp only [body, String.toList_ofList, trim_map isNumeralBlank_toUpper, List.map_map]
    apply List.map_congr_left
    intro c _
    exact asciiChar_toUpper c
  simp only [readInt_eq, hbody, splitSign_map_toUpper, magnitude?_map_toUpper]

/-- The characters that may stand in a numeral after its sign. -/
def isInner (c : Char) : Bool :=
  c == '_' || (prefixBase? c).isSome || (digitIn? 16 c).isSome

theorem isInner_of_digit {base d : Nat} (hbase : base ≤ 16) {c : Char}
    (h : digitIn? base c = some d) : isInner c := by
  have hsixteen : digitIn? 16 c = some d := by
    rw [digitIn?, Option.filter_eq_some_iff, decide_eq_true_eq] at h ⊢
    exact ⟨h.1, by omega⟩
  simp [isInner, hsixteen]

theorem isInner_underscore : isInner '_' = true := by
  decide

theorem isInner_of_digitsFrom {base : Nat} (hbase : base ≤ 16) {cs : List Char} {value n : Nat}
    (h : digitsFrom base value cs = some n) : ∀ c ∈ cs, isInner c := by
  induction value, cs using digitsFrom.induct base with
  | case1 value => simp
  | case2 value c rest d hd ih =>
      simp only [digitsFrom, hd] at h
      simp only [List.forall_mem_cons]
      exact ⟨isInner_underscore, isInner_of_digit hbase hd, ih h⟩
  | case3 value c rest hnone =>
      simp only [digitsFrom, hnone] at h
      cases h
  | case4 value c rest hc d hd ih =>
      rw [digitsFrom_cons hd] at h
      exact List.forall_mem_cons.mpr ⟨isInner_of_digit hbase hd, ih h⟩
  | case5 value c rest hc hnone =>
      rw [digitsFrom] at h
      · simp only [hnone] at h
        cases h
      · exact hc

theorem isInner_of_digits? {base : Nat} (hbase : base ≤ 16) {cs : List Char} {n : Nat}
    (h : digits? base cs = some n) : ∀ c ∈ cs, isInner c := by
  cases cs with
  | nil => cases h
  | cons c rest =>
      rw [digits?] at h
      split at h
      · rename_i d hd
        exact List.forall_mem_cons.mpr ⟨isInner_of_digit hbase hd, isInner_of_digitsFrom hbase h⟩
      · cases h

theorem isInner_of_afterPrefix? {base : Nat} (hbase : base ≤ 16) {cs : List Char} {n : Nat}
    (h : afterPrefix? base cs = some n) : ∀ c ∈ cs, isInner c := by
  rw [afterPrefix?.eq_def] at h
  split at h
  · exact List.forall_mem_cons.mpr ⟨isInner_underscore, isInner_of_digits? hbase h⟩
  · exact isInner_of_digits? hbase h

theorem isInner_of_decimal? {cs : List Char} {n : Nat} (h : decimal? cs = some n) :
    ∀ c ∈ cs, isInner c := by
  rw [decimal?] at h
  split at h
  · exact isInner_of_digits? (by decide) h
  · cases h

theorem prefixBase?_le {c : Char} {base : Nat} (h : prefixBase? c = some base) : base ≤ 16 := by
  grind [prefixBase?]

theorem isInner_of_prefixed {c : Char} {base : Nat} (hbase : prefixBase? c = some base)
    {rest : List Char} {n : Nat} (h : afterPrefix? base rest = some n) :
    ∀ c' ∈ '0' :: c :: rest, isInner c' := by
  have hletter : isInner c := by simp [isInner, hbase]
  have hzero : isInner '0' := by decide
  have hrest := isInner_of_afterPrefix? (prefixBase?_le hbase) h
  exact List.forall_mem_cons.mpr ⟨hzero, List.forall_mem_cons.mpr ⟨hletter, hrest⟩⟩

theorem isInner_of_magnitude? {base : Base} {cs : List Char} {n : Nat}
    (h : magnitude? base cs = some n) : ∀ c ∈ cs, isInner c := by
  fun_cases magnitude? base cs with
  | case1 cs => exact isInner_of_decimal? h
  | case2 c rest hbase =>
      simp only [magnitude?, if_pos hbase] at h
      exact isInner_of_prefixed hbase h
  | case3 c rest hbase =>
      simp only [magnitude?, if_neg hbase] at h
      exact isInner_of_digits? (by decide) h
  | case4 cs hother =>
      rw [magnitude?] at h
      · exact isInner_of_digits? (by decide) h
      · exact hother
  | case5 c rest base hbase =>
      simp only [magnitude?, hbase] at h
      exact isInner_of_prefixed hbase h
  | case6 c rest hnone =>
      simp only [magnitude?, hnone, Option.filter_eq_some_iff] at h
      exact isInner_of_decimal? h.1
  | case7 cs hother =>
      rw [magnitude?] at h
      · exact isInner_of_decimal? h
      · exact hother

theorem mem_trim_or {p : Char → Bool} {cs : List Char} {c : Char} (h : c ∈ cs) :
    p c ∨ c ∈ Text.trim p cs := by
  by_cases hp : p c
  · exact .inl hp
  · right
    have hkept {ds : List Char} (hmem : c ∈ ds) : c ∈ ds.dropWhile p := by
      rw [← List.takeWhile_append_dropWhile (p := p) (l := ds), List.mem_append] at hmem
      rcases hmem with hdropped | hleft
      · exact absurd (List.all_eq_true.mp List.all_takeWhile c hdropped) hp
      · exact hleft
    rw [Text.trim, List.mem_reverse]
    exact hkept (List.mem_reverse.mpr (hkept h))

theorem mem_splitSign (cs : List Char) {c : Char} (h : c ∈ cs) :
    c ∈ (splitSign cs).2 ∨ c = '+' ∨ c = '-' ∧ (splitSign cs).1 = true := by
  fun_cases splitSign cs with
  | case1 rest => grind
  | case2 rest => grind
  | case3 rest => exact .inl h

theorem of_mem_numeral {base : Base} {s : String} {n : Int} (h : readInt base s = some n) {c : Char}
    (hc : c ∈ s.toList) :
    Text.isNumeralBlank c ∨ isInner (asciiChar c) ∨ asciiChar c = '+' ∨
      asciiChar c = '-' ∧ n ≤ 0 := by
  rw [readInt_eq] at h
  obtain ⟨magnitude, hmagnitude, hsigned⟩ := Option.map_eq_some_iff.mp h
  rcases mem_trim_or hc with hblank | hkept
  · exact .inl hblank
  · right
    have hbody : asciiChar c ∈ body s := List.mem_map_of_mem hkept
    rcases mem_splitSign _ hbody with hinner | hplus | ⟨hminus, hnegative⟩
    · exact .inl (isInner_of_magnitude? hmagnitude _ hinner)
    · exact .inr (.inl hplus)
    · refine .inr (.inr ⟨hminus, ?_⟩)
      rw [← hsigned, if_pos hnegative]
      omega

/-- The characters that may stand in a numeral or around it. -/
def mayStand (c : Char) : Bool :=
  Text.isNumeralBlank c || isInner (asciiChar c) || asciiChar c == '+' || asciiChar c == '-'

theorem readInt_of_not_mayStand {cs : List Char} {c : Char} (hc : c ∈ cs) (h : mayStand c = false)
    (base : Base) : readInt base (String.ofList cs) = none := by
  rw [Option.eq_none_iff_forall_ne_some]
  intro n hread
  have hcases := of_mem_numeral hread (c := c) (by rwa [String.toList_ofList])
  simp only [mayStand, Bool.or_eq_false_iff, beq_eq_false_iff_ne] at h
  obtain ⟨⟨⟨hblank, hinner⟩, hplus⟩, hminus⟩ := h
  simp [hblank, hinner, hplus, hminus] at hcases

theorem mem_of_mem_trim {p : Char → Bool} {cs : List Char} {c : Char} (h : c ∈ Text.trim p cs) :
    c ∈ cs := by
  rw [Text.trim, List.mem_reverse] at h
  have hinner := List.mem_reverse.mp (List.dropWhile_subset p h)
  exact List.dropWhile_subset p hinner

theorem eq_hyphen_of_asciiChar {c : Char} (h : asciiChar c = '-') : c = '-' := by
  rw [asciiChar] at h
  split at h
  · exact h
  · split at h
    · rename_i d hd
      have hall : ∀ d < 10, Char.ofNat (48 + d) ≠ '-' := by decide
      exact absurd h (hall d (decimalValue?_lt hd))
    · exact h

theorem hyphen_of_splitSign {cs : List Char} (h : (splitSign cs).1 = true) : '-' ∈ cs := by
  fun_cases splitSign cs with
  | case1 rest => exact List.mem_cons_self
  | case2 rest => cases h
  | case3 rest hminus hplus =>
      rw [splitSign] at h
      · cases h
      · exact hminus
      · exact hplus

theorem hyphen_of_negative {base : Base} {s : String} {n : Int} (h : readInt base s = some n)
    (hn : n < 0) : '-' ∈ s.toList := by
  rw [readInt_eq] at h
  obtain ⟨magnitude, -, hsigned⟩ := Option.map_eq_some_iff.mp h
  split at hsigned
  · rename_i hnegative
    obtain ⟨c, hc, hascii⟩ := List.mem_map.mp (hyphen_of_splitSign hnegative)
    exact eq_hyphen_of_asciiChar hascii ▸ mem_of_mem_trim hc
  · omega

end Chip8.Proofs.NumeralCharacters
