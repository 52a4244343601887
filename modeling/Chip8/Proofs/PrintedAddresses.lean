import Chip8.CommandLine.Value
import Chip8.Proofs.LosslessListings
import Chip8.Proofs.NumeralCharacters

namespace Chip8.Proofs.PrintedAddresses

open Chip8.CommandLine
open Chip8.Disassembly
open Chip8.Numeral
open Chip8.Proofs.HexNumerals
open Chip8.Proofs.Listings
open Chip8.Proofs.LosslessListings
open Chip8.Proofs.NumeralCharacters

/-- What may stand before the digits of an address. -/
def marks : List (List Char) :=
  [[], ['0', 'x'], ['0', 'X'], ['$']]

/-- How a number may be written as an address. -/
inductive Spells (n : Nat) : String → Prop
  | mk {before mark digits after : List Char} (zeros : Nat)
      (hbefore : ∀ c ∈ before, Text.isBlank c) (hmark : mark ∈ marks)
      (hdigits : digits = Hex.digits n ∨ digits = (Hex.digits n).map Char.toLower)
      (hafter : ∀ c ∈ after, Text.isBlank c) :
      Spells n (String.ofList (before ++ (mark ++ (List.replicate zeros '0' ++ digits)) ++ after))

theorem dropWhile_append_of_neg {p : Char → Bool} {cs : List Char} (h : ∀ c ∈ cs, p c = false)
    (hne : cs ≠ []) (rest : List Char) : (cs ++ rest).dropWhile p = cs ++ rest := by
  obtain ⟨c, cs, rfl⟩ := List.exists_cons_of_ne_nil hne
  rw [List.cons_append, List.dropWhile_cons_of_neg]
  rw [h c List.mem_cons_self]
  decide

theorem trim_surrounded {p : Char → Bool} {before core after : List Char}
    (hbefore : ∀ c ∈ before, p c) (hcore : ∀ c ∈ core, p c = false) (hne : core ≠ [])
    (hafter : ∀ c ∈ after, p c) : Text.trim p (before ++ core ++ after) = core := by
  have hafter' : ∀ c ∈ after.reverse, p c := by simpa using hafter
  have hcore' : ∀ c ∈ core.reverse, p c = false := by simpa using hcore
  have hback := dropWhile_append_of_neg hcore' (by simpa using hne) []
  rw [List.append_nil] at hback
  rw [Text.trim, List.append_assoc, List.dropWhile_append_of_pos hbefore,
    dropWhile_append_of_neg hcore hne, List.reverse_append, List.dropWhile_append_of_pos hafter',
    hback, List.reverse_reverse]

theorem toUpper_lower_digits (n : Nat) :
    ((Hex.digits n).map Char.toLower).map Char.toUpper = Hex.digits n := by
  have hall : ∀ d < 16, (Hex.digit d).toLower.toUpper = Hex.digit d := by decide
  rw [List.map_map, List.map_congr_left (g := id), List.map_id]
  intro c hc
  obtain ⟨d, hd, rfl⟩ := mem_digits hc
  exact hall d hd

theorem digits?_in_either_case {n : Nat} {digits : List Char}
    (h : digits = Hex.digits n ∨ digits = (Hex.digits n).map Char.toLower) :
    digits? 16 digits = some n := by
  rcases h with rfl | rfl
  · exact digits?_digits n
  · rw [← digits?_map_toUpper, toUpper_lower_digits, digits?_digits]

theorem printable_of_isInner {c : Char} (h : isInner c) : 33 ≤ c.toNat ∧ c.toNat ≤ 126 := by
  have hletter : ∀ base, prefixBase? c = some base → 33 ≤ c.toNat ∧ c.toNat ≤ 126 := by
    intro base hbase
    simp only [prefixBase?, ← Char.toNat_inj] at hbase
    grind
  have hdigit : ∀ d, digitIn? 16 c = some d → 48 ≤ c.toNat ∧ c.toNat ≤ 122 := by
    intro d hd
    have hvalue := (Option.filter_eq_some_iff.mp hd).1
    grind [digitValue?, isDigit]
  simp only [isInner, Bool.or_eq_true, beq_iff_eq, Option.isSome_iff_exists] at h
  rcases h with (rfl | ⟨base, hbase⟩) | ⟨d, hd⟩
  · decide
  · exact hletter base hbase
  · have hrange := hdigit d hd
    omega

theorem afterPrefix?_of_digits? {base : Nat} {cs : List Char} {n : Nat}
    (h : digits? base cs = some n) : afterPrefix? base cs = some n := by
  rw [afterPrefix?.eq_def]
  split
  · rw [digits?, digitIn?_underscore] at h
    cases h
  · exact h

theorem prefixBase?_eq_sixteen {c : Char} (h : prefixBase? c = some 16) : c = 'x' ∨ c = 'X' := by
  grind [prefixBase?]

theorem digits?_zero_letter {c : Char} (h : prefixBase? c = some 16) (rest : List Char) :
    digits? 16 ('0' :: c :: rest) = none := by
  have hzero : digitIn? 16 '0' = some 0 := by decide
  have hletter : digitIn? 16 'x' = none ∧ digitIn? 16 'X' = none := by decide
  rcases prefixBase?_eq_sixteen h with rfl | rfl <;>
    simp [digits?, digitsFrom, hzero, hletter]

theorem magnitude?_of_digits? {cs : List Char} {n : Nat} (h : digits? 16 cs = some n) :
    magnitude? .hexadecimal cs = some n := by
  by_cases hzero : ∃ c rest, cs = '0' :: c :: rest
  · obtain ⟨c, rest, rfl⟩ := hzero
    have hbase : prefixBase? c ≠ some 16 := by
      intro hmark
      rw [digits?_zero_letter hmark] at h
      cases h
    rw [magnitude?, if_neg hbase, h]
  · rw [magnitude?]
    · exact h
    · intro c rest hcs
      exact hzero ⟨c, rest, hcs⟩

theorem body_of_printable {cs : List Char} (h : ∀ c ∈ cs, 33 ≤ c.toNat ∧ c.toNat ≤ 126)
    (hne : cs ≠ []) : body (String.ofList cs) = cs := by
  have hblank : ∀ c ∈ cs, Text.isNumeralBlank c = false :=
    fun c hc => isNumeralBlank_of_printable (h c hc)
  have hascii : ∀ c ∈ cs, asciiChar c = id c := by
    intro c hc
    have hprintable := h c hc
    rw [asciiChar, if_pos (by omega), id_eq]
  have htrim : Text.trim Text.isNumeralBlank ([] ++ cs ++ []) = cs :=
    trim_surrounded (by simp) hblank hne (by simp)
  rw [List.nil_append, List.append_nil] at htrim
  rw [body, String.toList_ofList, htrim, List.map_congr_left hascii, List.map_id]

theorem splitSign_of_isInner {cs : List Char} (h : ∀ c ∈ cs, isInner c) :
    splitSign cs = (false, cs) := by
  have hsigns : isInner '-' = false ∧ isInner '+' = false := by decide
  fun_cases splitSign cs with
  | case1 rest => simp [hsigns] at h
  | case2 rest => simp [hsigns] at h
  | case3 rest hminus hplus => rfl

theorem readInt_of_isInner {base : Base} {cs : List Char} {n : Nat} (h : ∀ c ∈ cs, isInner c)
    (hmagnitude : magnitude? base cs = some n) (hne : cs ≠ []) :
    readInt base (String.ofList cs) = some (n : Int) := by
  have hbody := body_of_printable (fun c hc => printable_of_isInner (h c hc)) hne
  rw [readInt_eq, hbody, splitSign_of_isInner h, hmagnitude]
  rfl

theorem readInt_of_digits? {cs : List Char} {n : Nat} (h : digits? 16 cs = some n) :
    readInt .hexadecimal (String.ofList cs) = some (n : Int) := by
  apply readInt_of_isInner (isInner_of_digits? (by decide) h) (magnitude?_of_digits? h)
  rintro rfl
  cases h

theorem readInt_of_marked {c : Char} (hmark : prefixBase? c = some 16) {cs : List Char} {n : Nat}
    (h : digits? 16 cs = some n) :
    readInt .hexadecimal (String.ofList ('0' :: c :: cs)) = some (n : Int) := by
  have hafter := afterPrefix?_of_digits? h
  have hmagnitude : magnitude? .hexadecimal ('0' :: c :: cs) = some n := by
    rw [magnitude?, if_pos hmark, hafter]
  exact readInt_of_isInner (isInner_of_prefixed hmark hafter) hmagnitude (List.cons_ne_nil _ _)

theorem readAddress_of_dollar {s : String} {cs : List Char} {n : Int}
    (htrim : Text.trim Text.isBlank s.toList = '$' :: cs)
    (hread : readInt .hexadecimal (String.ofList cs) = some n) : readAddress s = .ok n := by
  simp only [readAddress, htrim, hread]

theorem readAddress_of_bare {s : String} {cs : List Char} {n : Int}
    (htrim : Text.trim Text.isBlank s.toList = cs) (hbare : '$' ∉ cs)
    (hread : readInt .hexadecimal (String.ofList cs) = some n) : readAddress s = .ok n := by
  cases cs with
  | nil => simp only [readAddress, htrim, hread]
  | cons c rest =>
      have hc : c ≠ '$' := fun hc => hbare (hc ▸ List.mem_cons_self)
      simp [readAddress, htrim, hc, hread, -String.ofList_cons]

theorem trim_marked {before mark cs after : List Char} (hbefore : ∀ c ∈ before, Text.isBlank c)
    (hmark : mark ∈ marks) {n : Nat} (h : digits? 16 cs = some n)
    (hafter : ∀ c ∈ after, Text.isBlank c) :
    Text.trim Text.isBlank (before ++ (mark ++ cs) ++ after) = mark ++ cs := by
  have hunblank : ∀ c ∈ mark, Text.isBlank c = false := by
    have hall : marks.all (fun mark => mark.all fun c => !Text.isBlank c) = true := by decide
    simpa using List.all_eq_true.mp hall mark hmark
  have hinner := isInner_of_digits? (by decide) h
  apply trim_surrounded hbefore _ _ hafter
  · intro c hc
    rcases List.mem_append.mp hc with hleft | hright
    · exact hunblank c hleft
    · exact isBlank_of_printable (printable_of_isInner (hinner c hright))
  · intro hnil
    rw [List.append_eq_nil_iff] at hnil
    rw [hnil.2] at h
    cases h

theorem readAddress_of_digits? {before mark cs after : List Char}
    (hbefore : ∀ c ∈ before, Text.isBlank c) (hmark : mark ∈ marks) {n : Nat}
    (h : digits? 16 cs = some n) (hafter : ∀ c ∈ after, Text.isBlank c) :
    readAddress (String.ofList (before ++ (mark ++ cs) ++ after)) = .ok (n : Int) := by
  have hdollar : '$' ∉ cs := by
    intro hc
    have hinner := isInner_of_digits? (by decide) h '$' hc
    revert hinner
    decide
  have htrim := trim_marked hbefore hmark h hafter
  rw [← String.toList_ofList (l := before ++ (mark ++ cs) ++ after)] at htrim
  -- a dollar sign is cut off first; the other marks are left to the numeral
  simp only [marks, List.mem_cons, List.not_mem_nil, or_false] at hmark
  rcases hmark with rfl | rfl | rfl | rfl
  · exact readAddress_of_bare htrim hdollar (readInt_of_digits? h)
  · exact readAddress_of_bare htrim (by simpa using hdollar) (readInt_of_marked (by decide) h)
  · exact readAddress_of_bare htrim (by simpa using hdollar) (readInt_of_marked (by decide) h)
  · exact readAddress_of_dollar htrim (readInt_of_digits? h)

theorem readAddress_of_spells {n : Nat} {s : String} (h : Spells n s) :
    readAddress s = .ok (n : Int) := by
  obtain ⟨zeros, hbefore, hmark, hdigits, hafter⟩ := h
  exact readAddress_of_digits? hbefore hmark (digits?_zeros (digits?_in_either_case hdigits) zeros)
    hafter

def printedAddress (l : Line) : String :=
  String.ofList ((l.format.toList.splitOn '\t').headD [])

theorem printedAddress_eq (l : Line) : printedAddress l = Hex.padded 4 l.address := by
  rw [printedAddress, columns_format, List.headD_cons, String.ofList_toList]

theorem spells_padded (width n : Nat) : Spells n (Hex.padded width n) := by
  have htext : Spells n (String.ofList
      ([] ++ ([] ++ (List.replicate (width - (Hex.digits n).length) '0' ++ Hex.digits n)) ++ [])) :=
    .mk _ (by simp) (by decide) (.inl rfl) (by simp)
  rw [List.nil_append, List.nil_append, List.append_nil, ← toList_padded] at htext
  rwa [String.ofList_toList] at htext

theorem words_drop (data : List UInt8) (k : Nat) :
    words (data.drop (2 * k)) = (words data).drop k := by
  apply List.ext_getElem?
  intro i
  rw [getElem?_words, List.getElem?_drop, List.getElem?_drop, List.getElem?_drop, getElem?_words,
    Nat.mul_add, Nat.add_assoc]

theorem drop_mapIdx {α β : Type} (f : Nat → α → β) (xs : List α) (k : Nat) :
    (xs.mapIdx f).drop k = (xs.drop k).mapIdx fun i x => f (k + i) x := by
  apply List.ext_getElem?
  intro i
  simp

theorem inside_of_lines {image : List UInt8} {start : Int} {ls : List Line}
    (h : lines image start = .ok ls) : 0x200 ≤ start ∧ start ≤ 0xFFF := by
  by_cases hinside : 0x200 ≤ start ∧ start ≤ 0xFFF
  · exact hinside
  · rw [lines_of_outside hinside] at h
    cases h

theorem address_of_lines {image : List UInt8} {start : Int} {ls : List Line}
    (h : lines image start = .ok ls) {k : Nat} (hk : k < ls.length) :
    (ls[k].address : Int) = start + 2 * k := by
  obtain ⟨ls', hls, hcovers⟩ := covers_lines (inside_of_lines h) image
  obtain rfl := Except.ok.inj (h.symm.trans hls)
  exact hcovers.address k hk

theorem lines_tail {image : List UInt8} {start : Int} {ls : List Line}
    (h : lines image start = .ok ls) {k : Nat} (hlast : start + 2 * k ≤ 0xFFF) :
    lines image (start + 2 * k) = .ok (ls.drop k) := by
  have hstart := inside_of_lines h
  have hoffset : (start + 2 * k).toNat - programStart = start.toNat - programStart + 2 * k := by
    simp only [programStart]
    omega
  have hfirst : (start + 2 * k).toNat = start.toNat + 2 * k := by omega
  rw [lines_of_inside hstart] at h
  rw [lines_of_inside (by omega), ← Except.ok.inj h, drop_mapIdx, hoffset, ← List.drop_drop,
    words_drop, hfirst]
  simp only [Nat.mul_add, Nat.add_assoc]

/-- Whatever is written of a number as an address is read as the number, what is printed before a
line above all; and a listing from there on is the rest of the first one. -/
theorem printed_addresses_reread :
    (∀ n s, Spells n s → readAddress s = .ok (n : Int)) ∧
      (∀ l : Line, readAddress (printedAddress l) = .ok (l.address : Int)) ∧
      ∀ image start ls, lines image start = .ok ls → ∀ k (hk : k < ls.length),
        ls[k].address ≤ 0xFFF →
          ∃ a, readAddress (printedAddress ls[k]) = .ok a ∧ lines image a = .ok (ls.drop k) ∧
            listing image a = .ok (header :: (ls.drop k).map Line.format) := by
  have hprinted (l : Line) : readAddress (printedAddress l) = .ok (l.address : Int) := by
    rw [printedAddress_eq]
    exact readAddress_of_spells (spells_padded 4 l.address)
  refine ⟨fun _ _ => readAddress_of_spells, hprinted, ?_⟩
  intro image start ls hlines k hk hinside
  have haddress := address_of_lines hlines hk
  have htail := lines_tail hlines (k := k) (by omega)
  rw [← haddress] at htail
  refine ⟨ls[k].address, hprinted _, htail, ?_⟩
  rw [listing, htail]
  rfl

theorem printed_addresses_of_odd_image :
    let image : List UInt8 := [0x12, 0x60, 0x05, 0xFF, 0xFF]
    let ls : List Line := [⟨0x201, 0x6005, some .setByte⟩, ⟨0x203, 0xFFFF, none⟩]
    Spells 0xB1 " 0b1\n" ∧ readAddress " 0b1\n" = .ok 0xB1 ∧ lines image 0x201 = .ok ls ∧
      printedAddress ls[1] = "0203" ∧
      ∃ a, readAddress (printedAddress ls[1]) = .ok a ∧ lines image a = .ok (ls.drop 1) ∧
        listing image a = .ok (header :: (ls.drop 1).map Line.format) := by
  intro image ls
  have hdigits : Hex.digits 0xB1 = ['B', '1'] := by
    rw [Hex.digits, if_neg (by decide), Hex.digits_of_lt (by decide)]
    rfl
  have hlower : ['b', '1'] = (Hex.digits 0xB1).map Char.toLower := by
    rw [hdigits]
    decide
  have hspells : Spells 0xB1 (String.ofList
      ([' '] ++ ([] ++ (List.replicate 1 '0' ++ ['b', '1'])) ++ ['\n'])) :=
    .mk 1 (List.forall_mem_singleton.mpr (by decide)) (by decide) (.inr hlower)
      (List.forall_mem_singleton.mpr (by decide))
  have hlines : lines image 0x201 = .ok ls := by decide
  have hprinted : printedAddress ls[1] = "0203" := by
    rw [printedAddress_eq]
    simp [ls, Hex.padded, Hex.digits, Hex.digit]
  obtain ⟨hread, -, htail⟩ := printed_addresses_reread
  exact ⟨hspells, hread _ _ hspells, hlines, hprinted,
    htail image 0x201 ls hlines 1 (by decide) (by decide)⟩

end Chip8.Proofs.PrintedAddresses
