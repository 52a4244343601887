import Chip8.Proofs.NumeralCharacters
import Chip8.Speed

/-!
The texts that are speeds. The name of a preset is looked up in a text without blanks at its ends,
in upper case and with underscores for hyphens, and a numeral is read from the same. So a hyphen in
a numeral is read as an underscore and the ligature of two letters f as two digits: each numeral of
a positive number is accepted, and some texts that are none.
-/

namespace Chip8.Proofs.SpeedGrammar

open Chip8.Numeral
open Chip8.Proofs.NumeralCharacters

def stripped (s : String) : List Char :=
  Text.trim Text.isBlank s.toList

/-- How a character is taken where a numeral is read. -/
def loosen (c : Char) : List Char :=
  if c = '-' then ['_'] else if c = '\ufb00' then ['f', 'f'] else [c]

def loosened (cs : List Char) : List Char :=
  cs.flatMap loosen

/-- What a text stands for: the preset that it names, or the positive number of which it is a
numeral after `spell`. -/
inductive Means (spell : List Char → List Char) (s : String) : Speed → Prop
  | preset {p : Preset} (h : Speed.normalize s = p.name) : Means spell s (.preset p)
  | rate {n : Nat} (hpositive : 0 < n)
      (h : readInt .prefixed (String.ofList (spell (stripped s))) = some (n : Int)) :
      Means spell s (.rate n)

/-- What is accepted of a text, and what is said of one that is refused. -/
structure Grammar (s : String) : Prop where
  accepted : ∀ speed, Speed.parse (.text s) = .ok speed ↔ Means loosened s speed
  documented : ∀ speed, Means id s speed → Speed.parse (.text s) = .ok speed
  numeral_iff : ∀ n, Speed.parse (.text s) = .ok (.rate n) →
    (Means id s (.rate n) ↔ '-' ∉ stripped s ∧ '\ufb00' ∉ stripped s)
  refused : ∀ err, Speed.parse (.text s) = .error err →
    err = .unknownSpeed s ∨ err = .speedNotPositive (.int 0)

/-- A character in upper case, with an underscore for a hyphen. -/
def raised (c : Char) : List Char :=
  (Text.upperChar c).map fun c => if c = '-' then '_' else c

theorem normalize_eq (s : String) :
    Speed.normalize s = String.ofList ((stripped s).flatMap raised) := by
  rw [Speed.normalize, Text.upper, List.map_flatMap]
  rfl

/-- The characters beyond ASCII whose upper case is in ASCII and has a letter that no numeral
has. -/
def foreign : List Char :=
  ['\u00df', '\u0131', '\u017f', '\ufb01', '\ufb02', '\ufb03', '\ufb04', '\ufb05', '\ufb06']

theorem upperChar_cases (c : Char) :
    Text.upperChar c = [c.toUpper] ∨ c = '\ufb00' ∨ c ∈ foreign := by
  rw [Text.upperChar]
  split
  case h_11 => exact .inl rfl
  all_goals
    rename_i hcode
    right
    simp [foreign, ← Char.toNat_inj, hcode]

theorem raised_eq_or (c : Char) : raised c = (loosen c).map Char.toUpper ∨ c ∈ foreign := by
  -- Upper case does not matter to a numeral, so a foreign character is the only one that it may
  -- take another way than `loosen` does.
  rcases upperChar_cases c with hplain | rfl | hforeign
  · left
    have hligature : c ≠ '\ufb00' := by
      rintro rfl
      revert hplain
      decide
    have hhyphen : c.toUpper = '-' ↔ c = '-' := toUpper_eq_iff (by decide) (by decide)
    simp only [raised, hplain, List.map_singleton, loosen, hhyphen, if_neg hligature]
    split <;> rfl
  · exact .inl rfl
  · exact .inr hforeign

/-- The letters that upper case makes of foreign characters and no numeral has. -/
def telltale : List Char :=
  ['S', 'I', 'L']

theorem raised_foreign {c : Char} (h : c ∈ foreign) : ∃ d ∈ raised c, d ∈ telltale := by
  have hall : foreign.all (fun c => (raised c).any telltale.contains) = true := by decide
  have hany := List.all_eq_true.mp hall c h
  obtain ⟨d, hd, htelltale⟩ := List.any_eq_true.mp hany
  exact ⟨d, hd, List.contains_iff_mem.mp htelltale⟩

theorem mem_loosen_foreign {c : Char} (h : c ∈ foreign) : c ∈ loosen c := by
  have hother : '-' ∉ foreign ∧ '\ufb00' ∉ foreign := by decide
  rw [loosen, if_neg (ne_of_mem_of_not_mem h hother.1), if_neg (ne_of_mem_of_not_mem h hother.2)]
  exact List.mem_singleton_self c

theorem readInt_of_mem {base : Base} {cs : List Char} {c : Char} (hc : c ∈ cs)
    (h : c ∈ '\ufb00' :: (foreign ++ telltale)) : readInt base (String.ofList cs) = none := by
  have hall : ('\ufb00' :: (foreign ++ telltale)).all (fun c => !mayStand c) = true := by decide
  have hnone := List.all_eq_true.mp hall c h
  rw [Bool.not_eq_true'] at hnone
  exact readInt_of_not_mayStand hc hnone base

theorem readInt_raised (base : Base) (cs : List Char) :
    readInt base (String.ofList (cs.flatMap raised)) =
      readInt base (String.ofList (loosened cs)) := by
  by_cases hforeign : ∃ c ∈ cs, c ∈ foreign
  -- neither text is a numeral: one has a telltale letter, and one the foreign character itself
  · obtain ⟨c, hc, hmem⟩ := hforeign
    obtain ⟨d, hd, htelltale⟩ := raised_foreign hmem
    have hraised : d ∈ cs.flatMap raised := List.mem_flatMap.mpr ⟨c, hc, hd⟩
    have hloosened : c ∈ loosened cs := List.mem_flatMap.mpr ⟨c, hc, mem_loosen_foreign hmem⟩
    rw [readInt_of_mem hraised (List.mem_cons_of_mem _ (List.mem_append_right _ htelltale)),
      readInt_of_mem hloosened (List.mem_cons_of_mem _ (List.mem_append_left _ hmem))]
  · have hupper : cs.flatMap raised = (loosened cs).map Char.toUpper := by
      rw [loosened, List.map_flatMap, List.flatMap_def, List.flatMap_def]
      congr 1
      apply List.map_congr_left
      intro c hc
      exact (raised_eq_or c).resolve_right fun hmem => hforeign ⟨c, hc, hmem⟩
    rw [hupper, readInt_map_toUpper]

theorem readInt_normalize (s : String) :
    readInt .prefixed (Speed.normalize s) =
      readInt .prefixed (String.ofList (loosened (stripped s))) := by
  rw [normalize_eq, readInt_raised]

theorem ofName?_eq_some {key : String} {p : Preset} (h : Preset.ofName? key = some p) :
    key = p.name := by
  have hsame := List.find?_some h
  rw [beq_iff_eq] at hsame
  exact hsame.symm

theorem readInt_name (p : Preset) : readInt .prefixed p.name = none := by
  cases p <;> decide

theorem parse_of_name {s : String} {p : Preset} (h : Speed.normalize s = p.name) :
    Speed.parse (.text s) = .ok (.preset p) := by
  simp only [Speed.parse, h, Preset.ofName?_name]

theorem parse_of_numeral {s : String} {n : Int}
    (h : readInt .prefixed (String.ofList (loosened (stripped s))) = some n) :
    Speed.parse (.text s) = Speed.ofInt n (.int n) := by
  rw [← readInt_normalize] at h
  have hnone : Preset.ofName? (Speed.normalize s) = none := by
    rw [Option.eq_none_iff_forall_ne_some]
    intro p hname
    rw [ofName?_eq_some hname, readInt_name] at h
    cases h
  simp only [Speed.parse, hnone, h]

theorem parse_cases (s : String) :
    (∃ p : Preset, Speed.normalize s = p.name ∧ Speed.parse (.text s) = .ok (.preset p)) ∨
      (∃ n, readInt .prefixed (String.ofList (loosened (stripped s))) = some n ∧
        Speed.parse (.text s) = Speed.ofInt n (.int n)) ∨
      Speed.parse (.text s) = .error (.unknownSpeed s) := by
  cases hname : Preset.ofName? (Speed.normalize s) with
  | some p =>
      have hkey := ofName?_eq_some hname
      exact .inl ⟨p, hkey, parse_of_name hkey⟩
  | none =>
      right
      cases hread : readInt .prefixed (String.ofList (loosened (stripped s))) with
      | some n => exact .inl ⟨n, rfl, parse_of_numeral hread⟩
      | none =>
          right
          simp only [Speed.parse, hname, readInt_normalize, hread]

theorem ofInt_eq_ok {n : Int} {value : HostValue} {speed : Speed}
    (h : Speed.ofInt n value = .ok speed) : 0 < n ∧ speed = .rate n.toNat := by
  rw [Speed.ofInt] at h
  split at h
  · cases h
  · cases h
    exact ⟨by omega, rfl⟩

theorem ofInt_natCast {n : Nat} (h : 0 < n) (value : HostValue) :
    Speed.ofInt n value = .ok (.rate n) := by
  rw [Speed.ofInt, if_neg (by omega), Int.toNat_natCast]

theorem parse_ok_iff (s : String) (speed : Speed) :
    Speed.parse (.text s) = .ok speed ↔ Means loosened s speed := by
  constructor
  · intro h
    rcases parse_cases s with ⟨p, hname, hparse⟩ | ⟨n, hread, hparse⟩ | hparse <;> rw [hparse] at h
    · cases h
      exact .preset hname
    · obtain ⟨hpositive, rfl⟩ := ofInt_eq_ok h
      apply Means.rate (by omega)
      rw [hread, Int.toNat_of_nonneg (by omega)]
    · cases h
  · intro h
    cases h with
    | preset hname => exact parse_of_name hname
    | rate hpositive hread => rw [parse_of_numeral hread, ofInt_natCast hpositive]

theorem loosened_eq_self {cs : List Char} (hhyphen : '-' ∉ cs) (hligature : '\ufb00' ∉ cs) :
    loosened cs = cs := by
  have hsingle : ∀ c ∈ cs, loosen c = [c] := by
    intro c hc
    have hother : c ≠ '-' ∧ c ≠ '\ufb00' :=
      ⟨ne_of_mem_of_not_mem hc hhyphen, ne_of_mem_of_not_mem hc hligature⟩
    rw [loosen, if_neg hother.1, if_neg hother.2]
  rw [loosened, List.flatMap_def, List.map_congr_left hsingle, ← List.flatMap_def,
    List.flatMap_singleton']

theorem plain_of_numeral {cs : List Char} {n : Nat} (hpositive : 0 < n)
    (h : readInt .prefixed (String.ofList cs) = some (n : Int)) : '-' ∉ cs ∧ '\ufb00' ∉ cs := by
  constructor
  · intro hc
    have hother : Text.isNumeralBlank '-' = false ∧ isInner (asciiChar '-') = false ∧
        asciiChar '-' ≠ '+' := by
      decide
    have hcases := of_mem_numeral h (c := '-') (by rwa [String.toList_ofList])
    simp only [hother, Bool.false_eq_true, false_or] at hcases
    omega
  · intro hc
    rw [readInt_of_mem hc List.mem_cons_self] at h
    cases h

theorem hyphen_not_mem_loosened (cs : List Char) : '-' ∉ loosened cs := by
  intro h
  obtain ⟨c, -, hc⟩ := List.mem_flatMap.mp h
  grind [loosen]

theorem parse_of_documented {s : String} {speed : Speed} (h : Means id s speed) :
    Speed.parse (.text s) = .ok speed := by
  rw [parse_ok_iff]
  cases h with
  | preset hname => exact .preset hname
  | rate hpositive hread =>
      rw [id_eq] at hread
      obtain ⟨hhyphen, hligature⟩ := plain_of_numeral hpositive hread
      exact .rate hpositive (by rwa [loosened_eq_self hhyphen hligature])

theorem means_iff_of_parse {s : String} {n : Nat} (h : Speed.parse (.text s) = .ok (.rate n)) :
    Means id s (.rate n) ↔ '-' ∉ stripped s ∧ '\ufb00' ∉ stripped s := by
  constructor
  · rintro ⟨⟩
    rename_i hpositive hread
    exact plain_of_numeral hpositive hread
  · rintro ⟨hhyphen, hligature⟩
    cases (parse_ok_iff s _).mp h with
    | rate hpositive hread =>
        rw [loosened_eq_self hhyphen hligature] at hread
        exact .rate hpositive hread

theorem error_of_parse {s : String} {err : Error} (h : Speed.parse (.text s) = .error err) :
    err = .unknownSpeed s ∨ err = .speedNotPositive (.int 0) := by
  rcases parse_cases s with ⟨p, hname, hparse⟩ | ⟨n, hread, hparse⟩ | hparse <;> rw [hparse] at h
  · cases h
  · right
    have hnonneg : ¬ n < 0 := by
      intro hnegative
      have hhyphen := hyphen_of_negative hread hnegative
      rw [String.toList_ofList] at hhyphen
      exact hyphen_not_mem_loosened _ hhyphen
    rw [Speed.ofInt] at h
    split at h
    · cases h
      rw [show n = 0 by omega]
    · cases h
  · cases h
    exact .inl rfl

/-- A text is accepted as the preset that it names, or as the positive number of which it is a
numeral once hyphens are underscores and the ligature is two letters f. Each numeral of a positive
number is accepted. -/
theorem text_grammar (s : String) : Grammar s where
  accepted := parse_ok_iff s
  documented _ := parse_of_documented
  numeral_iff _ := means_iff_of_parse
  refused _ := error_of_parse

/-- Two digits with a hyphen between them are accepted as a number, and stand for nothing. -/
theorem hyphenated_digits_accepted :
    Speed.parse (.text "1-0") = .ok (.rate 10) ∧ ¬ ∃ speed, Means id "1-0" speed := by
  have hname : ∀ p ∈ Preset.all, Speed.normalize "1-0" ≠ p.name := by decide
  have hnumeral : readInt .prefixed (String.ofList (stripped "1-0")) = none := by decide
  refine ⟨by decide, ?_⟩
  rintro ⟨speed, hmeans⟩
  cases hmeans with
  | @preset p h => exact hname p (by cases p <;> decide) h
  | rate hpositive h => cases hnumeral.symm.trans h

end Chip8.Proofs.SpeedGrammar
