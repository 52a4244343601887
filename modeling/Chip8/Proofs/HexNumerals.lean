import Chip8.Hex
import Chip8.Numeral.Integer

namespace Chip8.Proofs.HexNumerals

open Chip8.Numeral

theorem digitIn?_digit {d : Nat} (h : d < 16) : digitIn? 16 (Hex.digit d) = some d := by
  have hall : ∀ d < 16, digitIn? 16 (Hex.digit d) = some d := by decide
  exact hall d h

theorem digitIn?_underscore (base : Nat) : digitIn? base '_' = none := by
  simp [digitIn?, digitValue?, isDigit]

theorem digitsFrom_cons {base d : Nat} {c : Char} (h : digitIn? base c = some d) (value : Nat)
    (cs : List Char) : digitsFrom base value (c :: cs) = digitsFrom base (value * base + d) cs := by
  have hc : c ≠ '_' := by
    rintro rfl
    rw [digitIn?_underscore] at h
    cases h
  cases cs with
  | nil => simp [digitsFrom, h]
  | cons c' rest => simp [digitsFrom, h, hc]

theorem digitsFrom_concat {base d : Nat} {c : Char} (hc : digitIn? base c = some d) {cs : List Char}
    {value n : Nat} (h : digitsFrom base value cs = some n) :
    digitsFrom base value (cs ++ [c]) = some (n * base + d) := by
  -- By induction on what is read: each digit is read alone, or with the underscore before it.
  induction value, cs using digitsFrom.induct base with
  | case1 value =>
      cases h
      rw [List.nil_append, digitsFrom_cons hc, digitsFrom]
  | case2 value c' rest d' hd ih =>
      simp only [digitsFrom, hd] at h
      simpa only [List.cons_append, digitsFrom, hd] using ih h
  | case3 value c' rest hnone =>
      simp only [digitsFrom, hnone] at h
      cases h
  | case4 value c' rest hc' d' hd ih =>
      rw [digitsFrom_cons hd] at h
      rw [List.cons_append, digitsFrom_cons hd]
      exact ih h
  | case5 value c' rest hc' hnone =>
      rw [digitsFrom] at h
      · simp only [hnone] at h
        cases h
      · exact hc'

theorem digits?_concat {base d : Nat} {c : Char} (hc : digitIn? base c = some d) {cs : List Char}
    {n : Nat} (h : digits? base cs = some n) :
    digits? base (cs ++ [c]) = some (n * base + d) := by
  cases cs with
  | nil => cases h
  | cons c' rest =>
      simp only [digits?, List.cons_append] at h ⊢
      split at h
      · exact digitsFrom_concat hc h
      · cases h

theorem digits?_digits (n : Nat) : digits? 16 (Hex.digits n) = some n := by
  induction n using Hex.digits.induct with
  | case1 n hn =>
      rw [Hex.digits_of_lt hn, digits?, digitIn?_digit hn]
      rfl
  | case2 n hn ih =>
      have hlast := digits?_concat (digitIn?_digit (Nat.mod_lt n (by decide : 0 < 16))) ih
      rw [Hex.digits, if_neg hn, hlast]
      congr 1
      omega

theorem digits?_zero_cons {cs : List Char} {n : Nat} (h : digits? 16 cs = some n) :
    digits? 16 ('0' :: cs) = some n := by
  have hzero : digitIn? 16 '0' = some 0 := by decide
  cases cs with
  | nil => cases h
  | cons c rest =>
      simp only [digits?] at h
      simp only [digits?, hzero]
      split at h
      · rename_i d hd
        rw [digitsFrom_cons hd, Nat.zero_mul, Nat.zero_add]
        exact h
      · cases h

theorem digits?_zeros {cs : List Char} {n : Nat} (h : digits? 16 cs = some n) (zeros : Nat) :
    digits? 16 (List.replicate zeros '0' ++ cs) = some n := by
  induction zeros with
  | zero => exact h
  | succ zeros ih => exact digits?_zero_cons ih

theorem toList_padded (width n : Nat) :
    (Hex.padded width n).toList =
      List.replicate (width - (Hex.digits n).length) '0' ++ Hex.digits n := by
  have hsign : ¬ (n : Int) < 0 := by omega
  simp only [Hex.padded, if_neg hsign, String.toList_ofList, Int.natAbs_natCast]

theorem digits?_padded (width n : Nat) : digits? 16 (Hex.padded width n).toList = some n := by
  rw [toList_padded]
  exact digits?_zeros (digits?_digits n) _

theorem padded_injective {width n n' : Nat} (h : Hex.padded width n = Hex.padded width n') :
    n = n' := by
  have hread := digits?_padded width n
  rw [h, digits?_padded] at hread
  exact (Option.some.inj hread).symm

theorem mem_digits {n : Nat} {c : Char} (h : c ∈ Hex.digits n) : ∃ d < 16, c = Hex.digit d := by
  induction n using Hex.digits.induct with
  | case1 n hn =>
      rw [Hex.digits_of_lt hn, List.mem_singleton] at h
      exact ⟨n, hn, h⟩
  | case2 n hn ih =>
      rw [Hex.digits, if_neg hn, List.mem_append, List.mem_singleton] at h
      rcases h with hfirst | hlast
      · exact ih hfirst
      · exact ⟨n % 16, Nat.mod_lt n (by decide), hlast⟩

theorem mem_padded {width n : Nat} {c : Char} (h : c ∈ (Hex.padded width n).toList) :
    ∃ d < 16, c = Hex.digit d := by
  rw [toList_padded, List.mem_append] at h
  rcases h with hzero | hdigit
  · exact ⟨0, by decide, List.eq_of_mem_replicate hzero⟩
  · exact mem_digits hdigit

end Chip8.Proofs.HexNumerals
