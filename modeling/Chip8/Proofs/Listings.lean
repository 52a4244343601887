import Chip8.Disassembly
import Chip8.Proofs.Faults
import Chip8.Proofs.Loading
import Chip8.Proofs.MemoryCells

namespace Chip8.Proofs.Listings

open Chip8.Disassembly
open Chip8.Emulator
open Chip8.Proofs.Faults
open Chip8.Proofs.Loading
open Chip8.Proofs.MemoryCells
open Chip8.Proofs.Stepping

theorem wordsOnto_append (first done : Array Nat) (data : List UInt8) :
    wordsOnto (first ++ done) data = first ++ wordsOnto done data := by
  induction done, data using wordsOnto.induct with
  | case1 done => simp only [wordsOnto]
  | case2 done high => simp only [wordsOnto, Array.push_append]
  | case3 done high low rest ih => simp only [wordsOnto, ← ih, Array.push_append]

theorem words_cons_cons (high low : UInt8) (rest : List UInt8) :
    words (high :: low :: rest) = (high.toNat * 256 + low.toNat) :: words rest := by
  have hsplit := wordsOnto_append #[high.toNat * 256 + low.toNat] #[] rest
  rw [Array.append_empty] at hsplit
  simp only [words, wordsOnto, List.push_toArray, List.nil_append, hsplit, Array.toList_append,
    List.cons_append]

theorem getElem?_words (data : List UInt8) (k : Nat) :
    (words data)[k]? =
      data[2 * k]?.map fun high => high.toNat * 256 + (data[2 * k + 1]?.getD 0).toNat := by
  induction k generalizing data with
  | zero =>
      rcases data with _ | ⟨high, _ | ⟨low, rest⟩⟩
      · rfl
      · simp [words, wordsOnto]
      · simp [words_cons_cons]
  | succ k ih =>
      rcases data with _ | ⟨high, _ | ⟨low, rest⟩⟩
      · rfl
      · rfl
      · rw [words_cons_cons, List.getElem?_cons_succ, ih rest, Nat.mul_add, Nat.mul_one,
          Nat.add_right_comm, List.getElem?_cons_succ, List.getElem?_cons_succ,
          List.getElem?_cons_succ, List.getElem?_cons_succ]

theorem mem_lines {image : List UInt8} {start : Int} {ls : List Line}
    (h : lines image start = .ok ls) {r : Line} (hr : r ∈ ls) :
    ∃ k high, image[k]? = some high ∧
      r = lineOf (programStart + k) (high.toNat * 256 + (image[k + 1]?.getD 0).toNat) := by
  rw [lines] at h
  split at h
  · have hls := Except.ok.inj h
    rw [← hls] at hr
    obtain ⟨k, hk, rfl⟩ := List.mem_mapIdx.mp hr
    have hword := getElem?_words (image.drop (start.toNat - programStart)) k
    rw [List.getElem?_eq_getElem hk, List.getElem?_drop, List.getElem?_drop] at hword
    obtain ⟨high, hhigh, hsame⟩ := Option.map_eq_some_iff.mp hword.symm
    refine ⟨start.toNat - programStart + 2 * k, high, hhigh, ?_⟩
    have haddress : start.toNat + 2 * k = programStart + (start.toNat - programStart + 2 * k) := by
      omega
    rw [← hsame, haddress, Nat.add_assoc]
  · cases h

theorem read_program (program : List UInt8) {k : Nat} (hk : programStart + k < memorySize) :
    (Memory.initial.loadProgram program).2.read (programStart + k : Nat) =
      program[k]?.getD 0 := by
  have hregion : k < maxProgramSize := by
    rw [maxProgramSize]
    omega
  have hfont : font.length ≤ programStart + k := by
    rw [show font.length = 80 from rfl, programStart]
    omega
  have hzero : Memory.initial.read (programStart + k : Nat) = 0 := by
    rw [read_initial hk, List.getD_eq_getElem?_getD, List.getElem?_eq_none hfont,
      Option.getD_none]
  rw [read_loadProgram _ _ hk, if_neg (by omega), hzero, Nat.add_sub_cancel_left,
    List.getElem?_take_of_lt hregion]

def placed (e : Emulator) (address : Int) : Emulator :=
  { e with machine := { e.machine with registers := { e.machine.registers with pc := address } } }

theorem nextWord_placed {e : Emulator} {program : List UInt8}
    (hmemory : e.machine.memory = (Memory.initial.loadProgram program).2) {k : Nat}
    (hk : programStart + k + 1 < memorySize) :
    (placed e (programStart + k : Nat)).nextWord =
      (program[k]?.getD 0).toNat * 256 + (program[k + 1]?.getD 0).toNat := by
  have hhigh := read_program program (k := k) (by omega)
  have hlow := read_program program (k := k + 1) (by omega)
  have hnext : ((programStart + k : Nat) : Int) + 1 = (programStart + (k + 1) : Nat) := by
    omega
  simp only [nextWord, placed, hmemory, Memory.readWord]
  rw [hhigh, hnext, hlow]

theorem nextWord_placed_last {e : Emulator} {program : List UInt8}
    (hmemory : e.machine.memory = (Memory.initial.loadProgram program).2) :
    (placed e 0xFFF).nextWord = (program[0xDFF]?.getD 0).toNat * 256 + 0xF0 := by
  have hhigh := read_program program (k := 0xDFF) (by decide)
  have hlow : (Memory.initial.loadProgram program).2.read 0x1000 = 0xF0 := by
    have hfirst := read_loadProgram Memory.initial program (a := 0) (by decide)
    rw [if_pos (by decide), read_initial (by decide)] at hfirst
    rw [read_congr _ (show (0x1000 : Int) % 4096 = 0 % 4096 by decide)]
    exact hfirst
  simp only [nextWord, placed, hmemory, Memory.readWord]
  rw [show (0xFFF : Int) + 1 = 0x1000 from rfl, hlow,
    show (0xFFF : Int) = (programStart + 0xDFF : Nat) from rfl, hhigh]
  rfl

/-- What a line of a listing says of an emulator that has loaded its image. -/
structure Follows (e : Emulator) (r : Line) : Prop where
  agrees_iff : (placed e r.address).nextWord = r.word ↔ r.address < 0xFFF ∨ r.word % 256 = 0xF0
  last : r.address = 0xFFF → (placed e r.address).nextWord = r.word / 256 * 256 + 0xF0
  entry : (placed e r.address).nextWord = r.word →
    Opcode.lookup (placed e r.address).nextWord = r.opcode
  illegal : (placed e r.address).nextWord = r.word → ListenersReturn (placed e r.address) →
    ((placed e r.address).step.1 = .error (.fault (.illegalOpcode r.address r.word)) ↔
      r.opcode = none)

theorem follows_lineOf {e : Emulator} (hstop : e.stopped = false) {address word : Nat}
    (hagrees : (placed e address).nextWord = word ↔ address < 0xFFF ∨ word % 256 = 0xF0)
    (hlast : address = 0xFFF → (placed e address).nextWord = word / 256 * 256 + 0xF0) :
    Follows e (lineOf address word) where
  agrees_iff := hagrees
  last := hlast
  entry hword := by
    rw [hword]
    rfl
  illegal hword hreturn := by
    change (placed e address).nextWord = word at hword
    have hplaced : (placed e address).stopped = false := hstop
    have hopcode : (lineOf address word).opcode = Opcode.lookup (placed e address).nextWord :=
      congrArg Opcode.lookup (congrArg Nat.cast hword.symm)
    rw [hopcode]
    constructor
    · intro herror
      exact (step_illegalOpcode_iff hplaced hreturn).mp ⟨_, _, herror⟩
    · intro hnone
      have hstep := congrArg Prod.fst (step_eq_of_lookup_none hplaced hnone)
      rw [hword] at hstep
      exact hstep

theorem follows_of_bytes {e : Emulator} (hstop : e.stopped = false) {program : List UInt8}
    (hmemory : e.machine.memory = (Memory.initial.loadProgram program).2) {k : Nat} {high : UInt8}
    (hhigh : program[k]? = some high) (hk : programStart + k ≤ 0xFFF) :
    Follows e (lineOf (programStart + k)
      (high.toNat * 256 + (program[k + 1]?.getD 0).toNat)) := by
  have hlow := (program[k + 1]?.getD 0).toNat_lt
  have hbyte : program[k]?.getD 0 = high := by rw [hhigh, Option.getD_some]
  rcases Nat.lt_or_eq_of_le hk with hinside | hlast
  · have hword := nextWord_placed hmemory (k := k) (by rw [memorySize]; omega)
    rw [hbyte] at hword
    apply follows_lineOf hstop
    · exact iff_of_true hword (.inl hinside)
    · intro hend
      exact absurd hend (Nat.ne_of_lt hinside)
  · obtain rfl : k = 0xDFF := by
      rw [programStart] at hlast
      omega
    have hword := nextWord_placed_last hmemory
    rw [hbyte] at hword
    apply follows_lineOf hstop
    · change (placed e 0xFFF).nextWord = _ ↔ _
      rw [hword]
      omega
    · intro _
      change (placed e 0xFFF).nextWord = _
      rw [hword]
      omega

/-- An emulator that cuts what is too large accepts any image, and follows each line of its listing
that has an address in memory. -/
theorem follows_of_load {e : Emulator} (hlax : e.strictLoad = false) (program : List UInt8)
    {start : Int} (hstart : programStart ≤ start ∧ start < memorySize) :
    ∃ e' ls, e.load program none = (.ok (), e') ∧ lines program start = .ok ls ∧
      ∀ r ∈ ls, r.address ≤ 0xFFF → Follows e' r := by
  refine ⟨_, _, load_of_lax hlax program, by rw [lines, if_pos hstart], ?_⟩
  intro r hr haddress
  obtain ⟨k, high, hhigh, rfl⟩ := mem_lines (by rw [lines, if_pos hstart]) hr
  exact follows_of_bytes (stopped_loaded e program e.clock) (memory_loaded e program e.clock)
    hhigh haddress

theorem follows_odd_image : ∃ e,
    Emulator.new {} (.ofList [7]) = .ok e ∧
      let image : List UInt8 := [0x12, 0x60, 0x05, 0xFF, 0xFF]
      e.strictLoad = false ∧ (programStart ≤ (0x201 : Int) ∧ (0x201 : Int) < memorySize) ∧
        lines image 0x201 =
          .ok [⟨0x201, 0x6005, some .setByte⟩, ⟨0x203, 0xFFFF, none⟩] ∧
        ∃ e' ls, e.load image none = (.ok (), e') ∧ lines image 0x201 = .ok ls ∧
          ∀ r ∈ ls, r.address ≤ 0xFFF → Follows e' r := by
  refine ⟨_, rfl, ?_⟩
  intro image
  have hstart : programStart ≤ (0x201 : Int) ∧ (0x201 : Int) < memorySize := by decide
  exact ⟨rfl, hstart, by decide, follows_of_load rfl image hstart⟩

/-- The last byte of a full image begins a jump to `0x200` in the listing, and one to `0x2F0` in
memory. -/
theorem last_line_differs : ∃ e,
    Emulator.new {} (.ofList [7]) = .ok e ∧
      let image : List UInt8 := List.replicate 3583 0x00 ++ [0x12]
      ∃ e' ls, e.load image none = (.ok (), e') ∧ lines image 0xFFF = .ok ls ∧
        ¬ ∀ r ∈ ls, r.address ≤ 0xFFF → (placed e' r.address).nextWord = r.word := by
  refine ⟨_, rfl, ?_⟩
  intro image
  have hlisted : lines image 0xFFF = .ok [⟨0xFFF, 0x1200, some .jump⟩] := by decide +kernel
  refine ⟨_, _, load_of_lax rfl image, hlisted, ?_⟩
  intro hagrees
  have hlisting := hagrees _ List.mem_cons_self (by decide)
  have hmemory := hlisting.symm.trans (nextWord_placed_last (memory_loaded _ image _))
  revert hmemory
  decide +kernel

end Chip8.Proofs.Listings
