import Chip8.Proofs.Buzzer
import Chip8.Proofs.CallStack
import Chip8.Proofs.Stopped

namespace Chip8.Proofs.TraceWindow

open Chip8.Emulator
open Chip8.Proofs.Batches
open Chip8.Proofs.CallStack
open Chip8.Proofs.History
open Chip8.Proofs.Loading
open Chip8.Proofs.NoteTaking
open Chip8.Proofs.Notifications
open Chip8.Proofs.Stepping
open Chip8.Proofs.Stopped
open Chip8.Proofs.TwoRuns

/-- The line of an instruction, if its word has one. -/
def lineOf : Happening → List String
  | .instruction e =>
    match Opcode.lookup e.nextWord with
    | none => []
    | some op => [e.traceLine op e.nextWord]
  | _ => []

/-- The newest lines of what happened since the machine started afresh. -/
def window (past : List Happening) : List String :=
  ((recent past).flatMap lineOf).rtake traceDepth

theorem rtake_append_rtake {α : Type} (k : Nat) (l l' : List α) :
    (l.rtake k ++ l').rtake k = (l ++ l').rtake k := by
  simp only [List.rtake_eq_reverse_take_reverse, List.reverse_append, List.reverse_reverse,
    List.take_append, List.take_take, Nat.min_eq_left (Nat.sub_le _ _)]

theorem length_rtake_le {α : Type} (k : Nat) (l : List α) : (l.rtake k).length ≤ k := by
  rw [List.rtake, List.length_drop]
  omega

theorem rtake_of_length_le {α : Type} {k : Nat} {l : List α} (h : l.length ≤ k) :
    l.rtake k = l := by
  rw [List.rtake, Nat.sub_eq_zero_of_le h, List.drop_zero]

theorem lines_push {t : Trace} (h : t.lines.size ≤ traceDepth) (line : String) :
    (t.push line).lines.toList = (t.lines.toList ++ [line]).rtake traceDepth := by
  have hlength : (t.lines.toList ++ [line]).length = t.lines.size + 1 := by simp
  rw [Trace.push]
  split
  · rw [Array.toList_push, rtake_of_length_le (by omega)]
  · have hfull : t.lines.size = traceDepth := by omega
    have hone : 1 ≤ t.lines.toList.length := by
      rw [Array.length_toList, hfull]
      decide
    rw [List.rtake, hlength, ← hfull, Nat.add_sub_cancel_left, List.drop_append_of_le_length hone]
    simp [List.take_of_length_le]

/-- The second emulator comes from the first one by what happened, and its trace went with it. -/
structure Windowed (e : Emulator) (hs : List Happening) (e' : Emulator) : Prop where
  listeners : e'.listeners = e.listeners
  tracing : e'.tracing = e.tracing
  lines : e.tracing = true → ∀ past, e.trace.lines.toList = window past →
    e'.trace.lines.toList = window (past ++ hs)

namespace Windowed

variable {e e' e'' : Emulator} {hs hs' : List Happening}

theorem idle (hlisteners : e'.listeners = e.listeners) (htracing : e'.tracing = e.tracing)
    (htrace : e'.trace = e.trace) : Windowed e [] e' where
  listeners := hlisteners
  tracing := htracing
  lines := by
    intro _ past hpast
    rw [htrace, hpast, List.append_nil]

theorem trans (h : Windowed e hs e') (h' : Windowed e' hs' e'') :
    Windowed e (hs ++ hs') e'' where
  listeners := h'.listeners.trans h.listeners
  tracing := h'.tracing.trans h.tracing
  lines := by
    intro htracing past hpast
    rw [← List.append_assoc]
    exact h'.lines (h.tracing.trans htracing) _ (h.lines htracing past hpast)

theorem restart (hlisteners : e'.listeners = e.listeners) (htracing : e'.tracing = e.tracing)
    (htrace : e'.trace = {}) : Windowed e [.restart e] e' where
  listeners := hlisteners
  tracing := htracing
  lines := by
    intro _ past _
    rw [htrace, window, recent_restart]
    rfl

theorem single {h : Happening} (hgoes : ¬ IsRestart h)
    (hlisteners : e'.listeners = e.listeners) (htracing : e'.tracing = e.tracing)
    (hlines : e.tracing = true → e.trace.lines.size ≤ traceDepth →
      e'.trace.lines.toList = (e.trace.lines.toList ++ lineOf h).rtake traceDepth) :
    Windowed e [h] e' where
  listeners := hlisteners
  tracing := htracing
  lines := by
    intro htraces past hpast
    have hsize : e.trace.lines.size ≤ traceDepth := by
      rw [← Array.length_toList, hpast]
      exact length_rtake_le _ _
    rw [hlines htraces hsize, hpast, window, window, recent_concat past hgoes,
      List.flatMap_append, List.flatMap_singleton, rtake_append_rtake]

end Windowed

theorem trace_traced {e : Emulator} (htracing : e.tracing = true) (op : Opcode) (word : Nat) :
    (e.traced op word).trace = e.trace.push (e.traceLine op word) := by
  rw [traced, if_pos htracing]
  rfl

theorem lines_silent {e : Emulator} (htracing : e.tracing = true)
    (hsize : e.trace.lines.size ≤ traceDepth) :
    (silent e).2.trace.lines.toList =
      (e.trace.lines.toList ++ lineOf (.instruction e)).rtake traceDepth := by
  -- An instruction leaves its line before it is executed, so a fault of its own does not matter,
  -- but a word that no instruction has leaves none.
  have houtcome := outcome_silent e
  generalize silent e = reply at houtcome ⊢
  cases houtcome with
  | illegal hop =>
      rw [lineOf, hop, List.append_nil, rtake_of_length_le hsize]
      rfl
  | @stackFault op f hop hf =>
      change (e.traced op e.nextWord).trace.lines.toList = _
      rw [trace_traced htracing, lines_push hsize, lineOf, hop]
  | @done op event hop hfree hresult =>
      change (e.traced op e.nextWord).trace.lines.toList = _
      rw [trace_traced htracing, lines_push hsize, lineOf, hop]

theorem trace_step {e : Emulator} (hstop : e.stopped = false) (hrecording : Recording e.listeners) :
    e.step.2.listeners = e.listeners ∧ e.step.2.tracing = e.tracing ∧
      e.step.2.trace = (silent e).2.trace := by
  obtain ⟨machine, trace, log, hframe⟩ := silent_frame e
  rw [step_state hstop, executeWith_eq]
  generalize silent e = reply at hframe ⊢
  obtain ⟨err | _ | event, e'⟩ := reply
  · subst hframe
    exact ⟨rfl, rfl, rfl⟩
  · subst hframe
    exact ⟨rfl, rfl, rfl⟩
  · subst hframe
    have hemit := @emit_record { e with machine, trace, log } hrecording event
    dsimp only at hemit ⊢
    rw [hemit]
    exact ⟨rfl, rfl, rfl⟩

theorem windowed_step {e : Emulator} (hstop : e.stopped = false)
    (hrecording : Recording e.listeners) : Windowed e [.instruction e] e.step.2 := by
  obtain ⟨hlisteners, htracing, htrace⟩ := trace_step hstop hrecording
  refine Windowed.single (not_restart_instruction e) hlisteners htracing ?_
  intro htraces hsize
  rw [htrace, lines_silent htraces hsize]

theorem windowed_countdown {e : Emulator} (hrecording : Recording e.listeners) (ticks : Int) :
    Windowed e [.countdown e ticks] (e.decayWith notify ticks).2 := by
  obtain ⟨notices, hretimed⟩ := retimed_frame e (e.machine.delay.decay ticks).2
    (e.machine.sound.decay ticks).2
  rw [decay_record hrecording, hretimed]
  refine Windowed.single (not_restart_countdown e ticks) rfl rfl ?_
  intro _ hsize
  have hnone : lineOf (.countdown e ticks) = [] := rfl
  rw [hnone, List.append_nil, rtake_of_length_le hsize]

theorem windowed_recounts : Recounts Windowed where
  listeners h := h.listeners
  refl _ := .idle rfl rfl rfl
  trans := .trans
  step := windowed_step
  countdown ticks h := windowed_countdown h ticks
  refuse _ _ := .idle rfl rfl rfl
  load e program clock := by
    obtain ⟨log, hloaded⟩ := loaded_eq e program clock
    rw [hloaded]
    exact .restart rfl rfl rfl
  reset _ := .restart rfl rfl rfl
  keys _ _ := .idle rfl rfl rfl
  retime _ h := ⟨h.listeners, h.tracing, h.lines⟩

theorem not_restart_of_ordinary {e : Emulator} {c : HostCall} (hc : Ordinary c) {h : Happening}
    (hmem : h ∈ happenings e c) : ¬ IsRestart h := by
  have hcall : Buzzer.restarts e c = false := by
    cases c with
    | listen event l => exact hc.elim
    | request r => cases r <;> first | rfl | exact hc.elim
  rcases Buzzer.happenings_cases e c with ⟨hrestarts, -⟩ | ⟨-, hgoes⟩
  · rw [hcall] at hrestarts
    cases hrestarts
  · exact hgoes h hmem

theorem recent_history {e : Emulator} {calls : List HostCall} (hcalls : ∀ c ∈ calls, Ordinary c) :
    recent (history e calls) = history e calls := by
  have hgoes : ∀ h ∈ history e calls, ¬ IsRestart h := by
    induction calls generalizing e with
    | nil => exact List.forall_mem_nil _
    | cons c rest ih =>
        intro h hmem
        rw [history, List.mem_append] at hmem
        rcases hmem with hfirst | hrest
        · exact not_restart_of_ordinary (hcalls c List.mem_cons_self) hfirst
        · exact ih (fun c hc => hcalls c (List.mem_cons_of_mem _ hc)) h hrest
  rw [recent, List.rtakeWhile_eq_self_iff]
  exact fun h hmem => decide_eq_true (hgoes h hmem)

theorem driving_of_ordinary {c : HostCall} (hc : Ordinary c) : Driving c := by
  cases c with
  | listen event l => exact hc.elim
  | request r => cases r <;> trivial

/-- After a load the trace holds the newest lines of what is executed, at most a thousand of them,
however the host drives the machine. -/
theorem trace_is_window {e e' : Emulator} {program : List UInt8} {speed : Option SpeedRequest}
    (htracing : e.tracing = true) (hrecording : Recording e.listeners)
    (hload : e.load program speed = (.ok (), e')) {calls : List HostCall}
    (hcalls : ∀ c ∈ calls, Ordinary c) :
    let shown := (history e' calls).flatMap lineOf
    (e'.performAll calls).2.trace.lines.toList =
      shown.drop (shown.length - min 1000 shown.length) := by
  intro shown
  obtain ⟨-, clock, -, rfl⟩ := load_ok_iff.mp hload
  obtain ⟨log, hloaded⟩ := loaded_eq e program clock
  have hlisteners : Recording (loaded e program clock).listeners := by
    rw [hloaded]
    exact hrecording
  have hwindowed := recount_performAll windowed_recounts hlisteners
    fun c hc => driving_of_ordinary (hcalls c hc)
  have hlines := hwindowed.lines (by rw [hloaded]; exact htracing) [] (by rw [hloaded]; rfl)
  have hcount : shown.length - min 1000 shown.length = shown.length - traceDepth := by
    rw [traceDepth]
    omega
  rw [hlines, List.nil_append, window, recent_history hcalls, hcount, List.rtake]

theorem window_with_stack_fault : ∃ e,
    Emulator.new { tracing := true } (.ofList [7]) = .ok e ∧
      let calls := [HostCall.step, .run 5, .advance (Binary64.ofDecimal false 1 0)]
      let program := [0x60, 0x2A, 0x00, 0xEE, 0xA0, 0x00]
      let started := (e.load program none).2
      let shown := (history started calls).flatMap lineOf
      e.tracing = true ∧ Recording e.listeners ∧ e.load program none = (.ok (), started) ∧
        (∀ c ∈ calls, Ordinary c) ∧
        shown = [
          "$0200: 602A  LD V0, 2A          PC=0200 I=0000 SP=0 V0=00 V1=00 V2=00 V3=00 V4=00"
            ++ " V5=00 V6=00 V7=00 V8=00 V9=00 VA=00 VB=00 VC=00 VD=00 VE=00 VF=00",
          "$0202: 00EE  RET                PC=0202 I=0000 SP=0 V0=2A V1=00 V2=00 V3=00 V4=00"
            ++ " V5=00 V6=00 V7=00 V8=00 V9=00 VA=00 VB=00 VC=00 VD=00 VE=00 VF=00"] ∧
        (started.performAll calls).2.trace.lines.toList =
          shown.drop (shown.length - min 1000 shown.length) := by
  refine ⟨_, rfl, ?_⟩
  intro calls program started shown
  have hrecording : Recording ({} : Listeners) := fun _ hr => absurd hr List.not_mem_nil
  have hcalls : ∀ c ∈ calls, Ordinary c := by
    simp only [calls, List.forall_mem_cons]
    exact ⟨trivial, trivial, trivial, List.forall_mem_nil _⟩
  refine ⟨rfl, hrecording, ?hload, hcalls, by decide +kernel, ?_⟩
  case hload => exact Prod.ext (congrArg Prod.fst (load_of_lax rfl program)) rfl
  exact trace_is_window rfl hrecording (load_of_lax rfl program) hcalls

end Chip8.Proofs.TraceWindow
