import Chip8.Emulator.Run
import Chip8.Proofs.Execution

/-!
What one step of an emulator that is not stopped can give. Either no instruction has the word, or
the instruction misuses the call stack, or it succeeds and its event goes to the listeners; nothing
else fails if no listener does.
-/

namespace Chip8.Proofs.Stepping

open Chip8.Emulator
open Chip8.Proofs.Execution

section

variable {e : Emulator} {s : Stop}

theorem stopReason_of_running (h : e.machine.stop = none) : e.stopReason = none := by
  rw [stopReason, h, Option.map_none]

theorem fault?_of_running (h : e.machine.stop = none) : e.fault? = none := by
  rw [fault?, h, Option.bind_none]

theorem stopped_of_stop (h : e.machine.stop = some s) : e.stopped = true := by
  rw [stopped, h, Option.isSome_some]

theorem stopReason_of_stop (h : e.machine.stop = some s) : e.stopReason = some s.reason := by
  rw [stopReason, h, Option.map_some]

theorem fault?_of_stop (h : e.machine.stop = some s) : e.fault? = s.fault? := by
  rw [fault?, h, Option.bind_some]

end

/-- The fault of an instruction that misuses the call stack of a machine. -/
inductive StackFault (m : Machine) : Opcode → Fault → Prop
  | overflow (h : m.registers.sp = 16) : StackFault m .call (.stackOverflow m.registers.pc)
  | underflow (h : m.registers.sp = 0) : StackFault m .ret (.stackUnderflow m.registers.pc)

/-- An instruction leaves the machine alone and fails with the fault of the call stack that it
misuses, or succeeds. -/
theorem execute_result (m : Machine) (op : Opcode) (word : Int) :
    (∃ f, StackFault m op f ∧
      m.execute op word = { machine := m, result := .error (.fault f) }) ∨
    ((∀ f, ¬ StackFault m op f) ∧ ∃ event, (m.execute op word).result = .ok event) := by
  have heffect := effect_execute m op word
  generalize m.execute op word = x at heffect
  cases heffect with
  | call hop =>
      subst hop
      rcases call_cases m (address word) with ⟨hfull, hfault⟩ | ⟨hfree, hok⟩
      · exact .inl ⟨_, .overflow hfull, hfault⟩
      · refine .inr ⟨fun f hf => ?_, none, by rw [hok]⟩
        cases hf with
        | overflow hfull =>
            rw [hfull] at hfree
            exact absurd hfree (by decide)
  | ret hop =>
      subst hop
      rcases ret_cases m with ⟨hempty, hfault⟩ | ⟨k, hk, hopen, hok⟩
      · exact .inl ⟨_, .underflow hempty, hfault⟩
      · refine .inr ⟨fun f hf => ?_, none, by rw [hok]⟩
        cases hf with
        | underflow hempty =>
            rw [hempty] at hopen
            cases hopen
  | jump hop =>
      subst hop
      refine .inr ⟨nofun, none, ?_⟩
      rw [Machine.jump]
      split <;> rfl
  | skip hop | assign hop | index hop | write hop =>
      refine .inr ⟨fun f hf => ?_, none, rfl⟩
      cases hf <;> simp at hop
  | random hop | clear hop | setDelay hop | wait hop | jumpOffset hop =>
      subst hop
      exact .inr ⟨nofun, none, rfl⟩
  | draw hop | setSound hop =>
      subst hop
      exact .inr ⟨nofun, _, rfl⟩

theorem execute_stop {m : Machine} (hrunning : m.stop = none) (op : Opcode) (word : Int) :
    (m.execute op word).machine.stop = none ∨
      op = .jump ∧ (address word : Int) = m.registers.pc ∧
        (m.execute op word).machine = { m with stop := some .halted } := by
  have heffect := effect_execute m op word
  generalize m.execute op word = x at heffect ⊢
  cases heffect with
  | jump hop =>
      rw [Machine.jump]
      split
      · rename_i hself
        exact .inr ⟨hop, hself.symm, by simp only [← hself]⟩
      · exact .inl hrunning
  | call hop =>
      rcases call_cases m (address word) with ⟨-, hfault⟩ | ⟨_, hcall⟩
      · rw [hfault]
        exact .inl hrunning
      · rw [hcall]
        exact .inl hrunning
  | ret hop =>
      rcases ret_cases m with ⟨-, hfault⟩ | ⟨k, _, -, hret⟩
      · rw [hfault]
        exact .inl hrunning
      · rw [hret]
        exact .inl hrunning
  | _ => exact .inl hrunning

/-- The instruction at the program counter without its notifications: it gives the event to report,
or fails with a fault of its own, which it latches. -/
def silent (e : Emulator) : Reply (Option Event) :=
  match Opcode.lookup e.nextWord with
  | none =>
    let f := Fault.illegalOpcode e.machine.registers.pc e.nextWord
    (.error (.fault f), e.latch f)
  | some op =>
    let x := e.machine.execute op e.nextWord
    let e := (e.traced op e.nextWord).commit x
    match x.result with
    | .error (.fault f) => (.error (.fault f), e.latch f)
    | result => (result, e)

/-- An instruction reports its event last, and only a fault of its listeners is latched then. -/
theorem executeWith_eq (notify : Emulator → Listener → Reply Unit) (e : Emulator) :
    e.executeWith notify =
      match silent e with
      | (.error err, e) => (.error err, e)
      | (.ok none, e) => (.ok (), e)
      | (.ok (some event), e) => settle (e.emit notify event) := by
  cases hop : Opcode.lookup e.nextWord with
  | none => simp only [executeWith, silent, hop, settle]
  | some op =>
      simp only [executeWith, silent, hop, absorb]
      rcases (e.machine.execute op e.nextWord).result with err | _ | event
      · cases err <;> rfl
      · rfl
      · rfl

theorem stop_of_settle_fault {reply : Reply Unit} {e : Emulator} {f : Fault}
    (h : settle reply = (.error (.fault f), e)) : e.machine.stop = some (.faulted f) := by
  obtain ⟨err | _, e'⟩ := reply
  · cases err with
    | fault f' =>
        cases h
        rfl
    | _ => cases h
  · cases h

theorem stop_of_executeWith_fault {notify : Emulator → Listener → Reply Unit} {e e' : Emulator}
    {f : Fault} (h : e.executeWith notify = (.error (.fault f), e')) :
    e'.machine.stop = some (.faulted f) :=
  stop_of_settle_fault h

theorem stop_of_stepWith_fault {notify : Emulator → Listener → Reply Unit} {e e' : Emulator}
    {f : Fault} (h : e.stepWith notify = (.error (.fault f), e')) :
    e'.machine.stop = some (.faulted f) := by
  rw [stepWith] at h
  split at h
  · cases h
  · split at h
    · rename_i hexecute
      cases h
      exact stop_of_executeWith_fault hexecute
    · cases h

theorem commit_unchanged {e : Emulator} {m : Machine} (h : e.machine = m)
    (result : Except Error (Option Event)) : e.commit { machine := m, result } = e := by
  subst h
  rfl

/-- How an instruction ends without its notifications. -/
inductive Outcome (e : Emulator) : Reply (Option Event) → Prop
  | illegal (hop : Opcode.lookup e.nextWord = none) :
      Outcome e (.error (.fault (.illegalOpcode e.machine.registers.pc e.nextWord)),
        e.latch (.illegalOpcode e.machine.registers.pc e.nextWord))
  | stackFault {op : Opcode} {f : Fault} (hop : Opcode.lookup e.nextWord = some op)
      (hf : StackFault e.machine op f) :
      Outcome e (.error (.fault f), (e.traced op e.nextWord).latch f)
  | done {op : Opcode} {event : Option Event} (hop : Opcode.lookup e.nextWord = some op)
      (hfree : ∀ f, ¬ StackFault e.machine op f)
      (hresult : (e.machine.execute op e.nextWord).result = .ok event) :
      Outcome e (.ok event,
        (e.traced op e.nextWord).commit (e.machine.execute op e.nextWord))

theorem outcome_silent (e : Emulator) : Outcome e (silent e) := by
  cases hop : Opcode.lookup e.nextWord with
  | none =>
      simp only [silent, hop]
      exact .illegal hop
  | some op =>
      simp only [silent, hop]
      rcases execute_result e.machine op e.nextWord with ⟨f, hf, hfault⟩ | ⟨hfree, event, hok⟩
      · rw [hfault]
        simp only [commit_unchanged (machine_traced e op e.nextWord)]
        exact .stackFault hop hf
      · simp only [hok]
        exact .done hop hfree hok

theorem StackFault.unique {m : Machine} {op : Opcode} {f f' : Fault} (hf : StackFault m op f)
    (hf' : StackFault m op f') : f = f' := by
  cases hf <;> cases hf' <;> rfl

theorem silent_cases {e : Emulator} {op : Opcode} (hop : Opcode.lookup e.nextWord = some op) :
    (∃ f, StackFault e.machine op f ∧
      silent e = (.error (.fault f), (e.traced op e.nextWord).latch f)) ∨
    (∀ f, ¬ StackFault e.machine op f) ∧ ∃ event, silent e =
      (.ok event, (e.traced op e.nextWord).commit (e.machine.execute op e.nextWord)) := by
  have houtcome := outcome_silent e
  generalize silent e = reply at houtcome ⊢
  cases houtcome with
  | illegal hnone =>
      rw [hop] at hnone
      cases hnone
  | stackFault hop' hf =>
      cases Option.some.inj (hop.symm.trans hop')
      exact .inl ⟨_, hf, rfl⟩
  | done hop' hfree hresult =>
      cases Option.some.inj (hop.symm.trans hop')
      exact .inr ⟨hfree, _, rfl⟩

theorem traced_frame (e : Emulator) (op : Opcode) (word : Nat) :
    ∃ trace log, e.traced op word = { e with trace, log } := by
  rw [traced]
  split
  · exact ⟨_, _, rfl⟩
  · exact ⟨_, _, rfl⟩

theorem listeners_traced (e : Emulator) (op : Opcode) (word : Nat) :
    (e.traced op word).listeners = e.listeners := by
  obtain ⟨trace, log, htraced⟩ := traced_frame e op word
  rw [htraced]

theorem silent_frame (e : Emulator) :
    ∃ machine trace log, (silent e).2 = { e with machine, trace, log } := by
  have houtcome := outcome_silent e
  generalize silent e = reply at houtcome ⊢
  cases houtcome with
  | illegal hop => exact ⟨_, _, _, rfl⟩
  | @stackFault op f hop hf =>
      obtain ⟨trace, log, htraced⟩ := traced_frame e op e.nextWord
      rw [htraced]
      exact ⟨_, _, _, rfl⟩
  | @done op event hop hfree hresult =>
      obtain ⟨trace, log, htraced⟩ := traced_frame e op e.nextWord
      rw [htraced]
      exact ⟨_, _, _, rfl⟩

theorem listeners_silent (e : Emulator) : (silent e).2.listeners = e.listeners := by
  obtain ⟨machine, trace, log, hsilent⟩ := silent_frame e
  rw [hsilent]

/-- No listener that the next instruction calls fails. -/
def ListenersReturn (e : Emulator) : Prop :=
  ∀ op event, Opcode.lookup e.nextWord = some op →
    (e.machine.execute op e.nextWord).result = .ok (some event) →
    (((e.traced op e.nextWord).commit (e.machine.execute op e.nextWord)).emit notify event).1 =
      .ok ()

theorem callAll_ok {notify : Emulator → Listener → Reply Unit} {listeners : List Listener}
    (h : ∀ l ∈ listeners, ∀ e, (notify e l).1 = .ok ()) (e : Emulator) :
    (e.callAll notify listeners).1 = .ok () := by
  induction listeners generalizing e with
  | nil => rfl
  | cons l rest ih =>
      have hfirst := h l List.mem_cons_self e
      rw [callAll]
      split
      · rename_i heq
        rw [heq] at hfirst
        cases hfirst
      · exact ih (fun l hl => h l (List.mem_cons_of_mem _ hl)) _

theorem listenersReturn_of_registered {e : Emulator}
    (h : ∀ r ∈ e.listeners.registered, ∀ e', (notify e' r.2).1 = .ok ()) : ListenersReturn e := by
  intro op event _ _
  apply callAll_ok
  intro l hl
  obtain ⟨r, hr, rfl⟩ := List.mem_map.mp hl
  simp only [commit, listeners_traced] at hr
  exact h r (List.mem_filter.mp hr).1

theorem step_latch (e : Emulator) (f : Fault) :
    (e.latch f).step = (.ok (some f.reason), e.latch f) :=
  rfl

theorem step_eq_of_silent_error {e e' : Emulator} {err : Error} (hstop : e.stopped = false)
    (h : silent e = (.error err, e')) : e.step = (.error err, e') := by
  rw [step, stepWith, hstop, executeWith_eq, h]
  rfl

theorem step_eq_of_lookup_none {e : Emulator} (hstop : e.stopped = false)
    (hop : Opcode.lookup e.nextWord = none) :
    e.step = (.error (.fault (.illegalOpcode e.machine.registers.pc e.nextWord)),
      e.latch (.illegalOpcode e.machine.registers.pc e.nextWord)) := by
  apply step_eq_of_silent_error hstop
  simp only [silent, hop]

theorem step_ok_of_silent {e e' : Emulator} {event : Option Event} (hstop : e.stopped = false)
    (h : silent e = (.ok event, e'))
    (hreturn : ∀ ev, event = some ev → (e'.emit notify ev).1 = .ok ()) :
    ∃ reason, e.step.1 = .ok reason := by
  rw [step, stepWith, hstop, executeWith_eq, h]
  cases event with
  | none => exact ⟨_, rfl⟩
  | some ev =>
      have hemit := hreturn ev rfl
      dsimp only
      generalize e'.emit notify ev = reply at hemit ⊢
      obtain ⟨answer, e''⟩ := reply
      cases hemit
      exact ⟨_, rfl⟩

theorem step_of_quiet {e : Emulator} {op : Opcode} {m : Machine} (hstop : e.stopped = false)
    (hop : Opcode.lookup e.nextWord = some op)
    (hexecute : e.machine.execute op e.nextWord = { machine := m }) (hrunning : m.stop = none) :
    e.step = (.ok none, { e.traced op e.nextWord with machine := m }) := by
  have hreason : ({ e.traced op e.nextWord with machine := m } : Emulator).stopReason = none :=
    stopReason_of_running hrunning
  simp only [step, stepWith, hstop, executeWith, hop, hexecute, absorb]
  change (Except.ok ({ e.traced op e.nextWord with machine := m } : Emulator).stopReason, _) = _
  rw [hreason]
  rfl

theorem step_cases {e : Emulator} (hstop : e.stopped = false) (hreturn : ListenersReturn e) :
    (Opcode.lookup e.nextWord = none ∧
      e.step = (.error (.fault (.illegalOpcode e.machine.registers.pc e.nextWord)),
        e.latch (.illegalOpcode e.machine.registers.pc e.nextWord))) ∨
    (∃ op f, Opcode.lookup e.nextWord = some op ∧ StackFault e.machine op f ∧
      e.step = (.error (.fault f), (e.traced op e.nextWord).latch f)) ∨
    ∃ op, Opcode.lookup e.nextWord = some op ∧ (∀ f, ¬ StackFault e.machine op f) ∧
      ∃ reason, e.step.1 = .ok reason := by
  have houtcome := outcome_silent e
  generalize hsilent : silent e = reply at houtcome
  cases houtcome with
  | illegal hop => exact .inl ⟨hop, step_eq_of_silent_error hstop hsilent⟩
  | stackFault hop hf =>
      exact .inr (.inl ⟨_, _, hop, hf, step_eq_of_silent_error hstop hsilent⟩)
  | done hop hfree hresult =>
      refine .inr (.inr ⟨_, hop, hfree, step_ok_of_silent hstop hsilent ?_⟩)
      rintro ev rfl
      exact hreturn _ ev hop hresult

end Chip8.Proofs.Stepping
