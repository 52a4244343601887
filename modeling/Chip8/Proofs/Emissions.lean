import Chip8.Proofs.Loading

namespace Chip8.Proofs.Emissions

open Chip8.Emulator
open Chip8.Proofs.Loading
open Chip8.Proofs.TwoRuns

section

variable (notify : Emulator → Listener → Reply Unit)

/-- Some listeners are called one after the other, each on the emulator that the one before it left,
and all of them return. -/
inductive Returns : Emulator → List Listener → Emulator → Prop
  | nil (e : Emulator) : Returns e [] e
  | cons {e e' e'' : Emulator} {l : Listener} {rest : List Listener}
      (hcall : notify e l = (.ok (), e')) (hrest : Returns e' rest e'') : Returns e (l :: rest) e''

/-- Of some listeners all are told, or those up to the first one that fails, and its error is the
answer. -/
inductive Tells (e : Emulator) (listeners : List Listener) : List Listener → Reply Unit → Prop
  | all {e' : Emulator} (h : Returns notify e listeners e') :
      Tells e listeners listeners (.ok (), e')
  | upTo {e' e'' : Emulator} {earlier rest : List Listener} {l : Listener} {err : Error}
      (hsplit : listeners = earlier ++ l :: rest) (h : Returns notify e earlier e')
      (hfail : notify e' l = (.error err, e'')) :
      Tells e listeners (earlier ++ [l]) (.error err, e'')

theorem tells_callAll (e : Emulator) (listeners : List Listener) :
    ∃ told, Tells notify e listeners told (e.callAll notify listeners) := by
  induction listeners generalizing e with
  | nil => exact ⟨[], .all (.nil e)⟩
  | cons l rest ih =>
      rw [callAll]
      -- What the call does to the registrations does not reach the listeners that are left.
      rcases hcall : notify e l with ⟨err | _, e'⟩
      · have hsplit : l :: rest = [] ++ l :: rest := rfl
        exact ⟨_, .upTo hsplit (.nil e) hcall⟩
      · obtain ⟨told, htold⟩ := ih e'
        dsimp only
        generalize e'.callAll notify rest = reply at htold ⊢
        cases htold with
        | all h => exact ⟨_, .all (.cons hcall h)⟩
        | @upTo _ _ earlier later l' _ hsplit h hfail =>
            have hlonger : l :: rest = (l :: earlier) ++ l' :: later := by
              rw [hsplit]
              rfl
            exact ⟨_, .upTo hlonger (.cons hcall h) hfail⟩

end

/-- A request that executes no instructions and counts no timers down. -/
def Edits : Request → Prop
  | .step | .run _ | .advance _ | .tick _ => False
  | _ => True

/-- A script of such requests, whatever they are answered. -/
inductive Editing : Script → Prop
  | done : Editing .done
  | fail (err : Error) : Editing (.fail err)
  | ask {r : Request} {next : Except Error Answer → Machine → Script} (hr : Edits r)
      (hnext : ∀ answer m, Editing (next answer m)) : Editing (.ask r next)

/-- A listener that adds and removes listeners, loads programs, presses keys, or fails. -/
def Editor (l : Listener) : Prop :=
  ∀ notices m, Editing (l.action.toScript l.event notices m)

theorem editing_once {r : Request} (hr : Edits r) : Editing (.once r) := by
  refine .ask hr fun answer m => ?_
  cases answer with
  | ok answer => exact .done
  | error err => exact .fail err

def isEdit : Action → Bool
  | .step | .script _ => false
  | _ => true

theorem editor_of_isEdit {l : Listener} (h : isEdit l.action = true) : Editor l := by
  intro notices m
  cases haction : l.action with
  | record => exact .done
  | fail err => exact .fail err
  | key _ | remove _ | add _ | load _ => exact editing_once trivial
  | step | script _ =>
      rw [haction] at h
      cases h

theorem notices_serve {r : Request} (hr : Edits r) (e : Emulator)
    (notify : Emulator → Listener → Reply Unit) : (e.serve notify r).2.notices = e.notices := by
  cases r with
  | load program speed =>
      rw [serve]
      rcases load_cases e program speed with ⟨err, log, -, hload⟩ | ⟨clock, -, hload⟩
      · rw [hload]
        rfl
      · obtain ⟨log, hloaded⟩ := loaded_eq e program clock
        rw [hload, hloaded]
        rfl
  | keyDown _ | keyUp _ | reset | listen _ _ | unlisten _ _ => rfl
  | step | run _ | advance _ | tick _ => exact hr.elim

theorem notices_follow {s : Script} (h : Editing s) (e : Emulator)
    (notify : Emulator → Listener → Reply Unit) :
    (e.follow (serve notify) s).2.notices = e.notices := by
  induction h generalizing e with
  | done => rfl
  | fail err => rfl
  | @ask r next hr _ ih =>
      rw [follow]
      exact (ih _ _ _).trans (notices_serve hr e notify)

/-- The listeners that took note between two moments, with the event of each. -/
def Noted (e e' : Emulator) (told : List Listener) : Prop :=
  ∃ ns : List Notice, e'.notices = e.notices ++ ns.toArray ∧
    ns.map (fun n => (n.listener, n.event)) = told.map fun l => (l.name, l.event)

theorem noted_nil (e : Emulator) : Noted e e [] :=
  ⟨[], by simp, rfl⟩

theorem Noted.append {e e' e'' : Emulator} {told told' : List Listener} (h : Noted e e' told)
    (h' : Noted e' e'' told') : Noted e e'' (told ++ told') := by
  obtain ⟨ns, hns, htold⟩ := h
  obtain ⟨ns', hns', htold'⟩ := h'
  exact ⟨ns ++ ns', by simp [hns', hns], by rw [List.map_append, List.map_append, htold, htold']⟩

theorem noted_notifyAt {l : Listener} (h : Editor l) (depth : Nat) (e : Emulator) :
    Noted e (notifyAt (depth + 1) e l).2 [l] := by
  refine ⟨[⟨l.name, l.event, e.machine.registers.pc⟩], ?_, rfl⟩
  exact notices_follow (h e.notices e.machine) (noted e l) (notifyAt depth)

theorem Returns.noted {depth : Nat} {e e' : Emulator} {listeners : List Listener}
    (h : Returns (notifyAt (depth + 1)) e listeners e') (hedits : ∀ l ∈ listeners, Editor l) :
    Noted e e' listeners := by
  induction h with
  | nil e => exact noted_nil e
  | @cons e e' e'' l rest hcall _ ih =>
      have hfirst := noted_notifyAt (hedits l List.mem_cons_self) depth e
      rw [hcall] at hfirst
      exact hfirst.append (ih fun l hl => hedits l (List.mem_cons_of_mem _ hl))

theorem Tells.noted {depth : Nat} {e : Emulator} {listeners told : List Listener}
    {reply : Reply Unit} (h : Tells (notifyAt (depth + 1)) e listeners told reply)
    (hedits : ∀ l ∈ listeners, Editor l) : Noted e reply.2 told := by
  cases h with
  | all h => exact h.noted hedits
  | @upTo e' e'' earlier rest l err hsplit h hfail =>
      subst hsplit
      have hearlier := h.noted fun l hl => hedits l (List.mem_append_left _ hl)
      have hlast := noted_notifyAt (hedits l (by simp)) depth e'
      rw [hfail] at hlast
      exact hearlier.append hlast

theorem forEvent_remove (ls : Listeners) (event other : Event) (name : String) :
    (ls.remove event (some name)).forEvent other =
      (ls.forEvent other).filter fun l => !(other = event && l.name == name) := by
  simp only [Listeners.forEvent, Listeners.remove, List.filter_filter, List.filter_map]
  congr 1
  apply List.filter_congr
  intro r _
  by_cases hother : r.1 = other
  · simp [hother]
  · simp [hother]

/-- The registrations of an event lose a name, and keep their order. -/
structure Unregisters (e : Emulator) (event : Event) (name : String) (e' : Emulator) : Prop where
  registrations : e'.listeners.forEvent event =
    (e.listeners.forEvent event).filter fun l => l.name ≠ name
  others : ∀ other, other ≠ event → e'.listeners.forEvent other = e.listeners.forEvent other
  rest : e' = { e with
    listeners := { e.listeners with registered := e'.listeners.registered } }

theorem unregisters_removeListener (e : Emulator) (event : Event) (name : String) :
    Unregisters e event name (e.removeListener event (some name)) := by
  constructor
  case registrations =>
    rw [removeListener, forEvent_remove]
    simp only [decide_true, Bool.true_and, ne_eq, decide_not]
    rfl
  case others =>
    intro other hother
    rw [removeListener, forEvent_remove]
    simp [hother]
  case rest => rfl

/-- A report looks at the registrations once, when it starts. -/
theorem emit_tells_registered (depth : Nat) (e : Emulator) (event : Event) :
    (∃ told, Tells (notifyAt (depth + 1)) e (e.listeners.forEvent event) told
        (e.emit (notifyAt (depth + 1)) event) ∧
      ((∀ l ∈ e.listeners.forEvent event, Editor l) →
        Noted e (e.emit (notifyAt (depth + 1)) event).2 told)) ∧
    ∀ name, Unregisters e event name (e.removeListener event (some name)) := by
  refine ⟨?_, unregisters_removeListener e event⟩
  obtain ⟨told, htells⟩ := tells_callAll (notifyAt (depth + 1)) e (e.listeners.forEvent event)
  exact ⟨told, htells, htells.noted⟩

theorem emit_tells_registered_of_editors : ∃ e,
    Emulator.new {} (.ofList []) = .ok e ∧
      let drawn := Event.displayUpdated
      let table : List Listener :=
        [⟨"once", drawn, .remove (some "once")⟩, ⟨"adder", drawn, .add "late"⟩,
          ⟨"wiper", drawn, .remove none⟩, ⟨"loader", drawn, .load [0x12, 0x00]⟩,
          ⟨"adder", drawn, .add "late"⟩, ⟨"raiser", drawn, .fail .listenerFailed⟩,
          ⟨"never", drawn, .record⟩]
      let listening := (e.performAll (table.map fun l => .listen drawn l)).2
      (∀ l ∈ listening.listeners.forEvent drawn, Editor l) ∧
        (∃ told, Tells notify listening (listening.listeners.forEvent drawn) told
            (listening.emit notify drawn) ∧
          Noted listening (listening.emit notify drawn).2 told) ∧
        ((listening.emit notify drawn).2.notices.map Notice.listener =
            #["once", "adder", "wiper", "loader", "adder", "raiser"] ∧
          ((listening.emit notify drawn).2.listeners.forEvent drawn).map Listener.name =
            ["late"]) ∧
        Unregisters listening drawn "adder" (listening.removeListener drawn (some "adder")) := by
  refine ⟨_, rfl, ?_⟩
  intro drawn table listening
  have hedits : ∀ l ∈ listening.listeners.forEvent drawn, Editor l := by
    have hall : (listening.listeners.forEvent drawn).all (fun l => isEdit l.action) = true := by
      decide +kernel
    intro l hl
    exact editor_of_isEdit (List.all_eq_true.mp hall l hl)
  obtain ⟨⟨told, htells, hnoted⟩, hunregisters⟩ := emit_tells_registered 2047 listening drawn
  exact ⟨hedits, ⟨told, htells, hnoted hedits⟩, by decide +kernel, hunregisters "adder"⟩

end Chip8.Proofs.Emissions
