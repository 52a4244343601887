import Chip8.Proofs.Loading

namespace Chip8.Proofs.Nesting

open Chip8.Emulator
open Chip8.Proofs.Loading
open Chip8.Proofs.Stepping
open Chip8.Proofs.TwoRuns

/-- A request that executes one instruction at most. -/
def Brief : Request → Prop
  | .run _ | .advance _ | .tick _ => False
  | _ => True

/-- A script of brief requests that ends with an error if one of them nests too deep. -/
inductive Yielding : Script → Prop
  | done : Yielding .done
  | fail (err : Error) : Yielding (.fail err)
  | ask {r : Request} {next : Except Error Answer → Machine → Script} (hr : Brief r)
      (hdeep : ∀ m, next (.error .nestingTooDeep) m = .fail .nestingTooDeep)
      (h : ∀ answer m, Yielding (next answer m)) : Yielding (.ask r next)

theorem yielding_once {r : Request} (hr : Brief r) : Yielding (.once r) := by
  refine .ask hr (fun _ => rfl) ?_
  intro answer m
  cases answer with
  | ok answer => exact .done
  | error err => exact .fail err

/-- A listener of brief requests, which does not look at what was noted. -/
structure Plain (l : Listener) : Prop where
  blind : ∀ notices notices' m,
    l.action.toScript l.event notices m = l.action.toScript l.event notices' m
  yields : ∀ notices m, Yielding (l.action.toScript l.event notices m)

theorem plain_of_action {l : Listener} (h : ∀ behave, l.action ≠ .script behave) : Plain l := by
  constructor
  case blind =>
    intro notices notices' m
    cases haction : l.action with
    | script behave => exact absurd haction (h behave)
    | _ => rfl
  case yields =>
    intro notices m
    cases haction : l.action with
    | record => exact .done
    | fail err => exact .fail err
    | key value => exact yielding_once trivial
    | remove name => exact yielding_once trivial
    | add name => exact yielding_once trivial
    | step => exact yielding_once trivial
    | load program => exact yielding_once trivial
    | script behave => exact absurd haction (h behave)

/-- The second reply is given with more room for nested calls: the first call nested too deep, or
both end the same, with plain listeners. -/
inductive Roomier {α : Type} : Reply α → Reply α → Prop
  | tooDeep (e : Emulator) (r : Reply α) : Roomier (.error .nestingTooDeep, e) r
  | same {r : Reply α} (h : AllListeners Plain r.2.listeners) : Roomier r r

theorem Roomier.eq {α : Type} {r r' : Reply α} (h : Roomier r r')
    (hroom : r.1 ≠ .error .nestingTooDeep) : r = r' := by
  cases h with
  | tooDeep e r => exact absurd rfl hroom
  | same h => rfl

theorem Roomier.map {α β : Type} {r r' : Reply α} (g : α → β) (h : Roomier r r') :
    Roomier (Reply.map g r) (Reply.map g r') := by
  cases h with
  | tooDeep e r => exact .tooDeep e _
  | same h => exact .same h

section

variable {narrow wide : Emulator → Listener → Reply Unit}
  (hnotify : ∀ {e : Emulator} {l : Listener}, Plain l → AllListeners Plain e.listeners →
    Roomier (narrow e l) (wide e l))
  {e : Emulator} (he : AllListeners Plain e.listeners)

include hnotify he

theorem roomier_callAll {listeners : List Listener} (hplain : ∀ l ∈ listeners, Plain l) :
    Roomier (e.callAll narrow listeners) (e.callAll wide listeners) := by
  induction listeners generalizing e with
  | nil => exact .same he
  | cons l rest ih =>
      have hcall := hnotify (hplain l List.mem_cons_self) he
      rw [callAll, callAll]
      generalize narrow e l = r, wide e l = r' at hcall ⊢
      cases hcall with
      | tooDeep e r => exact .tooDeep e _
      | @same r h =>
          obtain ⟨_ | _, e'⟩ := r
          · exact .same h
          · apply ih h
            intro l hl
            exact hplain l (List.mem_cons_of_mem _ hl)

theorem roomier_executeWith : Roomier (e.executeWith narrow) (e.executeWith wide) := by
  have hkept : AllListeners Plain (silent e).2.listeners := by rwa [listeners_silent]
  rw [executeWith_eq, executeWith_eq]
  generalize silent e = reply at hkept ⊢
  obtain ⟨_ | _ | event, e'⟩ := reply
  · exact .same hkept
  · exact .same hkept
  · have hemit := roomier_callAll hnotify hkept (AllListeners.forEvent hkept event)
    dsimp only
    rw [emit, emit]
    generalize e'.callAll narrow _ = r, e'.callAll wide _ = r' at hemit ⊢
    cases hemit with
    | tooDeep e r => exact .tooDeep e _
    | @same r h =>
        refine .same ?_
        obtain ⟨err | _, e''⟩ := r
        · cases err with
          | fault f => exact h
          | _ => exact h
        · exact h

theorem roomier_stepWith : Roomier (e.stepWith narrow) (e.stepWith wide) := by
  rw [stepWith, stepWith]
  split
  · exact .same he
  · have hexecute := roomier_executeWith hnotify he
    generalize e.executeWith narrow = r, e.executeWith wide = r' at hexecute ⊢
    cases hexecute with
    | tooDeep e r => exact .tooDeep e _
    | @same r h =>
        refine .same ?_
        obtain ⟨_ | _, e'⟩ := r
        · exact h
        · exact h

theorem roomier_serve {r : Request} (hr : Brief r) :
    Roomier (e.serve narrow r) (e.serve wide r) := by
  cases r with
  | step => exact (roomier_stepWith hnotify he).map _
  | load program speed =>
      refine .same ?_
      rwa [serve, Reply.map, listeners_load]
  | reset => exact .same he
  | keyDown key | keyUp key => exact .same he
  | listen event name => exact .same (he.add event (plain_of_action nofun))
  | unlisten event name => exact .same (he.remove event name)
  | run _ | advance _ | tick _ => exact hr.elim

end

theorem roomier_follow {ask ask' : Emulator → Request → Reply Answer}
    (hask : ∀ {e r}, Brief r → AllListeners Plain e.listeners → Roomier (ask e r) (ask' e r))
    {s : Script} (hs : Yielding s) {e : Emulator} (he : AllListeners Plain e.listeners) :
    Roomier (e.follow ask s) (e.follow ask' s) := by
  induction hs generalizing e with
  | done => exact .same he
  | fail err => exact .same he
  | @ask r next hr hdeep h ih =>
      have hanswer := hask hr he
      simp only [follow]
      generalize ask e r = reply, ask' e r = reply' at hanswer ⊢
      cases hanswer with
      | tooDeep e' reply =>
          dsimp only
          rw [hdeep, follow]
          exact .tooDeep e' _
      | same h => exact ih _ _ h

theorem roomier_notifyAt (depth : Nat) {e : Emulator} {l : Listener} (hl : Plain l)
    (he : AllListeners Plain e.listeners) :
    Roomier (notifyAt depth e l) (notifyAt (depth + 1) e l) := by
  -- The induction is on how deep calls may nest: a listener's requests are served with listeners
  -- that may nest one call less.
  induction depth generalizing e l with
  | zero => exact .tooDeep e _
  | succ depth ih =>
      exact roomier_follow (fun hr he => roomier_serve ih he hr) (hl.yields _ _)
        (e := noted e l) he

end Chip8.Proofs.Nesting
