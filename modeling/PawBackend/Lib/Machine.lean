/-
**Step machines.** A machine is a set of initial states and a partial step function: an event that
does not fit the state has no step. `Reachable` is what finitely many steps lead to, `run` follows a
given list of events, and `Reachable.invariant` is the one induction every safety result of the
development goes through: a property of the initial states that every step keeps holds in every
reachable state.
-/

import Mathlib.Logic.Function.Basic

namespace PawBackend.Lib

universe u v

/-- A machine: where it may start, and what an event makes of a state. -/
structure Machine (σ : Type u) (ε : Type v) where
  initial : σ → Prop
  step : σ → ε → Option σ

namespace Machine

variable {σ : Type u} {ε : Type v} (M : Machine σ ε)

/-- The states finitely many steps lead to. -/
inductive Reachable : σ → Prop
  | start {s : σ} (init : M.initial s) : Reachable s
  | next {s s' : σ} {e : ε} (reach : Reachable s) (taken : M.step s e = some s') : Reachable s'

/-- The states that steps lead to each of which meets a condition on the state before it. -/
inductive ReachableBy (ok : σ → ε → Prop) : σ → Prop
  | start {s : σ} (init : M.initial s) : ReachableBy ok s
  | next {s s' : σ} {e : ε} (reach : ReachableBy ok s) (fits : ok s e) (taken : M.step s e = some s') :
    ReachableBy ok s'

def run : σ → List ε → Option σ
  | s, [] => some s
  | s, e :: events => (M.step s e).bind fun s' => run s' events

variable {M}

theorem Reachable.invariant {P : σ → Prop} (base : ∀ s, M.initial s → P s)
    (keep : ∀ s e s', M.Reachable s → P s → M.step s e = some s' → P s') {s : σ}
    (reach : M.Reachable s) : P s := by
  induction reach with
  | start init => exact base _ init
  | next reach taken ih => exact keep _ _ _ reach ih taken

theorem ReachableBy.reachable {ok : σ → ε → Prop} {s : σ} (reach : M.ReachableBy ok s) : M.Reachable s := by
  induction reach with
  | start init => exact .start init
  | next _ _ taken ih => exact ih.next taken

theorem ReachableBy.invariant {ok : σ → ε → Prop} {P : σ → Prop} (base : ∀ s, M.initial s → P s)
    (keep : ∀ s e s', M.Reachable s → P s → ok s e → M.step s e = some s' → P s') {s : σ}
    (reach : M.ReachableBy ok s) : P s := by
  induction reach with
  | start init => exact base _ init
  | next reach fits taken ih => exact keep _ _ _ reach.reachable ih fits taken

theorem run_preserves {P : σ → Prop} {ok : ε → Prop} {s s' : σ} {events : List ε} (base : P s)
    (keep : ∀ s e s', ok e → P s → M.step s e = some s' → P s') (fits : ∀ e ∈ events, ok e)
    (ran : M.run s events = some s') : P s' := by
  induction events generalizing s with
  | nil =>
    rw [Machine.run, Option.some.injEq] at ran
    exact ran ▸ base
  | cons e events ih =>
    rw [Machine.run, Option.bind_eq_some_iff] at ran
    obtain ⟨mid, taken, rest⟩ := ran
    rw [List.forall_mem_cons] at fits
    exact ih (keep s e mid fits.1 base taken) fits.2 rest

theorem Reachable.run {s s' : σ} {events : List ε} (reach : M.Reachable s)
    (ran : M.run s events = some s') : M.Reachable s' := by
  have all : ∀ e ∈ events, True := fun _ _ => trivial
  exact run_preserves (P := M.Reachable) reach (fun _ _ _ _ reach taken => reach.next taken) all ran

theorem ReachableBy.run {ok : σ → ε → Prop} {s s' : σ} {events : List ε} (reach : M.ReachableBy ok s)
    (fits : ∀ e ∈ events, ∀ s, ok s e) (ran : M.run s events = some s') : M.ReachableBy ok s' :=
  run_preserves (P := M.ReachableBy ok) reach (fun s _ _ fits reach taken => reach.next (fits s) taken) fits ran

theorem run_invariant_from {P : List ε → σ → Prop} {s s' : σ} {past events : List ε} (base : P past s)
    (keep : ∀ past s e s', P past s → M.step s e = some s' → P (past ++ [e]) s')
    (ran : M.run s events = some s') : P (past ++ events) s' := by
  induction events generalizing s past with
  | nil =>
    rw [Machine.run, Option.some.injEq] at ran
    rw [List.append_nil]
    exact ran ▸ base
  | cons e events ih =>
    rw [Machine.run, Option.bind_eq_some_iff] at ran
    obtain ⟨mid, taken, rest⟩ := ran
    rw [List.append_cons]
    exact ih (keep past s e mid base taken) rest

theorem run_invariant {P : List ε → σ → Prop} {s s' : σ} {events : List ε} (base : P [] s)
    (keep : ∀ past s e s', P past s → M.step s e = some s' → P (past ++ [e]) s')
    (ran : M.run s events = some s') : P events s' :=
  run_invariant_from base keep ran

end Machine

end PawBackend.Lib
