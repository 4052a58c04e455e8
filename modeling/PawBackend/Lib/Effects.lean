/-
**Programs that keep a state whatever they raise.**

A program changes a state and then returns or raises; what it changed before it raised stays. `Ensures` is its weakest
precondition: run from a state it ends as one predicate says if it returns, and as another says if it raises.
-/

import Mathlib.Logic.Basic

namespace PawBackend.Lib

variable {F σ α β : Type}

/-- A program with state `σ` that may raise an `F`. -/
abbrev Effect (F σ α : Type) := ExceptT F (StateM σ) α

/-- What a program ends with, and the state it leaves. -/
def Effect.execute (x : Effect F σ α) (s : σ) : Except F α × σ := x.run.run s

/-- Run from a state, a program that returns ends as `returned` says, and one that raises as `raised` says. -/
def Ensures (x : Effect F σ α) (returned : α → σ → Prop) (raised : F → σ → Prop) (s : σ) : Prop :=
  match x.execute s with
  | (.ok value, s') => returned value s'
  | (.error failure, s') => raised failure s'

variable {x : Effect F σ α} {f : α → Effect F σ β} {returned : α → σ → Prop} {raised : F → σ → Prop} {s : σ}

theorem ensures_pure {value : α} : Ensures (pure value : Effect F σ α) returned raised s ↔ returned value s :=
  Iff.rfl

theorem ensures_throw {failure : F} : Ensures (throw failure : Effect F σ α) returned raised s ↔ raised failure s :=
  Iff.rfl

theorem execute_bind : Effect.execute (x >>= f) s =
    match x.execute s with
    | (.ok value, s') => (f value).execute s'
    | (.error failure, s') => (.error failure, s') := by
  show (StateT.run (ExceptT.run x >>= fun result => ExceptT.bindCont f result) s : Id _) = _
  rw [StateT.run_bind]
  show (ExceptT.bindCont f (x.execute s).1).run (x.execute s).2 = _
  generalize x.execute s = ended
  obtain ⟨result, s'⟩ := ended
  cases result with
  | ok value => rfl
  | error failure => rfl

theorem ensures_bind {returned : β → σ → Prop} :
    Ensures (x >>= f) returned raised s ↔ Ensures x (fun value => Ensures (f value) returned raised) raised s := by
  unfold Ensures
  rw [execute_bind]
  obtain ⟨result, s'⟩ := x.execute s
  cases result with
  | ok | error => exact Iff.rfl

theorem Ensures.mono {returned' : α → σ → Prop} {raised' : F → σ → Prop} (ensures : Ensures x returned raised s)
    (weaker : ∀ value s', returned value s' → returned' value s')
    (raises : ∀ failure s', raised failure s' → raised' failure s') : Ensures x returned' raised' s := by
  unfold Ensures at ensures ⊢
  generalize x.execute s = ended at ensures ⊢
  obtain ⟨result, s'⟩ := ended
  cases result with
  | ok value => exact weaker value s' ensures
  | error failure => exact raises failure s' ensures

theorem Ensures.bind {returned' : β → σ → Prop} (ensures : Ensures x returned raised s)
    (next : ∀ value s', returned value s' → Ensures (f value) returned' raised s') :
    Ensures (x >>= f) returned' raised s :=
  ensures_bind.mpr (ensures.mono next fun _ _ same => same)

/-- What is done next, and what an error of the first part says of the whole. -/
theorem Ensures.bindRaising {returned' : β → σ → Prop} {raised' : F → σ → Prop} (ensures : Ensures x returned raised s)
    (raises : ∀ failure s', raised failure s' → raised' failure s')
    (next : ∀ value s', returned value s' → Ensures (f value) returned' raised' s') :
    Ensures (x >>= f) returned' raised' s :=
  ensures_bind.mpr (ensures.mono next raises)

theorem Ensures.returned_of {value : α} {s' : σ} (ensures : Ensures x returned raised s)
    (ran : x.execute s = (.ok value, s')) : returned value s' := by
  unfold Ensures at ensures
  rw [ran] at ensures
  exact ensures

theorem Ensures.raised_of {failure : F} {s' : σ} (ensures : Ensures x returned raised s)
    (ran : x.execute s = (.error failure, s')) : raised failure s' := by
  unfold Ensures at ensures
  rw [ran] at ensures
  exact ensures

/-- What is there, or an error. -/
def orThrowAs (found : Option α) (failure : F) : Effect F σ α :=
  match found with
  | some value => pure value
  | none => throw failure

theorem ensures_orThrowAs {found : Option α} {failure : F} (here : ∀ value, found = some value → returned value s)
    (missing : found = none → raised failure s) : Ensures (orThrowAs found failure) returned raised s := by
  cases found with
  | none => exact ensures_throw.mpr (missing rfl)
  | some value => exact ensures_pure.mpr (here value rfl)

end PawBackend.Lib
