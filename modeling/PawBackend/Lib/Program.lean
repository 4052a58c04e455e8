/-
**Programs that wait for others.**

A program asks, and goes on with how the call it asked for ends: the call returns, it raises, or the program is
interrupted while it waits. Nothing is assumed about the replies, so a run is any list of exchanges the program can go
through.
-/

import Mathlib.Data.List.Basic

namespace PawBackend.Lib

open List

/-- How a call ends. -/
inductive Outcome (F α : Type)
  | returned (value : α)
  | raised (failure : F)
  | interrupted
  deriving DecidableEq, Repr

def Outcome.any {F α : Type} (p : α → Bool) : Outcome F α → Bool
  | .returned value => p value
  | _ => false

theorem Outcome.exists_of_any {F α : Type} {p : α → Bool} {outcome : Outcome F α} (holds : outcome.any p = true) :
    ∃ value, outcome = .returned value ∧ p value = true := by
  cases outcome with
  | returned value => exact ⟨value, rfl, holds⟩
  | raised failure => cases holds
  | interrupted => cases holds

/-- A program that asks questions `Q` with answers `A`, where a call may raise an `F`. -/
inductive Program (Q : Type) (A : Q → Type) (F α : Type)
  | done (value : α)
  | ask (question : Q) (next : Outcome F (A question) → Program Q A F α)

structure Exchange (Q : Type) (A : Q → Type) (F : Type) where
  question : Q
  reply : Outcome F (A question)

variable {Q : Type} {A : Q → Type} {F σ α β : Type}

/-! ### Programs -/

namespace Program

def bind (x : Program Q A F α) (f : α → Program Q A F β) : Program Q A F β :=
  match x with
  | .done value => f value
  | .ask question next => .ask question fun reply => (next reply).bind f

theorem bind_done (x : Program Q A F α) : x.bind .done = x := by
  induction x with
  | done value => rfl
  | ask question next ih => exact congrArg (ask question) (funext ih)

theorem bind_assoc {γ : Type} (x : Program Q A F α) (f : α → Program Q A F β) (g : β → Program Q A F γ) :
    (x.bind f).bind g = x.bind fun value => (f value).bind g := by
  induction x with
  | done value => rfl
  | ask question next ih => exact congrArg (ask question) (funext ih)

inductive Ends : Program Q A F α → List (Exchange Q A F) → α → Prop
  | done (value : α) : Ends (.done value) [] value
  | ask {question : Q} {next : Outcome F (A question) → Program Q A F α} (reply : Outcome F (A question))
      {exchanges : List (Exchange Q A F)} {value : α} (ends : Ends (next reply) exchanges value) :
      Ends (.ask question next) (⟨question, reply⟩ :: exchanges) value

def run (reply : (question : Q) → Outcome F (A question)) : Program Q A F α → List (Exchange Q A F) × α
  | .done value => ([], value)
  | .ask question next =>
    let rest := (next (reply question)).run reply
    (⟨question, reply question⟩ :: rest.1, rest.2)

theorem ends_run (reply : (question : Q) → Outcome F (A question)) (x : Program Q A F α) :
    Ends x (x.run reply).1 (x.run reply).2 := by
  induction x with
  | done value => exact .done value
  | ask question next ih => exact .ask _ (ih _)

theorem ends_done {value result : α} {exchanges : List (Exchange Q A F)} :
    Ends (.done value) exchanges result ↔ exchanges = [] ∧ result = value := by
  constructor
  · intro ends
    cases ends
    exact ⟨rfl, rfl⟩
  · rintro ⟨rfl, rfl⟩
    exact .done _

theorem ends_ask {question : Q} {next : Outcome F (A question) → Program Q A F α}
    {exchanges : List (Exchange Q A F)} {value : α} :
    Ends (.ask question next) exchanges value ↔
      ∃ reply rest, exchanges = ⟨question, reply⟩ :: rest ∧ Ends (next reply) rest value := by
  constructor
  · intro ends
    cases ends with
    | ask reply rest => exact ⟨reply, _, rfl, rest⟩
  · rintro ⟨reply, rest, rfl, ends⟩
    exact .ask reply ends

theorem ends_bind {x : Program Q A F α} {f : α → Program Q A F β} {exchanges : List (Exchange Q A F)} {value : β} :
    Ends (x.bind f) exchanges value ↔
      ∃ mid before after, exchanges = before ++ after ∧ Ends x before mid ∧ Ends (f mid) after value := by
  induction x generalizing exchanges with
  | done mid =>
    constructor
    · exact fun ends => ⟨mid, [], exchanges, rfl, .done mid, ends⟩
    · rintro ⟨mid', before, after, rfl, first, second⟩
      obtain ⟨rfl, rfl⟩ := ends_done.mp first
      exact second
  | ask question next ih =>
    show Ends (.ask question fun reply => (next reply).bind f) _ _ ↔ _
    rw [ends_ask]
    constructor
    · rintro ⟨reply, rest, rfl, ends⟩
      obtain ⟨mid, before, after, rfl, first, second⟩ := (ih reply).mp ends
      exact ⟨mid, _ :: before, after, rfl, .ask reply first, second⟩
    · rintro ⟨mid, before, after, rfl, first, second⟩
      obtain ⟨reply, rest, rfl, isFirst⟩ := ends_ask.mp first
      exact ⟨reply, rest ++ after, rfl, (ih reply).mpr ⟨mid, rest, after, rfl, isFirst, second⟩⟩

end Program

/-! ### Actions -/

/-- A program with a local state that is kept however it ends. -/
def Action (Q : Type) (A : Q → Type) (F σ α : Type) := σ → Program Q A F (Outcome F α × σ)

namespace Action

instance : Monad (Action Q A F σ) where
  pure value := fun s => .done (.returned value, s)
  bind x f := fun s => (x s).bind fun
    | (.returned value, s) => f value s
    | (.raised failure, s) => .done (.raised failure, s)
    | (.interrupted, s) => .done (.interrupted, s)

instance : LawfulMonad (Action Q A F σ) := by
  refine LawfulMonad.mk' _ ?_ ?_ ?_
  · intro α x
    funext s
    show (x s).bind _ = x s
    refine Eq.trans (congrArg _ (funext fun result => ?_)) (Program.bind_done (x s))
    obtain ⟨outcome, s'⟩ := result
    cases outcome with
    | returned | raised | interrupted => rfl
  · intro α β value f
    rfl
  · intro α β γ x f g
    funext s
    show ((x s).bind _).bind _ = (x s).bind _
    rw [Program.bind_assoc]
    refine congrArg _ (funext fun result => ?_)
    obtain ⟨outcome, s'⟩ := result
    cases outcome with
    | returned | raised | interrupted => rfl

/-- Waits for a call. -/
def ask (question : Q) : Action Q A F σ (A question) := fun s => .ask question fun reply => .done (reply, s)

def raise (failure : F) : Action Q A F σ α := fun s => .done (.raised failure, s)

def modify (f : σ → σ) : Action Q A F σ Unit := fun s => .done (.returned (), f s)

/-- `try`: what is raised is a value, an interruption goes on. -/
def attempt (x : Action Q A F σ α) : Action Q A F σ (Except F α) := fun s => (x s).bind fun
  | (.returned value, s) => .done (.returned (.ok value), s)
  | (.raised failure, s) => .done (.returned (.error failure), s)
  | (.interrupted, s) => .done (.interrupted, s)

/-- What is there, or raises. -/
def orRaise (x : Option α) (failure : F) : Action Q A F σ α :=
  match x with
  | some value => pure value
  | none => raise failure

def Runs (x : Action Q A F σ α) (s : σ) (exchanges : List (Exchange Q A F)) (outcome : Outcome F α) (s' : σ) :
    Prop := (x s).Ends exchanges (outcome, s')

variable {x : Action Q A F σ α} {f : α → Action Q A F σ β} {s s' : σ} {exchanges : List (Exchange Q A F)}

theorem runs_pure {value : α} {outcome : Outcome F α} :
    Runs (pure value : Action Q A F σ α) s exchanges outcome s' ↔
      exchanges = [] ∧ outcome = .returned value ∧ s' = s := by
  show Program.Ends (.done _) _ _ ↔ _
  rw [Program.ends_done, Prod.mk.injEq]

theorem runs_raise {failure : F} {outcome : Outcome F α} :
    Runs (raise failure : Action Q A F σ α) s exchanges outcome s' ↔
      exchanges = [] ∧ outcome = .raised failure ∧ s' = s := by
  show Program.Ends (.done _) _ _ ↔ _
  rw [Program.ends_done, Prod.mk.injEq]

theorem runs_modify {g : σ → σ} {outcome : Outcome F Unit} :
    Runs (modify g : Action Q A F σ Unit) s exchanges outcome s' ↔
      exchanges = [] ∧ outcome = .returned () ∧ s' = g s := by
  show Program.Ends (.done _) _ _ ↔ _
  rw [Program.ends_done, Prod.mk.injEq]

theorem runs_ask {question : Q} {outcome : Outcome F (A question)} :
    Runs (ask question : Action Q A F σ _) s exchanges outcome s' ↔ exchanges = [⟨question, outcome⟩] ∧ s' = s := by
  show Program.Ends (.ask question _) _ _ ↔ _
  rw [Program.ends_ask]
  constructor
  · rintro ⟨reply, rest, rfl, ends⟩
    obtain ⟨rfl, same⟩ := Program.ends_done.mp ends
    cases same
    exact ⟨rfl, rfl⟩
  · rintro ⟨rfl, rfl⟩
    exact ⟨outcome, [], rfl, .done _⟩

theorem runs_bind {outcome : Outcome F β} :
    Runs (x >>= f) s exchanges outcome s' ↔
      (∃ value mid before after, exchanges = before ++ after ∧ Runs x s before (.returned value) mid ∧
        Runs (f value) mid after outcome s') ∨
      (∃ failure, outcome = .raised failure ∧ Runs x s exchanges (.raised failure) s') ∨
      outcome = .interrupted ∧ Runs x s exchanges .interrupted s' := by
  show Program.Ends (Program.bind (x s) _) _ _ ↔ _
  rw [Program.ends_bind]
  constructor
  · rintro ⟨⟨first, mid⟩, before, after, rfl, isFirst, isSecond⟩
    cases first with
    | returned value => exact .inl ⟨value, mid, before, after, rfl, isFirst, isSecond⟩
    | raised failure =>
      obtain ⟨rfl, same⟩ := Program.ends_done.mp isSecond
      cases same
      exact .inr (.inl ⟨failure, rfl, (append_nil before).symm ▸ isFirst⟩)
    | interrupted =>
      obtain ⟨rfl, same⟩ := Program.ends_done.mp isSecond
      cases same
      exact .inr (.inr ⟨rfl, (append_nil before).symm ▸ isFirst⟩)
  · rintro (⟨value, mid, before, after, rfl, isFirst, isSecond⟩ | ⟨failure, rfl, isFirst⟩ | ⟨rfl, isFirst⟩)
    · exact ⟨_, before, after, rfl, isFirst, isSecond⟩
    · exact ⟨_, exchanges, [], (append_nil exchanges).symm, isFirst, .done _⟩
    · exact ⟨_, exchanges, [], (append_nil exchanges).symm, isFirst, .done _⟩

theorem runs_attempt {outcome : Outcome F (Except F α)} :
    Runs (attempt x) s exchanges outcome s' ↔
      (∃ value, outcome = .returned (.ok value) ∧ Runs x s exchanges (.returned value) s') ∨
      (∃ failure, outcome = .returned (.error failure) ∧ Runs x s exchanges (.raised failure) s') ∨
      outcome = .interrupted ∧ Runs x s exchanges .interrupted s' := by
  show Program.Ends (Program.bind (x s) _) _ _ ↔ _
  rw [Program.ends_bind]
  constructor
  · rintro ⟨⟨first, mid⟩, before, after, rfl, isFirst, isSecond⟩
    cases first with
    | returned value =>
      obtain ⟨rfl, same⟩ := Program.ends_done.mp isSecond
      cases same
      exact .inl ⟨value, rfl, (append_nil before).symm ▸ isFirst⟩
    | raised failure =>
      obtain ⟨rfl, same⟩ := Program.ends_done.mp isSecond
      cases same
      exact .inr (.inl ⟨failure, rfl, (append_nil before).symm ▸ isFirst⟩)
    | interrupted =>
      obtain ⟨rfl, same⟩ := Program.ends_done.mp isSecond
      cases same
      exact .inr (.inr ⟨rfl, (append_nil before).symm ▸ isFirst⟩)
  · rintro (⟨value, rfl, isFirst⟩ | ⟨failure, rfl, isFirst⟩ | ⟨rfl, isFirst⟩)
    · exact ⟨_, exchanges, [], (append_nil exchanges).symm, isFirst, .done _⟩
    · exact ⟨_, exchanges, [], (append_nil exchanges).symm, isFirst, .done _⟩
    · exact ⟨_, exchanges, [], (append_nil exchanges).symm, isFirst, .done _⟩

/-! ### Runs that return -/

theorem returns_pure {value result : α} :
    Runs (pure value : Action Q A F σ α) s exchanges (.returned result) s' ↔
      exchanges = [] ∧ value = result ∧ s' = s := by
  rw [runs_pure, Outcome.returned.injEq, eq_comm (a := result)]

theorem returns_raise {failure : F} {result : α} :
    ¬Runs (raise failure : Action Q A F σ α) s exchanges (.returned result) s' := by
  rw [runs_raise]
  rintro ⟨-, wrong, -⟩
  cases wrong

theorem returns_bind {result : β} :
    Runs (x >>= f) s exchanges (.returned result) s' ↔
      ∃ value mid before after, exchanges = before ++ after ∧ Runs x s before (.returned value) mid ∧
        Runs (f value) mid after (.returned result) s' := by
  rw [runs_bind]
  constructor
  · rintro (goesOn | ⟨failure, wrong, -⟩ | ⟨wrong, -⟩)
    · exact goesOn
    · cases wrong
    · cases wrong
  · exact .inl

theorem returns_attempt_ask {question : Q} {result : Except F (A question)} :
    Runs (attempt (ask question) : Action Q A F σ _) s exchanges (.returned result) s' ↔
      exchanges = [⟨question, match result with
        | .ok value => .returned value
        | .error failure => .raised failure⟩] ∧ s' = s := by
  rw [runs_attempt]
  simp only [runs_ask]
  constructor
  · rintro (⟨value, same, rfl, rfl⟩ | ⟨failure, same, rfl, rfl⟩ | ⟨wrong, -⟩)
    · cases same
      exact ⟨rfl, rfl⟩
    · cases same
      exact ⟨rfl, rfl⟩
    · cases wrong
  · rintro ⟨rfl, rfl⟩
    cases result with
    | ok value => exact .inl ⟨value, rfl, rfl, rfl⟩
    | error failure => exact .inr (.inl ⟨failure, rfl, rfl, rfl⟩)

theorem returns_orRaise {found : Option α} {failure : F} {result : α} :
    Runs (orRaise found failure : Action Q A F σ α) s exchanges (.returned result) s' ↔
      exchanges = [] ∧ found = some result ∧ s' = s := by
  cases found with
  | none => exact iff_of_false returns_raise (by simp)
  | some value =>
    show Runs (pure value) _ _ _ _ ↔ _
    rw [returns_pure, Option.some.injEq]

/-! ### What every run satisfies -/

def Always (R : σ → List (Exchange Q A F) → σ → Prop) (x : Action Q A F σ α) : Prop :=
  ∀ ⦃s exchanges outcome s'⦄, Runs x s exchanges outcome s' → R s exchanges s'

/-- A relation that holds of doing nothing, and of two runs in a row. -/
structure Composes (R : σ → List (Exchange Q A F) → σ → Prop) : Prop where
  nil : ∀ s, R s [] s
  append : ∀ {s before mid after s'}, R s before mid → R mid after s' → R s (before ++ after) s'

namespace Composes

variable {R : σ → List (Exchange Q A F) → σ → Prop} (composes : Composes R)
include composes

theorem pure (value : α) : Always R (pure value : Action Q A F σ α) := by
  intro s exchanges outcome s' runs
  obtain ⟨rfl, -, rfl⟩ := runs_pure.mp runs
  exact composes.nil s'

theorem raise (failure : F) : Always R (Action.raise failure : Action Q A F σ α) := by
  intro s exchanges outcome s' runs
  obtain ⟨rfl, -, rfl⟩ := runs_raise.mp runs
  exact composes.nil s'

theorem orRaise (found : Option α) (failure : F) : Always R (Action.orRaise found failure : Action Q A F σ α) := by
  cases found with
  | none => exact composes.raise failure
  | some value => exact composes.pure value

theorem bind (first : Always R x) (rest : ∀ value, Always R (f value)) : Always R (x >>= f) := by
  intro s exchanges outcome s' runs
  rcases runs_bind.mp runs with ⟨value, mid, before, after, rfl, isFirst, isRest⟩ | ⟨failure, -, isFirst⟩ |
    ⟨-, isFirst⟩
  · exact composes.append (first isFirst) (rest value isRest)
  · exact first isFirst
  · exact first isFirst

theorem mapM {values : List α} (each : ∀ value ∈ values, Always R (f value)) : Always R (values.mapM f) := by
  induction values with
  | nil => exact composes.pure []
  | cons value rest ih =>
    rw [mapM_cons]
    exact composes.bind (each value (.head _)) fun result =>
      composes.bind (ih fun other mem => each other (.tail _ mem)) fun results =>
        composes.pure _

end Composes

theorem Always.attempt {R : σ → List (Exchange Q A F) → σ → Prop} (always : Always R x) :
    Always R (attempt x) := by
  intro s exchanges outcome s' runs
  rcases runs_attempt.mp runs with ⟨_, -, own⟩ | ⟨_, -, own⟩ | ⟨-, own⟩
  · exact always own
  · exact always own
  · exact always own

end Action

end PawBackend.Lib
