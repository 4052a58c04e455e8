/-
**Calls that may be refused.** A call is an `Except`: checks that throw, and what it does once they
passed. The lemmas turn "the call was accepted" into the list of what its checks found, one conjunct for
each; as a `simp` set they invert a whole `do` block.
-/

import Mathlib.Data.List.Forall2

namespace PawBackend.Lib

open List

variable {ε α β : Type}

/-- What is there, or a refusal. -/
def orThrow (x : Option α) (e : ε) : Except ε α :=
  match x with
  | some a => .ok a
  | none => .error e

variable {e : ε} {a : α} {f : α → Except ε β} {x : Except ε α} {b : β} {c : Prop} {y : Except ε β} {values : List α}
  {results : List β}

theorem orThrow_eq_ok {x : Option α} : orThrow x e = .ok a ↔ x = some a := by
  cases x with
  | none => simp [orThrow]
  | some b => simp [orThrow]

theorem orThrow_bind_eq_error {x : Option α} {e' : ε}
    (refused : (orThrow x e >>= f) = .error e') : e = e' ∨ ∃ a, x = some a ∧ f a = .error e' := by
  cases x with
  | none => exact .inl (Except.error.inj refused)
  | some a => exact .inr ⟨a, rfl, refused⟩

theorem bind_eq_ok : (x >>= f) = .ok b ↔ ∃ a, x = .ok a ∧ f a = .ok b := by
  constructor
  · intro accepted
    cases x with
    | error e => cases accepted
    | ok a => exact ⟨a, rfl, accepted⟩
  · rintro ⟨a, rfl, accepted⟩
    exact accepted

theorem exists_bind_ok (passed : x = .ok a) (rest : ∃ b, f a = .ok b) :
    ∃ b, (x >>= f) = .ok b := by
  obtain ⟨b, accepted⟩ := rest
  exact ⟨b, bind_eq_ok.mpr ⟨a, passed, accepted⟩⟩

theorem map_eq_ok {f : α → β} :
    x.map f = .ok b ↔ ∃ a, x = .ok a ∧ f a = b := by
  constructor
  · intro accepted
    cases x with
    | error e => cases accepted
    | ok a => exact ⟨a, rfl, Except.ok.inj accepted⟩
  · rintro ⟨a, rfl, rfl⟩
    rfl

theorem pure_eq_ok {b : α} : (pure a : Except ε α) = .ok b ↔ a = b :=
  ⟨Except.ok.inj, congrArg _⟩

theorem toOption_eq_some : x.toOption = some a ↔ x = .ok a := by
  cases x with
  | error e => exact iff_of_false nofun nofun
  | ok b => exact ⟨fun same => congrArg _ (Option.some.inj same), fun same => congrArg _ (Except.ok.inj same)⟩

theorem exists_of_toOption_any {p : α → Bool} (holds : x.toOption.any p = true) :
    ∃ a, x = .ok a ∧ p a = true := by
  cases x with
  | error e => cases holds
  | ok a => exact ⟨a, rfl, holds⟩

theorem check_eq_ok [Decidable c] : (if c then (throw e : Except ε α) >>= f else y) = .ok b ↔ ¬c ∧ y = .ok b := by
  by_cases this : c
  · rw [if_pos this]
    constructor
    · intro accepted
      cases accepted
    · rintro ⟨passed, -⟩
      exact absurd this passed
  · rw [if_neg this]
    exact ⟨fun accepted => ⟨this, accepted⟩, fun ⟨_, accepted⟩ => accepted⟩

theorem throw_or_eq_ok [Decidable c] : (if c then throw e else y) = .ok b ↔ ¬c ∧ y = .ok b := by
  by_cases this : c
  · rw [if_pos this]
    constructor
    · intro accepted
      cases accepted
    · rintro ⟨passed, -⟩
      exact absurd this passed
  · rw [if_neg this]
    exact ⟨fun accepted => ⟨this, accepted⟩, fun ⟨_, accepted⟩ => accepted⟩

theorem refuse_eq_ok [Decidable c] : (if c then .error e else y) = .ok b ↔ ¬c ∧ y = .ok b := by
  by_cases this : c <;> simp [this]

theorem when_eq_ok [Decidable c] {x : Except ε Unit} {f : Unit → Except ε β} :
    (if c then x >>= f else f ()) = .ok b ↔ (c → x = .ok ()) ∧ f () = .ok b := by
  by_cases this : c
  · rw [if_pos this, bind_eq_ok]
    exact ⟨fun ⟨_, passed, rest⟩ => ⟨fun _ => passed, rest⟩, fun ⟨passed, rest⟩ => ⟨(), passed this, rest⟩⟩
  · rw [if_neg this]
    exact ⟨fun rest => ⟨fun holds => absurd holds this, rest⟩, fun ⟨_, rest⟩ => rest⟩

theorem foldlM_invariant {σ : Type} {f : σ → α → Except ε σ} {P : σ → Prop} {l : List α} {s s' : σ}
    (done : l.foldlM f s = .ok s') (keep : ∀ s a s', a ∈ l → P s → f s a = .ok s' → P s') (base : P s) :
    P s' := by
  induction l generalizing s with
  | nil =>
    rw [foldlM_nil, pure_eq_ok] at done
    exact done ▸ base
  | cons a rest ih =>
    rw [foldlM_cons, bind_eq_ok] at done
    obtain ⟨mid, first, others⟩ := done
    exact ih others (fun s b s' mem => keep s b s' (mem_cons_of_mem a mem))
      (keep s a mid (.head _) base first)

theorem forM_eq_ok {f : α → Except ε Unit} {l : List α} : l.forM f = .ok () ↔ ∀ a ∈ l, f a = .ok () := by
  induction l with
  | nil => exact iff_of_true rfl nofun
  | cons a rest ih =>
    show (f a >>= fun _ => rest.forM f) = .ok () ↔ _
    rw [bind_eq_ok, forall_mem_cons, ← ih]
    exact ⟨fun ⟨_, first, others⟩ => ⟨first, others⟩, fun ⟨first, others⟩ => ⟨(), first, others⟩⟩

theorem mapM_cons_eq_ok :
    (a :: values).mapM f = .ok results ↔ ∃ b rest, f a = .ok b ∧ values.mapM f = .ok rest ∧ results = b :: rest := by
  rw [mapM_cons, bind_eq_ok]
  constructor
  · rintro ⟨b, first, others⟩
    obtain ⟨rest, others, isResults⟩ := bind_eq_ok.mp others
    exact ⟨b, rest, first, others, (pure_eq_ok.mp isResults).symm⟩
  · rintro ⟨b, rest, first, others, rfl⟩
    exact ⟨b, first, bind_eq_ok.mpr ⟨rest, others, rfl⟩⟩

theorem exists_of_mem_mapM
    (accepted : values.mapM f = .ok results) (mem : b ∈ results) : ∃ a ∈ values, f a = .ok b := by
  induction values generalizing results with
  | nil =>
    cases pure_eq_ok.mp accepted
    cases mem
  | cons a values ih =>
    obtain ⟨first, rest, isFirst, others, rfl⟩ := mapM_cons_eq_ok.mp accepted
    rcases mem_cons.mp mem with rfl | mem
    · exact ⟨a, .head _, isFirst⟩
    · obtain ⟨a', isValue, isIts⟩ := ih others mem
      exact ⟨a', .tail _ isValue, isIts⟩

theorem exists_mapM_of_mem
    (accepted : values.mapM f = .ok results) (mem : a ∈ values) : ∃ b ∈ results, f a = .ok b := by
  induction values generalizing results with
  | nil => cases mem
  | cons first values ih =>
    obtain ⟨b, rest, isFirst, others, rfl⟩ := mapM_cons_eq_ok.mp accepted
    rcases mem_cons.mp mem with rfl | mem
    · exact ⟨b, .head _, isFirst⟩
    · obtain ⟨b', isResult, isIts⟩ := ih others mem
      exact ⟨b', .tail _ isResult, isIts⟩

theorem exists_mapM_of_forall (all : ∀ a ∈ values, ∃ b, f a = .ok b) :
    ∃ results, values.mapM f = .ok results := by
  induction values with
  | nil => exact ⟨[], rfl⟩
  | cons a values ih =>
    obtain ⟨b, isFirst⟩ := all a (.head _)
    obtain ⟨rest, others⟩ := ih fun other isIn => all other (.tail _ isIn)
    exact ⟨b :: rest, mapM_cons_eq_ok.mpr ⟨b, rest, isFirst, others, rfl⟩⟩

theorem mapM_of_mapM {γ : Type} {g : α → Except ε γ} {R : β → γ → Prop} (accepted : values.mapM f = .ok results)
    (related : ∀ a ∈ values, ∀ b ∈ results, f a = .ok b → ∃ c, g a = .ok c ∧ R b c) :
    ∃ others, values.mapM g = .ok others ∧ List.Forall₂ R results others := by
  induction values generalizing results with
  | nil =>
    cases pure_eq_ok.mp accepted
    exact ⟨[], rfl, .nil⟩
  | cons a values ih =>
    obtain ⟨first, rest, isFirst, others, rfl⟩ := mapM_cons_eq_ok.mp accepted
    obtain ⟨c, isOther, isRelated⟩ := related a (.head _) first (.head _) isFirst
    obtain ⟨cs, areOthers, areRelated⟩ := ih others fun a' isValue b isResult =>
      related a' (.tail _ isValue) b (.tail _ isResult)
    exact ⟨c :: cs, mapM_cons_eq_ok.mpr ⟨c, cs, isOther, areOthers, rfl⟩, .cons isRelated areRelated⟩

end PawBackend.Lib
