/-
**Three-valued logic.** A condition of SQL holds, fails or is NULL, and a row is kept where it holds. A
comparison with NULL is NULL; `AND`, `OR` and `NOT` make of it what is known anyway. `EXISTS` is never NULL.
-/

import Mathlib.Data.List.Basic

namespace PawBackend.Lib

inductive Truth
  | yes
  | no
  | null
  deriving DecidableEq, Repr

namespace Truth

/-- A row is kept. -/
def Holds (t : Truth) : Prop := t = .yes

instance Holds.decidable (t : Truth) : Decidable t.Holds := inferInstanceAs (Decidable (t = .yes))

def ofBool (b : Bool) : Truth := if b then .yes else .no

/-- `NOT`. -/
def negate : Truth → Truth
  | .yes => .no
  | .no => .yes
  | .null => .null

/-- `AND`. -/
def both : Truth → Truth → Truth
  | .no, _ => .no
  | _, .no => .no
  | .yes, .yes => .yes
  | _, _ => .null

/-- `OR`. -/
def either (a b : Truth) : Truth := (a.negate.both b.negate).negate

def all (conditions : List Truth) : Truth := conditions.foldr both .yes

def any (conditions : List Truth) : Truth := conditions.foldr either .no

def compare {α β : Type} (p : α → β → Bool) : Option α → Option β → Truth
  | some a, some b => ofBool (p a b)
  | _, _ => .null

/-- `EXISTS (SELECT 1 FROM rows WHERE condition)`. -/
def exist {ρ : Type} (rows : List ρ) (condition : ρ → Truth) : Truth :=
  ofBool (rows.any fun row => decide (condition row = .yes))

section

variable {a b : Truth} {conditions : List Truth}

@[simp] theorem holds_ofBool {b : Bool} : (ofBool b).Holds ↔ b = true := by
  cases b with
  | true => exact iff_of_true rfl rfl
  | false => exact iff_of_false (fun holds => Truth.noConfusion holds) Bool.false_ne_true

@[simp] theorem holds_both : (a.both b).Holds ↔ a.Holds ∧ b.Holds := by
  unfold Holds
  cases a with | _ => cases b with | _ => simp [both]

@[simp] theorem holds_either : (a.either b).Holds ↔ a.Holds ∨ b.Holds := by
  unfold Holds either
  cases a with | _ => cases b with | _ => simp [both, negate]

@[simp] theorem holds_all : (all conditions).Holds ↔ ∀ condition ∈ conditions, condition.Holds := by
  induction conditions with
  | nil => exact iff_of_true rfl fun _ isIn => absurd isIn List.not_mem_nil
  | cons condition rest ih =>
    rw [List.forall_mem_cons, ← ih]
    exact holds_both

@[simp] theorem holds_any : (any conditions).Holds ↔ ∃ condition ∈ conditions, condition.Holds := by
  induction conditions with
  | nil => exact iff_of_false (fun holds => Truth.noConfusion holds) fun ⟨_, isIn, _⟩ => List.not_mem_nil isIn
  | cons condition rest ih =>
    simp only [List.mem_cons, exists_eq_or_imp, ← ih]
    exact holds_either

theorem holds_compare {α β : Type} {p : α → β → Bool} {a : Option α} {b : Option β} :
    (compare p a b).Holds ↔ ∃ x ∈ a, ∃ y ∈ b, p x y = true := by
  cases a with
  | none => exact iff_of_false (fun holds => Truth.noConfusion holds) fun ⟨_, isNone, _⟩ => Option.not_mem_none _ isNone
  | some x =>
    cases b with
    | none =>
      exact iff_of_false (fun holds => Truth.noConfusion holds) fun ⟨_, _, _, isNone, _⟩ => Option.not_mem_none _ isNone
    | some y => simp [compare]

theorem exist_iff {ρ : Type} {rows : List ρ} {condition : ρ → Truth} :
    (exist rows condition).Holds ↔ ∃ row ∈ rows, (condition row).Holds := by
  unfold exist Holds
  simp [ofBool]

theorem holds_negate_exist {ρ : Type} {rows : List ρ} {condition : ρ → Truth} :
    (exist rows condition).negate.Holds ↔ ∀ row ∈ rows, ¬ (condition row).Holds := by
  unfold exist ofBool Holds
  by_cases some : (rows.any fun row => decide (condition row = .yes)) = true
  · rw [if_pos some]
    obtain ⟨row, isRow, holds⟩ := List.any_eq_true.mp some
    exact iff_of_false (fun none => Truth.noConfusion none) fun none => none row isRow (of_decide_eq_true holds)
  · rw [if_neg some]
    refine iff_of_true rfl fun row isRow holds => some (List.any_eq_true.mpr ⟨row, isRow, decide_eq_true holds⟩)

end

end Truth

end PawBackend.Lib
