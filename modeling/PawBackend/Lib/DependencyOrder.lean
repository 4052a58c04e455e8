/-
**Items in the order of their dependencies.** Each item of a list has a key of its own and names the keys it
depends on, all of items before it. A property is then proved along the dependencies, and a pass over the
list that gives every item a value from the values of its dependencies computes the one solution of the
equations it is written with.
-/

import Mathlib.Data.List.Nodup
import Mathlib.Data.List.Perm.Subperm

namespace PawBackend.Lib

open List

variable {α κ β : Type} (key : α → κ) (deps : α → List κ)

def OrderedAfter (seen : List κ) : List α → Prop
  | [] => True
  | a :: rest => key a ∉ seen ∧ deps a ⊆ seen ∧ OrderedAfter (key a :: seen) rest

variable {key deps} {seen : List κ} {items : List α}

namespace OrderedAfter

/-- **Induction along the dependencies.** -/
theorem induction {P : κ → Prop} (ordered : OrderedAfter key deps seen items) (known : ∀ k ∈ seen, P k)
    (next : ∀ a ∈ items, (∀ k ∈ deps a, P k) → P (key a)) : ∀ a ∈ items, P (key a) := by
  induction items generalizing seen with
  | nil => exact fun a mem => absurd mem not_mem_nil
  | cons first rest ih =>
    obtain ⟨-, within, ordered⟩ := ordered
    have isFirst : P (key first) := next first (.head _) fun k mem => known k (within mem)
    have others := ih ordered
      (fun k mem => (mem_cons.mp mem).elim (fun same => same ▸ isFirst) (known k))
      fun a mem => next a (.tail _ mem)
    intro a mem
    rcases mem_cons.mp mem with rfl | mem
    · exact isFirst
    · exact others a mem

theorem fresh (ordered : OrderedAfter key deps seen items) : ∀ a ∈ items, key a ∉ seen := by
  induction items generalizing seen with
  | nil => exact fun a mem => absurd mem not_mem_nil
  | cons first rest ih =>
    obtain ⟨isNew, -, ordered⟩ := ordered
    intro a mem
    rcases mem_cons.mp mem with rfl | mem
    · exact isNew
    · exact fun old => ih ordered a mem (.tail _ old)

theorem nodup (ordered : OrderedAfter key deps seen items) : (items.map key).Nodup := by
  induction items generalizing seen with
  | nil => exact nodup_nil
  | cons first rest ih =>
    obtain ⟨-, -, ordered⟩ := ordered
    rw [map_cons, nodup_cons]
    refine ⟨fun twice => ?_, ih ordered⟩
    obtain ⟨a, mem, same⟩ := mem_map.mp twice
    exact ordered.fresh a mem (same ▸ (.head _))

theorem exists_of_mem_deps (ordered : OrderedAfter key deps seen items) {a : α} (mem : a ∈ items) {k : κ}
    (depends : k ∈ deps a) : k ∈ seen ∨ ∃ b ∈ items, key b = k := by
  induction items generalizing seen with
  | nil => cases mem
  | cons first rest ih =>
    obtain ⟨-, within, ordered⟩ := ordered
    rcases mem_cons.mp mem with rfl | mem
    · exact .inl (within depends)
    · rcases ih ordered mem with old | ⟨b, isItem, same⟩
      · rcases mem_cons.mp old with rfl | old
        · exact .inr ⟨first, .head _, rfl⟩
        · exact .inl old
      · exact .inr ⟨b, .tail _ isItem, same⟩

theorem map {γ : Type} {key' : γ → κ} {deps' : γ → List κ} {f : α → γ}
    (ordered : OrderedAfter key deps seen items) (sameKey : ∀ a ∈ items, key' (f a) = key a)
    (sameDeps : ∀ a ∈ items, deps' (f a) = deps a) : OrderedAfter key' deps' seen (items.map f) := by
  induction items generalizing seen with
  | nil => trivial
  | cons first rest ih =>
    obtain ⟨isNew, within, ordered⟩ := ordered
    rw [forall_mem_cons] at sameKey sameDeps
    refine ⟨?_, ?_, ?_⟩
    · rw [sameKey.1]
      exact isNew
    · rw [sameDeps.1]
      exact within
    · rw [sameKey.1]
      exact ih ordered sameKey.2 sameDeps.2

theorem of_map {γ : Type} {key' : γ → κ} {deps' : γ → List κ} {f : α → γ}
    (ordered : OrderedAfter key' deps' seen (items.map f)) (sameKey : ∀ a, key' (f a) = key a)
    (sameDeps : ∀ a, deps' (f a) = deps a) : OrderedAfter key deps seen items := by
  induction items generalizing seen with
  | nil => trivial
  | cons first rest ih =>
    obtain ⟨isNew, within, ordered⟩ := ordered
    rw [sameKey] at isNew ordered
    rw [sameDeps] at within
    exact ⟨isNew, within, ih ordered⟩

end OrderedAfter

/-! ### Putting items in order -/

section Kahn

variable [DecidableEq κ] (key deps)

/-- An item is placed: it is no longer left, and what waits for it waits for one less. -/
def released (placed : α) (left : List (α × ℕ)) : List (α × ℕ) :=
  (left.eraseP fun entry => decide (entry.2 = 0)).map fun entry =>
    (entry.1, if key placed ∈ deps entry.1 then entry.2 - 1 else entry.2)

/-- Kahn's algorithm: the first of the items left that waits for nothing goes next. -/
def kahn : ℕ → List (α × ℕ) → List α
  | 0, _ => []
  | fuel + 1, left =>
    match left.find? fun entry => decide (entry.2 = 0) with
    | none => []
    | some entry => entry.1 :: kahn fuel (released key deps entry.1 left)

/-- Items with the number of their dependencies; no pass is longer than they are many. -/
def topologicalOrder (items : List α) : List α :=
  kahn key deps items.length (items.map fun a => (a, (deps a).length))

variable {key deps} {left : List (α × ℕ)} {entry : α × ℕ}

theorem exists_append_of_find (found : left.find? (fun entry => decide (entry.2 = 0)) = some entry) :
    entry.2 = 0 ∧ ∃ before after, left = before ++ entry :: after ∧
      left.eraseP (fun entry => decide (entry.2 = 0)) = before ++ after := by
  obtain ⟨isReady, before, after, rfl, others⟩ := find?_eq_some_iff_append.mp found
  refine ⟨of_decide_eq_true isReady, before, after, rfl, ?_⟩
  have waits : ∀ b ∈ before, ¬ decide (b.2 = 0) = true := fun b mem => by
    have := others b mem
    simpa using this
  rw [eraseP_append_right _ waits]
  exact congrArg _ (eraseP_cons_of_pos isReady)

theorem map_fst_released (found : left.find? (fun entry => decide (entry.2 = 0)) = some entry) :
    (left.map Prod.fst).Perm (entry.1 :: (released key deps entry.1 left).map Prod.fst) := by
  obtain ⟨-, before, after, rfl, erased⟩ := exists_append_of_find found
  have firsts : (released key deps entry.1 (before ++ entry :: after)).map Prod.fst = (before ++ after).map Prod.fst := by
    rw [released, erased, map_map]
    rfl
  rw [firsts, map_append, map_append, map_cons]
  exact perm_middle

theorem kahn_subperm (fuel : ℕ) : (kahn key deps fuel left).Subperm (left.map Prod.fst) := by
  induction fuel generalizing left with
  | zero => exact nil_subperm
  | succ fuel ih =>
    rw [kahn]
    split
    · exact nil_subperm
    case h_2 entry found =>
      refine ((subperm_cons entry.1).mpr ih).trans ?_
      exact (map_fst_released found).symm.subperm

/-- Every item waits for at least as many as are not placed. -/
def WaitsEnough (deps : α → List κ) (seen : List κ) (left : List (α × ℕ)) : Prop :=
  ∀ entry ∈ left, ((deps entry.1).filter fun k => decide (k ∉ seen)).length ≤ entry.2

theorem WaitsEnough.released (waits : WaitsEnough deps seen left) {a : α} (isNew : key a ∉ seen) :
    WaitsEnough deps (key a :: seen) (released key deps a left) := by
  intro entry mem
  obtain ⟨before, isBefore, rfl⟩ := mem_map.mp mem
  have enough := waits before (mem_of_mem_eraseP isBefore)
  have fewer : ((deps before.1).filter fun k => decide (k ∉ key a :: seen)) =
      ((deps before.1).filter fun k => decide (k ∉ seen)).filter fun k => decide (k ≠ key a) := by
    rw [filter_filter]
    refine filter_congr fun k _ => ?_
    simp [mem_cons, not_or]
  show _ ≤ if key a ∈ deps before.1 then before.2 - 1 else before.2
  rw [fewer]
  split
  case isTrue depends =>
    have isOne : key a ∈ (deps before.1).filter fun k => decide (k ∉ seen) :=
      mem_filter.mpr ⟨depends, decide_eq_true isNew⟩
    have less := length_filter_lt_length_iff_exists (p := fun k => decide (k ≠ key a)) |>.mpr ⟨key a, isOne, by simp⟩
    omega
  case isFalse => exact Nat.le_trans (length_filter_le _ _) enough

theorem orderedAfter_kahn (fuel : ℕ) (distinct : (left.map fun entry => key entry.1).Nodup)
    (fresh : ∀ entry ∈ left, key entry.1 ∉ seen) (waits : WaitsEnough deps seen left) :
    OrderedAfter key deps seen (kahn key deps fuel left) := by
  induction fuel generalizing left seen with
  | zero => trivial
  | succ fuel ih =>
    rw [kahn]
    split
    · trivial
    case h_2 entry found =>
      have mem : entry ∈ left := mem_of_find?_eq_some found
      obtain ⟨noWait, -⟩ := exists_append_of_find found
      have isPerm : ((left.map Prod.fst).map key).Perm ((entry.1 :: (released key deps entry.1 left).map Prod.fst).map key) :=
        (map_fst_released found).map key
      rw [map_map] at isPerm
      have apart := isPerm.nodup_iff.mp distinct
      rw [map_cons, nodup_cons, map_map] at apart
      refine ⟨fresh entry mem, fun k depends => ?_, ih apart.2 (fun other isLeft => ?_) (waits.released (fresh entry mem))⟩
      · -- It waits for nothing, so none of its dependencies is missing.
        have none := waits entry mem
        rw [noWait, Nat.le_zero, length_eq_zero_iff, filter_eq_nil_iff] at none
        simpa using none k depends
      · intro old
        rcases mem_cons.mp old with same | old
        · exact apart.1 (mem_map.mpr ⟨other, isLeft, same⟩)
        · obtain ⟨before, isBefore, rfl⟩ := mem_map.mp isLeft
          exact fresh before (mem_of_mem_eraseP isBefore) old

theorem orderedAfter_topologicalOrder (distinct : (items.map key).Nodup) :
    OrderedAfter key deps [] (topologicalOrder key deps items) := by
  refine orderedAfter_kahn _ ?_ (fun _ _ => not_mem_nil) fun entry mem => ?_
  · rw [map_map]
    exact distinct
  · obtain ⟨a, -, rfl⟩ := mem_map.mp mem
    exact length_filter_le _ _

theorem topologicalOrder_perm (all : (topologicalOrder key deps items).length = items.length) :
    (topologicalOrder key deps items).Perm items := by
  have within : (topologicalOrder key deps items).Subperm items := by
    have placed : (topologicalOrder key deps items).Subperm ((items.map fun a => (a, (deps a).length)).map Prod.fst) :=
      kahn_subperm items.length
    rwa [map_map, show (Prod.fst ∘ fun a => (a, (deps a).length)) = id from rfl, map_id] at placed
  exact within.perm_of_length_le (Nat.le_of_eq all.symm)

end Kahn

/-! ### A pass over the items -/

section Evaluate

variable [DecidableEq κ] (rule : α → (κ → Option β) → β)

def valueOf (known : List (κ × β)) (k : κ) : Option β := known.lookup k

variable (key) in
def evaluateAfter (known : List (κ × β)) : List α → List (κ × β)
  | [] => known
  | a :: rest => evaluateAfter (known ++ [(key a, rule a (valueOf known))]) rest

variable (key) in
def evaluate (items : List α) : List (κ × β) := evaluateAfter key rule [] items

variable {rule} {known : List (κ × β)}

theorem valueOf_of_mem {k : κ} {b : β} (distinct : (known.map Prod.fst).Nodup) (mem : (k, b) ∈ known) :
    valueOf known k = some b := by
  unfold valueOf
  induction known with
  | nil => cases mem
  | cons first rest ih =>
    rw [map_cons, nodup_cons] at distinct
    rcases mem_cons.mp mem with rfl | mem
    · exact lookup_cons_self
    · have other : (k == first.1) = false := by
        rw [beq_eq_false_iff_ne]
        rintro rfl
        exact distinct.1 (mem_map.mpr ⟨_, mem, rfl⟩)
      rw [lookup_cons, other]
      exact ih distinct.2 mem

theorem valueOf_evaluateAfter {k : κ} (isKnown : k ∈ known.map Prod.fst) :
    valueOf (evaluateAfter key rule known items) k = valueOf known k := by
  induction items generalizing known with
  | nil => rfl
  | cons a rest ih =>
    unfold evaluateAfter
    have found : (known.lookup k).isSome = true := by
      rw [Option.isSome_iff_ne_none]
      intro missing
      obtain ⟨entry, mem, rfl⟩ := mem_map.mp isKnown
      simpa using lookup_eq_none_iff.mp missing entry mem
    rw [ih (by rw [map_append]; exact mem_append_left _ isKnown), valueOf, lookup_append,
      Option.or_of_isSome found]
    rfl

theorem evaluateAfter_eq (ordered : OrderedAfter key deps seen items) (same : ∀ k, k ∈ seen ↔ k ∈ known.map Prod.fst)
    (onDeps : ∀ a f g, (∀ k ∈ deps a, f k = g k) → rule a f = rule a g) :
    evaluateAfter key rule known items =
      known ++ items.map fun a => (key a, rule a (valueOf (evaluateAfter key rule known items))) := by
  induction items generalizing seen known with
  | nil => exact (append_nil known).symm
  | cons first rest ih =>
    obtain ⟨isNew, within, ordered⟩ := ordered
    have same' : ∀ k, k ∈ key first :: seen ↔
        k ∈ (known ++ [(key first, rule first (valueOf known))]).map Prod.fst := by
      intro k
      rw [mem_cons, map_append, mem_append, ← same k, or_comm]
      exact or_congr_right mem_singleton.symm
    have value : rule first (valueOf known) =
        rule first (valueOf (evaluateAfter key rule known (first :: rest))) := by
      refine onDeps first _ _ fun k depends => (valueOf_evaluateAfter ?_).symm
      exact (same k).mp (within depends)
    unfold evaluateAfter at value ⊢
    rw [map_cons, ← value]
    exact (ih ordered same').trans (append_assoc ..)

variable (ordered : OrderedAfter key deps [] items)
  (onDeps : ∀ a f g, (∀ k ∈ deps a, f k = g k) → rule a f = rule a g)
include ordered onDeps

theorem evaluate_eq :
    evaluate key rule items = items.map fun a => (key a, rule a (valueOf (evaluate key rule items))) :=
  evaluateAfter_eq ordered (fun k => by simp) onDeps

theorem keys_evaluate : (evaluate key rule items).map Prod.fst = items.map key := by
  rw [evaluate_eq ordered onDeps, map_map]
  rfl

theorem valueOf_evaluate {a : α} (mem : a ∈ items) :
    valueOf (evaluate key rule items) (key a) = some (rule a (valueOf (evaluate key rule items))) := by
  have distinct : ((evaluate key rule items).map Prod.fst).Nodup := by
    rw [keys_evaluate ordered onDeps]
    exact ordered.nodup
  refine valueOf_of_mem distinct ?_
  have member' : (key a, rule a (valueOf (evaluate key rule items))) ∈
      items.map fun a => (key a, rule a (valueOf (evaluate key rule items))) :=
    mem_map.mpr ⟨a, mem, rfl⟩
  rw [← evaluate_eq ordered onDeps] at member'
  exact member'

end Evaluate

end PawBackend.Lib
