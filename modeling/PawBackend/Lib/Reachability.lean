/-
**Reachability over a list of edges.** `reach` follows the edges from a start in rounds, as a recursive
query does: each round adds the targets of what is there, and no round adds anything once there were as
many as edges. `mem_reach` says that it finds exactly what a path leads to.

A relation is acyclic when no node has a path back to itself.
-/

import Mathlib.Data.List.Basic
import Mathlib.Logic.Function.Iterate
import Mathlib.Logic.Relation

namespace PawBackend.Lib

open List

open Relation (ReflTransGen TransGen)

variable {α : Type}

def Joined (edges : List (α × α)) (a b : α) : Prop := (a, b) ∈ edges

section Rounds

variable [DecidableEq α]

def spread (edges : List (α × α)) (seen : List α) : List α :=
  seen ++ (edges.filter fun edge => decide (edge.1 ∈ seen)).map Prod.snd

def reach (edges : List (α × α)) (start : α) : List α := (spread edges)^[edges.length] [start]

def Closed (edges : List (α × α)) (seen : List α) : Prop := ∀ edge ∈ edges, edge.1 ∈ seen → edge.2 ∈ seen

variable {edges : List (α × α)} {seen : List α}

theorem mem_spread {b : α} :
    b ∈ spread edges seen ↔ b ∈ seen ∨ ∃ a ∈ seen, (a, b) ∈ edges := by
  simp only [spread, mem_append, mem_map, mem_filter, decide_eq_true_eq]
  constructor
  · rintro (known | ⟨⟨a, _⟩, ⟨isEdge, known⟩, rfl⟩)
    · exact .inl known
    · exact .inr ⟨a, known, isEdge⟩
  · rintro (known | ⟨a, known, isEdge⟩)
    · exact .inl known
    · exact .inr ⟨(a, b), ⟨isEdge, known⟩, rfl⟩

theorem closed_spread (closed : Closed edges seen) :
    Closed edges (spread edges seen) := by
  have same : ∀ b, b ∈ spread edges seen → b ∈ seen := by
    intro b found
    rcases mem_spread.mp found with known | ⟨a, known, isEdge⟩
    · exact known
    · exact closed (a, b) isEdge known
  intro edge isEdge known
  exact mem_spread.mpr (.inl (closed edge isEdge (same _ known)))

theorem countP_spread_lt (isOpen : ¬Closed edges seen) :
    (edges.countP fun edge => decide (edge.2 ∉ spread edges seen)) <
      edges.countP fun edge => decide (edge.2 ∉ seen) := by
  simp only [Closed, not_forall] at isOpen
  obtain ⟨edge, isEdge, known, new⟩ := isOpen
  have found : edge.2 ∈ spread edges seen := mem_spread.mpr (.inr ⟨edge.1, known, isEdge⟩)
  rw [countP_eq_length_filter, countP_eq_length_filter]
  have sub : (edges.filter fun edge => decide (edge.2 ∉ spread edges seen)).Sublist
      (edges.filter fun edge => decide (edge.2 ∉ seen)) := by
    refine monotone_filter_right edges fun other unseen => ?_
    rw [decide_eq_true_eq] at unseen ⊢
    exact fun known => unseen (mem_spread.mpr (.inl known))
  refine Nat.lt_of_le_of_ne sub.length_le fun sameLength => ?_
  have same := sub.eq_of_length sameLength
  have before : edge ∈ edges.filter fun edge => decide (edge.2 ∉ seen) :=
    mem_filter.mpr ⟨isEdge, decide_eq_true new⟩
  rw [← same, mem_filter, decide_eq_true_eq] at before
  exact before.2 found

theorem closed_or_rounds (edges : List (α × α)) (start : α) (rounds : ℕ) :
    Closed edges ((spread edges)^[rounds] [start]) ∨
      (edges.countP fun edge => decide (edge.2 ∉ (spread edges)^[rounds] [start])) + rounds ≤ edges.length := by
  induction rounds with
  | zero => exact .inr countP_le_length
  | succ rounds ih =>
    rw [Function.iterate_succ_apply']
    rcases ih with closed | few
    · exact .inl (closed_spread closed)
    · by_cases closed : Closed edges ((spread edges)^[rounds] [start])
      · exact .inl (closed_spread closed)
      · have fewer := countP_spread_lt closed
        right
        omega

theorem closed_reach (edges : List (α × α)) (start : α) : Closed edges (reach edges start) := by
  rcases closed_or_rounds edges start edges.length with closed | few
  · exact closed
  · have none : (edges.countP fun edge => decide (edge.2 ∉ reach edges start)) = 0 := by
      show (edges.countP fun edge => decide (edge.2 ∉ (spread edges)^[edges.length] [start])) = 0
      omega
    intro edge isEdge _
    have seen := countP_eq_zero.mp none edge isEdge
    rwa [decide_eq_true_eq, not_not] at seen

theorem mem_reach {start b : α} : b ∈ reach edges start ↔ ReflTransGen (Joined edges) start b := by
  constructor
  · have rounds : ∀ n b, b ∈ (spread edges)^[n] [start] → ReflTransGen (Joined edges) start b := by
      intro n
      induction n with
      | zero =>
        intro b isStart
        rw [Function.iterate_zero_apply, mem_singleton] at isStart
        exact isStart ▸ .refl
      | succ n ih =>
        intro b found
        rw [Function.iterate_succ_apply'] at found
        rcases mem_spread.mp found with known | ⟨a, known, isEdge⟩
        · exact ih b known
        · exact (ih a known).tail isEdge
    exact rounds edges.length b
  · intro path
    induction path with
    | refl =>
      have rounds : ∀ n, start ∈ (spread edges)^[n] [start] := by
        intro n
        induction n with
        | zero => exact mem_singleton_self start
        | succ n ih =>
          rw [Function.iterate_succ_apply']
          exact mem_spread.mpr (.inl ih)
      exact rounds edges.length
    | tail _ isEdge ih => exact closed_reach edges start _ isEdge ih

end Rounds

/-! ### Acyclic relations -/

/-- No node has a path back to itself. -/
def Acyclic (edges : List (α × α)) : Prop := ∀ a, ¬TransGen (Joined edges) a a

theorem acyclic_nil : Acyclic ([] : List (α × α)) := by
  intro a path
  obtain ⟨b, first, -⟩ := TransGen.head'_iff.mp path
  exact absurd first not_mem_nil

variable {a b : α}

theorem path_cons {edges : List (α × α)} {x y : α} (path : TransGen (Joined ((a, b) :: edges)) x y) :
    TransGen (Joined edges) x y ∨ ReflTransGen (Joined edges) x a ∧ ReflTransGen (Joined edges) b y := by
  induction path with
  | single isEdge =>
    rcases mem_cons.mp isEdge with isNew | isOld
    · cases isNew
      exact .inr ⟨.refl, .refl⟩
    · exact .inl (.single isOld)
  | tail _ isEdge ih =>
    rcases mem_cons.mp isEdge with isNew | isOld
    · cases isNew
      rcases ih with without | ⟨toEdge, -⟩
      · exact .inr ⟨without.to_reflTransGen, .refl⟩
      · exact .inr ⟨toEdge, .refl⟩
    · rcases ih with without | ⟨toEdge, fromEdge⟩
      · exact .inl (without.tail isOld)
      · exact .inr ⟨toEdge, fromEdge.tail isOld⟩

theorem Acyclic.cons {edges : List (α × α)} (acyclic : Acyclic edges)
    (apart : ¬ReflTransGen (Joined edges) b a) : Acyclic ((a, b) :: edges) := by
  intro x path
  rcases path_cons path with without | ⟨toEdge, fromEdge⟩
  · exact acyclic x without
  · exact apart (fromEdge.trans toEdge)

theorem eq_of_path_to_source {edges : List (α × α)} (source : ∀ edge ∈ edges, edge.2 ≠ a)
    (path : ReflTransGen (Joined edges) b a) : b = a := by
  rcases path.cases_tail with same | ⟨c, -, isEdge⟩
  · exact same.symm
  · exact absurd rfl (source _ isEdge)

end PawBackend.Lib
