/-
**A line served in order.** The elements of a list have a key of their own each; `before` is the part of
the list in front of an element. `before_split` puts the element after that part, and `before_before`
says that in a sorted list the part in front of an element goes on from the part in front of every
earlier one. A fold over the line is then cut at the turns of its elements.
-/

import Mathlib.Data.List.Nodup
import Mathlib.Data.List.TakeWhile

namespace PawBackend.Lib

open List

variable {α κ : Type} [DecidableEq κ] {key : α → κ} {line : List α} {a b : α}

/-- The part of a line in front of an element. -/
def before (key : α → κ) (line : List α) (a : α) : List α :=
  line.takeWhile fun other => decide (key other ≠ key a)

theorem before_split (distinct : (line.map key).Nodup) (mem : a ∈ line) :
    ∃ after, line = before key line a ++ a :: after := by
  unfold before
  induction line with
  | nil => exact absurd mem not_mem_nil
  | cons first rest ih =>
    rw [map_cons, nodup_cons] at distinct
    by_cases same : key first = key a
    · have this : a = first := by
        rcases mem_cons.mp mem with this | later
        · exact this
        · exact absurd (mem_map_of_mem later) (same ▸ distinct.1)
      refine ⟨rest, ?_⟩
      rw [takeWhile_cons_of_neg (by simpa using same), nil_append, this]
    · have later : a ∈ rest :=
        (mem_cons.mp mem).resolve_left fun this => same (congrArg key this.symm)
      obtain ⟨after, split⟩ := ih distinct.2 later
      refine ⟨after, ?_⟩
      rw [takeWhile_cons_of_pos (by simpa using same), cons_append, ← split]

theorem before_eq_of_split {front after : List α} (distinct : (line.map key).Nodup)
    (split : line = front ++ a :: after) : before key line a = front := by
  subst split
  unfold before
  have all : ∀ other ∈ front, decide (key other ≠ key a) = true := by
    intro other mem
    rw [map_append, map_cons, nodup_append] at distinct
    exact decide_eq_true (distinct.2.2 _ (mem_map_of_mem mem) _ (.head _))
  rw [takeWhile_append_of_pos all, takeWhile_cons_of_neg (by simp), append_nil]

theorem key_ne_of_mem_before (mem : b ∈ before key line a) : key b ≠ key a := by
  simpa using mem_takeWhile_imp mem

theorem mem_of_mem_before (mem : b ∈ before key line a) : b ∈ line :=
  ( takeWhile_prefix _).subset mem

theorem before_congr (same : key a = key b) : before key line a = before key line b := by
  unfold before
  rw [same]

theorem before_before {r : α → α → Prop} (distinct : (line.map key).Nodup) (sorted : line.Pairwise r)
    (first : a ∈ line) (second : b ∈ line) (earlier : ¬ r b a) (different : key a ≠ key b) :
    ∃ between, before key line b = before key line a ++ a :: between := by
  obtain ⟨after, split⟩ := before_split distinct second
  have inFront : a ∈ before key line b := by
    rw [split] at first sorted
    rcases mem_append.mp first with inFront | behind
    · exact inFront
    · rcases mem_cons.mp behind with this | behind
      · exact absurd (congrArg key this) different
      · exact absurd ((pairwise_cons.mp (pairwise_append.mp sorted).2.1).1 a behind) earlier
  have distinctFront : ((before key line b).map key).Nodup :=
    distinct.sublist ((takeWhile_sublist _).map key)
  obtain ⟨between, cut⟩ := before_split distinctFront inFront
  refine ⟨between, ?_⟩
  have same : before key (before key line b) a = before key line a := by
    have notAll : ¬ ∀ other ∈ before key line b, decide (key other ≠ key a) = true := by
      intro all
      simpa using all a inFront
    unfold before at split notAll ⊢
    conv_rhs => rw [split]
    rw [takeWhile_append, if_neg]
    intro full
    exact notAll (takeWhile_eq_self_iff.mp ((takeWhile_sublist _).eq_of_length full))
  rw [← same]
  exact cut

end PawBackend.Lib
