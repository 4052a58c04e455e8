/-
**Lists one place of which is rewritten, and lists that grow at their end.** What holds between any two entries of a
list still does after one was replaced, when the new entry is apart from all the others; and each entry is apart from
all the others. Where an entry may only follow certain others, a list is kept so by what is added to it.
-/

import Mathlib.Data.List.Basic

namespace PawBackend.Lib

open List

variable {α : Type} {R : α → α → Prop}

variable {l : List α} {i : ℕ} {a : α}

theorem mem_of_mem_set {b : α} (mem : b ∈ l.set i a) : b = a ∨ b ∈ l.eraseIdx i := by
  induction l generalizing i with
  | nil => cases mem
  | cons first rest ih =>
    cases i with
    | zero =>
      rcases mem_cons.mp mem with same | mem
      · exact .inl same
      · exact .inr mem
    | succ i =>
      rcases mem_cons.mp mem with same | mem
      · exact .inr (same ▸ (.head _))
      · exact (ih mem).imp_right (mem_cons_of_mem _)

theorem pairwise_set (symm : ∀ a b, R a b → R b a) {new : α} (apart : l.Pairwise R)
    (fits : ∀ other ∈ l.eraseIdx i, R new other) : (l.set i new).Pairwise R := by
  induction l generalizing i with
  | nil => exact .nil
  | cons first rest ih =>
    rw [pairwise_cons] at apart
    cases i with
    | zero => exact .cons fits apart.2
    | succ i =>
      rw [eraseIdx_cons_succ, forall_mem_cons] at fits
      refine .cons (fun other mem => ?_) (ih apart.2 fits.2)
      rcases mem_or_eq_of_mem_set mem with mem | rfl
      · exact apart.1 other mem
      · exact symm _ _ fits.1

theorem apart_of_eraseIdx (symm : ∀ a b, R a b → R b a) (apart : l.Pairwise R)
    (found : l[i]? = some a) : ∀ other ∈ l.eraseIdx i, R a other := by
  induction l generalizing i with
  | nil => cases found
  | cons first rest ih =>
    rw [pairwise_cons] at apart
    cases i with
    | zero =>
      cases found
      exact apart.1
    | succ i =>
      intro other mem
      rcases mem_cons.mp mem with rfl | mem
      · exact symm _ _ (apart.1 a (mem_of_getElem? found))
      · exact ih apart.2 found other mem

theorem append_singleton_split {before after : List α} {b : α} (split : l ++ [a] = before ++ b :: after) :
    (before = l ∧ b = a ∧ after = []) ∨ ∃ rest, after = rest ++ [a] ∧ l = before ++ b :: rest := by
  rcases eq_nil_or_concat after with rfl | ⟨rest, last, rfl⟩
  · obtain ⟨same, tail⟩ := append_inj' split rfl
    exact .inl ⟨same.symm, (List.cons.inj tail).1.symm, rfl⟩
  · rw [concat_eq_append, ← cons_append, ← append_assoc] at split
    obtain ⟨same, tail⟩ := append_inj' split rfl
    exact .inr ⟨rest, by rw [concat_eq_append, (List.cons.inj tail).1], same⟩

def Guarded (allowed : List α → α → Prop) (l : List α) : Prop :=
  ∀ before a after, l = before ++ a :: after → allowed before a

variable {allowed : List α → α → Prop}

theorem Guarded.concat (guarded : Guarded allowed l) (fits : allowed l a) :
    Guarded allowed (l ++ [a]) := by
  intro before b after split
  rcases append_singleton_split split with ⟨rfl, rfl, rfl⟩ | ⟨rest, rfl, earlier⟩
  · exact fits
  · exact guarded before b rest earlier

end PawBackend.Lib
