/-
**Runs of positions.** An interval is a pair of its start and its end, which is exclusive. `Runs P spans`: the intervals
are in order, no two of them touch, and they cover the positions where `P` holds. They are then its maximal runs, each
once (`Runs.mem_iff`).

`pushRun` adds an interval behind a list of them, to the last one where it starts in it or right after it.
-/

import Mathlib.Data.List.Basic
import Mathlib.Data.List.Induction
import Mathlib.Data.List.Pairwise
import Mathlib.Order.Nat

namespace PawBackend.Lib

open List

/-- The positions of an interval. -/
def Inside (s : ℕ × ℕ) (i : ℕ) : Prop := s.1 ≤ i ∧ i < s.2

structure Runs (P : ℕ → Prop) (spans : List (ℕ × ℕ)) : Prop where
  apart : spans.Pairwise fun a b => a.2 < b.1
  proper : ∀ s ∈ spans, s.1 < s.2
  covers : ∀ i, P i ↔ ∃ s ∈ spans, Inside s i

/-- An interval of positions where `P` holds that cannot be longer. -/
structure MaximalRun (P : ℕ → Prop) (s : ℕ × ℕ) : Prop where
  proper : s.1 < s.2
  all : ∀ i, Inside s i → P i
  left : ∀ i, i + 1 = s.1 → ¬P i
  right : ¬P s.2

variable {P Q : ℕ → Prop} {spans : List (ℕ × ℕ)} {s t : ℕ × ℕ}

theorem Runs.congr (runs : Runs P spans) (same : ∀ i, P i ↔ Q i) : Runs Q spans :=
  ⟨runs.apart, runs.proper, fun i => (same i).symm.trans (runs.covers i)⟩

theorem Runs.eq_or_apart (runs : Runs P spans) (left : s ∈ spans) (right : t ∈ spans) :
    s = t ∨ s.2 < t.1 ∨ t.2 < s.1 := by
  have : Std.Symm fun a b : ℕ × ℕ => a.2 < b.1 ∨ b.2 < a.1 := ⟨fun _ _ => Or.symm⟩
  have either : spans.Pairwise fun a b => a.2 < b.1 ∨ b.2 < a.1 := runs.apart.imp Or.inl
  by_cases same : s = t
  · exact .inl same
  · exact .inr (either.forall left right same)

theorem Runs.maximal (runs : Runs P spans) (mem : s ∈ spans) : MaximalRun P s := by
  have proper := runs.proper s mem
  have others : ∀ i, ¬Inside s i → i + 1 = s.1 ∨ i = s.2 → ¬P i := by
    intro i outside next holds
    obtain ⟨t, isRun, start, stop⟩ := (runs.covers i).mp holds
    rcases runs.eq_or_apart mem isRun with rfl | before
    · exact outside ⟨start, stop⟩
    · omega
  refine ⟨proper, fun i inside => (runs.covers i).mpr ⟨s, mem, inside⟩, fun i next => ?_, ?_⟩
  · exact others i (fun inside => absurd inside.1 (by omega)) (.inl next)
  · exact others s.2 (fun inside => absurd inside.2 (lt_irrefl _)) (.inr rfl)

/-- **The runs are the maximal ones.** -/
theorem Runs.mem_iff (runs : Runs P spans) : s ∈ spans ↔ MaximalRun P s := by
  refine ⟨runs.maximal, fun maximal => ?_⟩
  obtain ⟨t, isRun, start, stop⟩ := (runs.covers s.1).mp (maximal.all s.1 ⟨le_rfl, maximal.proper⟩)
  have other := runs.maximal isRun
  have proper := maximal.proper
  have properOther := other.proper
  have first : t.1 = s.1 := by
    by_contra differs
    exact maximal.left (s.1 - 1) (by omega) (other.all _ ⟨by omega, by omega⟩)
  have last : t.2 = s.2 := by
    rcases lt_trichotomy t.2 s.2 with before | same | after
    · exact absurd (maximal.all t.2 ⟨by omega, before⟩) other.right
    · exact same
    · exact absurd (other.all s.2 ⟨by omega, after⟩) maximal.right
  exact (Prod.ext first last : t = s) ▸ isRun

/-- An interval is added behind the others; `join` says how far the last one goes on. -/
def pushRun (join : ℕ → ℕ → ℕ) (runs : List (ℕ × ℕ)) (s : ℕ × ℕ) : List (ℕ × ℕ) :=
  match runs.getLast? with
  | some last => if s.1 ≤ last.2 then runs.dropLast ++ [(last.1, join last.2 s.2)] else runs ++ [s]
  | none => [s]

section Push

variable {join : ℕ → ℕ → ℕ}

theorem Runs.push (runs : Runs P spans) (joins : ∀ last stop, last ≤ stop → join last stop = stop) (proper : t.1 < t.2)
    (before : ∀ s ∈ spans, s.1 ≤ t.1 ∧ s.2 ≤ t.2) :
    Runs (fun i => P i ∨ Inside t i) (pushRun join spans t) ∧ ∀ s ∈ pushRun join spans t, s.1 ≤ t.1 ∧ s.2 ≤ t.2 := by
  rcases eq_nil_or_concat' spans with rfl | ⟨front, last, rfl⟩
  · have none : ∀ i, ¬P i := fun i holds => by simpa using (runs.covers i).mp holds
    exact ⟨⟨by simp [pushRun], by simpa [pushRun] using proper, by simp [pushRun, none]⟩, by simp [pushRun]⟩
  · have isLast := before last (by simp)
    have properLast := runs.proper last (by simp)
    obtain ⟨apart, -, behind⟩ := pairwise_append.mp runs.apart
    simp only [mem_singleton, forall_eq] at behind
    by_cases touches : t.1 ≤ last.2
    · have grown : pushRun join (front ++ [last]) t = front ++ [(last.1, t.2)] := by
        simp [pushRun, touches, joins last.2 t.2 isLast.2]
      rw [grown]
      refine ⟨⟨pairwise_append.mpr ⟨apart, pairwise_singleton _ _, by simpa using behind⟩, ?_, fun i => ?_⟩, ?_⟩
      · simp only [mem_append, mem_singleton]
        rintro s (mem | rfl)
        · exact runs.proper s (by simp [mem])
        · exact properLast.trans_le isLast.2
      · have both : Inside (last.1, t.2) i ↔ Inside last i ∨ Inside t i := by
          unfold Inside
          omega
        simp [runs.covers i, or_and_right, exists_or, both, or_assoc]
      · simp only [mem_append, mem_singleton]
        rintro s (mem | rfl)
        · exact before s (by simp [mem])
        · exact ⟨isLast.1, le_rfl⟩
    · have added : pushRun join (front ++ [last]) t = front ++ [last] ++ [t] := by simp [pushRun, touches]
      rw [added]
      refine ⟨⟨pairwise_append.mpr ⟨runs.apart, pairwise_singleton _ _, ?_⟩, ?_, fun i => ?_⟩, ?_⟩
      · simp only [mem_append, mem_singleton]
        rintro s (mem | rfl) _ rfl
        · have gap := behind s mem
          omega
        · omega
      · simp only [mem_append (s := front ++ [last]), mem_singleton]
        rintro s (mem | rfl)
        · exact runs.proper s (by simpa using mem)
        · exact proper
      · rw [runs.covers i]
        simp [or_and_right, exists_or, or_assoc]
      · intro s mem
        rcases mem_append.mp mem with mem | mem
        · exact before s mem
        · rw [mem_singleton.mp mem]
          exact ⟨le_rfl, le_rfl⟩

/-- **One greedy pass** over intervals whose starts and ends do not go back leaves the runs of what they cover. -/
theorem runs_foldl (joins : ∀ last stop, last ≤ stop → join last stop = stop) {intervals : List (ℕ × ℕ)}
    (ordered : intervals.Pairwise fun a b => a.1 ≤ b.1 ∧ a.2 ≤ b.2)
    (proper : ∀ s ∈ intervals, s.1 < s.2) :
    Runs (fun i => ∃ s ∈ intervals, Inside s i) (intervals.foldl (pushRun join) []) := by
  -- With it: no run starts or ends after what no interval does.
  suffices both : Runs (fun i => ∃ s ∈ intervals, Inside s i) (intervals.foldl (pushRun join) []) ∧
      ∀ s ∈ intervals.foldl (pushRun join) [], ∀ t : ℕ × ℕ, (∀ u ∈ intervals, u.1 ≤ t.1 ∧ u.2 ≤ t.2) →
        s.1 ≤ t.1 ∧ s.2 ≤ t.2 from both.1
  induction intervals using List.reverseRecOn with
  | nil => exact ⟨⟨List.Pairwise.nil, by simp, by simp⟩, by simp⟩
  | append_singleton front last ih =>
    obtain ⟨earlier, -, before⟩ := pairwise_append.mp ordered
    simp only [mem_singleton, forall_eq] at before
    obtain ⟨runs, bounded⟩ := ih earlier fun s mem => proper s (by simp [mem])
    obtain ⟨pushed, within⟩ := runs.push joins (proper last (by simp)) fun s mem => bounded s mem last before
    rw [foldl_concat]
    refine ⟨pushed.congr fun i => ?_, fun s mem t bounds => ?_⟩
    · simp [or_and_right, exists_or]
    · have isLast := bounds last (by simp)
      exact ⟨(within s mem).1.trans isLast.1, (within s mem).2.trans isLast.2⟩

end Push

end PawBackend.Lib
