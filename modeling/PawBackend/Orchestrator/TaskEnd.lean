/-
**The sweep of ended tasks** (`orchestrator/task_end.py`: `TaskEndResidue.task_ids`, `TaskEndCleanup.sweep`).

A sweep finishes a page of the ended tasks that still hold something, and the next one resumes after it. The page is
merged from the pages of three queries (`taskIds_eq`).
-/

import PawBackend.Lib.Pages
import Mathlib.Tactic.Ring

namespace PawBackend.Orchestrator

open Lib List

/-! ### The sweep -/

section Sweep

variable {Id : Type} [LinearOrder Id]

/-- The tasks of the rows that the three queries are about: open approvals, active grants and session memories of
ended tasks. -/
structure Residue (Id : Type) where
  approvals : List Id
  grants : List Id
  memories : List Id
  deriving DecidableEq, Repr

namespace Residue

def rows (residue : Residue Id) : List Id := residue.approvals ++ residue.grants ++ residue.memories

/-- `:after IS NULL OR id > :after`. -/
def resuming (after : Option Id) (rows : List Id) : List Id := rows.filter fun task => decide (∀ last ∈ after, last < task)

/-- One of the queries: `SELECT DISTINCT … ORDER BY id LIMIT :limit`. -/
def query (limit : ℕ) (after : Option Id) (rows : List Id) : List Id := page limit (resuming after rows)

/-- `task_ids`: `sorted(found)[:limit]`. -/
def taskIds (residue : Residue Id) (limit : ℕ) (after : Option Id) : List Id :=
  page limit (query limit after residue.approvals ++ query limit after residue.grants ++ query limit after residue.memories)

end Residue

def sweepPage (limit : ℕ) (residue : Residue Id) (after : Option Id) : List Id :=
  if residue.taskIds limit after = [] ∧ after ≠ none then residue.taskIds limit none else residue.taskIds limit after

def nextAfter (limit : ℕ) (taskIds : List Id) : Option Id :=
  if taskIds.length = limit then taskIds.getLast? else none

/-- A sweep begins at the start of the set. -/
def StartsOver (limit : ℕ) (residue : Residue Id) (after : Option Id) : Prop :=
  after = none ∨ residue.taskIds limit after = []

/-- Sweeps one after another over a fixed set of tasks. A task of the set holds something as long as it was not passed to
`finish`; afterwards it may or may not. -/
structure SweepRun (Id : Type) [LinearOrder Id] (limit : ℕ) where
  tasks : Finset Id
  /-- What a sweep finds. -/
  residue : ℕ → Residue Id
  /-- Where it resumes. -/
  after : ℕ → Option Id
  within : ∀ k, ∀ task ∈ (residue k).rows, task ∈ tasks
  kept : ∀ k, ∀ task ∈ tasks, (∀ j < k, task ∉ sweepPage limit (residue j) (after j)) → task ∈ (residue k).rows
  resumes : ∀ k, after (k + 1) = nextAfter limit (sweepPage limit (residue k) (after k))

namespace SweepRun

variable {limit : ℕ}

/-- The tasks a sweep passes to `finish`. -/
def passed (run : SweepRun Id limit) (k : ℕ) : List Id := sweepPage limit (run.residue k) (run.after k)

def startsOver (run : SweepRun Id limit) (k : ℕ) : Prop := StartsOver limit (run.residue k) (run.after k)

end SweepRun

/-! ### The page -/

variable {limit : ℕ} {residue : Residue Id} {after : Option Id} {task : Id}

namespace Residue

theorem mem_resuming {rows : List Id} : task ∈ resuming after rows ↔ task ∈ rows ∧ ∀ last ∈ after, last < task := by
  unfold resuming
  rw [mem_filter, decide_eq_true_eq]

theorem taskIds_eq (residue : Residue Id) (limit : ℕ) (after : Option Id) :
    residue.taskIds limit after = page limit (resuming after residue.rows) := by
  have swap : ∀ first second third : List Id, page limit (first ++ second ++ third) = page limit (third ++ first ++ second) := by
    intro first second third
    refine page_congr fun a => ?_
    simp only [mem_append]
    tauto
  have merge : ∀ first second third : List Id, page limit (page limit first ++ second ++ third) =
      page limit (first ++ second ++ third) := by
    intro first second third
    rw [append_assoc, page_merge, append_assoc]
  unfold taskIds query
  rw [merge, swap, merge, swap, merge, swap]
  refine page_congr fun a => ?_
  simp only [rows, mem_append, mem_resuming]
  tauto

end Residue

theorem sweepPage_sorted (limit : ℕ) (residue : Residue Id) (after : Option Id) :
    (sweepPage limit residue after).Pairwise (· < ·) := by
  unfold sweepPage
  split_ifs
  · exact page_sorted _ _
  · exact page_sorted _ _

theorem after_of_not_startsOver (goesOn : ¬ StartsOver limit residue after) (isPassed : task ∈ sweepPage limit residue after) :
    ∀ last ∈ after, last < task := by
  unfold StartsOver at goesOn
  rw [not_or] at goesOn
  unfold sweepPage at isPassed
  rw [if_neg fun both => goesOn.2 both.1, Residue.taskIds_eq] at isPassed
  exact (Residue.mem_resuming.mp (mem_page.mp isPassed).1).2

theorem nextAfter_eq_some {taskIds : List Id} {last : Id} (isNext : nextAfter limit taskIds = some last) :
    taskIds.length = limit ∧ last ∈ taskIds.getLast? := by
  unfold nextAfter at isNext
  split_ifs at isNext with full
  exact ⟨full, isNext⟩

theorem le_getLast {taskIds : List Id} (sorted : taskIds.Pairwise (· < ·)) {last : Id} (isLast : last ∈ taskIds.getLast?) :
    ∀ task ∈ taskIds, task ≤ last := by
  obtain ⟨rest, rfl⟩ := getLast?_eq_some_iff.mp isLast
  intro task isIn
  rcases mem_append.mp isIn with isBefore | isLast
  · exact ((pairwise_append.mp sorted).2.2 task isBefore last (mem_singleton_self last)).le
  · exact (mem_singleton.mp isLast).le

/-! ### Counting rounds -/

def ahead (tasks : Finset Id) (after : Option Id) : Finset Id := tasks.filter fun task => ∀ last ∈ after, last < task

def aheadTo (tasks : Finset Id) (after : Option Id) (task : Id) : Finset Id :=
  (ahead tasks after).filter fun other => other ≤ task

/-- The pages that so many tasks fill. -/
def rounds (limit count : ℕ) : ℕ := (count + limit - 1) / limit

/-- The sweeps until a task is taken, at most. -/
def waits (limit : ℕ) (tasks : Finset Id) (task : Id) (after : Option Id) : ℕ :=
  if ∀ last ∈ after, last < task then rounds limit (aheadTo tasks after task).card
  else rounds limit (ahead tasks after).card + rounds limit (aheadTo tasks none task).card

theorem rounds_lt (positive : 1 ≤ limit) {few many : ℕ} (fewer : few + limit ≤ many) : rounds limit few < rounds limit many := by
  unfold rounds
  have step : (few + limit - 1) / limit + 1 = (few + limit - 1 + limit) / limit := (Nat.add_div_right _ positive).symm
  have le : (few + limit - 1 + limit) / limit ≤ (many + limit - 1) / limit := Nat.div_le_div_right (by omega)
  omega

theorem rounds_pos (positive : 1 ≤ limit) {count : ℕ} (some : 1 ≤ count) : 1 ≤ rounds limit count :=
  (Nat.one_le_div_iff positive).mpr (by omega)

theorem rounds_add_le (positive : 1 ≤ limit) {first second total : ℕ} (sum : first + second ≤ total) :
    rounds limit first + rounds limit second ≤ total / limit + 2 := by
  unfold rounds
  have together : (first + limit - 1) / limit + (second + limit - 1) / limit ≤
      (first + limit - 1 + (second + limit - 1)) / limit := Nat.div_add_div_le_add_div
  have le : (first + limit - 1 + (second + limit - 1)) / limit ≤ (total + 2 * limit) / limit :=
    Nat.div_le_div_right (by omega)
  have twice : (total + 2 * limit) / limit = total / limit + 2 := Nat.add_mul_div_right total 2 positive
  omega

variable {tasks : Finset Id}

theorem mem_ahead : task ∈ ahead tasks after ↔ task ∈ tasks ∧ ∀ last ∈ after, last < task := Finset.mem_filter

theorem mem_aheadTo {other : Id} :
    other ∈ aheadTo tasks after task ↔ (other ∈ tasks ∧ ∀ last ∈ after, last < other) ∧ other ≤ task := by
  unfold aheadTo
  rw [Finset.mem_filter, mem_ahead]

theorem card_add_page {taskIds : List Id} {later all : Finset Id} (sorted : taskIds.Pairwise (· < ·))
    (inside : ∀ task ∈ taskIds, task ∈ all) (laterInside : later ⊆ all) (apart : ∀ task ∈ taskIds, task ∉ later) :
    later.card + taskIds.length ≤ all.card := by
  rw [← toFinset_card_of_nodup (sorted.imp ne_of_lt)]
  have disjoint : Disjoint later taskIds.toFinset :=
    Finset.disjoint_left.mpr fun task isLater isTaken => apart task (mem_toFinset.mp isTaken) isLater
  rw [← Finset.card_union_of_disjoint disjoint]
  exact Finset.card_le_card (Finset.union_subset laterInside fun task isTaken => inside task (mem_toFinset.mp isTaken))

theorem waits_page_lt (positive : 1 ≤ limit) (within : ∀ task ∈ residue.rows, task ∈ tasks) (holds : task ∈ residue.rows)
    (admits : ∀ last ∈ after, last < task) (missed : task ∉ residue.taskIds limit after) :
    waits limit tasks task (nextAfter limit (residue.taskIds limit after)) < rounds limit (aheadTo tasks after task).card := by
  rw [Residue.taskIds_eq] at missed ⊢
  obtain ⟨full, before⟩ := page_before (Residue.mem_resuming.mpr ⟨holds, admits⟩) missed
  have sorted := page_sorted limit (Residue.resuming after residue.rows)
  have nonempty : page limit (Residue.resuming after residue.rows) ≠ [] := by
    intro nothing
    rw [nothing, length_nil] at full
    omega
  obtain ⟨rest, last, split⟩ := eq_nil_or_concat _ |>.resolve_left nonempty
  rw [concat_eq_append] at split
  have isLast : last ∈ (page limit (Residue.resuming after residue.rows)).getLast? := by
    rw [split]
    exact getLast?_concat
  have next : nextAfter limit (page limit (Residue.resuming after residue.rows)) = some last := by
    unfold nextAfter
    rw [if_pos full]
    exact isLast
  have lastTaken : last ∈ page limit (Residue.resuming after residue.rows) := mem_of_getLast? isLast
  have greatest := le_getLast sorted isLast
  unfold waits
  rw [next, if_pos fun other isOther => Option.mem_some.mp isOther ▸ before last lastTaken]
  refine rounds_lt positive ?_
  rw [← full] at positive
  refine le_trans (Nat.add_le_add_left full.ge _) (card_add_page sorted (fun other taken => ?_) (fun other isLater => ?_) ?_)
  · obtain ⟨isRow, isAfter⟩ := Residue.mem_resuming.mp (mem_page.mp taken).1
    exact mem_aheadTo.mpr ⟨⟨within other isRow, isAfter⟩, (before other taken).le⟩
  · obtain ⟨⟨isTask, isAfter⟩, le⟩ := mem_aheadTo.mp isLater
    refine mem_aheadTo.mpr ⟨⟨isTask, fun position isPosition => ?_⟩, le⟩
    have lastAfter := (Residue.mem_resuming.mp (mem_page.mp lastTaken).1).2 position isPosition
    exact lastAfter.trans (isAfter last rfl)
  · intro other taken isLater
    exact absurd ((mem_aheadTo.mp isLater).1.2 last rfl) (not_lt.mpr (greatest other taken))

/-- **A sweep that passes a task by leaves it fewer rounds.** -/
theorem waits_lt (positive : 1 ≤ limit) (within : ∀ task ∈ residue.rows, task ∈ tasks) (holds : task ∈ residue.rows)
    (missed : task ∉ sweepPage limit residue after) :
    waits limit tasks task (nextAfter limit (sweepPage limit residue after)) < waits limit tasks task after := by
  have fromStart : task ∉ residue.taskIds limit none → waits limit tasks task (nextAfter limit (residue.taskIds limit none)) <
      rounds limit (aheadTo tasks none task).card :=
    waits_page_lt positive within holds nofun
  by_cases admits : ∀ last ∈ after, last < task
  · -- the position is before the task
    have some : residue.taskIds limit after ≠ [] := by
      intro nothing
      have isRow := Residue.mem_resuming.mpr ⟨holds, admits⟩
      have length := length_page limit (Residue.resuming after residue.rows)
      rw [← Residue.taskIds_eq, nothing, length_nil] at length
      have card : 0 < (Residue.resuming after residue.rows).toFinset.card :=
        Finset.card_pos.mpr ⟨task, mem_toFinset.mpr isRow⟩
      omega
    unfold sweepPage at missed ⊢
    rw [if_neg fun both => some both.1] at missed ⊢
    have less := waits_page_lt positive within holds admits missed
    have old : waits limit tasks task after = rounds limit (aheadTo tasks after task).card := if_pos admits
    rw [old]
    exact less
  · have old : waits limit tasks task after = rounds limit (ahead tasks after).card +
        rounds limit (aheadTo tasks none task).card := if_neg admits
    have positioned : after ≠ none := by
      rintro rfl
      exact admits nofun
    rw [old]
    by_cases nothing : residue.taskIds limit after = []
    · -- it starts over at once
      unfold sweepPage at missed ⊢
      rw [if_pos ⟨nothing, positioned⟩] at missed ⊢
      have less := fromStart missed
      omega
    · unfold sweepPage at missed ⊢
      rw [if_neg fun both => nothing both.1] at missed ⊢
      have inside : ∀ other ∈ residue.taskIds limit after, other ∈ ahead tasks after := by
        intro other taken
        rw [Residue.taskIds_eq] at taken
        obtain ⟨isRow, isAfter⟩ := Residue.mem_resuming.mp (mem_page.mp taken).1
        exact mem_ahead.mpr ⟨within other isRow, isAfter⟩
      have sorted : (residue.taskIds limit after).Pairwise (· < ·) := page_sorted _ _
      cases next : nextAfter limit (residue.taskIds limit after) with
      | none =>
        -- the rest was less than a page: the next sweep begins at the start
        obtain ⟨other, taken⟩ := exists_mem_of_ne_nil _ nothing
        have card : 1 ≤ (ahead tasks after).card := Finset.card_pos.mpr ⟨other, inside other taken⟩
        have atLeast := rounds_pos positive card
        have fresh : waits limit tasks task none = rounds limit (aheadTo tasks none task).card :=
          if_pos nofun
        omega
      | some last =>
        obtain ⟨full, isLast⟩ := nextAfter_eq_some next
        have lastTaken : last ∈ residue.taskIds limit after := mem_of_getLast? isLast
        have further : ¬ ∀ position ∈ some last, position < task := by
          intro admitsLater
          exact admits fun position isPosition =>
            ((mem_ahead.mp (inside last lastTaken)).2 position isPosition).trans (admitsLater last rfl)
        have left : (ahead tasks (some last)).card + limit ≤ (ahead tasks after).card := by
          refine le_trans (Nat.add_le_add_left full.ge _) (card_add_page sorted inside (fun other isLater => ?_) ?_)
          · obtain ⟨isTask, isAfter⟩ := mem_ahead.mp isLater
            refine mem_ahead.mpr ⟨isTask, fun position isPosition => ?_⟩
            exact ((mem_ahead.mp (inside last lastTaken)).2 position isPosition).trans (isAfter last rfl)
          · intro other taken isLater
            exact absurd ((mem_ahead.mp isLater).2 last rfl) (not_lt.mpr (le_getLast sorted isLast other taken))
        have less := rounds_lt positive left
        have later : waits limit tasks task (some last) = rounds limit (ahead tasks (some last)).card +
            rounds limit (aheadTo tasks none task).card := if_neg further
        omega

theorem waits_pos (positive : 1 ≤ limit) (isTask : task ∈ tasks) : 1 ≤ waits limit tasks task after := by
  unfold waits
  split_ifs with admits
  · exact rounds_pos positive (Finset.card_pos.mpr ⟨task, mem_aheadTo.mpr ⟨⟨isTask, admits⟩, le_rfl⟩⟩)
  · have isAhead : task ∈ aheadTo tasks none task :=
      mem_aheadTo.mpr ⟨⟨isTask, nofun⟩, le_rfl⟩
    have atLeast := rounds_pos positive (Finset.card_pos.mpr ⟨task, isAhead⟩)
    omega

theorem waits_le (positive : 1 ≤ limit) (tasks : Finset Id) (task : Id) (after : Option Id) :
    waits limit tasks task after ≤ tasks.card / limit + 2 := by
  unfold waits
  split_ifs with admits
  · have card : (aheadTo tasks after task).card + 0 ≤ tasks.card :=
      Finset.card_le_card fun other isAhead => (mem_aheadTo.mp isAhead).1.1
    exact le_trans (Nat.le_add_right _ _) (rounds_add_le positive card)
  · refine rounds_add_le positive ?_
    have disjoint : Disjoint (ahead tasks after) (aheadTo tasks none task) := by
      refine Finset.disjoint_left.mpr fun other isAfter isBefore => admits fun last isLast => ?_
      exact ((mem_ahead.mp isAfter).2 last isLast).trans_le (mem_aheadTo.mp isBefore).2
    rw [← Finset.card_union_of_disjoint disjoint]
    refine Finset.card_le_card (Finset.union_subset (fun other isAfter => (mem_ahead.mp isAfter).1) fun other isBefore => ?_)
    exact (mem_aheadTo.mp isBefore).1.1

/-! ### Runs -/

namespace SweepRun

theorem waits_add_le (run : SweepRun Id limit) (positive : 1 ≤ limit) (isTask : task ∈ run.tasks) (k : ℕ)
    (missed : ∀ j < k, task ∉ run.passed j) :
    waits limit run.tasks task (run.after k) + k ≤ waits limit run.tasks task (run.after 0) := by
  induction k with
  | zero => exact le_refl _
  | succ k ih =>
    have before : ∀ j < k, task ∉ run.passed j := fun j lt => missed j (lt.trans (Nat.lt_succ_self k))
    have less := waits_lt positive (run.within k) (run.kept k task isTask before) (missed k (Nat.lt_succ_self k))
    have so := ih before
    rw [run.resumes]
    omega

theorem pass_sorted (run : SweepRun Id limit) (positive : 1 ≤ limit) (first count : ℕ)
    (goesOn : ∀ k, first < k → k < first + count → ¬ run.startsOver k) :
    ((List.range' first count).flatMap run.passed).Pairwise (· < ·) ∧
      (1 ≤ count → ∀ last ∈ run.after (first + count), ∀ task ∈ (List.range' first count).flatMap run.passed, task ≤ last) := by
  induction count with
  | zero => exact ⟨List.Pairwise.nil, fun none => absurd none (by omega)⟩
  | succ count ih =>
    obtain ⟨sorted, reached⟩ := ih fun k after before => goesOn k after (by omega)
    have lastSorted : (run.passed (first + count)).Pairwise (· < ·) := sweepPage_sorted _ _ _
    rw [range'_1_concat, flatMap_append, flatMap_singleton]
    -- what the last sweep takes is after everything before it
    have later : ∀ task ∈ (List.range' first count).flatMap run.passed, ∀ other ∈ run.passed (first + count), task < other := by
      intro task isBefore other taken
      have some : 1 ≤ count := by
        by_contra none
        rw [Nat.lt_one_iff.mp (not_le.mp none)] at isBefore
        exact absurd isBefore not_mem_nil
      have notOver := goesOn (first + count) (by omega) (by omega)
      cases position : run.after (first + count) with
      | none => exact absurd (.inl position) notOver
      | some last =>
        exact (reached some last position task isBefore).trans_lt (after_of_not_startsOver notOver taken last position)
    refine ⟨pairwise_append.mpr ⟨sorted, lastSorted, later⟩, fun _ last isLast task isIn => ?_⟩
    rw [← Nat.add_assoc, run.resumes] at isLast
    obtain ⟨full, isEnd⟩ := nextAfter_eq_some isLast
    have lastTaken : last ∈ run.passed (first + count) := mem_of_getLast? isEnd
    rcases mem_append.mp isIn with isBefore | taken
    · exact (later task isBefore last lastTaken).le
    · exact le_getLast lastSorted isEnd task taken

end SweepRun

/-- **The sweep starves nobody**: every task is passed to `finish` soon, and none twice in sweeps that do not start
over. -/
theorem sweep_starves_nobody (run : SweepRun Id limit) (positive : 1 ≤ limit) :
    (∀ task ∈ run.tasks, ∃ k < run.tasks.card / limit + 2, task ∈ run.passed k) ∧
      ∀ first count, (∀ k, first < k → k < first + count → ¬ run.startsOver k) →
        ((List.range' first count).flatMap run.passed).Nodup := by
  refine ⟨fun task isTask => ?_, fun first count goesOn => (run.pass_sorted positive first count goesOn).1.imp ne_of_lt⟩
  by_contra never
  have missed : ∀ j < run.tasks.card / limit + 2, task ∉ run.passed j := fun j lt isPassed => never ⟨j, lt, isPassed⟩
  have waited := run.waits_add_le positive isTask _ missed
  have atLeast : 1 ≤ waits limit run.tasks task (run.after (run.tasks.card / limit + 2)) := waits_pos positive isTask
  have atMost := waits_le positive run.tasks task (run.after 0)
  omega

/-! ### Cleanups that keep failing -/

namespace Residue

/-- What `finish` leaves: all of a task whose cleanup fails. -/
def finish (failing : Id → Bool) (residue : Residue Id) (task : Id) : Residue Id :=
  let left := fun rows : List Id => rows.filter fun other => decide (other = task → failing task = true)
  ⟨left residue.approvals, left residue.grants, left residue.memories⟩

theorem mem_finish {failing : Id → Bool} {other : Id} :
    task ∈ (residue.finish failing other).rows ↔ task ∈ residue.rows ∧ (task = other → failing other = true) := by
  unfold finish rows
  simp only [mem_append, mem_filter, decide_eq_true_eq]
  tauto

theorem mem_foldl_finish {failing : Id → Bool} {taskIds : List Id} :
    task ∈ (taskIds.foldl (finish failing) residue).rows ↔
      task ∈ residue.rows ∧ (task ∈ taskIds → failing task = true) := by
  induction taskIds generalizing residue with
  | nil => simp
  | cons first rest ih =>
    rw [foldl_cons, ih, mem_finish, mem_cons]
    constructor
    · rintro ⟨⟨isRow, isFirst⟩, isRest⟩
      refine ⟨isRow, ?_⟩
      rintro (rfl | inRest)
      · exact isFirst rfl
      · exact isRest inRest
    · rintro ⟨isRow, all⟩
      exact ⟨⟨isRow, fun same => same ▸ all (.inl same)⟩, fun inRest => all (.inr inRest)⟩

end Residue

def sweepStep (limit : ℕ) (failing : Id → Bool) (state : Residue Id × Option Id) : Residue Id × Option Id :=
  let taskIds := sweepPage limit state.1 state.2
  (taskIds.foldl (Residue.finish failing) state.1, nextAfter limit taskIds)

section Failing

variable (limit) (failing : Id → Bool) (start : Residue Id × Option Id)

/-- What the `k`-th sweep meets. -/
def sweepState (k : ℕ) : Residue Id × Option Id := (sweepStep limit failing)^[k] start

theorem sweepState_succ (k : ℕ) :
    sweepState limit failing start (k + 1) = sweepStep limit failing (sweepState limit failing start k) :=
  Function.iterate_succ_apply' _ _ _

theorem sweepState_within (k : ℕ) : ∀ task ∈ (sweepState limit failing start k).1.rows, task ∈ start.1.rows.toFinset := by
  induction k with
  | zero => exact fun task isRow => mem_toFinset.mpr isRow
  | succ k ih =>
    intro task isRow
    rw [sweepState_succ] at isRow
    exact ih task (Residue.mem_foldl_finish.mp isRow).1

theorem sweepState_kept (k : ℕ) : ∀ task ∈ start.1.rows.toFinset,
    (∀ j < k, task ∉ sweepPage limit (sweepState limit failing start j).1 (sweepState limit failing start j).2) →
      task ∈ (sweepState limit failing start k).1.rows := by
  induction k with
  | zero => exact fun task isTask _ => mem_toFinset.mp isTask
  | succ k ih =>
    intro task isTask missed
    rw [sweepState_succ]
    refine Residue.mem_foldl_finish.mpr ⟨ih task isTask fun j lt => missed j (lt.trans (Nat.lt_succ_self k)), fun taken => ?_⟩
    exact absurd taken (missed k (Nat.lt_succ_self k))

theorem sweepState_resumes (k : ℕ) : (sweepState limit failing start (k + 1)).2 =
    nextAfter limit (sweepPage limit (sweepState limit failing start k).1 (sweepState limit failing start k).2) := by
  rw [sweepState_succ]
  rfl

def SweepRun.ofFailing : SweepRun Id limit where
  tasks := start.1.rows.toFinset
  residue k := (sweepState limit failing start k).1
  after k := (sweepState limit failing start k).2
  within := sweepState_within limit failing start
  kept := sweepState_kept limit failing start
  resumes := sweepState_resumes limit failing start

end Failing

end Sweep

/-- Three tasks, two to a sweep, from a position before the last of them; the cleanup of the first keeps failing. -/
def failingRun : SweepRun ℕ 2 := .ofFailing 2 (fun task => decide (task = 5)) (⟨[7, 5], [5], [9]⟩, some 8)

theorem failingRun_served : (∃ k < failingRun.tasks.card / 2 + 2, 7 ∈ failingRun.passed k) ∧
    [failingRun.passed 0, failingRun.passed 1, failingRun.passed 2] = [[9], [5, 7], [5]] :=
  ⟨(sweep_starves_nobody failingRun (by decide)).1 7 (by decide), by decide⟩

end PawBackend.Orchestrator
