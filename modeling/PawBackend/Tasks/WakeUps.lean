/-
**No lost wake-up** (`tasks/queueing/task_queue.py`: `finish`, `cancel`, `enqueue`; `tasks/service.py`:
`execute`).

The transactions of one task, one statement at a time, with the row locks they hold until they commit.
-/

import PawBackend.Tasks.Calls
import PawBackend.Tasks.Queue

namespace PawBackend.Tasks

open Lib
open Tools (Uuid Instant)

/-! ### Transactions -/

/-- How far a transaction is. -/
inductive Work
  | idle
  /-- A call of the task service: the task's row is locked (`FOR NO KEY UPDATE`). -/
  | calling (call : TaskCall)
  /-- `finish`, before its first lock; with the task's row shared and its state read; with the entry
  locked too. -/
  | finishing (hold : Hold)
  | finishShared (hold : Hold) (state : Option TaskState)
  | finishLocked (hold : Hold) (state : Option TaskState)
  | sweeping
  | sweepShared (state : Option TaskState)
  /-- Entries are locked and written; the state is what was read of a shared task row. -/
  | writing (state : Option (Option TaskState)) (rows : List QueueEntryRow)
  | inserting (row : QueueEntryRow)

namespace Work

def isIdle : Work → Bool
  | .idle => true
  | _ => false

def shared : Work → Option (Option TaskState)
  | .finishShared _ state => some state
  | .finishLocked _ state => some state
  | .sweepShared state => some state
  | .writing state _ => state
  | _ => none

/-- Whether the task's row is locked for this transaction alone. -/
def locksTask : Work → Bool
  | .calling _ => true
  | _ => false

def locksEntry (id : ℤ) : Work → Bool
  | .finishLocked hold _ => decide (hold.entryId = id)
  | .writing _ rows => rows.any fun row => decide (row.id = id)
  | _ => false

/-- Whether an insert waits for this transaction. -/
def hasWritten : Work → Bool
  | .writing _ _ => true
  | .inserting _ => true
  | _ => false

end Work

structure Transaction where
  id : ℕ
  work : Work

structure WakeState where
  db : TaskDb
  entries : QueueTable
  running : Keyed Transaction.id
  pending : ℕ
  /-- Whether the task is in the state it is in because of a command that owes an enqueue. -/
  woken : Bool

/-- The commands an enqueue follows. -/
def wakes (command : TaskCommand) : Bool :=
  decide (command = .retry ∨ command = .restart ∨ command = .resume ∨ command = .unblock)

namespace WakeState

variable (s : WakeState)

def taskState : Option TaskState := s.db.task.map TaskRow.state

def work (tx : ℕ) : Work := ((s.running.get tx).map Transaction.work).getD .idle

def set (tx : ℕ) (work : Work) : WakeState := { s with running := s.running.put ⟨tx, work⟩ }

/-- Whether no transaction is at such a point. -/
def unlocked (p : Work → Bool) : Bool := s.running.rows.all fun tx => !p tx.work

/-- Whether a call is a command that is accepted and that an enqueue follows. -/
def owes (call : TaskCall) (env : Surroundings) : Bool :=
  match call, s.db.perform env call with
  | .execute command _, .ok _ => wakes command
  | _, _ => false

def called (call : TaskCall) (env : Surroundings) : WakeState :=
  let after := s.db.apply call env
  { s with
    db := after
    pending := if s.owes call env then s.pending + 1 else s.pending
    woken := s.owes call env || (s.woken && TaskQueue.needsWorker s.taskState &&
      TaskQueue.needsWorker (after.task.map TaskRow.state)) }

end WakeState

inductive WakeEvent
  | elsewhere (entries : QueueTable)
  | lockTask (tx : ℕ) (call : TaskCall)
  | commitCall (tx : ℕ) (env : Surroundings)
  | beginFinish (tx : ℕ) (hold : Hold)
  | beginSweep (tx : ℕ)
  | shareTask (tx : ℕ)
  | lockEntry (tx : ℕ)
  | updateEntry (tx : ℕ)
  | sweepEntries (tx : ℕ) (now : Instant)
  | claimEntry (tx : ℕ) (workerId : Text) (judgedAt now : Instant) (entryId : ℤ)
  | insertEntry (tx : ℕ) (priority : Priority) (now : Instant) (newId : ℤ)
  | commit (tx : ℕ)
  | abort (tx : ℕ)

/-! ### Steps -/

namespace WakeState

variable (queue : TaskQueue) (taskId : Uuid) (s : WakeState)

/-- `SELECT state FROM tasks ... FOR SHARE`. -/
def shareTask (tx : ℕ) : Option WakeState :=
  if s.unlocked Work.locksTask then
    match s.work tx with
    | .finishing hold => some (s.set tx (.finishShared hold s.taskState))
    | .sweeping => some (s.set tx (.sweepShared s.taskState))
    | _ => none
  else none

/-- `finish`: the `SELECT ... FOR UPDATE` of `_update_held_in`. -/
def lockEntry (tx : ℕ) : Option WakeState :=
  match s.work tx with
  | .finishShared hold state =>
    if s.unlocked (Work.locksEntry hold.entryId) then some (s.set tx (.finishLocked hold state)) else none
  | _ => none

/-- `finish`: the `UPDATE` of `_update_held_in`; without a valid lease, the end. -/
def updateEntry (tx : ℕ) : Option WakeState :=
  match s.work tx with
  | .finishLocked hold state =>
    match s.entries.get hold.entryId with
    | none => some (s.set tx .idle)
    | some row =>
      if row.isHeldBy hold.workerId hold.claimCount hold.now then
        some (s.set tx (.writing (some state) [TaskQueue.ended state hold.now row]))
      else some (s.set tx .idle)
  | _ => none

/-- `_cancel`: nothing for a task that has not ended, or the `UPDATE` of its active entry. -/
def sweepEntries (tx : ℕ) (now : Instant) : Option WakeState :=
  match s.work tx with
  | .sweepShared state =>
    if !(state.any TaskState.isTerminal) then some (s.set tx .idle)
    else
      let rows := s.entries.rows.filter (TaskQueue.isActiveOf taskId)
      if rows.all fun row => s.unlocked (Work.locksEntry row.id) then
        some (s.set tx (.writing (some state) (rows.map fun row => row.cancel now)))
      else none
  | _ => none

/-- `claim_next`: its two statements, on an entry of the task. -/
def claimEntry (tx : ℕ) (workerId : Text) (judgedAt now : Instant) (entryId : ℤ) : Option WakeState :=
  match s.entries.get entryId with
  | none => none
  | some row =>
    if (s.work tx).isIdle ∧ row.taskId = taskId ∧ row.isClaimable judgedAt ∧ judgedAt ≤ now ∧
        s.unlocked (Work.locksEntry entryId) then
      some (s.set tx (.writing none [row.claim workerId now queue.lease]))
    else none

/-- `_enqueue`: the `INSERT` of an enqueue that is owed. -/
def insertEntry (tx : ℕ) (priority : Priority) (now : Instant) (newId : ℤ) : Option WakeState :=
  if (s.work tx).isIdle ∧ 0 < s.pending ∧ s.unlocked Work.hasWritten then
    match TaskQueue.enqueue s.entries taskId priority now
      { task := fun _ => s.taskState.map fun state => (state, true), newId := newId } with
    | .ok (row, _) => some (s.set tx (.inserting row))
    | .error .taskAlreadyQueued => some { s with pending := s.pending - 1 }
    | .error _ => none
  else none

def commit (tx : ℕ) : Option WakeState :=
  match s.work tx with
  | .writing _ rows => some { s.set tx .idle with entries := rows.foldl Keyed.put s.entries }
  | .inserting row => (s.entries.tryInsert row).map fun entries =>
      { s.set tx .idle with entries := entries, pending := s.pending - 1 }
  | _ => none

def step : WakeEvent → Option WakeState
  | .elsewhere entries =>
    if entries.rows.filter (fun row => decide (row.taskId = taskId)) =
        s.entries.rows.filter fun row => decide (row.taskId = taskId) then
      some { s with entries := entries }
    else none
  | .lockTask tx call =>
    if (s.work tx).isIdle ∧ s.unlocked Work.locksTask ∧ s.unlocked fun work => work.shared.isSome then
      some (s.set tx (.calling call))
    else none
  | .commitCall tx env =>
    match s.work tx with
    | .calling call => some ((s.called call env).set tx .idle)
    | _ => none
  | .beginFinish tx hold =>
    if (s.work tx).isIdle ∧ (checkHold hold).isOk ∧
        (s.entries.get hold.entryId).any fun row => decide (row.taskId = taskId) then
      some (s.set tx (.finishing hold))
    else none
  | .beginSweep tx => if (s.work tx).isIdle then some (s.set tx .sweeping) else none
  | .shareTask tx => s.shareTask tx
  | .lockEntry tx => s.lockEntry tx
  | .updateEntry tx => s.updateEntry tx
  | .sweepEntries tx now => s.sweepEntries taskId tx now
  | .claimEntry tx workerId judgedAt now entryId => s.claimEntry queue taskId tx workerId judgedAt now entryId
  | .insertEntry tx priority now newId => s.insertEntry taskId tx priority now newId
  | .commit tx => s.commit tx
  | .abort tx => some (s.set tx .idle)

end WakeState

/-- Every interleaving, from a state in which nothing is in flight and nothing is owed. -/
def wakeUps (queue : TaskQueue) (taskId : Uuid) : Machine WakeState WakeEvent where
  initial s := s.running = .empty ∧ s.pending = 0 ∧ s.woken = false
  step s event := s.step queue taskId event

/-! ### The invariant -/

/-- The entry a `finish` is about. -/
def Work.presented : Work → Option Hold
  | .finishing hold => some hold
  | .finishShared hold _ => some hold
  | .finishLocked hold _ => some hold
  | _ => none

/-- What a transaction in flight has seen and written: the state it read of the task's row is still its
state, and it ends an entry only where the task needs no worker. -/
structure Fits (taskId : Uuid) (s : WakeState) (work : Work) : Prop where
  shared : ∀ state, work.shared = some state → state = s.taskState
  presented : ∀ hold, work.presented = some hold →
    ∃ row, s.entries.get hold.entryId = some row ∧ row.taskId = taskId
  written : ∀ state rows, work = .writing state rows → ∀ row ∈ rows, row.taskId = taskId ∧
    (row.isActive = true ∨ ∃ seen, state = some seen ∧ TaskQueue.needsWorker seen = false)
  inserted : ∀ row, work = .inserting row → row.taskId = taskId ∧ row.isActive = true

def HasEntry (taskId : Uuid) (t : QueueTable) : Prop :=
  ∃ row ∈ t.rows, row.taskId = taskId ∧ row.isActive = true

structure Awake (taskId : Uuid) (s : WakeState) : Prop where
  fits : ∀ tx, Fits taskId s (s.work tx)
  alone : ∀ tx other, (s.work tx).locksTask = true → (s.work other).shared = none
  awake : s.woken = true → TaskQueue.needsWorker s.taskState = true → s.pending = 0 →
    HasEntry taskId s.entries

theorem Fits.idle (taskId : Uuid) (s : WakeState) : Fits taskId s .idle :=
  ⟨by rintro _ ⟨⟩, by rintro _ ⟨⟩, by rintro _ _ ⟨⟩, by rintro _ ⟨⟩⟩

section Steps

variable {queue : TaskQueue} {taskId : Uuid} {s s' : WakeState} {tx : ℕ} {work : Work}

@[simp]
theorem work_set (s : WakeState) (tx : ℕ) (work : Work) (other : ℕ) :
    (s.set tx work).work other = if other = tx then work else s.work other := by
  unfold WakeState.work WakeState.set
  rw [Keyed.get_put]
  split_ifs
  · rfl
  · rfl

theorem work_of_unlocked {p : Work → Bool} (free : s.unlocked p = true) (idle : p .idle = false) (tx : ℕ) :
    p (s.work tx) = false := by
  unfold WakeState.work
  cases found : s.running.get tx with
  | none => exact idle
  | some transaction =>
    have here := List.all_eq_true.mp free transaction (Keyed.mem_of_get found)
    simpa using here

theorem Fits.mono (fits : Fits taskId s work) (state : s'.taskState = s.taskState)
    (stays : ∀ id row, s.entries.get id = some row → row.taskId = taskId →
      ∃ row', s'.entries.get id = some row' ∧ row'.taskId = taskId) : Fits taskId s' work := by
  refine ⟨?_, ?_, fits.written, fits.inserted⟩
  · intro seen shares
    rw [state]
    exact fits.shared seen shares
  · intro hold presents
    obtain ⟨row, found, isOurs⟩ := fits.presented hold presents
    exact stays _ row found isOurs

theorem Awake.set (kept : Awake taskId s) (fits : Fits taskId s work)
    (locks : work.locksTask = true → work.shared = none ∧ ∀ other, (s.work other).shared = none)
    (shares : work.shared ≠ none → ∀ other, (s.work other).locksTask = false) :
    Awake taskId (s.set tx work) := by
  refine ⟨?_, ?_, kept.awake⟩
  · intro other
    rw [work_set]
    split_ifs
    · exact ⟨fits.shared, fits.presented, fits.written, fits.inserted⟩
    · exact (kept.fits other).mono rfl fun id row found isOurs => ⟨row, found, isOurs⟩
  · intro one other locked
    rw [work_set] at locked ⊢
    by_cases first : one = tx
    · rw [if_pos first] at locked
      split_ifs
      · exact (locks locked).1
      · exact (locks locked).2 other
    · rw [if_neg first] at locked
      split_ifs
      · by_contra some
        rw [shares some one] at locked
        cases locked
      · exact kept.alone one other locked

theorem Awake.setFree (kept : Awake taskId s) (fits : Fits taskId s work) (unlocking : work.locksTask = false)
    (unsharing : work.shared = none) : Awake taskId (s.set tx work) := by
  refine kept.set fits ?_ ?_
  · rw [unlocking]
    rintro ⟨⟩
  · exact fun shares => absurd unsharing shares

theorem Awake.setShared (kept : Awake taskId s) (fits : Fits taskId s work) (unlocking : work.locksTask = false)
    (shared : (s.work tx).shared ≠ none) : Awake taskId (s.set tx work) := by
  refine kept.set fits ?_ ?_
  · rw [unlocking]
    rintro ⟨⟩
  · intro _ other
    by_contra locked
    rw [Bool.not_eq_false] at locked
    exact shared (kept.alone other tx locked)

/-! ### One step -/

theorem Awake.shareTask (kept : Awake taskId s) (taken : s.shareTask tx = some s') : Awake taskId s' := by
  unfold WakeState.shareTask at taken
  split_ifs at taken with free
  have unlocked : ∀ other, (s.work other).locksTask = false := work_of_unlocked free rfl
  have fits := kept.fits tx
  split at taken
  · rename_i hold isWork
    rw [isWork] at fits
    cases taken
    refine kept.set ⟨?_, fits.presented, by rintro _ _ ⟨⟩, by rintro _ ⟨⟩⟩ (by rintro ⟨⟩) fun _ => unlocked
    rintro _ ⟨⟩
    rfl
  · cases taken
    refine kept.set ⟨?_, by rintro _ ⟨⟩, by rintro _ _ ⟨⟩, by rintro _ ⟨⟩⟩ (by rintro ⟨⟩) fun _ => unlocked
    rintro _ ⟨⟩
    rfl
  · cases taken

theorem Awake.lockEntry (kept : Awake taskId s) (taken : s.lockEntry tx = some s') : Awake taskId s' := by
  unfold WakeState.lockEntry at taken
  have fits := kept.fits tx
  split at taken
  · rename_i hold state isWork
    rw [isWork] at fits
    split_ifs at taken
    cases taken
    refine kept.setShared ⟨fits.shared, fits.presented, by rintro _ _ ⟨⟩, by rintro _ ⟨⟩⟩ rfl ?_
    rw [isWork]
    exact Option.some_ne_none _
  · cases taken

theorem isActive_ended {state : Option TaskState} {now : Instant} {row : QueueEntryRow}
    (needs : TaskQueue.needsWorker state = true) : (TaskQueue.ended state now row).isActive = true := by
  unfold TaskQueue.ended
  rw [if_pos needs]
  rfl

theorem Awake.updateEntry (kept : Awake taskId s) (taken : s.updateEntry tx = some s') : Awake taskId s' := by
  unfold WakeState.updateEntry at taken
  have fits := kept.fits tx
  have ends : Awake taskId (s.set tx .idle) := kept.setFree (.idle taskId s) rfl rfl
  split at taken
  · rename_i hold state isWork
    rw [isWork] at fits
    obtain ⟨row, found, isOurs⟩ := fits.presented hold rfl
    rw [found] at taken
    dsimp only at taken
    split_ifs at taken
    · cases taken
      refine kept.setShared ⟨fits.shared, by rintro _ ⟨⟩, ?_, by rintro _ ⟨⟩⟩ rfl ?_
      · rintro _ _ ⟨⟩ new mem
        rw [List.mem_singleton] at mem
        refine ⟨?_, ?_⟩
        · rw [mem, TaskQueue.ended]
          split_ifs
          · exact isOurs
          · exact isOurs
        · cases needs : TaskQueue.needsWorker state with
          | true => exact .inl (mem ▸ isActive_ended needs)
          | false => exact .inr ⟨state, rfl, needs⟩
      · rw [isWork]
        exact Option.some_ne_none _
    · cases taken
      exact ends
  · cases taken

theorem not_needsWorker_of_terminal {state : Option TaskState} (ended : state.any TaskState.isTerminal = true) :
    TaskQueue.needsWorker state = false := by
  cases state with
  | none => rfl
  | some state =>
    cases state <;> first | rfl | cases ended

theorem Awake.sweepEntries {now : Instant} (kept : Awake taskId s)
    (taken : s.sweepEntries taskId tx now = some s') : Awake taskId s' := by
  unfold WakeState.sweepEntries at taken
  have fits := kept.fits tx
  split at taken
  · rename_i state isWork
    rw [isWork] at fits
    split_ifs at taken with active
    · cases taken
      exact kept.setFree (.idle taskId s) rfl rfl
    · dsimp only at taken
      split_ifs at taken
      cases taken
      refine kept.setShared ⟨fits.shared, by rintro _ ⟨⟩, ?_, by rintro _ ⟨⟩⟩ rfl ?_
      · rintro _ _ ⟨⟩ new mem
        obtain ⟨row, isRow, rfl⟩ := List.mem_map.mp mem
        rw [List.mem_filter, TaskQueue.isActiveOf, Bool.and_eq_true, decide_eq_true_iff] at isRow
        refine ⟨isRow.2.1, .inr ⟨state, rfl, not_needsWorker_of_terminal ?_⟩⟩
        simpa using active
      · rw [isWork]
        exact Option.some_ne_none _
  · cases taken

theorem Awake.claimEntry {workerId : Text} {judgedAt now : Instant} {entryId : ℤ} (kept : Awake taskId s)
    (taken : s.claimEntry queue taskId tx workerId judgedAt now entryId = some s') : Awake taskId s' := by
  unfold WakeState.claimEntry at taken
  split at taken
  · cases taken
  · rename_i row found
    split_ifs at taken with free
    cases taken
    refine kept.setFree ⟨by rintro _ ⟨⟩, by rintro _ ⟨⟩, ?_, by rintro _ ⟨⟩⟩ rfl rfl
    rintro _ _ ⟨⟩ new mem
    rw [List.mem_singleton] at mem
    rw [mem]
    exact ⟨free.2.1, .inl rfl⟩

theorem hasEntry_of_taskAlreadyQueued {t : QueueTable} {priority : Priority} {now : Instant} {view : QueueView}
    (refused : TaskQueue.enqueue t taskId priority now view = .error .taskAlreadyQueued) :
    HasEntry taskId t := by
  unfold TaskQueue.enqueue at refused
  by_contra absent
  have free : t.rows.any (TaskQueue.isActiveOf taskId) = false := by
    rw [List.any_eq_false]
    intro row mem active
    rw [TaskQueue.isActiveOf, Bool.and_eq_true, decide_eq_true_iff] at active
    exact absent ⟨row, mem, active.1, active.2⟩
  rw [free] at refused
  rcases orThrow_bind_eq_error refused with wrong | ⟨⟨state, active⟩, -, refused⟩
  · cases wrong
  · cases active with
    | false => cases refused
    | true =>
      rcases orThrow_bind_eq_error refused with wrong | ⟨entries, -, refused⟩
      · cases wrong
      · cases refused

theorem Awake.insertEntry {priority : Priority} {now : Instant} {newId : ℤ} (kept : Awake taskId s)
    (taken : s.insertEntry taskId tx priority now newId = some s') : Awake taskId s' := by
  unfold WakeState.insertEntry at taken
  split_ifs at taken
  split at taken
  · rename_i row after enqueued
    cases taken
    simp only [TaskQueue.enqueue, ↓check_eq_ok, bind_eq_ok, orThrow_eq_ok, pure_eq_ok, Prod.mk.injEq] at enqueued
    obtain ⟨-, -, -, -, -, -, rfl, -⟩ := enqueued
    refine kept.setFree ⟨by rintro _ ⟨⟩, by rintro _ ⟨⟩, by rintro _ _ ⟨⟩, ?_⟩ rfl rfl
    rintro _ ⟨⟩
    exact ⟨rfl, rfl⟩
  · rename_i refused
    cases taken
    refine ⟨fun other => ?_, kept.alone, fun _ _ _ => hasEntry_of_taskAlreadyQueued refused⟩
    exact (kept.fits other).mono rfl fun id row found isOurs => ⟨row, found, isOurs⟩
  · cases taken

theorem hasEntry_foldl_put {rows : List QueueEntryRow} {t : QueueTable} (has : HasEntry taskId t)
    (written : ∀ row ∈ rows, row.taskId = taskId ∧ row.isActive = true) :
    HasEntry taskId (rows.foldl Keyed.put t) := by
  obtain ⟨row, mem, isOurs, active⟩ := has
  rcases Keyed.get_foldl_put_or rows t row.id with same | ⟨new, isNew, found⟩
  · rw [Keyed.get_self mem] at same
    exact ⟨row, Keyed.mem_of_get same, isOurs, active⟩
  · exact ⟨new, Keyed.mem_of_get found, written new isNew⟩

theorem Awake.commit (kept : Awake taskId s) (taken : s.commit tx = some s') : Awake taskId s' := by
  unfold WakeState.commit at taken
  have fits := kept.fits tx
  have ends : Awake taskId (s.set tx .idle) := kept.setFree (.idle taskId s) rfl rfl
  split at taken
  · rename_i state rows isWork
    rw [isWork] at fits
    cases taken
    have written := fits.written state rows rfl
    refine ⟨fun other => (ends.fits other).mono rfl ?_, ends.alone, ?_⟩
    · intro id row found isOurs
      rcases Keyed.get_foldl_put_or rows s.entries id with same | ⟨new, isNew, here⟩
      · exact ⟨row, same.trans found, isOurs⟩
      · exact ⟨new, here, (written new isNew).1⟩
    · intro woken needs settled
      refine hasEntry_foldl_put (kept.awake woken needs settled) fun row mem => ?_
      refine ⟨(written row mem).1, ?_⟩
      rcases (written row mem).2 with active | ⟨seen, rfl, none⟩
      · exact active
      · -- What was read of the task is still so: a task that needs a worker keeps its entry.
        rw [fits.shared seen rfl] at none
        cases none.symm.trans needs
  · rename_i row isWork
    rw [isWork] at fits
    obtain ⟨isOurs, active⟩ := fits.inserted row rfl
    rw [Option.map_eq_some_iff] at taken
    obtain ⟨entries, added, rfl⟩ := taken
    refine ⟨fun other => (ends.fits other).mono rfl ?_, ends.alone, fun _ _ _ => ?_⟩
    · intro id old found isOld
      refine ⟨old, ?_, isOld⟩
      have before := Keyed.fresh_of_tryInsert added
      rw [Keyed.get_of_tryInsert added, if_neg]
      · exact found
      · rintro rfl
        cases before.symm.trans found
    · refine ⟨row, Keyed.mem_of_get (k := row.id) ?_, isOurs, active⟩
      rw [Keyed.get_of_tryInsert added, if_pos rfl]
  · cases taken

theorem Awake.commitCall {env : Surroundings} {call : TaskCall} (kept : Awake taskId s)
    (isWork : s.work tx = .calling call) : Awake taskId ((s.called call env).set tx .idle) := by
  have none : ∀ other, (s.work other).shared = none := fun other => kept.alone tx other (by rw [isWork]; rfl)
  have called : Awake taskId (s.called call env) := by
    refine ⟨fun other => ?_, kept.alone, ?_⟩
    · have fits : Fits taskId s (s.work other) := kept.fits other
      refine ⟨fun state shares => ?_, fits.presented, fits.written, fits.inserted⟩
      have shares : (s.work other).shared = some state := shares
      rw [none other] at shares
      cases shares
    · intro woken needs settled
      dsimp only [WakeState.called] at woken settled
      split_ifs at settled with owes
      rw [Bool.not_eq_true] at owes
      rw [owes, Bool.false_or, Bool.and_eq_true, Bool.and_eq_true] at woken
      exact kept.awake woken.1.1 woken.1.2 settled
  exact called.setFree (.idle taskId _) rfl rfl

theorem Awake.elsewhere {entries : QueueTable} (kept : Awake taskId s)
    (same : entries.rows.filter (fun row => decide (row.taskId = taskId)) =
      s.entries.rows.filter fun row => decide (row.taskId = taskId)) :
    Awake taskId { s with entries := entries } := by
  have stays : ∀ row ∈ s.entries.rows, row.taskId = taskId → row ∈ entries.rows := by
    intro row mem isOurs
    have here : row ∈ s.entries.rows.filter fun row => decide (row.taskId = taskId) :=
      List.mem_filter.mpr ⟨mem, decide_eq_true isOurs⟩
    rw [← same] at here
    exact (List.mem_filter.mp here).1
  refine ⟨fun other => (kept.fits other).mono rfl ?_, kept.alone, ?_⟩
  · intro id row found isOurs
    obtain ⟨mem, rfl⟩ := Keyed.get_eq_some.mp found
    exact ⟨row, Keyed.get_self (stays row mem isOurs), isOurs⟩
  · intro woken needs settled
    obtain ⟨row, mem, isOurs, active⟩ := kept.awake woken needs settled
    exact ⟨row, stays row mem isOurs, isOurs, active⟩

theorem Awake.step {event : WakeEvent} (kept : Awake taskId s) (taken : s.step queue taskId event = some s') :
    Awake taskId s' := by
  cases event with
  | elsewhere entries =>
    simp only [WakeState.step] at taken
    split_ifs at taken with same
    cases taken
    exact kept.elsewhere same
  | lockTask other call =>
    simp only [WakeState.step] at taken
    split_ifs at taken with free
    cases taken
    refine kept.set ⟨by rintro _ ⟨⟩, by rintro _ ⟨⟩, by rintro _ _ ⟨⟩, by rintro _ ⟨⟩⟩ ?_ ?_
    · intro _
      refine ⟨rfl, fun one => ?_⟩
      have unshared := work_of_unlocked free.2.2 rfl one
      simpa using unshared
    · exact fun shares => absurd rfl shares
  | commitCall other env =>
    simp only [WakeState.step] at taken
    split at taken
    · rename_i call isWork
      cases taken
      exact kept.commitCall isWork
    · cases taken
  | beginFinish other hold =>
    simp only [WakeState.step] at taken
    split_ifs at taken with free
    cases taken
    refine kept.setFree ⟨by rintro _ ⟨⟩, ?_, by rintro _ _ ⟨⟩, by rintro _ ⟨⟩⟩ rfl rfl
    rintro _ ⟨⟩
    obtain ⟨row, found, isOurs⟩ := (Option.any_eq_true _ _).mp free.2.2
    exact ⟨row, found, of_decide_eq_true isOurs⟩
  | beginSweep other =>
    simp only [WakeState.step] at taken
    split_ifs at taken
    cases taken
    exact kept.setFree ⟨by rintro _ ⟨⟩, by rintro _ ⟨⟩, by rintro _ _ ⟨⟩, by rintro _ ⟨⟩⟩ rfl rfl
  | shareTask other => exact kept.shareTask taken
  | lockEntry other => exact kept.lockEntry taken
  | updateEntry other => exact kept.updateEntry taken
  | sweepEntries other now => exact kept.sweepEntries taken
  | claimEntry other workerId judgedAt now entryId => exact kept.claimEntry taken
  | insertEntry other priority now newId => exact kept.insertEntry taken
  | commit other => exact kept.commit taken
  | abort other =>
    cases taken
    exact kept.setFree (.idle taskId s) rfl rfl

theorem awake_of_reachable (reach : (wakeUps queue taskId).Reachable s) : Awake taskId s := by
  refine reach.invariant ?_ ?_
  · rintro t ⟨quiet, -, asleep⟩
    have idle : ∀ tx, t.work tx = .idle := by
      intro tx
      unfold WakeState.work
      rw [quiet]
      rfl
    refine ⟨fun tx => idle tx ▸ .idle taskId t, fun tx _ locked => ?_, fun woken => ?_⟩
    · rw [idle tx] at locked
      cases locked
    · cases asleep.symm.trans woken
  · intro t event t' _ kept taken
    exact kept.step taken

end Steps

/-! ### The wake-up -/

/-- Once no enqueue is owed, a task that a command set going has an entry a worker can find. -/
theorem no_lost_wake_up {queue : TaskQueue} {taskId : Uuid} {s : WakeState} {task : TaskRow}
    (reach : (wakeUps queue taskId).Reachable s) (settled : s.pending = 0) (found : s.db.task = some task)
    (woken : s.woken = true) (needs : task.state = .queued ∨ task.state = .running) :
    ∃ row ∈ s.entries.rows, row.taskId = taskId ∧ (row.status = .queued ∨ row.status = .claimed) := by
  have working : TaskQueue.needsWorker s.taskState = true := by
    unfold TaskQueue.needsWorker WakeState.taskState
    rw [found]
    rcases needs with isState | isState
    · rw [Option.map_some, isState]
      rfl
    · rw [Option.map_some, isState]
      rfl
  obtain ⟨row, member, isOurs, active⟩ := (awake_of_reachable reach).awake woken working settled
  exact ⟨row, member, isOurs, of_decide_eq_true active⟩

def pausedTask : WakeState where
  db := (served [(.create { createdBy := 1, title := Text.lit "t", repositories := [⟨7, .target, none⟩] },
      { now := 1, judgedAt := 1 }),
    (.execute .start { actor := .system }, { now := 2, judgedAt := 2 }),
    (.execute .pause { actor := .system }, { now := 3, judgedAt := 3 })]).db
  entries := Keyed.empty.put
    { id := 1, taskId := 5, priority := .normal, status := .claimed, enqueuedAt := 1
      claimedBy := some (Text.lit "w"), claimedAt := some 2, leaseExpiresAt := some 90, claimCount := 1
      finishedAt := none }
  running := .empty
  pending := 0
  woken := false

/-- The worker ends its hold on the paused task; Resume waits for it, and its enqueue inserts a new entry. -/
def resumedAfterFinish : List WakeEvent :=
  [.beginFinish 1 ⟨1, Text.lit "w", 1, 10⟩, .shareTask 1, .lockEntry 1, .updateEntry 1, .commit 1,
    .lockTask 2 (.execute .resume { actor := .system }), .commitCall 2 { now := 11, judgedAt := 11 },
    .insertEntry 3 .normal 12 2, .commit 3]

theorem resumedAfterFinish_found : ∃ s task, (wakeUps minuteQueue 5).run pausedTask resumedAfterFinish = some s ∧
    s.pending = 0 ∧ s.db.task = some task ∧ s.woken = true ∧ task.state = .running ∧
    ∃ row ∈ s.entries.rows, row.taskId = 5 ∧ (row.status = .queued ∨ row.status = .claimed) := by
  have ran : ((wakeUps minuteQueue 5).run pausedTask resumedAfterFinish).any (fun s =>
      decide (s.pending = 0) && s.woken && s.db.task.any fun task => decide (task.state = .running)) = true := by
    decide
  obtain ⟨s, ran, holds⟩ := (Option.any_eq_true _ _).mp ran
  rw [Bool.and_eq_true, Bool.and_eq_true, decide_eq_true_iff] at holds
  obtain ⟨⟨settled, woken⟩, holds⟩ := holds
  obtain ⟨task, found, isRunning⟩ := (Option.any_eq_true _ _).mp holds
  have reach : (wakeUps minuteQueue 5).Reachable s := Machine.Reachable.run (.start ⟨rfl, rfl, rfl⟩) ran
  exact ⟨s, task, ran, settled, found, woken, of_decide_eq_true isRunning,
    no_lost_wake_up reach settled found woken (.inr (of_decide_eq_true isRunning))⟩

end PawBackend.Tasks
