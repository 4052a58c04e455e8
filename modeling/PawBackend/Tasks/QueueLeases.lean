/-
**Queue leases are fenced** (`tasks/queueing/task_queue.py`: `claim_next`, `heartbeat`, `release`,
`complete`, `finish`, `cancel`).

`RowStep` says once what a committed call makes of an entry; the rest follows from it.
-/

import PawBackend.Tasks.Queue

namespace PawBackend.Tasks

open Lib
open Tools (Uuid Instant)

/-! ### What a call makes of an entry -/

inductive RowStep (queue : TaskQueue) : QueueCall → QueueEntryRow → QueueEntryRow → Prop
  | same {call : QueueCall} {row : QueueEntryRow} : RowStep queue call row row
  | claim {workerId : Text} {judgedAt now : Instant} {row : QueueEntryRow}
      (claimable : row.isClaimable judgedAt = true) :
      RowStep queue (.claimNext workerId judgedAt now) row (row.claim workerId now queue.lease)
  | heartbeat {hold : Hold} {row : QueueEntryRow}
      (held : row.isHeldBy hold.workerId hold.claimCount hold.now = true) :
      RowStep queue (.heartbeat hold) row (row.extend (hold.now + queue.lease))
  | giveBack {call : QueueCall} {hold : Hold} {row : QueueEntryRow} (isCall : call = .release hold ∨ call = .finish hold)
      (held : row.isHeldBy hold.workerId hold.claimCount hold.now = true) :
      RowStep queue call row row.giveBack
  | complete {call : QueueCall} {hold : Hold} {row : QueueEntryRow}
      (isCall : call = .complete hold ∨ call = .finish hold)
      (held : row.isHeldBy hold.workerId hold.claimCount hold.now = true) :
      RowStep queue call row (row.complete hold.now)
  | cancel {taskId : Uuid} {only : Bool} {now : Instant} {row : QueueEntryRow} (active : row.isActive = true) :
      RowStep queue (.cancel taskId only now) row (row.cancel now)

def QueueAnswer.claims (answer : QueueAnswer) (id : ℤ) : Bool :=
  match answer with
  | .claimed (some row) => decide (row.id = id)
  | _ => false

inductive Wrote (queue : TaskQueue) (t : QueueTable) : QueueCall → QueueAnswer → QueueTable → Prop
  | enqueue {taskId : Uuid} {priority : Priority} {now : Instant} {row : QueueEntryRow} {after : QueueTable}
      (fresh : row.taskId = taskId ∧ row.status = .queued ∧ row.leaseExpiresAt = none)
      (alone : ∀ other ∈ t.rows, other.taskId = taskId → other.isActive = false)
      (added : t.tryInsert row = some after) : Wrote queue t (.enqueue taskId priority now) (.entry row) after
  | nothing {call : QueueCall} {answer : QueueAnswer} (unclaimed : ∀ id, answer.claims id = false) :
      Wrote queue t call answer t
  | claim {workerId : Text} {judgedAt now : Instant} {row : QueueEntryRow} (there : t.get row.id = some row)
      (claimable : row.isClaimable judgedAt = true) :
      Wrote queue t (.claimNext workerId judgedAt now) (.claimed (some (row.claim workerId now queue.lease)))
        (t.put (row.claim workerId now queue.lease))
  | held {call : QueueCall} {hold : Hold} {row new : QueueEntryRow} (there : t.get row.id = some row)
      (held : row.isHeldBy hold.workerId hold.claimCount hold.now = true) (keeps : new.id = row.id)
      (sameCount : new.claimCount = row.claimCount) (step : RowStep queue call row new) :
      Wrote queue t call (.entry new) (t.put new)
  | cancel {taskId : Uuid} {only any : Bool} {now : Instant} :
      Wrote queue t (.cancel taskId only now) (.cancelled any)
        (t.update (TaskQueue.isActiveOf taskId) (fun row => row.cancel now) fun _ _ => rfl)

section Calls

variable {queue : TaskQueue} {t after : QueueTable} {view : QueueView} {call : QueueCall}
  {answer : QueueAnswer} {entryId : ℤ} {row : QueueEntryRow}

theorem updateHeld_eq_ok {hold : Hold} {written : QueueEntryRow → QueueEntryRow}
    {result : QueueEntryRow × QueueTable} (done : TaskQueue.updateHeld t hold written = .ok result) :
    ∃ held, t.get held.id = some held ∧ held.isHeldBy hold.workerId hold.claimCount hold.now = true ∧
      result = (written held, t.put (written held)) := by
  unfold TaskQueue.updateHeld at done
  cases found : t.get hold.entryId with
  | none =>
    rw [found] at done
    cases done
  | some held =>
    rw [found] at done
    dsimp only at done
    split_ifs at done with valid
    rw [← Keyed.key_of_get found] at found
    exact ⟨held, found, valid, (Except.ok.inj done).symm⟩

theorem nextEntry_eq_some {judgedAt : Instant} (next : TaskQueue.nextEntry t judgedAt view = some row) :
    row ∈ t.rows ∧ row.isClaimable judgedAt = true := by
  unfold TaskQueue.nextEntry at next
  have mem := List.mem_of_mem_head? next
  rw [List.mem_insertionSort, List.mem_filter, Bool.and_eq_true, Bool.and_eq_true] at mem
  exact ⟨mem.1, mem.2.1.1⟩

theorem claimNext_eq_ok {workerId : Text} {judgedAt now : Instant} {result : Option QueueEntryRow × QueueTable}
    (done : queue.claimNext t workerId judgedAt now view = .ok result) :
    result = (none, t) ∨ ∃ chosen, t.get chosen.id = some chosen ∧ chosen.isClaimable judgedAt = true ∧
      result = (some (chosen.claim workerId now queue.lease), t.put (chosen.claim workerId now queue.lease)) := by
  simp only [TaskQueue.claimNext, bind_eq_ok] at done
  obtain ⟨_, -, claimed⟩ := done
  split_ifs at claimed
  · exact .inl (Except.ok.inj claimed).symm
  · cases next : TaskQueue.nextEntry t judgedAt view with
    | none =>
      rw [next] at claimed
      exact .inl (Except.ok.inj claimed).symm
    | some chosen =>
      rw [next] at claimed
      simp only [↓check_eq_ok, pure_eq_ok] at claimed
      obtain ⟨mem, claimable⟩ := nextEntry_eq_some next
      exact .inr ⟨chosen, Keyed.get_self mem, claimable, claimed.2.symm⟩

theorem wrote_of_perform (done : queue.perform t view call = .ok (answer, after)) :
    Wrote queue t call answer after := by
  cases call with
  | enqueue taskId priority now =>
    simp only [TaskQueue.perform, TaskQueue.enqueue, map_eq_ok, ↓check_eq_ok, bind_eq_ok, orThrow_eq_ok,
      pure_eq_ok] at done
    obtain ⟨_, ⟨_, -, -, alone, entries, added, rfl⟩, same⟩ := done
    cases same
    refine .enqueue ⟨rfl, rfl, rfl⟩ (fun other mem same => ?_) added
    rw [List.any_eq_true] at alone
    push Not at alone
    simpa [TaskQueue.isActiveOf, same] using alone other mem
  | claimNext workerId judgedAt now =>
    obtain ⟨result, claimed, same⟩ := map_eq_ok.mp done
    cases same
    rcases claimNext_eq_ok claimed with rfl | ⟨chosen, there, claimable, rfl⟩
    · exact .nothing fun _ => rfl
    · exact .claim there claimable
  | heartbeat hold =>
    simp only [TaskQueue.perform, TaskQueue.heartbeat, map_eq_ok, bind_eq_ok] at done
    obtain ⟨result, ⟨_, -, updated⟩, same⟩ := done
    cases same
    obtain ⟨held, there, valid, rfl⟩ := updateHeld_eq_ok updated
    exact .held there valid rfl rfl (.heartbeat valid)
  | release hold =>
    simp only [TaskQueue.perform, TaskQueue.release, map_eq_ok, bind_eq_ok] at done
    obtain ⟨result, ⟨_, -, updated⟩, same⟩ := done
    cases same
    obtain ⟨held, there, valid, rfl⟩ := updateHeld_eq_ok updated
    exact .held there valid rfl rfl (.giveBack (.inl rfl) valid)
  | complete hold =>
    simp only [TaskQueue.perform, TaskQueue.complete, map_eq_ok, bind_eq_ok] at done
    obtain ⟨result, ⟨_, -, updated⟩, same⟩ := done
    cases same
    obtain ⟨held, there, valid, rfl⟩ := updateHeld_eq_ok updated
    exact .held there valid rfl rfl (.complete (.inl rfl) valid)
  | finish hold =>
    simp only [TaskQueue.perform, TaskQueue.finish, map_eq_ok, bind_eq_ok] at done
    obtain ⟨result, ⟨_, -, _, -, updated⟩, same⟩ := done
    cases same
    obtain ⟨held, there, valid, rfl⟩ := updateHeld_eq_ok updated
    unfold TaskQueue.ended
    show Wrote queue t _ (.entry (if _ then _ else _)) (t.put (if _ then _ else _))
    split_ifs
    · exact .held there valid rfl rfl (.giveBack (.inr rfl) valid)
    · exact .held there valid rfl rfl (.complete (.inr rfl) valid)
  | cancel taskId only now =>
    simp only [TaskQueue.perform, TaskQueue.cancel, Except.ok.injEq] at done
    split_ifs at done
    · cases done
      exact .nothing fun _ => rfl
    · cases done
      exact .cancel

theorem get_put_cases {old new : QueueEntryRow} (there : t.get old.id = some old) (keeps : new.id = old.id)
    (found : t.get entryId = some row) :
    ∃ row', (t.put new).get entryId = some row' ∧ ((row' = row ∧ entryId ≠ old.id) ∨ (row = old ∧ row' = new)) := by
  rw [Keyed.get_put]
  split_ifs with this
  · refine ⟨new, rfl, .inr ⟨?_, rfl⟩⟩
    rw [this, keeps, there] at found
    exact (Option.some.inj found).symm
  · exact ⟨row, found, .inl ⟨rfl, keeps ▸ this⟩⟩

theorem Wrote.rowStep (wrote : Wrote queue t call answer after) (found : t.get entryId = some row) :
    ∃ row', after.get entryId = some row' ∧ RowStep queue call row row' ∧
      row'.claimCount = row.claimCount + if answer.claims entryId then 1 else 0 := by
  cases wrote with
  | enqueue fresh alone added =>
    have here := Keyed.get_of_tryInsert added entryId
    split_ifs at here with this
    · rw [this, Keyed.fresh_of_tryInsert added] at found
      cases found
    · exact ⟨row, here.trans found, .same, (Int.add_zero _).symm⟩
  | nothing unclaimed => exact ⟨row, found, .same, by simp [unclaimed]⟩
  | @claim workerId judgedAt now chosen there claimable =>
    obtain ⟨row', found', ⟨rfl, other⟩ | ⟨rfl, rfl⟩⟩ := get_put_cases there
      (show (chosen.claim workerId now queue.lease).id = chosen.id from rfl) found
    · refine ⟨row', found', .same, ?_⟩
      have unclaimed : ¬chosen.id = entryId := Ne.symm other
      simp [QueueAnswer.claims, QueueEntryRow.claim, unclaimed]
    · have isId : row.id = entryId := Keyed.key_of_get found
      refine ⟨_, found', .claim claimable, ?_⟩
      simp [QueueAnswer.claims, QueueEntryRow.claim, isId]
  | held there held keeps sameCount step =>
    obtain ⟨row', found', ⟨rfl, -⟩ | ⟨rfl, rfl⟩⟩ := get_put_cases there keeps found
    · exact ⟨row', found', .same, (Int.add_zero _).symm⟩
    · exact ⟨row', found', step, sameCount.trans (Int.add_zero _).symm⟩
  | @cancel taskId only any now =>
    refine ⟨_, (Keyed.get_update _ _ _ _ entryId).trans (congrArg _ found), ?_⟩
    have unclaimed : (QueueAnswer.cancelled any).claims entryId = false := rfl
    rw [unclaimed, if_neg Bool.false_ne_true]
    dsimp only
    split_ifs with selected
    · rw [TaskQueue.isActiveOf, Bool.and_eq_true] at selected
      exact ⟨.cancel selected.2, (Int.add_zero _).symm⟩
    · exact ⟨.same, (Int.add_zero _).symm⟩

theorem Wrote.newRow (wrote : Wrote queue t call answer after) (absent : t.get entryId = none)
    (found : after.get entryId = some row) :
    row.status = .queued ∧ row.leaseExpiresAt = none ∧ answer = .entry row ∧
      ∀ other ∈ t.rows, other.taskId = row.taskId → other.isActive = false := by
  have put : ∀ {old new : QueueEntryRow}, t.get old.id = some old → new.id = old.id →
      (t.put new).get entryId ≠ some row := by
    intro old new there keeps found
    rw [Keyed.get_put] at found
    split_ifs at found with this
    · rw [this, keeps, there] at absent
      cases absent
    · cases absent.symm.trans found
  cases wrote with
  | enqueue fresh alone added =>
    have here := (Keyed.get_of_tryInsert added entryId).symm.trans found
    split_ifs at here
    · rw [Option.some.injEq] at here
      rw [← here, fresh.1]
      exact ⟨fresh.2.1, fresh.2.2, rfl, alone⟩
    · cases absent.symm.trans here
  | nothing unclaimed => cases absent.symm.trans found
  | claim there claimable => exact absurd found (put there rfl)
  | held there held keeps sameCount step => exact absurd found (put there keeps)
  | cancel =>
    have here := (Keyed.get_update _ _ _ _ entryId).symm.trans found
    rw [absent] at here
    cases here

end Calls

/-! ### Leases and generations -/

section Rows

variable {queue : TaskQueue} {call : QueueCall} {row row' : QueueEntryRow} {workerId : Text}
  {claimCount : ℤ} {now later : Instant}

theorem isHeldBy_iff : row.isHeldBy workerId claimCount now = true ↔
    row.status = .claimed ∧ row.claimedBy = some workerId ∧ row.claimCount = claimCount ∧
      ∃ expires, row.leaseExpiresAt = some expires ∧ now < expires := by
  unfold QueueEntryRow.isHeldBy
  simp only [Bool.and_eq_true, decide_eq_true_eq, Option.any_eq_true, and_assoc]

theorem isHeldBy_of_le (before : now ≤ later) (held : row.isHeldBy workerId claimCount later = true) :
    row.isHeldBy workerId claimCount now = true := by
  rw [isHeldBy_iff] at held ⊢
  obtain ⟨status, worker, count, expires, isLease, valid⟩ := held
  exact ⟨status, worker, count, expires, isLease, before.trans_lt valid⟩

theorem isActive_of_held (held : row.isHeldBy workerId claimCount now = true) : row.isActive = true := by
  rw [isHeldBy_iff] at held
  simp [QueueEntryRow.isActive, held.1]

theorem isActive_of_claimable (claimable : row.isClaimable now = true) : row.isActive = true := by
  unfold QueueEntryRow.isClaimable at claimable
  unfold QueueEntryRow.isActive
  simp only [Bool.or_eq_true, Bool.and_eq_true, decide_eq_true_eq] at claimable ⊢
  exact claimable.imp id And.left

theorem not_held_of_status (status : row.status ≠ .claimed) : row.isHeldBy workerId claimCount now = false := by
  rw [← Bool.not_eq_true, isHeldBy_iff]
  rintro ⟨claimed, -⟩
  exact status claimed

theorem RowStep.taskId (step : RowStep queue call row row') : row'.taskId = row.taskId := by
  cases step <;> rfl

theorem RowStep.eq_of_ended (step : RowStep queue call row row') (ended : row.isActive = false) : row' = row := by
  cases step with
  | same => rfl
  | claim claimable => simp [isActive_of_claimable claimable] at ended
  | heartbeat held => simp [isActive_of_held held] at ended
  | giveBack isCall held => simp [isActive_of_held held] at ended
  | complete isCall held => simp [isActive_of_held held] at ended
  | cancel active => simp [active] at ended

/-- A lease exists exactly while the entry is claimed (`lease_matches_status`). -/
def QueueEntryRow.leaseMatches (row : QueueEntryRow) : Prop :=
  row.status = .claimed ↔ row.leaseExpiresAt.isSome = true

theorem RowStep.leaseMatches (step : RowStep queue call row row') (kept : row.leaseMatches) :
    row'.leaseMatches := by
  unfold QueueEntryRow.leaseMatches at *
  cases step with
  | same => exact kept
  | claim claimable => simp [QueueEntryRow.claim]
  | heartbeat held => simpa [QueueEntryRow.extend] using kept
  | giveBack isCall held => simp [QueueEntryRow.giveBack]
  | complete isCall held => simp [QueueEntryRow.complete]
  | cancel active => simp [QueueEntryRow.cancel]

/-- What a call reads while the row of its entry is locked is not earlier than an instant. -/
def QueueCall.notBefore (call : QueueCall) (now : Instant) : Prop :=
  match call with
  | .claimNext _ _ stamped => now ≤ stamped
  | .heartbeat hold => now ≤ hold.now
  | .release hold => now ≤ hold.now
  | .complete hold => now ≤ hold.now
  | .finish hold => now ≤ hold.now
  | .enqueue .. => True
  | .cancel .. => True

theorem RowStep.lost (step : RowStep queue call row row') (after : call.notBefore now)
    (given : claimCount ≤ row.claimCount) (lost : row.isHeldBy workerId claimCount now = false) :
    claimCount ≤ row'.claimCount ∧ row'.isHeldBy workerId claimCount now = false := by
  cases step with
  | same => exact ⟨given, lost⟩
  | claim claimable =>
    refine ⟨given.trans (Int.le_add_one (le_refl _)), ?_⟩
    rw [← Bool.not_eq_true, isHeldBy_iff]
    rintro ⟨-, -, same, -⟩
    exact absurd same (ne_of_gt (Int.lt_add_one_of_le given))
  | @heartbeat hold _ held =>
    refine ⟨given, ?_⟩
    rw [← Bool.not_eq_true, isHeldBy_iff]
    rintro ⟨status, worker, count, -⟩
    -- The lease the heartbeat extends is valid at its reading, so it was before.
    rw [isHeldBy_iff] at held
    have valid : row.isHeldBy workerId claimCount hold.now = true :=
      isHeldBy_iff.mpr ⟨status, worker, count, held.2.2.2⟩
    rw [isHeldBy_of_le after valid] at lost
    cases lost
  | giveBack | complete | cancel => exact ⟨given, not_held_of_status (by rintro ⟨⟩)⟩

end Rows

/-! ### Runs -/

/-- What every call keeps of the entries. -/
structure Queued (t : QueueTable) : Prop where
  oneActive : ∀ a ∈ t.rows, ∀ b ∈ t.rows, a.isActive = true → b.isActive = true →
    a.taskId = b.taskId → a = b
  leaseMatches : ∀ row ∈ t.rows, row.leaseMatches

theorem RowStep.isActive {queue : TaskQueue} {call : QueueCall} {row row' : QueueEntryRow}
    (step : RowStep queue call row row') (active : row'.isActive = true) : row.isActive = true := by
  by_contra ended
  rw [Bool.not_eq_true] at ended
  rw [step.eq_of_ended ended, ended] at active
  cases active

theorem Queued.wrote {queue : TaskQueue} {t after : QueueTable} {call : QueueCall} {answer : QueueAnswer}
    (kept : Queued t) (wrote : Wrote queue t call answer after) : Queued after := by
  -- An entry of the table after is one of before, or new.
  have origin : ∀ row' ∈ after.rows,
      (∃ row ∈ t.rows, row.id = row'.id ∧ RowStep queue call row row') ∨
        (row'.status = .queued ∧ row'.leaseExpiresAt = none ∧ answer = .entry row' ∧
          ∀ other ∈ t.rows, other.taskId = row'.taskId → other.isActive = false) := by
    intro row' mem
    cases found : t.get row'.id with
    | none => exact .inr (wrote.newRow found (Keyed.get_self mem))
    | some row =>
      obtain ⟨row'', found'', step, -⟩ := wrote.rowStep found
      have same : row'' = row' := Option.some.inj (found''.symm.trans (Keyed.get_self mem))
      exact .inl ⟨row, Keyed.mem_of_get found, Keyed.key_of_get found, same ▸ step⟩
  constructor
  · intro a isA b isB activeA activeB same
    rcases origin a isA with ⟨a', oldA, idA, stepA⟩ | ⟨-, -, newA, aloneA⟩
    · rcases origin b isB with ⟨b', oldB, idB, stepB⟩ | ⟨-, -, -, aloneB⟩
      · have isSame : a' = b' := kept.oneActive a' oldA b' oldB (stepA.isActive activeA)
          (stepB.isActive activeB) (by rw [← stepA.taskId, ← stepB.taskId, same])
        exact after.eq_of_key_eq isA isB (by rw [← idA, ← idB, isSame])
      · have ended := aloneB a' oldA (by rw [← stepA.taskId, same])
        rw [stepA.isActive activeA] at ended
        cases ended
    · rcases origin b isB with ⟨b', oldB, idB, stepB⟩ | ⟨-, -, newB, -⟩
      · have ended := aloneA b' oldB (by rw [← stepB.taskId, same])
        rw [stepB.isActive activeB] at ended
        cases ended
      · -- Both would be the one entry that was added.
        exact QueueAnswer.entry.inj (newA.symm.trans newB)
  · intro row' mem
    rcases origin row' mem with ⟨row, old, -, step⟩ | ⟨status, lease, -, -⟩
    · exact step.leaseMatches (kept.leaseMatches row old)
    · unfold QueueEntryRow.leaseMatches
      simp [status, lease]

section Runs

variable {queue : TaskQueue} {t t' : QueueTable}

theorem apply_cases (queue : TaskQueue) (t : QueueTable) (call : QueueCall) (view : QueueView) :
    queue.apply t call view = t ∨ ∃ answer, Wrote queue t call answer (queue.apply t call view) := by
  unfold TaskQueue.apply
  cases done : queue.perform t view call with
  | error error => exact .inl rfl
  | ok result => exact .inr ⟨result.1, wrote_of_perform done⟩

theorem queued_of_reachable (reach : queue.machine.Reachable t) : Queued t := by
  refine reach.invariant ?_ ?_
  · rintro _ rfl
    exact ⟨by rintro _ ⟨⟩, by rintro _ ⟨⟩⟩
  · intro before event after _ kept taken
    simp only [TaskQueue.machine, Option.ite_none_right_eq_some, Option.some.injEq] at taken
    rw [← taken.2]
    rcases apply_cases queue before event.1 event.2 with same | ⟨answer, wrote⟩
    · rw [same]
      exact kept
    · exact kept.wrote wrote

theorem rowKept_of_run {P : QueueEntryRow → Prop} {Q : QueueCall → Prop}
    (keeps : ∀ {call row row'}, Q call → RowStep queue call row row' → P row → P row')
    {events : List (QueueCall × QueueView)} (ran : queue.machine.run t events = some t')
    (calls : ∀ event ∈ events, Q event.1) {entryId : ℤ} {row : QueueEntryRow}
    (found : t.get entryId = some row) (base : P row) : ∃ row', t'.get entryId = some row' ∧ P row' := by
  induction events generalizing t row with
  | nil =>
    rw [Machine.run, Option.some.injEq] at ran
    exact ⟨row, ran ▸ found, base⟩
  | cons event rest ih =>
    rw [Machine.run, Option.bind_eq_some_iff] at ran
    obtain ⟨mid, taken, rest⟩ := ran
    simp only [TaskQueue.machine, Option.ite_none_right_eq_some, Option.some.injEq] at taken
    obtain ⟨first, others⟩ := List.forall_mem_cons.mp calls
    rcases apply_cases queue t event.1 event.2 with same | ⟨answer, wrote⟩
    · rw [same] at taken
      exact ih rest others (taken.2 ▸ found) base
    · obtain ⟨mid', found', step, -⟩ := wrote.rowStep found
      exact ih rest others (taken.2 ▸ found') (keeps first step base)

def QueueCall.presents (call : QueueCall) (hold : Hold) : Prop :=
  call = .heartbeat hold ∨ call = .release hold ∨ call = .complete hold ∨ call = .finish hold

theorem updateHeld_lost {hold : Hold} (written : QueueEntryRow → QueueEntryRow)
    (lost : ∀ row, t.get hold.entryId = some row →
      row.isHeldBy hold.workerId hold.claimCount hold.now = false) :
    TaskQueue.updateHeld t hold written = .error .leaseLost := by
  unfold TaskQueue.updateHeld
  cases found : t.get hold.entryId with
  | none => rfl
  | some row =>
    dsimp only
    rw [if_neg (by simp [lost row found])]

theorem perform_lost {call : QueueCall} {hold : Hold} (view : QueueView) (presents : call.presents hold)
    (checked : checkHold hold = .ok ())
    (lost : ∀ row, t.get hold.entryId = some row →
      row.isHeldBy hold.workerId hold.claimCount hold.now = false) :
    queue.perform t view call = .error .leaseLost := by
  rcases presents with rfl | rfl | rfl | rfl
  · rw [TaskQueue.perform, TaskQueue.heartbeat, checked]
    exact congrArg (Except.map _) (updateHeld_lost _ lost)
  · rw [TaskQueue.perform, TaskQueue.release, checked]
    exact congrArg (Except.map _) (updateHeld_lost _ lost)
  · rw [TaskQueue.perform, TaskQueue.complete, checked]
    exact congrArg (Except.map _) (updateHeld_lost _ lost)
  · rw [TaskQueue.perform, TaskQueue.finish, checked]
    cases found : t.get hold.entryId with
    | none => rfl
    | some row => exact congrArg (Except.map _) (updateHeld_lost _ lost)

theorem heartbeat_extends {view : QueueView} {hold : Hold} {answer : QueueAnswer}
    (done : queue.perform t view (.heartbeat hold) = .ok (answer, t')) :
    ∃ row expires, t.get hold.entryId = some row ∧ row.leaseExpiresAt = some expires ∧
      t'.get hold.entryId = some (row.extend (hold.now + queue.lease)) ∧
      (row.extend (hold.now + queue.lease)).leaseExpiresAt =
        some (max expires (hold.now + queue.lease)) := by
  simp only [TaskQueue.perform, TaskQueue.heartbeat, map_eq_ok, bind_eq_ok] at done
  obtain ⟨result, ⟨_, -, updated⟩, same⟩ := done
  cases same
  unfold TaskQueue.updateHeld at updated
  cases found : t.get hold.entryId with
  | none =>
    rw [found] at updated
    cases updated
  | some row =>
    rw [found] at updated
    dsimp only at updated
    split_ifs at updated with held
    obtain ⟨-, -, -, expires, isLease, -⟩ := isHeldBy_iff.mp held
    refine ⟨row, expires, rfl, isLease, ?_, by rw [QueueEntryRow.extend, isLease, Option.map_some]⟩
    rw [← Except.ok.inj updated]
    have isId : (row.extend (hold.now + queue.lease)).id = hold.entryId := Keyed.key_of_get (a := row) found
    show (t.put _).get hold.entryId = _
    rw [Keyed.get_put, if_pos isId.symm]

end Runs

structure Fenced (queue : TaskQueue) (t : QueueTable) : Prop where
  oneActive : ∀ a ∈ t.rows, ∀ b ∈ t.rows, a.isActive = true → b.isActive = true →
    a.taskId = b.taskId → a = b
  oneHolder : ∀ taskId taskId' lease lease' now, TaskQueue.holdsLease t taskId lease now = true →
    TaskQueue.holdsLease t taskId' lease' now = true → lease.entryId = lease'.entryId →
      lease.workerId = lease'.workerId ∧ lease.claimCount = lease'.claimCount
  counted : ∀ call view answer after, queue.perform t view call = .ok (answer, after) →
    ∀ entryId row, t.get entryId = some row → ∃ row', after.get entryId = some row' ∧
      row'.claimCount = row.claimCount + if answer.claims entryId then 1 else 0
  lost : ∀ entryId row workerId claimCount now, t.get entryId = some row → claimCount ≤ row.claimCount →
    row.isHeldBy workerId claimCount now = false →
    ∀ events t', queue.machine.run t events = some t' → (∀ event ∈ events, event.1.notBefore now) →
      ∀ later, now ≤ later → ∃ row', t'.get entryId = some row' ∧
        row'.isHeldBy workerId claimCount later = false
  refused : ∀ call hold view, call.presents hold → checkHold hold = .ok () →
    (∀ row, t.get hold.entryId = some row → row.claimedBy ≠ some hold.workerId ∨
      row.claimCount ≠ hold.claimCount ∨ ∀ expires, row.leaseExpiresAt = some expires → expires ≤ hold.now) →
      queue.perform t view call = .error .leaseLost ∧ queue.apply t call view = t
  extended : ∀ hold view answer after, queue.perform t view (.heartbeat hold) = .ok (answer, after) →
    ∃ row row' expires expires', t.get hold.entryId = some row ∧ row.leaseExpiresAt = some expires ∧
      after.get hold.entryId = some row' ∧ row'.leaseExpiresAt = some expires' ∧ expires ≤ expires'
  ended : ∀ entryId row, t.get entryId = some row → row.status = .completed ∨ row.status = .cancelled →
    ∀ events t', queue.machine.run t events = some t' → t'.get entryId = some row

/-- **Queue leases are fenced.** After any committed calls of any workers: a task has at most one active
entry, an entry at most one holder, only a claim moves the generation, by one, and a generation given out that
is not valid is never valid again as long as the calls read the clock no earlier. A worker without a valid lease
changes nothing, a heartbeat never shortens a lease, and an ended entry never changes. -/
theorem leases_fenced {queue : TaskQueue} {t : QueueTable} (reach : queue.machine.Reachable t) :
    Fenced queue t where
  oneActive := (queued_of_reachable reach).oneActive
  oneHolder := by
    intro taskId taskId' lease lease' now holds holds' same
    unfold TaskQueue.holdsLease at holds holds'
    rw [← same] at holds'
    obtain ⟨row, found, held⟩ := (Option.any_eq_true _ _).mp holds
    obtain ⟨row', found', held'⟩ := (Option.any_eq_true _ _).mp holds'
    have isRow : row' = row := Option.some.inj (found'.symm.trans found)
    rw [isRow] at held'
    rw [Bool.and_eq_true, isHeldBy_iff] at held held'
    obtain ⟨-, -, worker, count, -⟩ := held
    obtain ⟨-, -, worker', count', -⟩ := held'
    exact ⟨Option.some.inj (worker.symm.trans worker'), count.symm.trans count'⟩
  counted := by
    intro call view answer after done entryId row found
    obtain ⟨row', found', -, count⟩ := (wrote_of_perform done).rowStep found
    exact ⟨row', found', count⟩
  lost := by
    intro entryId row workerId claimCount now found given lost events t' ran readings later after
    obtain ⟨row', found', -, lost'⟩ := rowKept_of_run (Q := fun call => call.notBefore now)
      (P := fun row => claimCount ≤ row.claimCount ∧ row.isHeldBy workerId claimCount now = false)
      (fun reading step kept => step.lost reading kept.1 kept.2) ran readings found ⟨given, lost⟩
    refine ⟨row', found', ?_⟩
    rw [← Bool.not_eq_true] at lost' ⊢
    exact fun held => lost' (isHeldBy_of_le after held)
  refused := by
    intro call hold view presents checked unfit
    have refused : queue.perform t view call = .error .leaseLost := by
      refine perform_lost view presents checked fun row found => ?_
      rw [← Bool.not_eq_true, isHeldBy_iff]
      rintro ⟨-, worker, count, expires, isLease, valid⟩
      rcases unfit row found with other | other | expired
      · exact other worker
      · exact other count
      · exact absurd valid (not_lt.mpr (expired expires isLease))
    refine ⟨refused, ?_⟩
    rw [TaskQueue.apply, refused]
  extended := by
    intro hold view answer after done
    obtain ⟨row, expires, found, isLease, found', isLease'⟩ := heartbeat_extends done
    exact ⟨row, _, expires, _, found, isLease, found', isLease', le_max_left _ _⟩
  ended := by
    intro entryId row found status events t' ran
    have ended : row.isActive = false := by
      rcases status with completed | cancelled
      · simp [QueueEntryRow.isActive, completed]
      · simp [QueueEntryRow.isActive, cancelled]
    obtain ⟨row', found', same⟩ := rowKept_of_run (P := fun row' => row' = row) (Q := fun _ => True)
      (fun _ step isRow => by rw [isRow] at step; exact step.eq_of_ended ended) ran (fun _ _ => trivial)
      found rfl
    rw [found', same]

/-- An entry is claimed, its lease runs out, and the same worker claims it again. -/
def reclaimed : List (QueueCall × QueueView) :=
  let view : QueueView := { task := fun _ => some (.queued, true) }
  [(.enqueue 1 .normal 0, view), (.claimNext (Text.lit "w") 1 1, view),
    (.claimNext (Text.lit "w") 60000001 60000002, view)]

theorem reclaimed_fenced : ∃ t, minuteQueue.machine.run .empty reclaimed = some t ∧
    (t.get 1).any (fun row => row.isHeldBy (Text.lit "w") 2 60000003) = true ∧ Fenced minuteQueue t := by
  have ran : ∃ t, minuteQueue.machine.run .empty reclaimed = some t ∧
      (t.get 1).any (fun row => row.isHeldBy (Text.lit "w") 2 60000003) = true := ⟨_, rfl, by decide⟩
  obtain ⟨t, ran, held⟩ := ran
  exact ⟨t, ran, held, leases_fenced (Machine.Reachable.run (.start rfl) ran)⟩

end PawBackend.Tasks
