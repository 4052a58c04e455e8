/-
**Transactions of the consolidation queue** (`memory/journal/queue.py`, `memory/journal/consolidator.py`).

What one transaction can do to the tables is said once (`TableStep`); every invariant is a case analysis over it: an
entry has at most one active job, a pending one has a job that is not completed, and an output is applied with its
completion.
-/

import PawBackend.Memory.JournalQueue

namespace PawBackend.Memory

open Lib List
open Tools (Uuid Instant)
open Tasks (Priority)

/-! ### What a transaction does -/

/-- What a transaction may do to the tables. A job is deferred only where `deferrable` says so, and claimed only by a claim. -/
inductive TableStep (queue : ConsolidationQueue) (fold : Folding) (deferrable : QueueJob → Prop) (claiming : Prop) (t : JournalTables) :
    JournalTables → Prop
  | same : TableStep queue fold deferrable claiming t t
  | recorded (entry : JournalEntry) {entries : Keyed JournalEntry.id} (isNew : t.entries.tryInsert entry = some entries)
    (pending : entry.state = .pending) (hasJob : t.activeJob entry.id ≠ none) : TableStep queue fold deferrable claiming t { t with entries := entries }
  | added (job : QueueJob) {entries : Keyed JournalEntry.id} {jobs : Keyed QueueJob.id}
    (entriesAre : entries = t.entries ∨ ∃ entry, t.entries.tryInsert entry = some entries ∧ entry.state = .pending ∧ entry.id = job.entryId)
    (noActive : t.activeJob job.entryId = none) (isNew : t.jobs.tryInsert job = some jobs)
    (unclaimed : job.status = .queued ∧ job.attempts = 0 ∧ job.deferrals = 0 ∧ job.claimCount = 0) :
    TableStep queue fold deferrable claiming t { t with entries := entries, jobs := jobs }
  | claimed (job : QueueJob) (workerId : Text) (now : Instant) (isJob : job ∈ t.jobs.rows) (active : job.isActive = true) (may : claiming) :
    TableStep queue fold deferrable claiming t (t.putJob (job.claim workerId now queue.lease))
  | extended (job : QueueJob) (expiry : Instant) (isJob : job ∈ t.jobs.rows) (held : job.status = .claimed) :
    TableStep queue fold deferrable claiming t (t.putJob (job.extend expiry))
  | failed (job new : QueueJob) (kind : FailureKind) (now : Instant) (isJob : job ∈ t.jobs.rows) (held : job.status = .claimed)
    (isNew : JournalTables.failed queue job kind now = .ok new) (may : kind = .workerUnavailable → deferrable job) : TableStep queue fold deferrable claiming t (t.putJob new)
  | buried (job : QueueJob) (now : Instant) (isJob : job ∈ t.jobs.rows) (held : job.status = .claimed) :
    TableStep queue fold deferrable claiming t (t.putJob (job.bury now))
  | completed (job : QueueJob) (entry : JournalEntry) (now : Instant) (isJob : job ∈ t.jobs.rows) (held : job.status = .claimed)
    (found : t.entries.get job.entryId = some entry) (done : entry.state = .consolidated) :
    TableStep queue fold deferrable claiming t (t.putJob (job.complete now))
  | applied (job : QueueJob) (entry : JournalEntry) (items : List WorkerMemory) (given : ℕ → Given) (now : Instant)
    {journal : JournalDb} {results : ℕ → ItemResult} (isJob : job ∈ t.jobs.rows) (held : job.status = .claimed)
    (found : t.entries.get job.entryId = some entry) (pending : entry.state = .pending)
    (done : t.journal.applyItems fold entry.context items given = .ok (journal, results)) :
    TableStep queue fold deferrable claiming t ((t.markConsolidated entry journal).putJob (job.complete now))

section Transactions

variable {queue : ConsolidationQueue} {fold : Folding} {deferrable : QueueJob → Prop} {claiming : Prop} {t t' : JournalTables} {job : QueueJob} {hold : Hold} {judgedAt now : Instant}

theorem lockHeld_eq_ok (held : t.lockHeld hold judgedAt = .ok job) :
    job ∈ t.jobs.rows ∧ job.id = hold.jobId ∧ job.isHeldBy hold.workerId hold.claimCount judgedAt = true := by
  simp only [JournalTables.lockHeld, bind_eq_ok, orThrow_eq_ok, check_eq_ok, pure_eq_ok] at held
  obtain ⟨found, isFound, isHeld, rfl⟩ := held
  refine ⟨Keyed.mem_of_get isFound, Keyed.key_of_get isFound, ?_⟩
  simpa using isHeld

theorem isHeldBy_iff {workerId : Text} {claimCount : ℕ} :
    job.isHeldBy workerId claimCount now = true ↔ job.status = .claimed ∧ job.claimedBy = some workerId ∧
      job.claimCount = claimCount ∧ ∃ expires, job.leaseExpiresAt = some expires ∧ now < expires := by
  unfold QueueJob.isHeldBy
  cases lease : job.leaseExpiresAt <;> simp [and_assoc]

theorem lockHeld_of_stale (stale : ∀ job, t.jobs.get hold.jobId = some job →
    ¬job.isHeldBy hold.workerId hold.claimCount judgedAt = true) : t.lockHeld hold judgedAt = .error .leaseLost := by
  unfold JournalTables.lockHeld
  cases found : t.jobs.get hold.jobId with
  | none => rfl
  | some job =>
    have isStale := Bool.eq_false_of_not_eq_true (stale job found)
    show (if (!job.isHeldBy hold.workerId hold.claimCount judgedAt) = true then _ else _) = _
    rw [isStale]
    rfl

variable {entryId : Uuid}

theorem activeJob_eq_none (none : t.activeJob entryId = none) :
    ∀ job ∈ t.jobs.rows, job.entryId = entryId → job.isActive = false := by
  intro job isJob isIts
  have notIt := find?_eq_none.mp none job isJob
  rw [Bool.and_eq_true, decide_eq_true_eq, not_and] at notIt
  exact Bool.eq_false_of_not_eq_true (notIt isIts)

theorem activeJob_ne_none (some : t.activeJob entryId ≠ none) :
    ∃ job ∈ t.jobs.rows, job.entryId = entryId ∧ job.isActive = true := by
  obtain ⟨job, found⟩ := Option.ne_none_iff_exists'.mp some
  have isIt := find?_some found
  rw [Bool.and_eq_true, decide_eq_true_eq] at isIt
  exact ⟨job, mem_of_find?_eq_some found, isIt⟩

theorem enqueue_step {priority : Priority} {newId : ℕ} (done : t.enqueue entryId priority newId now = .ok (job, t')) :
    TableStep queue fold deferrable claiming t t' := by
  simp only [JournalTables.enqueue, bind_eq_ok, orThrow_eq_ok, check_eq_ok] at done
  obtain ⟨entry, found, pending, done⟩ := done
  unfold JournalTables.insertJob at done
  cases active : t.activeJob entryId with
  | some old =>
    rw [active] at done
    cases pure_eq_ok.mp done
    exact .same
  | none =>
    simp only [active, bind_eq_ok, orThrow_eq_ok, pure_eq_ok] at done
    obtain ⟨jobs, isNew, same⟩ := done
    cases same
    exact .added _ (.inl rfl) active isNew ⟨rfl, rfl, rfl, rfl⟩

theorem record_step {context : EntryContext} {priority : Priority} {newId : ℕ}
    (done : t.record entryId context priority newId now = .ok (job, t')) : TableStep queue fold deferrable claiming t t' := by
  simp only [JournalTables.record, bind_eq_ok, orThrow_eq_ok] at done
  obtain ⟨entries, isEntry, done⟩ := done
  unfold JournalTables.insertJob at done
  cases active : JournalTables.activeJob { t with entries := entries } entryId with
  | some old =>
    rw [active] at done
    cases pure_eq_ok.mp done
    refine .recorded _ isEntry rfl fun none => ?_
    rw [show JournalTables.activeJob { t with entries := entries } entryId = t.activeJob entryId from rfl, none] at active
    cases active
  | none =>
    simp only [active, bind_eq_ok, orThrow_eq_ok, pure_eq_ok] at done
    obtain ⟨jobs, isNew, same⟩ := done
    cases same
    have noActive : t.activeJob entryId = none := active
    exact .added _ (.inr ⟨_, isEntry, rfl, rfl⟩) noActive isNew ⟨rfl, rfl, rfl, rfl⟩

theorem isActive_of_claimable (claimable : job.isClaimable now = true) : job.isActive = true := by
  unfold QueueJob.isClaimable at claimable
  unfold QueueJob.isActive
  rw [decide_eq_true_eq]
  rcases Bool.or_eq_true_iff.mp claimable with waits | expired
  · exact .inl (decide_eq_true_eq.mp waits).1
  · exact .inr (decide_eq_true_eq.mp (Bool.and_eq_true_iff.mp expired).1)

theorem claimNext_eq_ok {workerId : Text} {hidden : ℕ → Bool} {claimed : QueueJob}
    (done : t.claimNext queue workerId judgedAt now hidden = .ok (some claimed, t')) :
    ∃ job ∈ t.jobs.rows, job.isActive = true ∧ claimed = job.claim workerId now queue.lease ∧ t' = t.putJob claimed := by
  simp only [JournalTables.claimNext, bind_eq_ok] at done
  obtain ⟨-, -, done⟩ := done
  cases next : t.nextJob judgedAt hidden with
  | none =>
    rw [next] at done
    cases pure_eq_ok.mp done
  | some job =>
    simp only [next, check_eq_ok, pure_eq_ok] at done
    obtain ⟨-, same⟩ := done
    cases same
    have isIn := mem_of_mem_head? next
    rw [mem_insertionSort, mem_filter, Bool.and_eq_true] at isIn
    exact ⟨job, isIn.1, isActive_of_claimable isIn.2.1, rfl, rfl⟩

theorem heartbeat_step (done : t.heartbeat queue hold judgedAt now = .ok (job, t')) : TableStep queue fold deferrable claiming t t' := by
  simp only [JournalTables.heartbeat, bind_eq_ok, pure_eq_ok] at done
  obtain ⟨-, -, row, held, same⟩ := done
  cases same
  obtain ⟨isJob, -, isHeld⟩ := lockHeld_eq_ok held
  exact .extended row _ isJob (isHeldBy_iff.mp isHeld).1

theorem fail_eq_ok {kind : FailureKind} (done : t.fail queue hold kind judgedAt now = .ok (job, t')) :
    ∃ row ∈ t.jobs.rows, row.id = hold.jobId ∧ row.isHeldBy hold.workerId hold.claimCount judgedAt = true ∧
      JournalTables.failed queue row kind now = .ok job ∧ t' = t.putJob job := by
  simp only [JournalTables.fail, bind_eq_ok, pure_eq_ok] at done
  obtain ⟨-, -, row, held, new, isNew, same⟩ := done
  cases same
  obtain ⟨isJob, isId, isHeld⟩ := lockHeld_eq_ok held
  exact ⟨row, isJob, isId, isHeld, isNew, rfl⟩

theorem deadLetter_step (done : t.deadLetter hold judgedAt now = .ok (job, t')) : TableStep queue fold deferrable claiming t t' := by
  simp only [JournalTables.deadLetter, bind_eq_ok, pure_eq_ok] at done
  obtain ⟨-, -, row, held, same⟩ := done
  cases same
  obtain ⟨isJob, -, isHeld⟩ := lockHeld_eq_ok held
  exact .buried row now isJob (isHeldBy_iff.mp isHeld).1

theorem apply_step {items : List WorkerMemory} {given : ℕ → Given}
    (done : t.apply fold hold entryId items given judgedAt now = .ok t')
    (isIts : ∀ job, t.jobs.get hold.jobId = some job → job.entryId = entryId) : TableStep queue fold deferrable claiming t t' := by
  simp only [JournalTables.apply, bind_eq_ok, orThrow_eq_ok] at done
  obtain ⟨row, held, entry, found, done⟩ := done
  obtain ⟨isJob, isId, isHeld⟩ := lockHeld_eq_ok held
  have isClaimed := (isHeldBy_iff.mp isHeld).1
  rw [← isIts row (isId ▸ Keyed.get_self isJob)] at found
  cases state : entry.state with
  | consolidated =>
    rw [state] at done
    cases pure_eq_ok.mp done
    exact .completed row entry now isJob isClaimed found state
  | pending =>
    rw [state] at done
    cases applied : t.journal.applyItems fold entry.context items given with
    | error error =>
      simp only [applied] at done
      cases done
    | ok reply =>
      simp only [applied] at done
      cases pure_eq_ok.mp done
      exact .applied row entry items given now isJob isClaimed found state applied

end Transactions

/-! ### Jobs move forward -/

/-- A later state of the same job: its counts never go down, and it becomes active no more once it is finished. -/
structure QueueJob.Follows (claiming : Prop) (later earlier : QueueJob) : Prop where
  id : later.id = earlier.id
  entryId : later.entryId = earlier.entryId
  claimCount : later.claimCount = earlier.claimCount ∨ claiming ∧ later.claimCount = earlier.claimCount + 1
  attempts : earlier.attempts ≤ later.attempts
  deferrals : earlier.deferrals ≤ later.deferrals
  active : later.isActive = true → earlier.isActive = true

section Forward

variable {queue : ConsolidationQueue} {fold : Folding} {deferrable : QueueJob → Prop} {claiming : Prop} {t t' : JournalTables} {job new : QueueJob} {kind : FailureKind} {now : Instant}

theorem QueueJob.Follows.refl (job : QueueJob) : job.Follows claiming job := ⟨rfl, rfl, .inl rfl, le_rfl, le_rfl, fun active => active⟩

theorem isActive_of_claimed (held : job.status = .claimed) : job.isActive = true := by
  unfold QueueJob.isActive
  rw [decide_eq_true_eq]
  exact .inr held

theorem follows_claim {workerId : Text} (active : job.isActive = true) (may : claiming) : (job.claim workerId now queue.lease).Follows claiming job where
  id := rfl
  entryId := rfl
  claimCount := .inr ⟨may, rfl⟩
  attempts := by
    show job.attempts ≤ if job.status = .claimed then job.attempts + 1 else job.attempts
    split_ifs <;> omega
  deferrals := le_rfl
  active := fun _ => active

theorem failed_eq_ok (isNew : JournalTables.failed queue job kind now = .ok new) :
    new.id = job.id ∧ new.entryId = job.entryId ∧ new.claimCount = job.claimCount ∧ (new.status = .queued ∨ new.status = .dead) ∧
      (kind ≠ .workerUnavailable ∧ new.attempts = job.attempts + 1 ∧ new.deferrals = job.deferrals ∨
        kind = .workerUnavailable ∧ new.attempts = job.attempts ∧ new.deferrals = job.deferrals + 1) := by
  simp only [JournalTables.failed, bind_eq_ok, pure_eq_ok] at isNew
  obtain ⟨delay, -, rfl⟩ := isNew
  by_cases counts : kind = .workerUnavailable
  · have notCounted : kind.countsTowardDeadLetter = false := by
      unfold FailureKind.countsTowardDeadLetter
      rw [counts]
      rfl
    rw [notCounted, Bool.false_and]
    exact ⟨rfl, rfl, rfl, .inl rfl, .inr ⟨counts, rfl, rfl⟩⟩
  · have counted : kind.countsTowardDeadLetter = true := decide_eq_true counts
    rw [counted, Bool.true_and]
    by_cases dead : queue.maxAttempts ≤ job.attempts + 1
    · rw [if_pos rfl, if_pos rfl, if_pos (decide_eq_true dead)]
      exact ⟨rfl, rfl, rfl, .inr rfl, .inl ⟨counts, rfl, rfl⟩⟩
    · rw [if_pos rfl, if_pos rfl, if_neg (by simpa using dead)]
      exact ⟨rfl, rfl, rfl, .inl rfl, .inl ⟨counts, rfl, rfl⟩⟩

theorem follows_failed (held : job.status = .claimed) (isNew : JournalTables.failed queue job kind now = .ok new) : new.Follows claiming job := by
  obtain ⟨sameId, sameEntry, sameCount, -, ⟨-, attempts, deferrals⟩ | ⟨-, attempts, deferrals⟩⟩ := failed_eq_ok isNew
  · exact ⟨sameId, sameEntry, .inl sameCount, by omega, by omega, fun _ => isActive_of_claimed held⟩
  · exact ⟨sameId, sameEntry, .inl sameCount, by omega, by omega, fun _ => isActive_of_claimed held⟩

theorem follows_bury (held : job.status = .claimed) : (job.bury now).Follows claiming job where
  id := rfl
  entryId := rfl
  claimCount := .inl rfl
  attempts := le_max_left _ _
  deferrals := le_rfl
  active := fun _ => isActive_of_claimed held

theorem follows_of_claimed (held : job.status = .claimed) (sameId : new.id = job.id) (sameEntry : new.entryId = job.entryId)
    (sameCounts : new.claimCount = job.claimCount ∧ new.attempts = job.attempts ∧ new.deferrals = job.deferrals) : new.Follows claiming job where
  id := sameId
  entryId := sameEntry
  claimCount := .inl sameCounts.1
  attempts := sameCounts.2.1.ge
  deferrals := sameCounts.2.2.ge
  active := fun _ => isActive_of_claimed held

inductive JobsStep (claiming : Prop) (t t' : JournalTables) : Prop
  | same (sameJobs : t'.jobs = t.jobs)
  | moved (job new : QueueJob) (isJob : job ∈ t.jobs.rows) (follows : new.Follows claiming job) (jobs : t'.jobs = t.jobs.put new)
  | added (job : QueueJob) (isNew : t.jobs.tryInsert job = some t'.jobs) (queued : job.status = .queued)
    (noActive : t.activeJob job.entryId = none)
    (counts : job.attempts = 0 ∧ job.deferrals = 0 ∧ job.claimCount = 0)

theorem TableStep.jobs (step : TableStep queue fold deferrable claiming t t') : JobsStep claiming t t' := by
  cases step with
  | same | recorded => exact .same rfl
  | added job entriesAre noActive isNew unclaimed => exact .added job isNew unclaimed.1 noActive unclaimed.2
  | claimed job workerId now isJob active may => exact .moved job _ isJob (follows_claim active may) rfl
  | extended job expiry isJob held => exact .moved job (job.extend expiry) isJob (follows_of_claimed held rfl rfl ⟨rfl, rfl, rfl⟩) rfl
  | failed job new kind now isJob held isNew may => exact .moved job _ isJob (follows_failed held isNew) rfl
  | buried job now isJob held => exact .moved job _ isJob (follows_bury held) rfl
  | completed job entry now isJob held => exact .moved job (job.complete now) isJob (follows_of_claimed held rfl rfl ⟨rfl, rfl, rfl⟩) rfl
  | applied job entry items given now isJob held => exact .moved job (job.complete now) isJob (follows_of_claimed held rfl rfl ⟨rfl, rfl, rfl⟩) rfl

theorem JobsStep.forward (step : JobsStep claiming t t') {id : ℕ} {row : QueueJob} (found : t.jobs.get id = some row) :
    ∃ later, t'.jobs.get id = some later ∧ later.Follows claiming row := by
  cases step with
  | same sameJobs =>
    rw [sameJobs]
    exact ⟨row, found, .refl row⟩
  | moved job new isJob follows jobs =>
    rw [jobs, Keyed.get_put]
    by_cases isIt : id = new.id
    · rw [if_pos isIt]
      have sameRow : row = job := t.jobs.eq_of_key_eq (Keyed.mem_of_get found) isJob
        ((Keyed.key_of_get found).trans (isIt.trans follows.id))
      exact ⟨new, rfl, sameRow ▸ follows⟩
    · rw [if_neg isIt]
      exact ⟨row, found, .refl row⟩
  | added job isNew =>
    rw [Keyed.get_of_tryInsert isNew]
    have other : id ≠ job.id := by
      rintro rfl
      have fresh : t.jobs.get job.id = none := Keyed.fresh_of_tryInsert isNew
      rw [fresh] at found
      cases found
    rw [if_neg other]
    exact ⟨row, found, .refl row⟩

def OneActive (t : JournalTables) : Prop :=
  ∀ a ∈ t.jobs.rows, ∀ b ∈ t.jobs.rows, a.isActive = true → b.isActive = true → a.entryId = b.entryId → a = b

theorem JobsStep.oneActive (step : JobsStep claiming t t') (oneActive : OneActive t) : OneActive t' := by
  intro a isA b isB aActive bActive sameEntry
  cases step with
  | same sameJobs =>
    rw [sameJobs] at isA isB
    exact oneActive a isA b isB aActive bActive sameEntry
  | moved job new isJob follows jobs =>
    rw [jobs] at isA isB
    rcases Keyed.mem_put.mp isA with rfl | ⟨wasA, aOther⟩ <;> rcases Keyed.mem_put.mp isB with rfl | ⟨wasB, bOther⟩
    · rfl
    · have same := oneActive job isJob b wasB (follows.active aActive) bActive (follows.entryId.symm.trans sameEntry)
      exact absurd (same ▸ follows.id.symm) bOther
    · have same := oneActive a wasA job isJob aActive (follows.active bActive) (sameEntry.trans follows.entryId)
      exact absurd (same ▸ follows.id.symm) aOther
    · exact oneActive a wasA b wasB aActive bActive sameEntry
  | added job isNew queued noActive =>
    rcases (Keyed.mem_of_tryInsert isNew).mp isA with rfl | wasA <;> rcases (Keyed.mem_of_tryInsert isNew).mp isB with rfl | wasB
    · rfl
    · rw [activeJob_eq_none noActive b wasB sameEntry.symm] at bActive
      cases bActive
    · rw [activeJob_eq_none noActive a wasA sameEntry] at aActive
      cases aActive
    · exact oneActive a wasA b wasB aActive bActive sameEntry

structure EntriesFine (t : JournalTables) : Prop where
  waits : ∀ entry ∈ t.entries.rows, entry.state = .pending → ∃ job ∈ t.jobs.rows, job.entryId = entry.id ∧ job.status ≠ .completed
  once : t.applied.Nodup
  known : ∀ id ∈ t.applied, ∃ entry ∈ t.entries.rows, entry.id = id
  applied : ∀ entry ∈ t.entries.rows, entry.id ∈ t.applied ↔ entry.state = .consolidated

variable {entry : JournalEntry}

theorem waits_put {jobs : Keyed QueueJob.id} (isJob : job ∈ jobs.rows) (sameId : new.id = job.id) (sameEntry : new.entryId = job.entryId)

    (closes : new.status = .completed → job.entryId ≠ entry.id)
    (waits : ∃ job ∈ jobs.rows, job.entryId = entry.id ∧ job.status ≠ .completed) :
    ∃ job ∈ (jobs.put new).rows, job.entryId = entry.id ∧ job.status ≠ .completed := by
  obtain ⟨row, isRow, isIts, isOpen⟩ := waits
  by_cases isIt : row.id = new.id
  · have sameJob : row = job := jobs.eq_of_key_eq isRow isJob (isIt.trans sameId)
    rw [sameJob] at isIts
    exact ⟨new, Keyed.mem_put.mpr (.inl rfl), sameEntry.trans isIts, fun closed => closes closed isIts⟩
  · exact ⟨row, Keyed.mem_put.mpr (.inr ⟨isRow, isIt⟩), isIts, isOpen⟩

theorem EntriesFine.put (fine : EntriesFine t) (isJob : job ∈ t.jobs.rows) (sameId : new.id = job.id) (sameEntry : new.entryId = job.entryId)
    (isOpen : new.status = .completed → ∀ entry ∈ t.entries.rows, entry.id = job.entryId → entry.state = .consolidated) :
    EntriesFine (t.putJob new) where
  waits := by
    intro entry isEntry pending
    refine waits_put isJob sameId sameEntry (fun closed isIts => ?_) (fine.waits entry isEntry pending)
    rw [isOpen closed entry isEntry isIts.symm] at pending
    cases pending
  once := fine.once
  known := fine.known
  applied := fine.applied

theorem EntriesFine.insert (fine : EntriesFine t) {entries : Keyed JournalEntry.id} {jobs : Keyed QueueJob.id}
    (isNew : t.entries.tryInsert entry = some entries) (pending : entry.state = .pending)
    (stay : ∀ job ∈ t.jobs.rows, job ∈ jobs.rows) (hasJob : ∃ job ∈ jobs.rows, job.entryId = entry.id ∧ job.status ≠ .completed) :
    EntriesFine { t with entries := entries, jobs := jobs } where
  waits := by
    intro other isOther otherPending
    rcases (Keyed.mem_of_tryInsert isNew).mp isOther with rfl | wasThere
    · exact hasJob
    · obtain ⟨job, isJob, isIts, isOpen⟩ := fine.waits other wasThere otherPending
      exact ⟨job, stay job isJob, isIts, isOpen⟩
  once := fine.once
  known := by
    intro id isApplied
    obtain ⟨other, isOther, sameId⟩ := fine.known id isApplied
    exact ⟨other, (Keyed.mem_of_tryInsert isNew).mpr (.inr isOther), sameId⟩
  applied := by
    intro other isOther
    rcases (Keyed.mem_of_tryInsert isNew).mp isOther with rfl | wasThere
    · refine iff_of_false (fun isApplied => ?_) (fun consolidated => ?_)
      · obtain ⟨old, isOld, sameId⟩ := fine.known _ isApplied
        exact Keyed.get_eq_none.mp (Keyed.fresh_of_tryInsert isNew) old isOld sameId
      · rw [pending] at consolidated
        cases consolidated
    · exact fine.applied other wasThere

theorem isOpen_of_active (active : job.isActive = true) : job.status ≠ .completed := by
  unfold QueueJob.isActive at active
  rw [decide_eq_true_eq] at active
  rcases active with queued | claimed
  · rw [queued]
    decide
  · rw [claimed]
    decide

theorem EntriesFine.consolidate (fine : EntriesFine t) {journal : JournalDb} (isJob : job ∈ t.jobs.rows)
    (found : t.entries.get job.entryId = some entry) (pending : entry.state = .pending) :
    EntriesFine ((t.markConsolidated entry journal).putJob (job.complete now)) := by
  have isEntry := Keyed.mem_of_get found
  have isIts : entry.id = job.entryId := Keyed.key_of_get found
  have notApplied : entry.id ∉ t.applied := by
    rw [fine.applied entry isEntry, pending]
    decide
  have stays : ∀ row ∈ t.entries.rows, ∃ later ∈ (t.entries.put { entry with state := .consolidated }).rows, later.id = row.id := by
    intro row isRow
    by_cases isIt : row.id = entry.id
    · exact ⟨{ entry with state := .consolidated }, Keyed.mem_put.mpr (.inl rfl), isIt.symm⟩
    · exact ⟨row, Keyed.mem_put.mpr (.inr ⟨isRow, isIt⟩), rfl⟩
  refine ⟨fun row isRow rowPending => ?_, ?_, fun id isApplied => ?_, fun row isRow => ?_⟩
  · rcases Keyed.mem_put.mp isRow with rfl | ⟨wasRow, other⟩
    · cases rowPending
    · have sameId : (job.complete now).id = job.id := rfl
      exact waits_put isJob sameId rfl (fun _ same => other (same.symm.trans isIts.symm))
        (fine.waits row wasRow rowPending)
  · exact nodup_append.mpr ⟨fine.once, nodup_singleton _, fun id isOld other isNew same =>
      notApplied (mem_singleton.mp isNew ▸ same ▸ isOld)⟩
  · rcases mem_append.mp isApplied with isOld | isNew
    · obtain ⟨old, isOldEntry, sameId⟩ := fine.known id isOld
      obtain ⟨later, isLater, laterId⟩ := stays old isOldEntry
      exact ⟨later, isLater, laterId.trans sameId⟩
    · obtain ⟨later, isLater, laterId⟩ := stays entry isEntry
      exact ⟨later, isLater, laterId.trans (mem_singleton.mp isNew).symm⟩
  · show row.id ∈ t.applied ++ [entry.id] ↔ _
    rw [mem_append, mem_singleton]
    rcases Keyed.mem_put.mp isRow with rfl | ⟨wasRow, other⟩
    · exact iff_of_true (.inr rfl) rfl
    · rw [fine.applied row wasRow]
      exact or_iff_left other

theorem TableStep.entriesFine (step : TableStep queue fold deferrable claiming t t') (fine : EntriesFine t) : EntriesFine t' := by
  cases step with
  | same => exact fine
  | recorded entry isNew pending hasJob =>
    obtain ⟨job, isJob, isIts, active⟩ := activeJob_ne_none hasJob
    exact fine.insert isNew pending (fun _ isOld => isOld) ⟨job, isJob, isIts, isOpen_of_active active⟩
  | @added job entries jobs entriesAre noActive isNew unclaimed =>
    have stay : ∀ old ∈ t.jobs.rows, old ∈ jobs.rows := fun old isOld => (Keyed.mem_of_tryInsert isNew).mpr (.inr isOld)
    rcases entriesAre with rfl | ⟨entry, isEntry, pending, isIts⟩
    · refine ⟨fun entry isEntry pending => ?_, fine.once, fine.known, fine.applied⟩
      obtain ⟨old, isOld, isIts, isOpen⟩ := fine.waits entry isEntry pending
      exact ⟨old, stay old isOld, isIts, isOpen⟩
    · refine fine.insert isEntry pending stay ⟨job, (Keyed.mem_of_tryInsert isNew).mpr (.inl rfl), isIts.symm, ?_⟩
      rw [unclaimed.1]
      decide
  | claimed job workerId now isJob active may =>
    exact fine.put isJob rfl rfl fun closed => by cases closed
  | extended job expiry isJob held =>
    exact fine.put isJob rfl rfl fun closed => by
      rw [show (job.extend expiry).status = job.status from rfl, held] at closed
      cases closed
  | failed job new kind now isJob held isNew may =>
    obtain ⟨sameId, sameEntry, -, state, -⟩ := failed_eq_ok isNew
    refine fine.put isJob sameId sameEntry fun closed => ?_
    rcases state with queued | dead
    · rw [queued] at closed
      cases closed
    · rw [dead] at closed
      cases closed
  | buried job now isJob held => exact fine.put isJob rfl rfl fun closed => by cases closed
  | completed job entry now isJob held found done =>
    refine fine.put isJob rfl rfl fun _ other isOther sameId => ?_
    rw [t.entries.eq_of_key_eq isOther (Keyed.mem_of_get found) (sameId.trans (Keyed.key_of_get found).symm)]
    exact done
  | applied job entry items given now isJob held found pending done => exact fine.consolidate isJob found pending

/-! ### How often a text is handed out -/

/-- How many texts of a job's earlier claims found the worker unavailable. -/
def unavailableBefore (handed : List Handing) (jobId generation : ℕ) : ℕ :=
  handed.countP fun handing => decide (handing.jobId = jobId ∧ handing.generation < generation) && handing.unavailable

/-- What a claim began with: each earlier one was an attempt or a deferral, and each deferral had found no worker. -/
structure Counted (handed : List Handing) (jobId generation attempts deferrals : ℕ) : Prop where
  sum : attempts + deferrals + 1 = generation
  deferred : deferrals ≤ unavailableBefore handed jobId generation

structure JobCounted (handed : List Handing) (job : QueueJob) : Prop where
  queued : job.status = .queued → Counted handed job.id (job.claimCount + 1) job.attempts job.deferrals
  claimed : job.status = .claimed → Counted handed job.id job.claimCount job.attempts job.deferrals

variable {handed handed' : List Handing} {jobId generation attempts deferrals : ℕ}

theorem unavailableBefore_le_succ (handed : List Handing) (jobId generation : ℕ) :
    unavailableBefore handed jobId generation ≤ unavailableBefore handed jobId (generation + 1) := by
  refine countP_mono_left fun handing _ isIt => ?_
  simp only [Bool.and_eq_true, decide_eq_true_eq] at isIt ⊢
  exact ⟨⟨isIt.1.1, by omega⟩, isIt.2⟩

theorem unavailableBefore_lt_succ {handing : Handing} (isHanded : handing ∈ handed) (isJob : handing.jobId = jobId)
    (isLast : handing.generation = generation) (unavailable : handing.unavailable = true) :
    unavailableBefore handed jobId generation + 1 ≤ unavailableBefore handed jobId (generation + 1) := by
  induction handed with
  | nil => cases isHanded
  | cons first rest ih =>
    unfold unavailableBefore at ih ⊢
    rw [countP_cons, countP_cons]
    rcases mem_cons.mp isHanded with rfl | isRest
    · have rest := unavailableBefore_le_succ rest jobId generation
      unfold unavailableBefore at rest
      simp only [isJob, isLast, unavailable, lt_irrefl, and_false, decide_false, Bool.false_eq_true, if_false,
        Nat.lt_succ_self, and_self, decide_true, Bool.and_true, if_true]
      omega
    · have step := ih isRest
      have mono : (if (decide (first.jobId = jobId ∧ first.generation < generation) && first.unavailable) = true then 1 else 0) ≤
          if (decide (first.jobId = jobId ∧ first.generation < generation + 1) && first.unavailable) = true then 1 else 0 := by
        split_ifs with before notAfter <;> simp_all
        omega
      omega

theorem JobCounted.claim (counted : JobCounted handed job) (active : job.isActive = true) (workerId : Text) :
    JobCounted handed (job.claim workerId now queue.lease) where
  queued := by
    intro isQueued
    cases isQueued
  claimed := by
    intro _
    show Counted handed job.id (job.claimCount + 1) (if job.status = .claimed then job.attempts + 1 else job.attempts) job.deferrals
    by_cases wasClaimed : job.status = .claimed
    · rw [if_pos wasClaimed]
      obtain ⟨sum, deferred⟩ := counted.claimed wasClaimed
      exact ⟨by omega, deferred.trans (unavailableBefore_le_succ handed job.id job.claimCount)⟩
    · rw [if_neg wasClaimed]
      refine counted.queued ?_
      unfold QueueJob.isActive at active
      rw [decide_eq_true_eq] at active
      exact active.resolve_right wasClaimed

def FoundNoWorker (handed : List Handing) (job : QueueJob) : Prop :=
  ∃ handing ∈ handed, handing.jobId = job.id ∧ handing.generation = job.claimCount ∧ handing.unavailable = true

theorem JobCounted.fail (counted : JobCounted handed job) (held : job.status = .claimed)
    (isNew : JournalTables.failed queue job kind now = .ok new) (may : kind = .workerUnavailable → FoundNoWorker handed job) :
    JobCounted handed new := by
  obtain ⟨sum, deferred⟩ := counted.claimed held
  obtain ⟨sameId, -, sameCount, state, counts⟩ := failed_eq_ok isNew
  refine ⟨fun _ => ?_, fun isClaimed => ?_⟩
  · rw [sameId, sameCount]
    rcases counts with ⟨-, newAttempts, newDeferrals⟩ | ⟨isUnavailable, newAttempts, newDeferrals⟩
    · rw [newAttempts, newDeferrals]
      exact ⟨by omega, deferred.trans (unavailableBefore_le_succ handed job.id job.claimCount)⟩
    · obtain ⟨handing, isHanded, isIts, isLast, unavailable⟩ := may isUnavailable
      have more := unavailableBefore_lt_succ isHanded isIts isLast unavailable
      rw [newAttempts, newDeferrals]
      exact ⟨by omega, by omega⟩
  · rcases state with isQueued | isDead
    · rw [isQueued] at isClaimed
      cases isClaimed
    · rw [isDead] at isClaimed
      cases isClaimed

theorem jobCounted_of_finished (finished : new.status = .completed ∨ new.status = .dead) : JobCounted handed new := by
  refine ⟨fun isQueued => ?_, fun isClaimed => ?_⟩
  · rcases finished with isIt | isIt <;> rw [isIt] at isQueued <;> cases isQueued
  · rcases finished with isIt | isIt <;> rw [isIt] at isClaimed <;> cases isClaimed

theorem TableStep.jobCounted (step : TableStep queue fold (FoundNoWorker handed) claiming t t') (counted : ∀ job ∈ t.jobs.rows, JobCounted handed job) :
    ∀ job ∈ t'.jobs.rows, JobCounted handed job := by
  have put : ∀ new : QueueJob, JobCounted handed new → ∀ job ∈ (t.jobs.put new).rows, JobCounted handed job := by
    intro new newCounted job isJob
    rcases Keyed.mem_put.mp isJob with rfl | ⟨wasJob, -⟩
    · exact newCounted
    · exact counted job wasJob
  cases step with
  | same => exact counted
  | recorded => exact counted
  | added job entriesAre noActive isNew unclaimed =>
    intro row isRow
    rcases (Keyed.mem_of_tryInsert isNew).mp isRow with rfl | wasRow
    · obtain ⟨isQueued, noAttempts, noDeferrals, noClaims⟩ := unclaimed
      refine ⟨fun _ => ⟨by omega, by omega⟩, fun isClaimed => ?_⟩
      rw [isQueued] at isClaimed
      cases isClaimed
    · exact counted row wasRow
  | claimed job workerId now isJob active => exact put _ ((counted job isJob).claim active workerId)
  | extended job expiry isJob held => exact put _ ⟨(counted job isJob).queued, (counted job isJob).claimed⟩
  | failed job new kind now isJob held isNew may => exact put _ ((counted job isJob).fail held isNew may)
  | buried job now => exact put _ (jobCounted_of_finished (.inr rfl))
  | completed | applied => exact put _ (jobCounted_of_finished (.inl rfl))

theorem countP_add_le {α : Type} {l : List α} {p q r : α → Bool} (first : ∀ a ∈ l, p a = true → r a = true ∧ q a = false)
    (second : ∀ a ∈ l, q a = true → r a = true) : l.countP p + l.countP q ≤ l.countP r := by
  induction l with
  | nil => exact le_rfl
  | cons a rest ih =>
    have tail := ih (fun b isB => first b (.tail _ isB)) fun b isB => second b (.tail _ isB)
    have head := first a (.head _)
    have head' := second a (.head _)
    rw [countP_cons, countP_cons, countP_cons]
    cases isP : p a <;> cases isQ : q a <;> cases isR : r a <;> simp_all <;> omega

theorem countP_handed_le {limit : ℕ} (distinct : (handed.map fun handing => (handing.jobId, handing.generation)).Nodup)
    (texts : ∀ handing ∈ handed, Counted handed handing.jobId handing.generation handing.attempts handing.deferrals ∧
      handing.attempts < limit) (jobId : ℕ) :
    (handed.countP fun handing => decide (handing.jobId = jobId) && !handing.unavailable) ≤ limit := by
  cases isLast : (handed.filter fun handing => decide (handing.jobId = jobId) && !handing.unavailable).argmax Handing.generation with
  | none =>
    have nothing := argmax_eq_none.mp isLast
    rw [countP_eq_length_filter, nothing]
    exact Nat.zero_le _
  | some last =>
    obtain ⟨isHanded, isIts⟩ := mem_filter.mp (argmax_mem isLast)
    rw [Bool.and_eq_true, decide_eq_true_eq] at isIts
    obtain ⟨⟨sum, deferred⟩, below⟩ := texts last isHanded
    rw [isIts.1] at deferred
    have split : (handed.countP fun handing => decide (handing.jobId = jobId) && !handing.unavailable) +
        unavailableBefore handed jobId last.generation ≤
          handed.countP fun handing => decide (handing.jobId = jobId ∧ handing.generation ≤ last.generation) := by
      refine countP_add_le (fun handing isIn counts => ⟨?_, ?_⟩) fun handing _ before => ?_
      · have le : handing.generation ≤ last.generation := le_of_mem_argmax (mem_filter.mpr ⟨isIn, counts⟩) isLast
        rw [Bool.and_eq_true, decide_eq_true_eq] at counts
        exact decide_eq_true ⟨counts.1, le⟩
      · rw [Bool.and_eq_true, Bool.not_eq_true'] at counts
        rw [counts.2, Bool.and_false]
      · rw [Bool.and_eq_true, decide_eq_true_eq] at before
        exact decide_eq_true ⟨before.1.1, before.1.2.le⟩
    -- the claims of the job are numbered from one on
    have numbers : ((handed.filter fun handing => decide (handing.jobId = jobId ∧ handing.generation ≤ last.generation)).map
        Handing.generation).Nodup := by
      have keys := (filter_sublist (l := handed)
        (p := fun handing => decide (handing.jobId = jobId ∧ handing.generation ≤ last.generation))).map
          (fun handing => (handing.jobId, handing.generation)) |>.nodup distinct
      refine List.Nodup.map_on (fun a isA b isB same => ?_) (keys.of_map _)
      have ofA := of_decide_eq_true (mem_filter.mp isA).2
      have ofB := of_decide_eq_true (mem_filter.mp isB).2
      exact inj_on_of_nodup_map keys isA isB (Prod.ext (ofA.1.trans ofB.1.symm) same)
    have within : ((handed.filter fun handing => decide (handing.jobId = jobId ∧ handing.generation ≤ last.generation)).map
        Handing.generation) ⊆ List.range' 1 last.generation := by
      intro generation isIn
      obtain ⟨handing, isFiltered, rfl⟩ := mem_map.mp isIn
      obtain ⟨isIn, isBound⟩ := mem_filter.mp isFiltered
      have le := (of_decide_eq_true isBound).2
      have pos := (texts handing isIn).1.sum
      rw [mem_range'_1]
      omega
    have few := (subperm_of_subset numbers within).length_le
    rw [length_map, length_range', ← countP_eq_length_filter] at few
    omega

end Forward

end PawBackend.Memory
