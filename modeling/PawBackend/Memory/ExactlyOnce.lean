/-
**An observation is consolidated once** (`memory/journal/queue.py`, `memory/journal/consolidator.py`).

Consolidators take their steps in any order, stop and never come back, and come back when their lease is over.
-/

import PawBackend.Memory.History
import PawBackend.Memory.JournalSteps

namespace PawBackend.Memory

open Lib List
open Tools (Uuid Instant)
open Tasks (Priority)

/-! ### Whole runs -/

def Stage.job : Stage → Option QueueJob
  | .idle => none
  | .claimed job | .extracting job | .applying job _ | .failing job _ | .deadLettering job => some job

def IssuedBy (jobs : Keyed QueueJob.id) (job : QueueJob) : Prop :=
  ∃ row, jobs.get job.id = some row ∧ row.entryId = job.entryId ∧ job.claimCount ≤ row.claimCount

structure HandedFine (queue : ConsolidationQueue) (s : JournalSystem) : Prop where
  jobs : ∀ job ∈ s.tables.jobs.rows, JobCounted s.handed job
  texts : ∀ handing ∈ s.handed,
    Counted s.handed handing.jobId handing.generation handing.attempts handing.deferrals ∧ handing.attempts < queue.maxAttempts
  distinct : (s.handed.map fun handing => (handing.jobId, handing.generation)).Nodup
  issued : ∀ handing ∈ s.handed, ∃ row, s.tables.jobs.get handing.jobId = some row ∧ handing.generation ≤ row.claimCount
  held : ∀ consolidator job, (s.stage consolidator).job = some job → IssuedBy s.tables.jobs job
  alone : ∀ a b first second, (s.stage a).job = some first → (s.stage b).job = some second → first.id = second.id →
    first.claimCount = second.claimCount → a = b
  fresh : ∀ consolidator job, s.stage consolidator = .claimed job →
    Counted s.handed job.id job.claimCount job.attempts job.deferrals ∧ job.attempts < queue.maxAttempts ∧
      ∀ handing ∈ s.handed, handing.jobId = job.id → handing.generation ≠ job.claimCount
  handed : ∀ consolidator job, s.stage consolidator = .extracting job →
    ∃ handing ∈ s.handed, handing.jobId = job.id ∧ handing.generation = job.claimCount
  deferring : ∀ consolidator job, s.stage consolidator = .failing job .workerUnavailable → FoundNoWorker s.handed job

section Runs

variable {queue : ConsolidationQueue} {fold : Folding} {claiming : Prop} {workerId : ℕ → Text} {s s' : JournalSystem} {consolidator : ℕ} {job : QueueJob}

variable {t : JournalTables} {now judgedAt : Instant}

theorem issuedBy_forward {t' : JournalTables} (step : JobsStep claiming t t') (issued : IssuedBy t.jobs job) : IssuedBy t'.jobs job := by
  obtain ⟨row, found, sameEntry, le⟩ := issued
  obtain ⟨later, foundLater, follows⟩ := step.forward found
  refine ⟨later, foundLater, follows.entryId.trans sameEntry, ?_⟩
  rcases follows.claimCount with same | more <;> omega

theorem HandedFine.tables (fine : HandedFine queue s) (step : TableStep queue fold (FoundNoWorker s.handed) claiming s.tables t) :
    HandedFine queue { s with tables := t } where
  jobs := step.jobCounted fine.jobs
  texts := fine.texts
  distinct := fine.distinct
  issued := by
    intro handing isHanded
    obtain ⟨row, found, le⟩ := fine.issued handing isHanded
    obtain ⟨later, foundLater, follows⟩ := step.jobs.forward found
    refine ⟨later, foundLater, ?_⟩
    rcases follows.claimCount with same | more <;> omega
  held := fun consolidator job isIts => issuedBy_forward step.jobs (fine.held consolidator job isIts)
  alone := fine.alone
  fresh := fine.fresh
  handed := fine.handed
  deferring := fine.deferring

theorem HandedFine.goTo (fine : HandedFine queue s) {stage : Stage}
    (sameJob : ∀ job, stage.job = some job → (s.stage consolidator).job = some job)
    (notClaimed : ∀ job, stage ≠ .claimed job)
    (handed : ∀ job, stage = .extracting job → ∃ handing ∈ s.handed, handing.jobId = job.id ∧ handing.generation = job.claimCount)
    (deferring : ∀ job, stage = .failing job .workerUnavailable → FoundNoWorker s.handed job) :
    HandedFine queue (s.goTo consolidator stage) := by
  have stages : ∀ other job, ((s.goTo consolidator stage).stage other).job = some job → (s.stage other).job = some job := by
    intro other job isIts
    by_cases isIt : other = consolidator
    · rw [isIt] at isIts ⊢
      refine sameJob job ?_
      rw [← isIts]
      exact congrArg Stage.job (assign_self s.stage consolidator stage).symm
    · rw [← isIts]
      exact congrArg Stage.job (assign_of_ne s.stage stage isIt).symm
  have stageOf : ∀ other, (s.goTo consolidator stage).stage other = stage ∧ other = consolidator ∨
      (s.goTo consolidator stage).stage other = s.stage other := by
    intro other
    by_cases isIt : other = consolidator
    · rw [isIt]
      exact .inl ⟨assign_self s.stage consolidator stage, rfl⟩
    · exact .inr (assign_of_ne s.stage stage isIt)
  refine ⟨fine.jobs, fine.texts, fine.distinct, fine.issued, fun other job isIts => fine.held other job (stages other job isIts),
    fun a b first second isFirst isSecond => fine.alone a b first second (stages a first isFirst) (stages b second isSecond),
    fun other job isClaimed => ?_, fun other job isExtracting => ?_, fun other job isFailing => ?_⟩
  · rcases stageOf other with ⟨isStage, -⟩ | same
    · exact absurd (isStage.symm.trans isClaimed) (notClaimed job)
    · exact fine.fresh other job (same.symm.trans isClaimed)
  · rcases stageOf other with ⟨isStage, -⟩ | same
    · exact handed job (isStage.symm.trans isExtracting)
    · exact fine.handed other job (same.symm.trans isExtracting)
  · rcases stageOf other with ⟨isStage, -⟩ | same
    · exact deferring job (isStage.symm.trans isFailing)
    · exact fine.deferring other job (same.symm.trans isFailing)

theorem HandedFine.idle (fine : HandedFine queue s) (consolidator : ℕ) : HandedFine queue (s.goTo consolidator .idle) :=
  fine.goTo (fun _ isIts => by cases isIts) (fun _ isIt => by cases isIt) (fun _ isIt => by cases isIt) fun _ isIt => by cases isIt

theorem HandedFine.applying (fine : HandedFine queue s) (isJob : (s.stage consolidator).job = some job) (items : List WorkerMemory) :
    HandedFine queue (s.goTo consolidator (.applying job items)) := by
  refine fine.goTo (fun other isIts => ?_) (fun _ isIt => by cases isIt) (fun _ isIt => by cases isIt) fun _ isIt => by cases isIt
  cases isIts
  exact isJob

theorem HandedFine.failing (fine : HandedFine queue s) (isJob : (s.stage consolidator).job = some job) {kind : FailureKind}
    (deferring : kind = .workerUnavailable → FoundNoWorker s.handed job) :
    HandedFine queue (s.goTo consolidator (.failing job kind)) := by
  refine fine.goTo (fun other isIts => ?_) (fun _ isIt => by cases isIt) (fun _ isIt => by cases isIt) fun other isIt => ?_
  · cases isIts
    exact isJob
  · cases isIt
    exact deferring rfl

theorem stage_goTo (s : JournalSystem) (consolidator : ℕ) (stage : Stage) (other : ℕ) :
    (s.goTo consolidator stage).stage other = if other = consolidator then stage else s.stage other := rfl

theorem HandedFine.begin (fine : HandedFine queue s) {row : QueueJob}
    (isRow : row ∈ s.tables.jobs.rows) (active : row.isActive = true) (claimed : QueueJob)
    (isClaimed : claimed = row.claim (workerId consolidator) now queue.lease) :
    HandedFine queue (({ s with tables := s.tables.putJob claimed }).goTo consolidator (JournalSystem.begin queue claimed)) := by
  subst isClaimed
  have step : TableStep queue ⟨id, id⟩ (FoundNoWorker s.handed) True s.tables _ := .claimed row (workerId consolidator) now isRow active trivial
  have after := fine.tables step
  generalize isNew : row.claim (workerId consolidator) now queue.lease = claimed at after ⊢
  have isId : claimed.id = row.id := isNew ▸ rfl
  have isCount : claimed.claimCount = row.claimCount + 1 := isNew ▸ rfl
  have beginJob : (JournalSystem.begin queue claimed).job = some claimed := by
    unfold JournalSystem.begin
    split_ifs <;> rfl
  have isIn : claimed ∈ (s.tables.putJob claimed).jobs.rows := Keyed.mem_put.mpr (.inl rfl)
  -- no claim before has this generation
  have newer : ∀ other job, (s.stage other).job = some job → ¬(job.id = claimed.id ∧ job.claimCount = claimed.claimCount) := by
    rintro other job isIts ⟨sameId, sameCount⟩
    obtain ⟨found, isFound, -, le⟩ := fine.held other job isIts
    rw [sameId, isId, Keyed.get_self isRow, Option.some.injEq] at isFound
    rw [← isFound] at le
    omega
  refine ⟨after.jobs, after.texts, after.distinct, after.issued, fun other job isIts => ?_, fun a b first second isFirst isSecond sameId sameCount => ?_,
    fun other job isStage => ?_, fun other job isStage => ?_, fun other job isStage => ?_⟩
  · rw [stage_goTo] at isIts
    split_ifs at isIts
    · obtain rfl : claimed = job := Option.some.inj (beginJob.symm.trans isIts)
      exact ⟨claimed, Keyed.get_self isIn, rfl, le_rfl⟩
    · exact after.held other job isIts
  · rw [stage_goTo] at isFirst isSecond
    split_ifs at isFirst isSecond with isA isB isB
    · rw [isA, isB]
    · obtain rfl : claimed = first := Option.some.inj (beginJob.symm.trans isFirst)
      exact absurd ⟨sameId.symm, sameCount.symm⟩ (newer b second isSecond)
    · obtain rfl : claimed = second := Option.some.inj (beginJob.symm.trans isSecond)
      exact absurd ⟨sameId, sameCount⟩ (newer a first isFirst)
    · exact fine.alone a b first second isFirst isSecond sameId sameCount
  · rw [stage_goTo] at isStage
    split_ifs at isStage
    · unfold JournalSystem.begin at isStage
      split_ifs at isStage with atLimit
      cases isStage
      refine ⟨(after.jobs claimed isIn).claimed (isNew ▸ rfl), not_le.mp atLimit, fun handing isHanded sameJob sameCount => ?_⟩
      obtain ⟨found, isFound, le⟩ := fine.issued handing isHanded
      rw [sameJob, isId, Keyed.get_self isRow, Option.some.injEq] at isFound
      rw [← isFound] at le
      omega
    · exact fine.fresh other job isStage
  · rw [stage_goTo] at isStage
    split_ifs at isStage
    · unfold JournalSystem.begin at isStage
      split_ifs at isStage
    · exact fine.handed other job isStage
  · rw [stage_goTo] at isStage
    split_ifs at isStage
    · unfold JournalSystem.begin at isStage
      split_ifs at isStage
    · exact fine.deferring other job isStage

theorem Counted.mono {handed handed' : List Handing} {jobId generation attempts deferrals : ℕ}
    (more : ∀ jobId generation, unavailableBefore handed jobId generation ≤ unavailableBefore handed' jobId generation)
    (counted : Counted handed jobId generation attempts deferrals) : Counted handed' jobId generation attempts deferrals :=
  ⟨counted.sum, counted.deferred.trans (more jobId generation)⟩

theorem HandedFine.hand (fine : HandedFine queue s) (isClaimed : s.stage consolidator = .claimed job) :
    HandedFine queue ((s.hand job).goTo consolidator (.extracting job)) := by
  obtain ⟨counted, below, isNew⟩ := fine.fresh consolidator job isClaimed
  have isHeld : (s.stage consolidator).job = some job := by
    rw [isClaimed]
    rfl
  obtain ⟨row, found, sameEntry, le⟩ := fine.held consolidator job isHeld
  have more : ∀ jobId generation, unavailableBefore s.handed jobId generation ≤ unavailableBefore (s.hand job).handed jobId generation := by
    intro jobId generation
    unfold unavailableBefore JournalSystem.hand
    rw [countP_append]
    exact Nat.le_add_right _ _
  have members : ∀ handing ∈ (s.hand job).handed, handing ∈ s.handed ∨ handing = ⟨job.id, job.claimCount, job.attempts, job.deferrals, false⟩ := by
    intro handing isHanded
    rcases mem_append.mp isHanded with isOld | isLast
    · exact .inl isOld
    · exact .inr (mem_singleton.mp isLast)
  refine ⟨fun row isRow => ?_, fun handing isHanded => ?_, ?_, fun handing isHanded => ?_, fun other held isIts => ?_,
    fun a b first second isFirst isSecond => ?_, fun other claimed isStage => ?_, fun other held isStage => ?_, fun other held isStage => ?_⟩
  · exact ⟨fun isQueued => ((fine.jobs row isRow).queued isQueued).mono more, fun isIt => ((fine.jobs row isRow).claimed isIt).mono more⟩
  · rcases members handing isHanded with isOld | rfl
    · exact ⟨(fine.texts handing isOld).1.mono more, (fine.texts handing isOld).2⟩
    · exact ⟨counted.mono more, below⟩
  · show ((s.handed ++ [_]).map _).Nodup
    rw [map_append, nodup_append]
    refine ⟨fine.distinct, nodup_singleton _, fun key isOld other isLast same => ?_⟩
    obtain ⟨handing, isHanded, rfl⟩ := mem_map.mp isOld
    rw [map_singleton, mem_singleton] at isLast
    have both := Prod.mk.inj (same.trans isLast)
    exact isNew handing isHanded both.1 both.2
  · rcases members handing isHanded with isOld | rfl
    · exact fine.issued handing isOld
    · exact ⟨row, found, le⟩
  · rw [stage_goTo] at isIts
    split_ifs at isIts with isIt
    · cases isIts
      exact ⟨row, found, sameEntry, le⟩
    · exact fine.held other held isIts
  · rw [stage_goTo] at isFirst isSecond
    have stageJob : ∀ c held, (if c = consolidator then Stage.extracting job else s.stage c).job = some held → (s.stage c).job = some held := by
      intro c held isIts
      split_ifs at isIts with isIt
      · cases isIts
        rw [isIt]
        exact isHeld
      · exact isIts
    exact fine.alone a b first second (stageJob a first isFirst) (stageJob b second isSecond)
  · rw [stage_goTo] at isStage
    split_ifs at isStage with isIt
    obtain ⟨otherCounted, otherBelow, otherNew⟩ := fine.fresh other claimed isStage
    refine ⟨otherCounted.mono more, otherBelow, fun handing isHanded sameJob sameCount => ?_⟩
    rcases members handing isHanded with isOld | rfl
    · exact otherNew handing isOld sameJob sameCount
    · refine isIt (fine.alone other consolidator claimed job ?_ isHeld sameJob.symm sameCount.symm)
      exact congrArg Stage.job isStage
  · rw [stage_goTo] at isStage
    split_ifs at isStage with isIt
    · cases isStage
      exact ⟨_, mem_append_right _ (mem_singleton_self _), rfl, rfl⟩
    · obtain ⟨handing, isHanded, isIts⟩ := fine.handed other held isStage
      exact ⟨handing, mem_append_left _ isHanded, isIts⟩
  · rw [stage_goTo] at isStage
    split_ifs at isStage with isIt
    obtain ⟨handing, isHanded, isIts⟩ := fine.deferring other held isStage
    exact ⟨handing, mem_append_left _ isHanded, isIts⟩

theorem markUnavailable_same (job : QueueJob) (handing : Handing) :
    (JournalSystem.markUnavailable job handing).jobId = handing.jobId ∧
      (JournalSystem.markUnavailable job handing).generation = handing.generation ∧
      (JournalSystem.markUnavailable job handing).attempts = handing.attempts ∧
      (JournalSystem.markUnavailable job handing).deferrals = handing.deferrals ∧
      (handing.unavailable = true → (JournalSystem.markUnavailable job handing).unavailable = true) := by
  unfold JournalSystem.markUnavailable
  split_ifs
  · exact ⟨rfl, rfl, rfl, rfl, fun _ => rfl⟩
  · exact ⟨rfl, rfl, rfl, rfl, fun unavailable => unavailable⟩

theorem HandedFine.markUnavailable (fine : HandedFine queue s) (job : QueueJob) :
    HandedFine queue { s with handed := s.handed.map (JournalSystem.markUnavailable job) } := by
  have more : ∀ jobId generation, unavailableBefore s.handed jobId generation ≤
      unavailableBefore (s.handed.map (JournalSystem.markUnavailable job)) jobId generation := by
    intro jobId generation
    unfold unavailableBefore
    rw [countP_map]
    refine countP_mono_left fun handing _ isIt => ?_
    obtain ⟨sameJob, sameGeneration, -, -, stays⟩ := markUnavailable_same job handing
    rw [Bool.and_eq_true] at isIt
    rw [Function.comp_apply, sameJob, sameGeneration, Bool.and_eq_true]
    exact ⟨isIt.1, stays isIt.2⟩
  refine ⟨fun row isRow => ?_, fun handing isHanded => ?_, ?_, fun handing isHanded => ?_, fine.held, fine.alone, fun other claimed isStage => ?_,
    fun other held isStage => ?_, fun other held isStage => ?_⟩
  · exact ⟨fun isQueued => ((fine.jobs row isRow).queued isQueued).mono more, fun isIt => ((fine.jobs row isRow).claimed isIt).mono more⟩
  · obtain ⟨before, isBefore, rfl⟩ := mem_map.mp isHanded
    obtain ⟨sameJob, sameGeneration, sameAttempts, sameDeferrals, -⟩ := markUnavailable_same job before
    rw [sameJob, sameGeneration, sameAttempts, sameDeferrals]
    exact ⟨(fine.texts before isBefore).1.mono more, (fine.texts before isBefore).2⟩
  · show ((s.handed.map (JournalSystem.markUnavailable job)).map fun handing => (handing.jobId, handing.generation)).Nodup
    rw [map_map]
    have same : (fun handing : Handing => (handing.jobId, handing.generation)) ∘ JournalSystem.markUnavailable job =
        fun handing => (handing.jobId, handing.generation) := by
      funext handing
      obtain ⟨sameJob, sameGeneration, -⟩ := markUnavailable_same job handing
      rw [Function.comp_apply, sameJob, sameGeneration]
    rw [same]
    exact fine.distinct
  · obtain ⟨before, isBefore, rfl⟩ := mem_map.mp isHanded
    obtain ⟨sameJob, sameGeneration, -⟩ := markUnavailable_same job before
    rw [sameJob, sameGeneration]
    exact fine.issued before isBefore
  · obtain ⟨counted, below, isNew⟩ := fine.fresh other claimed isStage
    refine ⟨counted.mono more, below, fun handing isHanded => ?_⟩
    obtain ⟨before, isBefore, rfl⟩ := mem_map.mp isHanded
    obtain ⟨sameJob, sameGeneration, -⟩ := markUnavailable_same job before
    rw [sameJob, sameGeneration]
    exact isNew before isBefore
  · obtain ⟨handing, isHanded, isIts, isLast⟩ := fine.handed other held isStage
    obtain ⟨sameJob, sameGeneration, -⟩ := markUnavailable_same job handing
    exact ⟨_, mem_map_of_mem isHanded, sameJob.trans isIts, sameGeneration.trans isLast⟩
  · obtain ⟨handing, isHanded, isIts, isLast, unavailable⟩ := fine.deferring other held isStage
    obtain ⟨sameJob, sameGeneration, -, -, stays⟩ := markUnavailable_same job handing
    exact ⟨_, mem_map_of_mem isHanded, sameJob.trans isIts, sameGeneration.trans isLast, stays unavailable⟩

theorem foundNoWorker_of_mark {handed : List Handing}
    (isHanded : ∃ handing ∈ handed, handing.jobId = job.id ∧ handing.generation = job.claimCount) :
    FoundNoWorker (handed.map (JournalSystem.markUnavailable job)) job := by
  obtain ⟨handing, isIn, isIts, isLast⟩ := isHanded
  refine ⟨_, mem_map_of_mem isIn, ?_⟩
  unfold JournalSystem.markUnavailable
  rw [if_pos ⟨isIts, isLast⟩]
  exact ⟨isIts, isLast, rfl⟩

theorem HandedFine.after {α : Type} (fine : HandedFine queue s) {done : Except JournalError (α × JournalTables)}
    (step : ∀ a t, done = .ok (a, t) → TableStep queue fold (FoundNoWorker s.handed) claiming s.tables t) :
    HandedFine queue (s.after done) ∧ TableStep queue fold (FoundNoWorker s.handed) claiming s.tables (s.after done).tables := by
  cases isDone : done with
  | error error => exact ⟨fine, .same⟩
  | ok reply =>
    obtain ⟨a, t⟩ := reply
    exact ⟨fine.tables (step a t isDone), step a t isDone⟩

theorem fail_step (fine : HandedFine queue s) {kind : FailureKind} (isFailing : s.stage consolidator = .failing job kind)
    {failed : QueueJob}
    (done : s.tables.fail queue (JournalSystem.holdOf workerId consolidator job) kind judgedAt now = .ok (failed, t)) :
    TableStep queue fold (FoundNoWorker s.handed) claiming s.tables t := by
  obtain ⟨row, isRow, isId, isHeld, isNew, rfl⟩ := fail_eq_ok done
  obtain ⟨isClaimed, -, sameCount, -⟩ := isHeldBy_iff.mp isHeld
  refine .failed row failed kind now isRow isClaimed isNew fun isUnavailable => ?_
  rw [isUnavailable] at isFailing
  obtain ⟨handing, isHanded, isIts, isLast, unavailable⟩ := fine.deferring consolidator job isFailing
  exact ⟨handing, isHanded, isIts.trans isId.symm, isLast.trans sameCount.symm, unavailable⟩

theorem applying_step (fine : HandedFine queue s) {items : List WorkerMemory} (isApplying : s.stage consolidator = .applying job items)
    {given : ℕ → Given}
    (done : s.tables.apply fold (JournalSystem.holdOf workerId consolidator job) job.entryId items given judgedAt now = .ok t) :
    TableStep queue fold (FoundNoWorker s.handed) claiming s.tables t := by
  refine apply_step done fun row found => ?_
  obtain ⟨held, foundHeld, sameEntry, -⟩ := fine.held consolidator job (isApplying ▸ rfl)
  have foundRow : s.tables.jobs.get job.id = some row := found
  rw [foundRow, Option.some.injEq] at foundHeld
  exact foundHeld ▸ sameEntry

theorem commit_fine (fine : HandedFine queue s) {given : ℕ → Given}
    (taken : s.commit queue fold workerId consolidator given judgedAt now = some s') :
    HandedFine queue s' ∧ TableStep queue fold (FoundNoWorker s.handed) claiming s.tables s'.tables := by
  unfold JournalSystem.commit at taken
  cases stage : s.stage consolidator with
  | idle | claimed | extracting =>
    rw [stage] at taken
    cases taken
  | applying job items =>
    have isHeld : (s.stage consolidator).job = some job := stage ▸ rfl
    simp only [stage] at taken
    cases done : s.tables.apply fold (JournalSystem.holdOf workerId consolidator job) job.entryId items given judgedAt now with
    | ok t =>
      simp only [done, Option.some.injEq] at taken
      subst taken
      have step : TableStep queue fold (FoundNoWorker s.handed) claiming s.tables t := applying_step fine stage done
      exact ⟨(fine.tables step).idle consolidator, step⟩
    | error error =>
      have failing : HandedFine queue (s.goTo consolidator (.failing job .applyFailed)) := fine.failing isHeld fun isIt => by cases isIt
      cases error with
      | leaseLost =>
        simp only [done, Option.some.injEq] at taken
        subst taken
        exact ⟨fine.idle consolidator, .same⟩
      | invalidInput | entryNotFound | entryNotPending | database =>
        simp only [done, Option.some.injEq] at taken
        subst taken
        exact ⟨failing, .same⟩
  | failing job kind =>
    simp only [stage, Option.some.injEq] at taken
    subst taken
    suffices after : HandedFine queue (s.after (s.tables.fail queue (JournalSystem.holdOf workerId consolidator job) kind judgedAt now)) ∧
        TableStep queue fold (FoundNoWorker s.handed) claiming s.tables (s.after _).tables from ⟨after.1.idle consolidator, after.2⟩
    exact fine.after fun _ _ done => fail_step fine stage done
  | deadLettering job =>
    simp only [stage, Option.some.injEq] at taken
    subst taken
    suffices after : HandedFine queue (s.after (s.tables.deadLetter (JournalSystem.holdOf workerId consolidator job) judgedAt now)) ∧
        TableStep queue fold (FoundNoWorker s.handed) claiming s.tables (s.after _).tables from ⟨after.1.idle consolidator, after.2⟩
    exact fine.after fun _ _ done => deadLetter_step done

def JournalEvent.isClaim : JournalEvent → Prop
  | .claim _ _ _ _ => True
  | _ => False

theorem step_fine (fine : HandedFine queue s) {event : JournalEvent} (taken : s.step queue fold workerId event = some s') :
    HandedFine queue s' ∧ TableStep queue fold (FoundNoWorker s.handed) event.isClaim s.tables s'.tables := by
  cases event with
  | record entryId context priority newId now =>
    cases taken
    exact fine.after fun _ _ done => record_step done
  | enqueue entryId priority newId now =>
    cases taken
    exact fine.after fun _ _ done => enqueue_step done
  | heartbeat hold judgedAt now =>
    cases taken
    exact fine.after fun _ _ done => heartbeat_step done
  | claim consolidator judgedAt now hidden =>
    simp only [JournalSystem.step] at taken
    cases stage : s.stage consolidator <;> simp only [stage, reduceCtorEq, Option.some.injEq] at taken
    subst taken
    unfold JournalSystem.claim
    cases done : s.tables.claimNext queue (workerId consolidator) judgedAt now hidden with
    | error error => exact ⟨fine, .same⟩
    | ok reply =>
      obtain ⟨none | claimed, t⟩ := reply
      · exact ⟨fine, .same⟩
      · obtain ⟨row, isRow, active, isClaimed, rfl⟩ := claimNext_eq_ok done
        refine ⟨fine.begin isRow active claimed isClaimed, ?_⟩
        rw [isClaimed]
        exact .claimed row (workerId consolidator) now isRow active trivial
  | read consolidator =>
    simp only [JournalSystem.step] at taken
    cases stage : s.stage consolidator <;> simp only [stage, reduceCtorEq, Option.some.injEq] at taken
    rename_i job
    subst taken
    unfold JournalSystem.read
    cases s.tables.entries.get job.entryId with
    | none => exact ⟨fine.idle consolidator, .same⟩
    | some entry =>
      cases state : entry.state with
      | consolidated =>
        simp only [state]
        exact ⟨fine.applying (stage ▸ rfl) [], .same⟩
      | pending =>
        simp only [state]
        exact ⟨fine.hand stage, .same⟩
  | extracted consolidator output =>
    simp only [JournalSystem.step] at taken
    cases stage : s.stage consolidator <;> simp only [stage, reduceCtorEq, Option.some.injEq] at taken
    rename_i job
    subst taken
    have isHeld : (s.stage consolidator).job = some job := stage ▸ rfl
    unfold JournalSystem.extracted
    cases output with
    | ok items => exact ⟨fine.applying isHeld items, .same⟩
    | error kind =>
      cases kind with
      | workerUnavailable =>
        exact ⟨(fine.markUnavailable job).failing isHeld fun _ => foundNoWorker_of_mark (fine.handed consolidator job stage), .same⟩
      | workerTimeout | workerError | workerOutputInvalid | applyFailed =>
        exact ⟨fine.failing isHeld (fun isIt => by cases isIt), .same⟩
  | commit consolidator given judgedAt now => exact commit_fine fine taken
  | rolledBack consolidator =>
    simp only [JournalSystem.step, Option.some.injEq] at taken
    subst taken
    unfold JournalSystem.rolledBack
    cases stage : s.stage consolidator with
    | applying job items => exact ⟨fine.failing (stage ▸ rfl) (fun isIt => by cases isIt), .same⟩
    | idle | claimed | extracting | failing | deadLettering => exact ⟨fine.idle consolidator, .same⟩
  | stop consolidator =>
    simp only [JournalSystem.step, Option.some.injEq] at taken
    subst taken
    exact ⟨fine.idle consolidator, .same⟩

/-- What holds in every reachable state. -/
structure JournalFine (queue : ConsolidationQueue) (s : JournalSystem) : Prop where
  oneActive : OneActive s.tables
  entries : EntriesFine s.tables
  handed : HandedFine queue s

theorem reachable_fine (reach : (journalMachine queue fold workerId).Reachable s) : JournalFine queue s := by
  refine reach.invariant (P := JournalFine queue) (fun start init => ?_) fun s event s' _ fine taken => ?_
  · obtain ⟨noJobs, noEntries, noApplied, noHanded, allIdle⟩ := init
    have jobsOf : ∀ job, job ∉ start.tables.jobs.rows := by
      intro job
      rw [noJobs]
      exact not_mem_nil
    have entriesOf : ∀ entry, entry ∉ start.tables.entries.rows := by
      intro entry
      rw [noEntries]
      exact not_mem_nil
    have handedOf : ∀ handing, handing ∉ start.handed := by
      intro handing
      rw [noHanded]
      exact not_mem_nil
    refine ⟨fun job isJob => absurd isJob (jobsOf job), ⟨fun entry isEntry => absurd isEntry (entriesOf entry), ?_, ?_,
      fun entry isEntry => absurd isEntry (entriesOf entry)⟩, fun job isJob => absurd isJob (jobsOf job),
      fun handing isHanded => absurd isHanded (handedOf handing), ?_, fun handing isHanded => absurd isHanded (handedOf handing),
      fun c job isIts => ?_, fun a b first second isFirst => ?_, fun c job isIts => ?_, fun c job isIts => ?_, fun c job isIts => ?_⟩
    · rw [noApplied]
      exact nodup_nil
    · rw [noApplied]
      exact fun id isApplied => absurd isApplied not_mem_nil
    · rw [noHanded]
      exact nodup_nil
    · rw [allIdle] at isIts
      cases isIts
    · rw [allIdle] at isFirst
      cases isFirst
    · rw [allIdle] at isIts
      cases isIts
    · rw [allIdle] at isIts
      cases isIts
    · rw [allIdle] at isIts
      cases isIts
  · obtain ⟨handed, step⟩ := step_fine fine.handed taken
    exact ⟨step.jobs.oneActive fine.oneActive, step.entriesFine fine.entries, handed⟩

structure ExactlyOnce (queue : ConsolidationQueue) (fold : Folding) (workerId : ℕ → Text) (s : JournalSystem) : Prop where
  once : s.tables.applied.Nodup
  consolidated : ∀ entry ∈ s.tables.entries.rows, entry.id ∈ s.tables.applied ↔ entry.state = .consolidated
  /-- and a step changes the memories only by applying the output of a pending entry, with its completion. -/
  together : ∀ event s', s.step queue fold workerId event = some s' →
    s'.tables.journal = s.tables.journal ∧ s'.tables.applied = s.tables.applied ∨
    ∃ (job : QueueJob) (entry : JournalEntry) (items : List WorkerMemory) (given : ℕ → Given) (results : ℕ → ItemResult) (later : QueueJob),
      s.tables.entries.get job.entryId = some entry ∧ entry.state = .pending ∧
      s.tables.journal.applyItems fold entry.context items given = .ok (s'.tables.journal, results) ∧
      s'.tables.applied = s.tables.applied ++ [entry.id] ∧
      s'.tables.entries.get entry.id = some { entry with state := .consolidated } ∧
      s'.tables.jobs.get job.id = some later ∧ later.status = .completed
  fenced : ∀ hold judgedAt now, (∀ job, s.tables.jobs.get hold.jobId = some job →
      ¬(job.status = .claimed ∧ job.claimedBy = some hold.workerId ∧ job.claimCount = hold.claimCount ∧
        ∃ expires, job.leaseExpiresAt = some expires ∧ judgedAt < expires)) →
    (∃ error, s.tables.heartbeat queue hold judgedAt now = .error error) ∧
    (∀ kind, ∃ error, s.tables.fail queue hold kind judgedAt now = .error error) ∧
    (∃ error, s.tables.deadLetter hold judgedAt now = .error error) ∧
    ∀ entryId items given, ∃ error, s.tables.apply fold hold entryId items given judgedAt now = .error error
  oneActive : ∀ a ∈ s.tables.jobs.rows, ∀ b ∈ s.tables.jobs.rows, a.isActive = true → b.isActive = true → a.entryId = b.entryId → a = b
  /-- A pending entry has an active job, or a dead one in whose place `enqueue` puts a new one. -/
  waits : ∀ entry ∈ s.tables.entries.rows, entry.state = .pending →
    (∃ job ∈ s.tables.jobs.rows, job.entryId = entry.id ∧ job.isActive = true) ∨
    (∃ job ∈ s.tables.jobs.rows, job.entryId = entry.id ∧ job.status = .dead) ∧
      ∀ priority newId now, s.tables.jobs.get newId = none →
        ∃ job t, s.tables.enqueue entry.id priority newId now = .ok (job, t) ∧ job ∈ t.jobs.rows ∧ job.entryId = entry.id ∧
          job.isActive = true
  claims : ∀ worker judgedAt now hidden claimed t, s.tables.claimNext queue worker judgedAt now hidden = .ok (some claimed, t) →
    ∃ job, s.tables.jobs.get claimed.id = some job ∧ claimed.claimCount = job.claimCount + 1 ∧
      ∀ id, t.jobs.get id = if id = claimed.id then some claimed else s.tables.jobs.get id
  /-- nothing else changes it, and attempts and deferrals never decrease. -/
  counts : ∀ event s', s.step queue fold workerId event = some s' → ∀ id job, s.tables.jobs.get id = some job →
    ∃ later, s'.tables.jobs.get id = some later ∧ job.attempts ≤ later.attempts ∧ job.deferrals ≤ later.deferrals ∧
      (later.claimCount = job.claimCount ∨ event.isClaim ∧ later.claimCount = job.claimCount + 1)
  handed : ∀ jobId, (s.handed.countP fun handing => decide (handing.jobId = jobId) && !handing.unavailable) ≤ queue.maxAttempts

theorem TableStep.together {deferrable : QueueJob → Prop} {t' : JournalTables} (step : TableStep queue fold deferrable claiming t t') :
    t'.journal = t.journal ∧ t'.applied = t.applied ∨
    ∃ (job : QueueJob) (entry : JournalEntry) (items : List WorkerMemory) (given : ℕ → Given) (results : ℕ → ItemResult) (later : QueueJob),
      t.entries.get job.entryId = some entry ∧ entry.state = .pending ∧
      t.journal.applyItems fold entry.context items given = .ok (t'.journal, results) ∧ t'.applied = t.applied ++ [entry.id] ∧
      t'.entries.get entry.id = some { entry with state := .consolidated } ∧
      t'.jobs.get job.id = some later ∧ later.status = .completed := by
  cases step with
  | applied job entry items given now isJob held found pending done =>
    refine .inr ⟨job, entry, items, given, _, job.complete now, found, pending, done, rfl, ?_, ?_, rfl⟩
    · exact (Keyed.get_put t.entries { entry with state := .consolidated } entry.id).trans (if_pos rfl)
    · exact (Keyed.get_put t.jobs (job.complete now) job.id).trans (if_pos rfl)
  | same | recorded | added | claimed | extended | failed | buried | completed => exact .inl ⟨rfl, rfl⟩

theorem fenced_of_stale {hold : Hold} (lost : t.lockHeld hold judgedAt = .error .leaseLost) (now : Instant) :
    (∃ error, t.heartbeat queue hold judgedAt now = .error error) ∧
    (∀ kind, ∃ error, t.fail queue hold kind judgedAt now = .error error) ∧
    (∃ error, t.deadLetter hold judgedAt now = .error error) ∧
    ∀ entryId items given, ∃ error, t.apply fold hold entryId items given judgedAt now = .error error := by
  refine ⟨?_, fun kind => ?_, ?_, fun entryId items given => ?_⟩
  · unfold JournalTables.heartbeat
    rw [lost]
    cases validateHold hold with
    | error error => exact ⟨error, rfl⟩
    | ok passed => exact ⟨.leaseLost, rfl⟩
  · unfold JournalTables.fail
    rw [lost]
    cases validateHold hold with
    | error error => exact ⟨error, rfl⟩
    | ok passed => exact ⟨.leaseLost, rfl⟩
  · unfold JournalTables.deadLetter
    rw [lost]
    cases validateHold hold with
    | error error => exact ⟨error, rfl⟩
    | ok passed => exact ⟨.leaseLost, rfl⟩
  · unfold JournalTables.apply
    rw [lost]
    exact ⟨.leaseLost, rfl⟩

theorem enqueue_of_pending {entry : JournalEntry} (isEntry : entry ∈ t.entries.rows) (pending : entry.state = .pending)
    (noActive : t.activeJob entry.id = none) (priority : Priority) {newId : ℕ} (now : Instant) (fresh : t.jobs.get newId = none) :
    ∃ job t', t.enqueue entry.id priority newId now = .ok (job, t') ∧ job ∈ t'.jobs.rows ∧ job.entryId = entry.id ∧ job.isActive = true := by
  let job : QueueJob := { id := newId, entryId := entry.id, priority := priority, enqueuedAt := now, availableAt := now }
  have inserted : t.jobs.tryInsert job = some (t.jobs.insert job fresh) := dif_pos fresh
  refine ⟨job, { t with jobs := t.jobs.insert job fresh }, ?_, mem_append_right _ (mem_singleton_self _), rfl, rfl⟩
  have found : t.entries.get entry.id = some entry := Keyed.get_self isEntry
  simp only [JournalTables.enqueue, JournalTables.insertJob, bind_eq_ok, orThrow_eq_ok, check_eq_ok, noActive]
  exact ⟨entry, found, fun other => other pending, t.jobs.insert job fresh, inserted, rfl⟩

/-- An entry is consolidated exactly once, in any interleaving of the consolidators. -/
theorem consolidated_exactly_once (queue : ConsolidationQueue) (fold : Folding) (workerId : ℕ → Text) (s : JournalSystem)
    (reach : (journalMachine queue fold workerId).Reachable s) : ExactlyOnce queue fold workerId s := by
  have fine := reachable_fine reach
  refine ⟨fine.entries.once, fine.entries.applied, fun event s' taken => (step_fine fine.handed taken).2.together,
    fun hold judgedAt now stale => ?_, fine.oneActive, fun entry isEntry pending => ?_,
    fun worker judgedAt now hidden claimed t done => ?_, fun event s' taken id job found => ?_,
    countP_handed_le fine.handed.distinct fine.handed.texts⟩
  · exact fenced_of_stale (lockHeld_of_stale fun job found isHeld => stale job found (isHeldBy_iff.mp isHeld)) now
  · cases active : s.tables.activeJob entry.id with
    | some job => exact .inl (activeJob_ne_none (active ▸ Option.some_ne_none job))
    | none =>
      obtain ⟨job, isJob, isIts, notCompleted⟩ := fine.entries.waits entry isEntry pending
      refine .inr ⟨⟨job, isJob, isIts, ?_⟩, fun priority newId now fresh => enqueue_of_pending isEntry pending active priority now fresh⟩
      have inactive := activeJob_eq_none active job isJob isIts
      unfold QueueJob.isActive at inactive
      rw [decide_eq_false_iff_not, not_or] at inactive
      cases status : job.status with
      | dead => rfl
      | completed => exact absurd status notCompleted
      | queued => exact absurd status inactive.1
      | claimed => exact absurd status inactive.2
  · obtain ⟨job, isJob, -, isClaimed, rfl⟩ := claimNext_eq_ok done
    refine ⟨job, ?_, isClaimed ▸ rfl, fun id => Keyed.get_put s.tables.jobs claimed id⟩
    rw [isClaimed]
    exact Keyed.get_self isJob
  · obtain ⟨later, foundLater, follows⟩ := (step_fine fine.handed taken).2.jobs.forward found
    exact ⟨later, foundLater, follows.attempts, follows.deferrals, follows.claimCount⟩

end Runs

def minuteConsolidation : ConsolidationQueue := ⟨60, 2, {}, ⟨by omega, by omega⟩, ⟨by omega, by omega⟩⟩

/-- Nothing is recorded yet. -/
def quietJournal : JournalSystem := ⟨⟨.empty, .empty, ⟨MemoryDb.empty, .empty, []⟩, []⟩, fun _ => .idle, []⟩

/-- A consolidator claims a job and is away when its lease ends; another one applies the output; the first comes back too late. -/
def lateConsolidator : List JournalEvent :=
  [.record 5 ⟨⟨1, 1, 0⟩, 8, 7⟩ .normal 1 0, .claim 0 0 0 fun _ => false, .read 0, .claim 1 (61 * 10 ^ 6) (61 * 10 ^ 6) fun _ => false,
   .read 1, .extracted 1 (.ok []), .commit 1 (fun _ => ⟨9, 9, 0⟩) (62 * 10 ^ 6) (62 * 10 ^ 6), .extracted 0 (.ok []),
   .commit 0 (fun _ => ⟨9, 9, 0⟩) (63 * 10 ^ 6) (63 * 10 ^ 6)]

/-- Where that leads to. -/
def lateEnd : JournalSystem :=
  ((journalMachine minuteConsolidation ⟨id, id⟩ fun _ => [119]).run quietJournal lateConsolidator).getD quietJournal

theorem lateConsolidator_once :
    ((lateEnd.tables.jobs.get 1).map fun job => (job.status, job.attempts, job.claimCount)) = some (.completed, 1, 2) ∧
      lateEnd.tables.applied = [5] ∧ lateEnd.handed.length = 2 ∧ ExactlyOnce minuteConsolidation ⟨id, id⟩ (fun _ => [119]) lateEnd := by
  refine ⟨by decide, by decide, by decide, consolidated_exactly_once _ _ _ _ ?_⟩
  have start : (journalMachine minuteConsolidation ⟨id, id⟩ fun _ => [119]).Reachable quietJournal :=
    .start ⟨rfl, rfl, rfl, rfl, fun _ => rfl⟩
  have ran : ((journalMachine minuteConsolidation ⟨id, id⟩ fun _ => [119]).run quietJournal lateConsolidator).isSome = true := by
    decide
  obtain ⟨s, isEnd⟩ := Option.isSome_iff_exists.mp ran
  have sameEnd : lateEnd = s := by
    unfold lateEnd
    rw [isEnd]
    rfl
  exact sameEnd ▸ start.run isEnd

end PawBackend.Memory
