/-
**Steps and tool calls never outlive their run** (`tasks/service.py`: `begin_step`, `finish_step`, the
tool calls, and the commands that close a step).

A running step is the last one of the current attempt, so the commands that look at the latest step find it.
-/

import PawBackend.Tasks.Calls

namespace PawBackend.Tasks

open Lib
open Tools (Uuid Instant TaskRun)

/-! ### The latest step -/

variable {row step : TaskStepRow} {db after : TaskDb} {t : TaskTrace} {task : TaskRow} {moment : Moment} {stepId : ℤ}
  {env : Surroundings}

theorem foldl_laterStep_mem {l : List TaskStepRow} {latest : Option TaskStepRow}
    (found : l.foldl TaskDb.laterStep latest = some row) : row ∈ l ∨ latest = some row := by
  induction l generalizing latest with
  | nil => exact .inr found
  | cons first rest ih =>
    rcases ih found with mem | isLatest
    · exact .inl (List.mem_cons_of_mem _ mem)
    · unfold TaskDb.laterStep at isLatest
      cases latest with
      | none => exact .inl (by rw [Option.some.inj isLatest]; exact List.mem_cons_self)
      | some latest =>
        dsimp only at isLatest
        split_ifs at isLatest
        · exact .inl (by rw [Option.some.inj isLatest]; exact List.mem_cons_self)
        · exact .inr isLatest

theorem foldl_laterStep_ge {l : List TaskStepRow} {latest : Option TaskStepRow} (mem : row ∈ l ∨ latest = some row) :
    ∃ last, l.foldl TaskDb.laterStep latest = some last ∧ row.sequence ≤ last.sequence := by
  induction l generalizing latest row with
  | nil => exact ⟨row, by simpa using mem, le_refl _⟩
  | cons first rest ih =>
    rw [List.foldl_cons]
    by_cases later : row ∈ rest
    · exact ih (.inl later)
    -- The one that is kept of `first` and `latest` is at least as late as both.
    have kept : ∃ mid, TaskDb.laterStep latest first = some mid ∧ row.sequence ≤ mid.sequence := by
      have choice : row = first ∨ latest = some row := by
        rcases mem with mem | isLatest
        · exact .inl ((List.mem_cons.mp mem).resolve_right later)
        · exact .inr isLatest
      unfold TaskDb.laterStep
      rcases choice with rfl | rfl
      · cases latest with
        | none => exact ⟨row, rfl, le_refl _⟩
        | some latest =>
          dsimp only
          split_ifs with behind
          · exact ⟨row, rfl, le_refl _⟩
          · exact ⟨latest, rfl, not_lt.mp behind⟩
      · dsimp only
        split_ifs with behind
        · exact ⟨first, rfl, le_of_lt behind⟩
        · exact ⟨row, rfl, le_refl _⟩
    obtain ⟨mid, isMid, below⟩ := kept
    obtain ⟨last, isLast, above⟩ := @ih mid (TaskDb.laterStep latest first) (.inr isMid)
    exact ⟨last, isLast, below.trans above⟩

theorem latestStep_mem {attempt : ℕ}
    (found : db.latestStep attempt = some row) : row ∈ db.steps.rows ∧ row.attempt = attempt := by
  rcases foldl_laterStep_mem found with mem | none
  · rw [List.mem_filter] at mem
    exact ⟨mem.1, of_decide_eq_true mem.2⟩
  · cases none

theorem le_latestStep (mem : row ∈ db.steps.rows) :
    ∃ last, db.latestStep row.attempt = some last ∧ row.sequence ≤ last.sequence :=
  foldl_laterStep_ge (.inl (List.mem_filter.mpr ⟨mem, decide_eq_true rfl⟩))

/-! ### The invariant -/

def Moment.began (moment : Moment) (stepId : ℤ) (attempt retryCount : ℕ) : Prop :=
  ∃ name run row, moment.call = .beginStep name run ∧ moment.answer = .ok (.step row) ∧ row.id = stepId ∧
    run.attempt = attempt ∧ run.retryCount = retryCount

def mayRun (state : TaskState) : Prop := state ≠ .queued ∧ state ≠ .completed ∧ state ≠ .failed

structure Attended (t : TaskTrace) : Prop where
  running : ∀ step ∈ t.db.steps.rows, step.status = .running → ∃ task, t.db.task = some task ∧
    step.attempt = task.attempt ∧ mayRun task.state ∧
    (∃ moment ∈ t.past, moment.began step.id task.attempt task.retryCount) ∧
    ∀ other ∈ t.db.steps.rows, other.attempt = step.attempt → other ≠ step → other.sequence < step.sequence
  started : ∀ call ∈ t.db.invocations.rows, call.status = .started →
    ∃ step, t.db.steps.get call.stepId = some step ∧ step.status = .running

theorem Attended.latest (attended : Attended t) (found : t.db.task = some task) (mem : step ∈ t.db.steps.rows)
    (running : step.status = .running) : t.db.latestStep task.attempt = some step := by
  obtain ⟨row, isRow, current, -, -, last⟩ := attended.running step mem running
  rw [found, Option.some.injEq] at isRow
  subst isRow
  obtain ⟨latest, isLatest, above⟩ := le_latestStep mem
  rw [current] at isLatest
  obtain ⟨isMember, isAttempt⟩ := latestStep_mem isLatest
  by_cases same : latest = step
  · rw [isLatest, same]
  · have below := last latest isMember (isAttempt.trans current.symm) same
    omega

theorem Attended.of_same (attended : Attended t)
    (task : ∀ row, t.db.task = some row → ∃ row', after.task = some row' ∧ row'.attempt = row.attempt ∧
      row'.retryCount = row.retryCount ∧ (mayRun row.state → mayRun row'.state))
    (steps : after.steps = t.db.steps) (invocations : after.invocations = t.db.invocations) :
    Attended ⟨after, moment :: t.past⟩ where
  running := by
    intro step mem running
    replace mem : step ∈ after.steps.rows := mem
    rw [steps] at mem
    obtain ⟨row, isRow, current, may, ⟨first, earlier, began⟩, last⟩ :=
      attended.running step mem running
    obtain ⟨row', isRow', attempt, retryCount, mayToo⟩ := task row isRow
    refine ⟨row', isRow', by rw [current, attempt], mayToo may, ?_, ?_⟩
    · rw [attempt, retryCount]
      exact ⟨first, List.mem_cons_of_mem _ earlier, began⟩
    · show ∀ other ∈ after.steps.rows, _
      rw [steps]
      exact last
  started := by
    show ∀ call ∈ after.invocations.rows, call.status = .started → ∃ step, after.steps.get call.stepId = some step ∧ _
    rw [steps, invocations]
    exact attended.started

structure Idle (db : TaskDb) : Prop where
  steps : ∀ step ∈ db.steps.rows, step.status ≠ .running
  calls : ∀ call ∈ db.invocations.rows, call.status ≠ .started

theorem Idle.attended (idle : Idle db) (past : List Moment) : Attended ⟨db, past⟩ where
  running := fun step mem running => absurd running (idle.steps step mem)
  started := fun call mem started => absurd started (idle.calls call mem)

theorem Attended.idle (attended : Attended t)
    (none : ∀ step ∈ t.db.steps.rows, step.status ≠ .running) : Idle t.db where
  steps := none
  calls := by
    intro call mem started
    obtain ⟨step, found, running⟩ := attended.started call mem started
    exact none step (Keyed.mem_of_get found) running

theorem Attended.alone (attended : Attended t) {a b : TaskStepRow}
    (first : a ∈ t.db.steps.rows) (runs : a.status = .running) (second : b ∈ t.db.steps.rows)
    (runsToo : b.status = .running) : a = b := by
  obtain ⟨task, found, -⟩ := attended.running a first runs
  have isA := attended.latest found first runs
  have isB := attended.latest found second runsToo
  exact Option.some.inj (isA.symm.trans isB)

theorem Attended.endStep (attended : Attended t)
    (found : t.db.steps.get stepId = some step) (running : step.status = .running) {status : StepStatus}
    (ends : status ≠ .running) (now : Instant) : Idle (t.db.endStep stepId status now) := by
  have isId : step.id = stepId := Keyed.key_of_get found
  have mem := Keyed.mem_of_get found
  constructor
  · intro row isRow
    obtain ⟨old, isOld, rfl⟩ := List.mem_map.mp isRow
    split_ifs with same
    · exact ends
    · intro runs
      refine same (decide_eq_true ?_)
      rw [attended.alone isOld runs mem running, isId]
  · intro row isRow
    obtain ⟨old, isOld, rfl⟩ := List.mem_map.mp isRow
    split_ifs with same
    · simp
    · intro starts
      refine same ?_
      obtain ⟨its, isIts, runs⟩ := attended.started old isOld starts
      have isStep := attended.alone (Keyed.mem_of_get isIts) runs mem running
      have isKey : old.stepId = stepId :=
        ((Keyed.key_of_get isIts).symm.trans (congrArg TaskStepRow.id isStep)).trans isId
      simp [isKey, starts]

/-! ### Every call keeps it -/

theorem attended_beginStep (attended : Attended t) {name : Text} {run : TaskRun} {steps : Keyed TaskStepRow.id}
    (found : t.db.task = some task) (current : run.attempt = task.attempt ∧ run.retryCount = task.retryCount)
    (active : TaskDb.isStepActive task.state = true)
    (alone : ∀ other ∈ t.db.steps.rows, other.attempt = task.attempt →
      other.status ≠ .running ∧ other.sequence ≠ row.sequence)
    (wrote : row.attempt = task.attempt ∧ row.status = .running ∧
      row.sequence = ((t.db.latestStep task.attempt).map TaskStepRow.sequence).getD 0 + 1)
    (added : t.db.steps.tryInsert row = some steps)
    (answered : (⟨t.db, .beginStep name run, env⟩ : Moment).answer = .ok (.step row)) :
    Attended ⟨{ t.db with steps := steps }, ⟨t.db, .beginStep name run, env⟩ :: t.past⟩ := by
  have inserted := Keyed.get_of_tryInsert added
  have others : ∀ other ∈ steps.rows, other ≠ row → other ∈ t.db.steps.rows := by
    intro other mem differs
    have there := Keyed.get_self mem
    rw [inserted] at there
    split_ifs at there
    · exact absurd (Option.some.inj there).symm differs
    · exact Keyed.mem_of_get there
  constructor
  · intro step mem running
    have isRow : step = row := by
      by_contra differs
      have old := others step mem differs
      obtain ⟨task', found', isAttempt, -⟩ := attended.running step old running
      rw [found, Option.some.injEq] at found'
      subst found'
      exact (alone step old isAttempt).1 running
    subst isRow
    refine ⟨task, found, wrote.1, ?_, ?_, ?_⟩
    · rw [TaskDb.isStepActive, decide_eq_true_eq] at active
      rcases active with active | active | active <;> rw [active] <;> simp [mayRun]
    · exact ⟨_, List.mem_cons_self, name, run, step, rfl, answered, rfl, current⟩
    · intro other isOther sameAttempt differs
      obtain ⟨last, isLast, below⟩ := le_latestStep (others other isOther differs)
      rw [sameAttempt, wrote.1] at isLast
      rw [wrote.2.2, isLast, Option.map_some, Option.getD_some]
      exact Int.lt_add_one_of_le below
  · intro call mem started
    obtain ⟨step, isStep, running⟩ := attended.started call mem started
    refine ⟨step, ?_, running⟩
    rw [inserted, if_neg]
    · exact isStep
    · intro same
      have fresh := Keyed.fresh_of_tryInsert added
      rw [← same, isStep] at fresh
      cases fresh

theorem attended_beginTool (attended : Attended t)
    {row : TaskToolInvocationRow} {invocations : Keyed TaskToolInvocationRow.id}
    (there : t.db.steps.get stepId = some step) (running : step.status = .running)
    (wrote : row.stepId = stepId ∧ row.status = .started)
    (added : t.db.invocations.tryInsert row = some invocations) :
    Attended ⟨{ t.db with invocations := invocations }, moment :: t.past⟩ := by
  have frame : Attended ⟨t.db, moment :: t.past⟩ :=
    attended.of_same (fun row found => ⟨row, found, rfl, rfl, id⟩) rfl rfl
  refine ⟨frame.running, ?_⟩
  intro call mem started
  have isCall := Keyed.get_self (t := invocations) mem
  rw [Keyed.get_of_tryInsert added] at isCall
  split_ifs at isCall
  · rw [← Option.some.inj isCall, wrote.1]
    exact ⟨step, there, running⟩
  · exact attended.started call (Keyed.mem_of_get isCall) started

theorem attended_finishTool (attended : Attended t) {row : TaskToolInvocationRow} (ended : row.status ≠ .started) :
    Attended ⟨{ t.db with invocations := t.db.invocations.put row }, moment :: t.past⟩ := by
  have frame : Attended ⟨t.db, moment :: t.past⟩ :=
    attended.of_same (fun row found => ⟨row, found, rfl, rfl, id⟩) rfl rfl
  refine ⟨frame.running, ?_⟩
  intro call mem started
  have isCall := Keyed.get_self (t := t.db.invocations.put row) mem
  rw [Keyed.get_put] at isCall
  split_ifs at isCall
  · rw [← Option.some.inj isCall] at started
    exact absurd started ended
  · exact attended.started call (Keyed.mem_of_get isCall) started

theorem closed_cases (db : TaskDb) (task : TaskRow) (command : TaskCommand) (now : Instant) :
    (db.closed task command now = db ∧
      (TaskDb.endsStep command ≠ none → TaskDb.isRunning (db.latestStep task.attempt) = false)) ∨
    ∃ step status, db.latestStep task.attempt = some step ∧ step.status = .running ∧ status ≠ .running ∧
      db.closed task command now = db.endStep step.id status now := by
  unfold TaskDb.closed TaskDb.closing
  cases isStep : db.latestStep task.attempt with
  | none => exact .inl ⟨by simp, by simp [TaskDb.isRunning]⟩
  | some step =>
    cases ends : TaskDb.endsStep command with
    | none => exact .inl ⟨by simp, by simp⟩
    | some status =>
      by_cases running : step.status = .running
      · refine .inr ⟨step, status, rfl, running, ?_, ?_⟩
        · cases command <;> simp [TaskDb.endsStep] at ends <;> subst ends <;> decide
        · simp [running, TaskDb.closeStep]
      · exact .inl ⟨by simp [running], by simp [TaskDb.isRunning, running]⟩

theorem Steps.mayRun {readOnly : Bool} {command : TaskCommand} {source target : TaskState}
    (step : Steps readOnly command source target) (may : Tasks.mayRun source)
    (keeps : TaskDb.endsStep command = none) (notComplete : command ≠ .complete) :
    Tasks.mayRun target ∧ command ≠ .retry ∧ command ≠ .restart := by
  obtain ⟨rule, found, mem, rfl⟩ := step
  cases readOnly <;> cases command <;>
    simp [table, transitions, readOnlyTransitions, TaskDb.endsStep] at found keeps notComplete <;>
    subst found <;> simp_all [Tasks.mayRun]

theorem attended_execute (attended : Attended t) {command : TaskCommand}
    {args : TaskDb.CommandArguments} {plan : TransitionPlan}
    (judged : CommandJudged t.db task command args env plan)
    (isTask : after.task = some (TaskDb.commandedRow task command args plan env.now))
    (steps : after.steps = (t.db.closed task command env.now).steps)
    (invocations : after.invocations = (t.db.closed task command env.now).invocations) :
    Attended ⟨after, moment :: t.past⟩ := by
  have ofIdle : ∀ db, Idle db → after.steps = db.steps → after.invocations = db.invocations →
      Attended ⟨after, moment :: t.past⟩ := by
    intro db idle sameSteps sameCalls
    refine Idle.attended ⟨?_, ?_⟩ _
    · rw [sameSteps]
      exact idle.steps
    · rw [sameCalls]
      exact idle.calls
  rcases closed_cases t.db task command env.now with
    ⟨same, notRunning⟩ | ⟨step, status, isLatest, running, ends, isEnd⟩
  · rw [same] at steps invocations
    by_cases runs : ∃ step ∈ t.db.steps.rows, step.status = .running
    · -- The step that runs goes on: neither its run nor its attempt ends here.
      obtain ⟨step, mem, running⟩ := runs
      obtain ⟨task', found', -, may, -⟩ := attended.running step mem running
      rw [judged.found, Option.some.injEq] at found'
      subst found'
      have isLatest := attended.latest judged.found mem running
      have isRunning : TaskDb.isRunning (t.db.latestStep task.attempt) = true := by
        rw [isLatest]
        simp [TaskDb.isRunning, running]
      have keeps : TaskDb.endsStep command = none := by
        by_contra some
        exact absurd (notRunning some) (by simp [isRunning])
      have notComplete : command ≠ .complete := fun completes =>
        absurd (judged.idle completes) (by simp [isRunning])
      obtain ⟨mayToo, notRetry, notRestart⟩ :=
        (planTransition_eq_ok judged.planned).1.mayRun may keeps notComplete
      refine attended.of_same ?_ steps invocations
      intro row found
      rw [judged.found, Option.some.injEq] at found
      subst found
      exact ⟨_, isTask, if_neg notRestart, if_neg notRetry, fun _ => mayToo⟩
    · push Not at runs
      exact ofIdle t.db (attended.idle runs) steps invocations
  · have there : t.db.steps.get step.id = some step := Keyed.get_self (latestStep_mem isLatest).1
    exact ofIdle _ (attended.endStep there running ends env.now) (by rw [steps, isEnd])
      (by rw [invocations, isEnd])

theorem attended_accepted (attended : Attended t) {call : TaskCall}
    {answer : TaskAnswer} (accepted : Accepted t.db env call answer after)
    (answered : (⟨t.db, call, env⟩ : Moment).answer = .ok answer) :
    Attended ⟨after, ⟨t.db, call, env⟩ :: t.past⟩ := by
  cases accepted with
  | create absent =>
    refine attended.of_same ?_ rfl rfl
    intro row found
    rw [absent] at found
    cases found
  | execute judged wrote fresh => exact attended_execute attended judged rfl rfl rfl
  | beginStep found current active alone wrote added =>
    exact attended_beginStep attended found current active alone wrote added answered
  | finishStep found there current running ends =>
    exact (attended.endStep there running ends env.now).attended _
  | beginToolInvocation found there current running wrote added =>
    exact attended_beginTool attended there running wrote added
  | finishToolInvocation there started ends => exact attended_finishTool attended ends
  | addLog | updateAttempt | release => exact attended.of_same (fun row found => ⟨row, found, rfl, rfl, id⟩) rfl rfl
  | changeWorkingSet judged wrote =>
    refine attended.of_same ?_ rfl rfl
    intro row found
    rw [judged.found, Option.some.injEq] at found
    exact ⟨_, rfl, by rw [← found]; rfl, by rw [← found]; rfl, fun may => by rw [← found] at may; exact may⟩
  | admitUse found current active admitted =>
    have frame := admitFrame_of_foldlM admitted
    exact attended.of_same (fun row isRow => ⟨row, frame.task.trans isRow, rfl, rfl, id⟩) frame.steps
      frame.invocations
  | releaseStale found wrote =>
    refine attended.of_same ?_ rfl rfl
    intro row isRow
    rw [found, Option.some.injEq] at isRow
    exact ⟨_, rfl, by rw [← isRow]; rfl, by rw [← isRow]; rfl, fun may => by rw [← isRow] at may; exact may⟩

theorem attended_of_reachable (reach : taskService.Reachable t) : Attended t := by
  refine taskService_invariant (P := Attended) ?_ ?_ ?_ reach
  · exact ⟨by simp [TaskDb.empty, Keyed.empty], by simp [TaskDb.empty, Keyed.empty]⟩
  · intro t call env error attended _
    exact attended.of_same (fun row found => ⟨row, found, rfl, rfl, id⟩) rfl rfl
  · intro t call env answer after attended done
    refine attended_accepted attended (accepted_of_perform done) ?_
    rw [Moment.answer, done]
    rfl

/-! ### What is finished stays as it is -/

structure KeepsFinished (db after : TaskDb) : Prop where
  steps : ∀ id row, db.steps.get id = some row → row.status ≠ .running → after.steps.get id = some row
  calls : ∀ id row, db.invocations.get id = some row → row.status ≠ .started →
    after.invocations.get id = some row

theorem KeepsFinished.of_same (steps : after.steps = db.steps)
    (invocations : after.invocations = db.invocations) : KeepsFinished db after :=
  ⟨fun _ _ found _ => steps ▸ found, fun _ _ found _ => invocations ▸ found⟩

theorem keepsFinished_endStep
    (there : db.steps.get stepId = some step) (running : step.status = .running) (status : StepStatus)
    (now : Instant) : KeepsFinished db (db.endStep stepId status now) where
  steps := by
    intro id row found ended
    rw [TaskDb.endStep, Keyed.get_update, found, Option.map_some, if_neg]
    intro same
    have isId : id = stepId := (Keyed.key_of_get found).symm.trans (of_decide_eq_true same)
    rw [isId, there, Option.some.injEq] at found
    exact ended (found ▸ running)
  calls := by
    intro id row found ended
    rw [TaskDb.endStep, Keyed.get_update, found, Option.map_some, if_neg]
    simp [ended]

theorem get_of_added {α κ : Type} {key : α → κ} [DecidableEq κ] {table added : Keyed key} {row : α}
    (wrote : table.tryInsert row = some added) {k : κ} {old : α} (found : table.get k = some old) :
    added.get k = some old := by
  rw [Keyed.get_of_tryInsert wrote, if_neg]
  · exact found
  · rintro rfl
    rw [Keyed.fresh_of_tryInsert wrote] at found
    cases found

theorem keepsFinished_accepted {call : TaskCall} {answer : TaskAnswer}
    (accepted : Accepted db env call answer after) : KeepsFinished db after := by
  cases accepted with
  | create | addLog | updateAttempt | changeWorkingSet | release | releaseStale => exact .of_same rfl rfl
  | @execute command _ task _ _ _ _ judged =>
    rcases closed_cases db task command env.now with ⟨same, -⟩ | ⟨step, status, isLatest, running, -, isEnd⟩
    · have steps : (db.closed task command env.now).steps = db.steps := by rw [same]
      have calls : (db.closed task command env.now).invocations = db.invocations := by rw [same]
      exact .of_same steps calls
    · have there : db.steps.get step.id = some step := Keyed.get_self (latestStep_mem isLatest).1
      have kept := keepsFinished_endStep there running status env.now
      rw [← isEnd] at kept
      exact ⟨kept.steps, kept.calls⟩
  | beginStep found current active alone wrote added =>
    exact ⟨fun _ _ there _ => get_of_added added there, fun _ _ there _ => there⟩
  | finishStep found there current running ends => exact keepsFinished_endStep there running _ env.now
  | beginToolInvocation found there current running wrote added =>
    exact ⟨fun _ _ isRow _ => isRow, fun _ _ isRow _ => get_of_added added isRow⟩
  | finishToolInvocation there started ends =>
    refine ⟨fun _ _ isRow _ => isRow, fun id row isRow ended => ?_⟩
    show Keyed.get _ id = some row
    rw [Keyed.get_put, if_neg]
    · exact isRow
    · rintro rfl
      have isKey := Keyed.key_of_get there
      rw [isKey, there, Option.some.injEq] at isRow
      exact ended (isRow ▸ started)
  | admitUse found current active admitted =>
    have frame := admitFrame_of_foldlM admitted
    exact .of_same frame.steps frame.invocations

theorem keepsFinished_run {t' : TaskTrace} {events : List (TaskCall × Surroundings)}
    (ran : taskService.run t events = some t') : KeepsFinished t.db t'.db := by
  induction events generalizing t with
  | nil =>
    rw [Machine.run, Option.some.injEq] at ran
    exact ran ▸ .of_same rfl rfl
  | cons event rest ih =>
    rw [Machine.run, Option.bind_eq_some_iff] at ran
    obtain ⟨mid, taken, others⟩ := ran
    rw [taskService, Option.some.injEq] at taken
    have first : KeepsFinished t.db mid.db := by
      rw [← taken]
      show KeepsFinished t.db (t.db.apply event.1 event.2)
      unfold TaskDb.apply
      split
      · rename_i done
        exact keepsFinished_accepted (accepted_of_perform done)
      · exact .of_same rfl rfl
    have last := ih others
    exact ⟨fun id row found ended => last.steps id row (first.steps id row found ended) ended,
      fun id row found ended => last.calls id row (first.calls id row found ended) ended⟩

/-- **Steps and tool calls never outlive their run.** At most one step runs, it was begun for the current
run and belongs to the current attempt, and none runs in a task that is queued, completed or failed;
every tool call that is started belongs to a running step; and what is finished stays as it is. -/
theorem steps_end_with_run {t : TaskTrace} (reach : taskService.Reachable t) :
    (∀ a ∈ t.db.steps.rows, ∀ b ∈ t.db.steps.rows, a.status = .running → b.status = .running → a = b) ∧
    (∀ step ∈ t.db.steps.rows, step.status = .running → ∃ task, t.db.task = some task ∧
      step.attempt = task.attempt ∧
      (∃ moment ∈ t.past, moment.began step.id task.attempt task.retryCount) ∧
      task.state ≠ .queued ∧ task.state ≠ .completed ∧ task.state ≠ .failed) ∧
    (∀ call ∈ t.db.invocations.rows, call.status = .started →
      ∃ step, t.db.steps.get call.stepId = some step ∧ step.status = .running) ∧
    ∀ events t', taskService.run t events = some t' →
      (∀ id row, t.db.steps.get id = some row → row.status ≠ .running → t'.db.steps.get id = some row) ∧
      ∀ id row, t.db.invocations.get id = some row → row.status ≠ .started →
        t'.db.invocations.get id = some row := by
  have attended := attended_of_reachable reach
  refine ⟨?_, ?_, attended.started, ?_⟩
  · intro a first b second runs runsToo
    exact attended.alone first runs second runsToo
  · intro step member running
    obtain ⟨task, found, current, may, began, -⟩ := attended.running step member running
    exact ⟨task, found, current, began, may⟩
  · intro events t' ran
    have kept := keepsFinished_run ran
    exact ⟨kept.steps, kept.calls⟩

/-- A step whose tool call goes on while the task is cancelled, and that Restart ends. -/
def abandonedStep : List (TaskCall × Surroundings) :=
  let command := fun (command : TaskCommand) (now : Instant) =>
    (TaskCall.execute command { actor := .system }, ({ now := now, judgedAt := now } : Surroundings))
  [(.create { createdBy := 1, title := Text.lit "t", repositories := [⟨7, .target, none⟩] },
      { now := 1, judgedAt := 1 }),
    command .start 2,
    (.beginStep (Text.lit "plan") .first, { now := 3, judgedAt := 3 }),
    (.beginToolInvocation 1 (Text.lit "grep") none, { now := 4, judgedAt := 4, freshId := 9 }),
    command .cancel 5, command .restart 6]

theorem abandonedStep_ends :
    (served (abandonedStep.take 5)).db.steps.rows.map TaskStepRow.status = [.running] ∧
    (served abandonedStep).db.steps.rows.map TaskStepRow.status = [.interrupted] ∧
    (served abandonedStep).db.invocations.rows.map TaskToolInvocationRow.status = [.interrupted] ∧
    ∀ call ∈ (served abandonedStep).db.invocations.rows, call.status = .started →
      ∃ step, (served abandonedStep).db.steps.get call.stepId = some step ∧ step.status = .running :=
  ⟨by decide, by decide, by decide,
    (steps_end_with_run (served_reachable abandonedStep)).2.2.1⟩

end PawBackend.Tasks
