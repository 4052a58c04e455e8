/-
**The history of a task replays to its state** (`tasks/service.py`: `execute`, `_append_event`;
`tasks/domain.py`: the transition tables).

`Recorded` says that a list of events is a path of the task's transition table from one place to
another, each event naming where it came from and where it led. The events of the two calls that are no
commands (`change_working_set`, a release by hand) stay where they are.
-/

import PawBackend.Tasks.Calls

namespace PawBackend.Tasks

open Lib List
open Tools (Uuid Instant TaskRun)

/-! ### Replaying events -/

/-- Where a history has led: the state and the run. -/
structure Place where
  state : TaskState
  attempt : ℕ
  retryCount : ℕ
  deriving DecidableEq, Repr

/-- Where a task begins. -/
def Place.created : Place := ⟨.queued, 1, 0⟩

/-- The place of a row. -/
def TaskRow.place (task : TaskRow) : Place := ⟨task.state, task.attempt, task.retryCount⟩

def isMark (command : TaskCommand) : Bool :=
  decide (command = .changeWorkingSet ∨ command = .releaseRepositoryWrite)

/-- Where an event leads, by the task's transition table and the rules of Retry and Restart. -/
def Place.next (readOnly : Bool) (place : Place) (command : TaskCommand) : Option Place :=
  if isMark command then some place
  else (table readOnly command).bind fun rule =>
    if place.state ∈ rule.sources then
      some
        { state := rule.target
          attempt := if command = .restart then place.attempt + 1 else place.attempt
          retryCount := if command = .retry then place.retryCount + 1 else place.retryCount }
    else none

/-- A path of the table, and what its events say of it. -/
def Recorded (readOnly : Bool) : Place → List TaskEventRow → Place → Prop
  | place, [], last => place = last
  | place, event :: rest, last => ∃ next, place.next readOnly event.command = some next ∧
      event.fromState = some place.state ∧ event.toState = next.state ∧ event.attempt = next.attempt ∧
      event.retryCount = next.retryCount ∧ Recorded readOnly next rest last

variable {event : TaskEventRow} {t : TaskTrace} {after : TaskDb} {task : TaskRow} {command : TaskCommand}
  {args : TaskDb.CommandArguments} {plan : TransitionPlan} {env : Surroundings}

theorem Recorded.snoc {readOnly : Bool} {place mid last : Place} {events : List TaskEventRow}
    (path : Recorded readOnly place events mid)
    (leads : mid.next readOnly event.command = some last) (source : event.fromState = some mid.state)
    (target : event.toState = last.state) (attempt : event.attempt = last.attempt)
    (retryCount : event.retryCount = last.retryCount) :
    Recorded readOnly place (events ++ [event]) last := by
  induction events generalizing place with
  | nil =>
    replace path : place = mid := path
    subst path
    exact ⟨last, leads, source, target, attempt, retryCount, rfl⟩
  | cons first rest ih =>
    obtain ⟨next, first_leads, first_source, first_target, first_attempt, first_retryCount, path⟩ := path
    exact ⟨next, first_leads, first_source, first_target, first_attempt, first_retryCount, ih path⟩

/-- The order of a history: numbers grow, and versions with every transition. -/
def Precedes (earlier later : TaskEventRow) : Prop :=
  earlier.seq < later.seq ∧ earlier.taskVersion ≤ later.taskVersion ∧
    (isMark later.command = false → earlier.taskVersion < later.taskVersion)

/-- Whether a call of the past put the task back to work as another run. -/
def Moment.reopened (moment : Moment) : Prop :=
  ∃ args answer, (moment.call = .execute .retry args ∨ moment.call = .execute .restart args) ∧
    moment.answer = .ok answer

def TaskCall.marks : TaskCall → Bool
  | .changeWorkingSet _ => true
  | .releaseStale _ => true
  | _ => false

/-! ### The invariant -/

structure Kept (t : TaskTrace) : Prop where
  absent : t.db.task = none → t.db.events = []
  path : ∀ task, t.db.task = some task → ∃ created events, t.db.events = created :: events ∧
    created.command = .create ∧ created.fromState = none ∧ created.toState = .queued ∧
    Recorded task.readOnly .created events task.place
  ordered : t.db.events.Pairwise Precedes
  versions : ∀ task, t.db.task = some task → ∀ event ∈ t.db.events, event.taskVersion ≤ task.version
  waits : ∀ task, t.db.task = some task → (task.waitReason ≠ none ↔ task.state = .waiting)
  left : ∀ moment ∈ t.past, moment.reopened → ∃ old task, moment.before.task = some old ∧
    t.db.task = some task ∧ old.attempt + old.retryCount < task.attempt + task.retryCount
  marks : ∀ event ∈ t.db.events, isMark event.command = true →
    ∃ moment ∈ t.past, moment.call.marks = true

theorem lt_nextSeq {db : TaskDb} (ordered : db.events.Pairwise Precedes)
    (mem : event ∈ db.events) (gap : ℕ) : event.seq < db.nextSeq gap := by
  unfold TaskDb.nextSeq
  obtain ⟨init, last, isEvents⟩ := (eq_nil_or_concat' db.events).resolve_left (ne_nil_of_mem mem)
  rw [isEvents] at ordered mem
  have below : event.seq ≤ last.seq := by
    rcases mem_append.mp mem with earlier | this
    · exact le_of_lt ((pairwise_append.mp ordered).2.2 event earlier last (mem_singleton_self _)).1
    · rw [mem_singleton.mp this]
  rw [isEvents, getLast?_concat, Option.map_some, Option.getD_some]
  omega

theorem Kept.of_same (kept : Kept t) {moment : Moment}
    (task : after.task = t.db.task) (events : after.events = t.db.events)
    (plain : ¬moment.reopened) : Kept ⟨after, moment :: t.past⟩ where
  absent := by
    show after.task = none → after.events = []
    rw [task, events]
    exact kept.absent
  path := by
    show ∀ row, after.task = some row → ∃ created rest, after.events = created :: rest ∧ _
    rw [task, events]
    exact kept.path
  ordered := by
    show after.events.Pairwise Precedes
    rw [events]
    exact kept.ordered
  versions := by
    show ∀ row, after.task = some row → ∀ event ∈ after.events, _
    rw [task, events]
    exact kept.versions
  waits := by
    show ∀ row, after.task = some row → _
    rw [task]
    exact kept.waits
  left := by
    intro other mem reopened
    rcases mem_cons.mp mem with rfl | mem
    · exact absurd reopened plain
    · rw [task]
      exact kept.left other mem reopened
  marks := by
    intro event mem marked
    replace mem : event ∈ after.events := mem
    rw [events] at mem
    obtain ⟨other, earlier, wrote⟩ := kept.marks event mem marked
    exact ⟨other, mem_cons_of_mem _ earlier, wrote⟩

theorem Kept.append (kept : Kept t) {old new : TaskRow} (found : t.db.task = some old)
    {moment : Moment} (isBefore : moment.before = t.db)
    (task : after.task = some new) (events : after.events = t.db.events ++ [event])
    (readOnly : new.readOnly = old.readOnly)
    (leads : old.place.next old.readOnly event.command = some new.place)
    (source : event.fromState = some old.state) (target : event.toState = new.state)
    (attempt : event.attempt = new.attempt) (retryCount : event.retryCount = new.retryCount)
    (seq : ∀ earlier ∈ t.db.events, earlier.seq < event.seq) (version : event.taskVersion = new.version)
    (grows : old.version ≤ new.version ∧ (isMark event.command = false → old.version < new.version))
    (waits : new.waitReason ≠ none ↔ new.state = .waiting)
    (runs : old.attempt + old.retryCount ≤ new.attempt + new.retryCount)
    (leaves : moment.reopened → old.attempt + old.retryCount < new.attempt + new.retryCount)
    (marked : isMark event.command = true → moment.call.marks = true) :
    Kept ⟨after, moment :: t.past⟩ where
  absent := fun gone => by simp [task] at gone
  path := by
    intro row isRow
    rw [show after.task = some new from task, Option.some.injEq] at isRow
    subst isRow
    obtain ⟨created, rest, isEvents, isCreate, from_none, queued, path⟩ := kept.path old found
    refine ⟨created, rest ++ [event], ?_, isCreate, from_none, queued, ?_⟩
    · show after.events = _
      rw [events, isEvents, cons_append]
    · rw [readOnly]
      exact path.snoc leads source target attempt retryCount
  ordered := by
    show after.events.Pairwise Precedes
    rw [events]
    refine pairwise_append.mpr ⟨kept.ordered, pairwise_singleton _ _, ?_⟩
    intro earlier mem later this
    rw [mem_singleton.mp this]
    have below := kept.versions old found earlier mem
    refine ⟨seq earlier mem, ?_, fun moves => ?_⟩
    · rw [version]
      exact below.trans grows.1
    · rw [version]
      exact below.trans_lt (grows.2 moves)
  versions := by
    intro row isRow other mem
    rw [show after.task = some new from task, Option.some.injEq] at isRow
    subst isRow
    replace mem : other ∈ after.events := mem
    rw [events] at mem
    rcases mem_append.mp mem with earlier | this
    · exact (kept.versions old found other earlier).trans grows.1
    · rw [mem_singleton.mp this, version]
  waits := by
    intro row isRow
    rw [show after.task = some new from task, Option.some.injEq] at isRow
    exact isRow ▸ waits
  left := by
    intro other mem reopened
    rcases mem_cons.mp mem with rfl | mem
    · exact ⟨old, new, by rw [isBefore, found], task, leaves reopened⟩
    · obtain ⟨first, row, isFirst, isRow, before⟩ := kept.left other mem reopened
      rw [found, Option.some.injEq] at isRow
      subst isRow
      exact ⟨first, new, isFirst, task, before.trans_le runs⟩
  marks := by
    intro other mem isMarked
    replace mem : other ∈ after.events := mem
    rw [events] at mem
    rcases mem_append.mp mem with earlier | this
    · obtain ⟨first, before, wrote⟩ := kept.marks other earlier isMarked
      exact ⟨first, mem_cons_of_mem _ before, wrote⟩
    · rw [mem_singleton.mp this] at isMarked
      exact ⟨moment, mem_cons_self, marked isMarked⟩

/-! ### Every call keeps it -/

theorem next_of_planned (now : Instant)
    (planned : planTransition task.state command args.waitReason task.readOnly = .ok plan) :
    isMark command = false ∧
      task.place.next task.readOnly command = some (TaskDb.commandedRow task command args plan now).place := by
  obtain ⟨⟨rule, found, source, target⟩, -⟩ := planTransition_eq_ok planned
  have moves : isMark command = false := by
    cases command <;> first | rfl | (cases isReadOnly : task.readOnly <;>
      simp [isReadOnly, table, transitions, readOnlyTransitions] at found)
  refine ⟨moves, ?_⟩
  unfold Place.next
  rw [moves, if_neg (by simp), found, Option.bind_some,
    if_pos (show task.place.state ∈ rule.sources from source)]
  simp [TaskDb.commandedRow, TaskRow.place, target]

theorem waits_of_planned

    (planned : planTransition task.state command args.waitReason task.readOnly = .ok plan) :
    plan.waitReason ≠ none ↔ plan.target = .waiting := by
  obtain ⟨step, -, -, given, needed⟩ := planTransition_eq_ok planned
  rw [given, ← needed, step.waiting_iff]

theorem commandedRow_run (task : TaskRow) (command : TaskCommand) (args : TaskDb.CommandArguments)
    (plan : TransitionPlan) (now : Instant) :
    (TaskDb.commandedRow task command args plan now).attempt +
        (TaskDb.commandedRow task command args plan now).retryCount =
      task.attempt + task.retryCount + if command = .retry ∨ command = .restart then 1 else 0 := by
  cases command <;> simp [TaskDb.commandedRow] <;> omega

theorem kept_execute (kept : Kept t)

    (judged : CommandJudged t.db task command args env plan)
    (isTask : after.task = some (TaskDb.commandedRow task command args plan env.now))
    (events : after.events = t.db.events ++ [event])
    (wrote : event = t.db.eventRow (TaskDb.commandedRow task command args plan env.now) command
      (some task.state) args.actor args.reason event.stepName event.detail env.gap) :
    Kept ⟨after, ⟨t.db, .execute command args, env⟩ :: t.past⟩ := by
  have isCommand : event.command = command := by rw [wrote]; rfl
  obtain ⟨moves, leads⟩ := next_of_planned env.now judged.planned
  have run := commandedRow_run task command args plan env.now
  refine kept.append judged.found rfl isTask events rfl ?_ ?_ ?_ ?_ ?_ ?_ ?_ ?_ ?_ ?_ ?_ ?_
  · rw [isCommand]
    exact leads
  · rw [wrote]; rfl
  · rw [wrote]; rfl
  · rw [wrote]; rfl
  · rw [wrote]; rfl
  · intro earlier mem
    rw [wrote]
    exact lt_nextSeq kept.ordered mem env.gap
  · rw [wrote]; rfl
  · exact ⟨Int.le_of_lt (Int.lt_succ _), fun _ => Int.lt_succ _⟩
  · exact waits_of_planned judged.planned
  · rw [run]
    exact Nat.le_add_right _ _
  · rintro ⟨args', _, isCall, -⟩
    have again : command = .retry ∨ command = .restart := by
      rcases isCall with isCall | isCall
      · exact .inl (TaskCall.execute.inj isCall).1
      · exact .inr (TaskCall.execute.inj isCall).1
    rw [run, if_pos again]
    exact Nat.lt_succ_self _
  · intro marked
    rw [isCommand, moves] at marked
    exact absurd marked (by simp)

theorem kept_mark (kept : Kept t) {call : TaskCall} {actor : Actor} {reason : Option Text}
    (found : t.db.task = some task) (isTask : after.task = some (TaskDb.stampedRow task env.now))
    (events : after.events = t.db.events ++ [event])
    (wrote : event = t.db.eventRow (TaskDb.stampedRow task env.now) command (some task.state) actor reason
      none event.detail env.gap) (mark : isMark command = true) (marks : call.marks = true) :
    Kept ⟨after, ⟨t.db, call, env⟩ :: t.past⟩ := by
  have isCommand : event.command = command := by rw [wrote]; rfl
  refine kept.append found rfl isTask events rfl ?_ ?_ ?_ ?_ ?_ ?_ ?_ ?_ ?_ ?_ ?_ fun _ => marks
  · rw [isCommand, Place.next, if_pos mark]
    rfl
  · rw [wrote]; rfl
  · rw [wrote]; rfl
  · rw [wrote]; rfl
  · rw [wrote]; rfl
  · intro earlier mem
    rw [wrote]
    exact lt_nextSeq kept.ordered mem env.gap
  · rw [wrote]; rfl
  · rw [isCommand, mark]
    refine ⟨?_, by simp⟩
    show task.version ≤ if task.updatedAt = env.now then task.version else task.version + 1
    split_ifs
    · exact le_refl _
    · exact Int.le_of_lt (Int.lt_succ _)
  · exact kept.waits task found
  · exact le_refl _
  · rintro ⟨_, _, isCall | isCall, -⟩
    · rw [show call = _ from isCall] at marks
      simp [TaskCall.marks] at marks
    · rw [show call = _ from isCall] at marks
      simp [TaskCall.marks] at marks

theorem kept_create (kept : Kept t) {new : TaskDb.NewTask} (absent : t.db.task = none)
    (isTask : after.task = some (TaskDb.createdRow new env.now))
    (events : after.events = t.db.events ++ [event])
    (wrote : event = t.db.eventRow (TaskDb.createdRow new env.now) .create none (.user new.createdBy) none
      none event.detail env.gap) :
    Kept ⟨after, ⟨t.db, .create new, env⟩ :: t.past⟩ := by
  rw [kept.absent absent, nil_append] at events
  have isCommand : event.command = .create := by rw [wrote]; rfl
  refine ⟨fun gone => by simp [isTask] at gone, ?_, ?_, ?_, ?_, ?_, ?_⟩
  · intro task isRow
    rw [show after.task = some _ from isTask, Option.some.injEq] at isRow
    subst isRow
    exact ⟨event, [], events, isCommand, by rw [wrote]; rfl, by rw [wrote]; rfl, rfl⟩
  · show after.events.Pairwise Precedes
    rw [events]
    exact pairwise_singleton _ _
  · intro task isRow other mem
    rw [show after.task = some _ from isTask, Option.some.injEq] at isRow
    subst isRow
    replace mem : other ∈ after.events := mem
    rw [events, mem_singleton] at mem
    rw [mem, wrote]
    exact le_refl (1 : ℤ)
  · intro task isRow
    rw [show after.task = some _ from isTask, Option.some.injEq] at isRow
    subst isRow
    simp [TaskDb.createdRow]
  · intro moment mem reopened
    rcases mem_cons.mp mem with rfl | mem
    · obtain ⟨_, _, isCall | isCall, -⟩ := reopened
      · cases isCall
      · cases isCall
    · obtain ⟨_, _, -, found, -⟩ := kept.left moment mem reopened
      rw [absent] at found
      cases found
  · intro other mem marked
    replace mem : other ∈ after.events := mem
    rw [events, mem_singleton] at mem
    rw [mem, isCommand] at marked
    exact absurd marked (by decide)

theorem kept_accepted (kept : Kept t) {call : TaskCall}
    {answer : TaskAnswer} (accepted : Accepted t.db env call answer after) :
    Kept ⟨after, ⟨t.db, call, env⟩ :: t.past⟩ := by
  cases accepted with
  | create absent shape members fresh wrote => exact kept_create kept absent rfl rfl wrote
  | execute judged wrote fresh => exact kept_execute kept judged rfl rfl wrote
  | changeWorkingSet judged wrote => exact kept_mark kept judged.found rfl rfl wrote (by decide) rfl
  | releaseStale found wrote => exact kept_mark kept found rfl rfl wrote (by decide) rfl
  | beginStep | finishStep | beginToolInvocation | finishToolInvocation | addLog | updateAttempt | release =>
    exact kept.of_same rfl rfl (by simp [Moment.reopened])
  | admitUse found current active admitted =>
    have frame := admitFrame_of_foldlM admitted
    exact kept.of_same frame.task frame.events (by simp [Moment.reopened])

theorem kept_of_reachable (reach : taskService.Reachable t) : Kept t := by
  refine taskService_invariant (P := Kept) ?_ ?_ ?_ reach
  · exact ⟨by simp [TaskDb.empty], by simp [TaskDb.empty], List.Pairwise.nil, by simp [TaskDb.empty],
      by simp [TaskDb.empty], by simp, by simp [TaskDb.empty]⟩
  · intro t call env error kept refused
    refine kept.of_same rfl rfl ?_
    rintro ⟨_, answer, -, accepted⟩
    rw [Moment.answer, refused] at accepted
    cases accepted
  · intro t call env answer after kept done
    exact kept_accepted kept (accepted_of_perform done)

/-- **A task's event history replays to its state.** The events after the first are a path of the task's
table to the place of its row, numbers grow, versions grow with every transition, a wait reason stands
for waiting, and no run that Retry or Restart left is the current one again. Every event that is no
transition is of a call that changes no state, and a refused call leaves every row as it was. -/
theorem history_replays {t : TaskTrace} (reach : taskService.Reachable t) :
    (∀ task, t.db.task = some task →
      (∃ created events, t.db.events = created :: events ∧ created.command = .create ∧
        created.fromState = none ∧ created.toState = .queued ∧
        Recorded task.readOnly .created events task.place) ∧
      (∀ event ∈ t.db.events, event.taskVersion ≤ task.version) ∧
      (task.waitReason ≠ none ↔ task.state = .waiting) ∧
      (∀ moment ∈ t.past, moment.reopened → ∃ old, moment.before.task = some old ∧
        (old.attempt, old.retryCount) ≠ (task.attempt, task.retryCount))) ∧
    (t.db.events.Pairwise fun earlier later =>
      earlier.seq < later.seq ∧ earlier.taskVersion ≤ later.taskVersion ∧
        (isMark later.command = false → earlier.taskVersion < later.taskVersion)) ∧
    (∀ event ∈ t.db.events, isMark event.command = true → ∃ moment ∈ t.past, moment.call.marks = true) ∧
    ∀ call env error, t.db.perform env call = .error error → t.db.apply call env = t.db := by
  have kept := kept_of_reachable reach
  refine ⟨fun task found => ⟨kept.path task found, kept.versions task found, kept.waits task found, ?_⟩,
    kept.ordered, kept.marks, ?_⟩
  · intro moment member reopened
    obtain ⟨old, row, isOld, isRow, before⟩ := kept.left moment member reopened
    rw [found, Option.some.injEq] at isRow
    subst isRow
    refine ⟨old, isOld, fun same => ?_⟩
    rw [Prod.mk.injEq] at same
    omega
  · intro call env error refused
    rw [TaskDb.apply, refused]

/-- A task that fails, is retried, waits and is refused a second Start. -/
def retriedTask : List (TaskCall × Surroundings) :=
  let command := fun (command : TaskCommand) (now : Instant) =>
    (TaskCall.execute command { actor := .system }, ({ now := now, judgedAt := now } : Surroundings))
  [(.create { createdBy := 1, title := Text.lit "t", repositories := [⟨7, .target, none⟩] },
      { now := 1, judgedAt := 1 }),
    command .start 2, command .fail 3, command .retry 4, command .start 5, command .start 6,
    (.execute .wait { actor := .system, waitReason := some .user },
      { now := 7, judgedAt := 7 })]

theorem retriedTask_replays :
    ((served retriedTask).db.task.map TaskRow.place = some ⟨.waiting, 1, 1⟩ ∧
      (served retriedTask).db.events.map TaskEventRow.command = [.create, .start, .fail, .retry, .start, .wait]) ∧
    (served retriedTask).db.events.Pairwise fun earlier later =>
      earlier.seq < later.seq ∧ earlier.taskVersion ≤ later.taskVersion ∧
        (isMark later.command = false → earlier.taskVersion < later.taskVersion) :=
  ⟨by decide, (history_replays (served_reachable retriedTask)).2.1⟩

end PawBackend.Tasks
