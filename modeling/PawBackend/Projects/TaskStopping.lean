/-
**The stopper only stops what is being deleted, and all of it** (`projects/task_stop.py`).

* `StopperStep` is what a commit of the stopper may do: a task it cancels is of a project whose deletion began, and
  has no active entry afterwards; an entry it cancels is of a task that is over afterwards.
* `Keeps` is what the row locks fix: while a project that is not Active is locked, its tasks and entries only end.
-/

import PawBackend.Projects.TaskStop

namespace PawBackend.Projects.TaskStop

open Lib List
open Tools (Instant Uuid)
open Tasks (Priority QueueEntryRow QueueTable TaskCommand TaskState WaitReason)

variable {db db' : StopTables} {held : List StopLock} {projectId taskId : Uuid} {task : TaskRow}

/-! ### What is active -/

def InProject (db : StopTables) (projectId taskId : Uuid) : Prop :=
  ∃ task, db.tasks.get taskId = some task ∧ task.projectId = projectId

def ActiveTask (db : StopTables) (projectId taskId : Uuid) : Prop :=
  ∃ task, db.tasks.get taskId = some task ∧ task.projectId = projectId ∧ task.state.isTerminal = false

def ActiveFor (db : StopTables) (taskId : Uuid) (id : ℤ) : Prop :=
  ∃ entry, db.entries.get id = some entry ∧ entry.taskId = taskId ∧ entry.isActive = true

/-- A project whose deletion began and whose request was processed has nothing active. -/
def Quiet (db : StopTables) : Prop :=
  ∀ projectId project stop, db.projects.get projectId = some project → project.status ∈ stopping →
    db.stops.get projectId = some stop → stop.processedAt ≠ none →
      (∀ taskId, ¬ActiveTask db projectId taskId) ∧ ∀ taskId id, InProject db projectId taskId → ¬ActiveFor db taskId id

structure Calmer (projectId : Uuid) (db db' : StopTables) : Prop where
  tasks : ∀ taskId, ActiveTask db' projectId taskId → ActiveTask db projectId taskId
  entries : ∀ taskId id, InProject db' projectId taskId → ActiveFor db' taskId id →
    InProject db projectId taskId ∧ ActiveFor db taskId id

theorem Calmer.refl (projectId : Uuid) (db : StopTables) : Calmer projectId db db :=
  ⟨fun _ active => active, fun _ _ inProject active => ⟨inProject, active⟩⟩

theorem Calmer.trans {a b c : StopTables} (first : Calmer projectId a b) (second : Calmer projectId b c) :
    Calmer projectId a c where
  tasks taskId active := first.tasks taskId (second.tasks taskId active)
  entries taskId id inProject active := by
    obtain ⟨inProject, active⟩ := second.entries taskId id inProject active
    exact first.entries taskId id inProject active

theorem calmer_of_eq (tasks : db'.tasks = db.tasks) (entries : db'.entries = db.entries) : Calmer projectId db db' := by
  constructor
  · unfold ActiveTask
    rw [tasks]
    exact fun _ active => active
  · unfold InProject ActiveFor
    rw [tasks, entries]
    exact fun _ _ inProject active => ⟨inProject, active⟩

/-! ### The discipline -/

/-- What a transaction that holds these locks may rely on. -/
structure Keeps (held : List StopLock) (db db' : StopTables) : Prop where
  projects : ∀ id project, .projectShare id ∈ held ∨ .projectUpdate id ∈ held → db.projects.get id = some project →
    db'.projects.get id = some project
  tasks : ∀ id task, .taskShare id ∈ held ∨ .taskUpdate id ∈ held → db.tasks.get id = some task →
    db'.tasks.get id = some task
  stays : ∀ id task, db.tasks.get id = some task → ∃ task', db'.tasks.get id = some task' ∧ task'.projectId = task.projectId
  calmer : ∀ id project, .projectShare id ∈ held ∨ .projectUpdate id ∈ held → db.projects.get id = some project →
    project.status ≠ .active → Calmer id db db'

theorem Keeps.refl (held : List StopLock) (db : StopTables) : Keeps held db db :=
  ⟨fun _ _ _ found => found, fun _ _ _ found => found, fun _ task found => ⟨task, found, rfl⟩,
    fun id _ _ _ _ => Calmer.refl id db⟩

theorem Keeps.trans (held : List StopLock) {a b c : StopTables} (first : Keeps held a b) (second : Keeps held b c) :
    Keeps held a c where
  projects id project isHeld found := second.projects id project isHeld (first.projects id project isHeld found)
  tasks id task isHeld found := second.tasks id task isHeld (first.tasks id task isHeld found)
  stays id task found := by
    obtain ⟨task', found', same⟩ := first.stays id task found
    obtain ⟨task'', found'', same'⟩ := second.stays id task' found'
    exact ⟨task'', found'', same'.trans same⟩
  calmer id project isHeld found other :=
    (first.calmer id project isHeld found other).trans
      (second.calmer id project isHeld (first.projects id project isHeld found) other)

theorem Keeps.subset {more : List StopLock} (kept : Keeps more db db') (fewer : held ⊆ more) : Keeps held db db' where
  projects id project isHeld := kept.projects id project (isHeld.imp (fun isHeld => fewer isHeld) fun isHeld => fewer isHeld)
  tasks id task isHeld := kept.tasks id task (isHeld.imp (fun isHeld => fewer isHeld) fun isHeld => fewer isHeld)
  stays := kept.stays
  calmer id project isHeld :=
    kept.calmer id project (isHeld.imp (fun isHeld => fewer isHeld) fun isHeld => fewer isHeld)

structure StopperStep (db db' : StopTables) : Prop where
  tasks : ∀ id task, db.tasks.get id = some task → db'.tasks.get id = some task ∨
    task.state.isTerminal = false ∧ db'.tasks.get id = some { task with state := .cancelled } ∧
      db.isStopping task.projectId = true ∧ ∀ entry, ¬ActiveFor db' id entry
  entries : ∀ id entry, db.entries.get id = some entry → db'.entries.get id = some entry ∨
    entry.isActive = true ∧ (∃ now, db'.entries.get id = some (entry.cancel now)) ∧
      ∃ task, db'.tasks.get entry.taskId = some task ∧ task.state.isTerminal = true ∧ db.isStopping task.projectId = true
  projects : db'.projects = db.projects

theorem StopperStep.refl (db : StopTables) : StopperStep db db :=
  ⟨fun _ _ found => .inl found, fun _ _ found => .inl found, rfl⟩

def stopReplies (db db' : StopTables) : StopReply → Prop
  | .stopped taskId _ => StopperStep db db' ∧ ∃ task, db'.tasks.get taskId = some task ∧ task.state = .cancelled
  | .entryOfFinished _ _ | .finished _ _ => StopperStep db db'
  | .skipped => db' = db
  | _ => True

def stopDiscipline : Discipline stopSystem where
  inv := Quiet
  keeps := Keeps
  answers := stopReplies
  refl := Keeps.refl
  trans := Keeps.trans

theorem respects_of (quiet : Quiet db')
    (projects : ∀ id project, db.projects.get id = some project →
      db'.projects.get id = some project ∨ .projectUpdate id ∈ held)
    (tasks : ∀ id task, db.tasks.get id = some task → db'.tasks.get id = some task ∨
      .taskUpdate id ∈ held ∧ ∃ task', db'.tasks.get id = some task' ∧ task'.projectId = task.projectId)
    (calmer : ∀ id project, db.projects.get id = some project → project.status ≠ .active → Calmer id db db') :
    stopDiscipline.Respects held db db' := by
  refine ⟨quiet, fun others apart => ⟨fun id project isHeld found => ?_, fun id task isHeld found => ?_, fun id task found => ?_,
    fun id project _ found other => calmer id project found other⟩⟩
  · refine (projects id project found).resolve_right fun mine => ?_
    rcases isHeld with isHeld | isHeld
    all_goals
      have clear := apart _ mine _ isHeld
      simp [stopSystem, StopLock.conflict] at clear
  · rcases tasks id task found with same | ⟨mine, -⟩
    · exact same
    · rcases isHeld with isHeld | isHeld
      all_goals
        have clear := apart _ mine _ isHeld
        simp [stopSystem, StopLock.conflict] at clear
  · rcases tasks id task found with same | ⟨-, changed⟩
    · exact ⟨task, same, rfl⟩
    · exact changed

theorem quiet_of_calmer (quiet : Quiet db) (projects : db'.projects = db.projects) (stops : db'.stops = db.stops)
    (calmer : ∀ id project, db.projects.get id = some project → project.status ≠ .active → Calmer id db db') :
    Quiet db' := by
  intro projectId project stop found isStopping request processed
  rw [projects] at found
  rw [stops] at request
  obtain ⟨noTask, noEntry⟩ := quiet projectId project stop found isStopping request processed
  have notActive : project.status ≠ .active := by
    rintro active
    rw [active] at isStopping
    revert isStopping
    decide
  have calm := calmer projectId project found notActive
  refine ⟨fun taskId active => noTask taskId (calm.tasks taskId active), fun taskId id inProject active => ?_⟩
  obtain ⟨inProject, active⟩ := calm.entries taskId id inProject active
  exact noEntry taskId id inProject active

/-! ### What the statements write -/

theorem get_setState (db : StopTables) (taskId : Uuid) (state : TaskState) (id : Uuid) :
    (db.setState taskId state).tasks.get id =
      (db.tasks.get id).map fun task => if decide (task.id = taskId) then { task with state } else task :=
  Keyed.get_update db.tasks (fun task => decide (task.id = taskId)) (fun task => { task with state }) (fun _ _ => rfl) id

theorem get_setState_of_found (found : db.tasks.get taskId = some task) (state : TaskState) (id : Uuid) :
    (db.setState taskId state).tasks.get id = if id = taskId then some { task with state } else db.tasks.get id := by
  rw [get_setState]
  split_ifs with same
  · rw [same, found, Option.map_some, if_pos (decide_eq_true (Keyed.key_of_get found))]
  · cases other : db.tasks.get id with
    | none => rfl
    | some row =>
      have isKey : row.id = id := Keyed.key_of_get other
      rw [Option.map_some, if_neg]
      simp [isKey, same]

variable {state : TaskState} {now : Instant} {id : ℤ} {next : StopTxn} {project : Project}

theorem inProject_setState {id : Uuid} :
    InProject (db.setState taskId state) projectId id ↔ InProject db projectId id := by
  unfold InProject
  rw [get_setState]
  constructor
  · rintro ⟨task, found, inProject⟩
    obtain ⟨old, there, rfl⟩ := Option.map_eq_some_iff.mp found
    refine ⟨old, there, inProject.symm.trans ?_ |>.symm⟩
    split_ifs <;> rfl
  · rintro ⟨task, found, inProject⟩
    rw [found, Option.map_some]
    refine ⟨_, rfl, ?_⟩
    split_ifs <;> exact inProject

theorem calmer_setState (found : db.tasks.get taskId = some task)
    (calm : task.state.isTerminal = false ∨ state.isTerminal = true ∨ task.projectId ≠ projectId) :
    Calmer projectId db (db.setState taskId state) := by
  refine ⟨fun id active => ?_, fun id entry inProject active => ⟨inProject_setState.mp inProject, active⟩⟩
  obtain ⟨row, there, inProject, runs⟩ := active
  rw [get_setState_of_found found] at there
  split_ifs at there with same
  · rw [Option.some.injEq] at there
    subst there same
    rcases calm with active | ends | apart
    · exact ⟨task, found, inProject, active⟩
    · rw [ends] at runs
      cases runs
    · exact absurd inProject apart
  · exact ⟨row, there, inProject, runs⟩

theorem get_cancelEntries (db : StopTables) (taskId : Uuid) (found : List ℤ) (now : Instant) (id : ℤ) :
    (db.cancelEntries taskId found now).entries.get id = (db.entries.get id).map fun entry =>
      if decide (entry.id ∈ found) && Tasks.TaskQueue.isActiveOf taskId entry then entry.cancel now else entry :=
  Keyed.get_update db.entries (fun entry => decide (entry.id ∈ found) && Tasks.TaskQueue.isActiveOf taskId entry)
    (fun entry => entry.cancel now) (fun _ _ => rfl) id

theorem isActiveOf_iff {entry : QueueEntryRow} :
    Tasks.TaskQueue.isActiveOf taskId entry = true ↔ entry.taskId = taskId ∧ entry.isActive = true := by
  unfold Tasks.TaskQueue.isActiveOf
  rw [Bool.and_eq_true, decide_eq_true_eq]

theorem cancel_inactive (entry : QueueEntryRow) (now : Instant) : (entry.cancel now).isActive = false := by
  simp [QueueEntryRow.cancel, QueueEntryRow.isActive]

theorem activeFor_cancelEntries {found : List ℤ} {other : Uuid}
    (active : ActiveFor (db.cancelEntries taskId found now) other id) :
    ActiveFor db other id ∧ ¬(id ∈ found ∧ other = taskId) := by
  obtain ⟨entry, there, ofTask, isActive⟩ := active
  rw [get_cancelEntries] at there
  obtain ⟨old, before, rfl⟩ := Option.map_eq_some_iff.mp there
  have isKey : old.id = id := Keyed.key_of_get before
  split_ifs at ofTask isActive with selected
  · rw [cancel_inactive] at isActive
    cases isActive
  · refine ⟨⟨old, before, ofTask, isActive⟩, fun inFound => selected ?_⟩
    rw [Bool.and_eq_true, decide_eq_true_eq, isActiveOf_iff, isKey]
    exact ⟨inFound.1, ofTask.trans inFound.2, isActive⟩

theorem calmer_cancelEntries (db : StopTables) (taskId : Uuid) (found : List ℤ) (now : Instant) :
    Calmer projectId db (db.cancelEntries taskId found now) :=
  ⟨fun _ active => active, fun _ _ inProject active => ⟨inProject, (activeFor_cancelEntries active).1⟩⟩

theorem mem_activeEntries (active : ActiveFor db taskId id) : id ∈ db.activeEntries taskId := by
  obtain ⟨entry, there, ofTask, isActive⟩ := active
  have isKey : entry.id = id := Keyed.key_of_get there
  exact mem_map.mpr ⟨entry, mem_filter.mpr ⟨Keyed.mem_of_get there, isActiveOf_iff.mpr ⟨ofTask, isActive⟩⟩, isKey⟩

theorem entry_cancelEntries {found : List ℤ} {entry : QueueEntryRow} (there : db.entries.get id = some entry) :
    (db.cancelEntries taskId found now).entries.get id = some entry ∨
      (entry.taskId = taskId ∧ entry.isActive = true) ∧
        (db.cancelEntries taskId found now).entries.get id = some (entry.cancel now) := by
  rw [get_cancelEntries, there, Option.map_some]
  split_ifs with selected
  · rw [Bool.and_eq_true, isActiveOf_iff] at selected
    exact .inr ⟨selected.2, rfl⟩
  · exact .inl rfl

/-! ### Parts of the transactions -/

theorem follows_shareLockStatus {next : Option ProjectStatus → StopTxn}
    (absent : ∀ db', Keeps held db db' → stopDiscipline.Follows held db' (next none))
    (there : ∀ db' project, Keeps held db db' → db'.projects.get projectId = some project →
      stopDiscipline.Follows (.projectShare projectId :: held) db' (next (some project.status))) :
    stopDiscipline.Follows held db (shareLockStatus projectId next) := by
  intro db' _ kept
  beta_reduce
  unfold StopTables.status
  obtain found | ⟨project, found⟩ := (db'.projects.get projectId).eq_none_or_eq_some
  · rw [if_pos (by rw [found]; rfl), found]
    exact absent db' kept
  · rw [if_neg (by simp [found]), found]
    exact there db' project kept found

theorem follows_requireActive
    (follows : ∀ db' project, Keeps held db db' → db'.projects.get projectId = some project → project.status = .active →
      stopDiscipline.Follows (.projectShare projectId :: held) db' next) :
    stopDiscipline.Follows held db (requireActive projectId next) := by
  refine follows_shareLockStatus (fun db' _ => ?_) fun db' project kept found => ?_
  · rw [if_pos (by simp)]
    trivial
  · by_cases active : project.status = .active
    · rw [if_neg (by simp [active])]
      exact follows db' project kept found active
    · rw [if_pos (by simpa using active)]
      trivial

theorem follows_requireStopping
    (follows : ∀ db' project, Keeps held db db' → db'.projects.get projectId = some project → project.status ∈ stopping →
      stopDiscipline.Follows (.projectShare projectId :: held) db' next) :
    stopDiscipline.Follows held db (requireStopping projectId next) := by
  refine follows_shareLockStatus (fun db' _ => trivial) fun db' project kept found => ?_
  dsimp only
  by_cases isStopping : project.status ∈ stopping
  · rw [if_neg (not_not.mpr isStopping)]
    exact follows db' project kept found isStopping
  · rw [if_pos isStopping]
    trivial

theorem follows_lockEntries {ids : List ℤ}
    (follows : ∀ more db', held ⊆ more → Keeps held db db' → stopDiscipline.Follows more db' next) :
    stopDiscipline.Follows held db (lockEntries next ids) := by
  induction ids generalizing held db with
  | nil => exact follows held db (List.Subset.refl held) (Keeps.refl held db)
  | cons id rest ih =>
    intro db₁ _ kept
    beta_reduce
    split_ifs
    · exact ih fun more db₂ fewer kept₂ => follows more db₂ fewer (Keeps.trans held kept kept₂)
    · refine ih fun more db₂ fewer kept₂ => ?_
      exact follows more db₂ (List.Subset.trans (subset_cons_self _ _) fewer)
        (Keeps.trans held kept (kept₂.subset (subset_cons_self _ _)))

theorem follows_cancelIn {commit : List ℤ → StopTxn}
    (follows : ∀ more db₁ db₂, held ⊆ more → Keeps held db db₁ → Keeps held db₁ db₂ →
      stopDiscipline.Follows more db₂ (commit (db₁.activeEntries taskId))) :
    stopDiscipline.Follows held db (cancelIn taskId commit) := by
  intro db₁ _ kept₁
  exact follows_lockEntries fun more db₂ fewer kept₂ => follows more db₁ db₂ fewer kept₁ kept₂

theorem follows_execute {command : TaskCommand} {waitReason : Option WaitReason} {refused : Bool}
    {next : Uuid → TaskState → StopTxn}
    (follows : ∀ more db' task plan, .taskUpdate taskId ∈ more → db'.tasks.get taskId = some task →
      Tasks.planTransition task.state command waitReason task.readOnly = .ok plan →
      (command ∈ gatedCommands → .projectShare task.projectId ∈ more ∧
        ∃ project, db'.projects.get task.projectId = some project ∧ project.status = .active) →
      stopDiscipline.Follows more db' (next task.projectId plan.target)) :
    stopDiscipline.Follows held db (execute taskId command waitReason refused next) := by
  intro db₁ _ _
  beta_reduce
  obtain found | ⟨task, found⟩ := (db₁.tasks.get taskId).eq_none_or_eq_some
  · rw [if_pos (by rw [found]; rfl), found]
    trivial
  rw [if_neg (by simp [found]), found]
  dsimp only
  cases planned : Tasks.planTransition task.state command waitReason task.readOnly with
  | error error => trivial
  | ok plan =>
    dsimp only
    by_cases gated : command ∈ gatedCommands
    · rw [if_pos gated]
      refine follows_requireActive fun db₂ project kept there active => ?_
      split_ifs
      · trivial
      · exact follows _ db₂ task plan (mem_cons_of_mem _ mem_cons_self)
          (kept.tasks taskId task (.inr mem_cons_self) found) planned
          fun _ => ⟨mem_cons_self, project, there, active⟩
    · rw [if_neg gated]
      split_ifs
      · trivial
      · exact follows _ db₁ task plan mem_cons_self found planned fun isGated => absurd isGated gated

theorem cancel_planned {readOnly : Bool} {plan : Tasks.TransitionPlan}
    (planned : Tasks.planTransition state .cancel none readOnly = .ok plan) :
    state.isTerminal = false ∧ plan.target = .cancelled := by
  obtain ⟨⟨rule, found, source, target⟩, -⟩ := Tasks.planTransition_eq_ok planned
  cases readOnly <;>
  · cases found
    exact ⟨by revert source; cases state <;> decide, target.symm⟩

theorem terminal_gated {command : TaskCommand} {waitReason : Option WaitReason} {readOnly : Bool}
    {plan : Tasks.TransitionPlan} (planned : Tasks.planTransition state command waitReason readOnly = .ok plan)
    (ended : state.isTerminal = true) : command ∈ gatedCommands := by
  obtain ⟨⟨rule, found, source, -⟩, -⟩ := Tasks.planTransition_eq_ok planned
  revert ended
  cases readOnly <;> cases command <;>
    first
      | exact fun _ => by decide
      | cases found
        revert source
        cases state <;> decide
      | cases found

/-! ### The stopper -/

theorem isStopping_of (found : db.projects.get projectId = some project)
    (isStopping : project.status ∈ stopping) : db.isStopping projectId = true := by
  unfold StopTables.isStopping StopTables.status
  rw [found]
  exact decide_eq_true isStopping

theorem not_active_of_stopping {status : ProjectStatus} (isStopping : status ∈ stopping) : status ≠ .active := by
  rintro rfl
  revert isStopping
  decide

theorem follows_skipped : stopDiscipline.Follows held db (.commit fun db => .ok (db, .skipped)) := by
  intro db' quiet _ db'' reply wrote
  cases wrote
  exact ⟨Discipline.respects_self quiet, rfl⟩

theorem follows_stopTask (refused : Bool) (now : Instant) :
    stopDiscipline.Follows held db (stopTask projectId taskId refused now) := by
  intro db₀ _ _
  dsimp only
  split_ifs
  · exact follows_skipped
  refine follows_execute fun more db₁ task plan taskHeld found planned _ => ?_
  obtain ⟨wasActive, target⟩ := cancel_planned planned
  refine follows_requireStopping fun db₂ project kept₂ there isStopping => ?_
  refine follows_cancelIn fun more' db₃ db₄ fewer kept₃ kept₄ => ?_
  intro db₅ quiet kept₅ db' reply wrote
  cases wrote
  have taskHeld' : .taskUpdate taskId ∈ more' := fewer (mem_cons_of_mem _ taskHeld)
  -- the project and the task are what they were when they were locked
  have since : Keeps (.projectShare task.projectId :: more) db₃ db₅ := Keeps.trans _ kept₄ (kept₅.subset fewer)
  have there₃ := kept₃.projects _ project (.inl mem_cons_self) there
  have there₅ := since.projects _ project (.inl mem_cons_self) there₃
  have found₃ := kept₃.tasks _ task (.inr (mem_cons_of_mem _ taskHeld)) (kept₂.tasks _ task (.inr taskHeld) found)
  have found₅ := since.tasks _ task (.inr (mem_cons_of_mem _ taskHeld)) found₃
  rw [target]
  have get := get_setState_of_found found₅ .cancelled
  have ended : ∀ entry, ¬ActiveFor ((db₅.setState taskId .cancelled).cancelEntries taskId (db₃.activeEntries taskId) now)
      taskId entry := by
    intro entry active
    obtain ⟨active₅, notFound⟩ := activeFor_cancelEntries active
    have calm := since.calmer _ project (.inl mem_cons_self) there₃ (not_active_of_stopping isStopping)
    have active₃ := (calm.entries taskId entry ⟨task, found₅, rfl⟩ active₅).2
    exact notFound ⟨mem_activeEntries active₃, rfl⟩
  have calmer : ∀ id, Calmer id db₅
      ((db₅.setState taskId .cancelled).cancelEntries taskId (db₃.activeEntries taskId) now) := fun id =>
    (calmer_setState found₅ (.inl wasActive)).trans (calmer_cancelEntries _ taskId _ now)
  refine ⟨?_, ⟨?_, ?_, rfl⟩, _, (get taskId).trans (if_pos rfl), rfl⟩
  · refine respects_of (quiet_of_calmer quiet rfl rfl fun id _ _ _ => calmer id) (fun _ _ found => .inl found)
      (fun id row old => ?_) fun id _ _ _ => calmer id
    by_cases same : id = taskId
    · subst same
      rw [found₅, Option.some.injEq] at old
      exact .inr ⟨taskHeld', _, (get id).trans (if_pos rfl), old ▸ rfl⟩
    · exact .inl ((get id).trans ((if_neg same).trans old))
  · intro id row old
    by_cases same : id = taskId
    · subst same
      rw [found₅, Option.some.injEq] at old
      subst old
      exact .inr ⟨wasActive, (get id).trans (if_pos rfl), isStopping_of there₅ isStopping, ended⟩
    · exact .inl ((get id).trans ((if_neg same).trans old))
  · intro id entry before
    have there : (db₅.setState taskId .cancelled).entries.get id = some entry := before
    refine (entry_cancelEntries there).imp_right fun ⟨⟨ofTask, isActive⟩, cancelled⟩ => ?_
    refine ⟨isActive, ⟨now, cancelled⟩, { task with state := .cancelled }, ?_, rfl, isStopping_of there₅ isStopping⟩
    rw [ofTask]
    exact (get taskId).trans (if_pos rfl)

theorem follows_cancelEntryOfFinishedTask (now : Instant) :
    stopDiscipline.Follows held db (cancelEntryOfFinishedTask projectId taskId now) := by
  intro db₀ _ _
  dsimp only
  by_cases listed : (db₀.isStopping projectId && db₀.taskIn projectId taskId fun _ => true) = false
  · rw [if_pos listed]
    exact follows_skipped
  rw [if_neg listed]
  rw [Bool.not_eq_false, Bool.and_eq_true] at listed
  obtain ⟨task₀, found₀, ofProject⟩ := (Option.any_eq_true _ _).mp listed.2
  rw [Bool.and_true, decide_eq_true_eq] at ofProject
  refine follows_requireStopping fun db₁ project kept₁ there isStopping => ?_
  intro db₂ _ kept₂
  beta_reduce
  by_cases ended : ((db₂.tasks.get taskId).any fun task => task.state.isTerminal) = false
  · rw [if_pos ended]
    have unchanged : ∀ more, stopDiscipline.Follows more db₂
        (.commit fun db => .ok (db, .entryOfFinished taskId false)) := by
      intro more db₃ quiet _ db' reply wrote
      cases wrote
      exact ⟨Discipline.respects_self quiet, StopperStep.refl _⟩
    split_ifs
    · exact unchanged _
    · exact unchanged _
  obtain ⟨task, found, isTerminal⟩ := (Option.any_eq_true _ _).mp (Bool.eq_true_of_not_eq_false ended)
  rw [if_neg ended, if_neg (by simp [found])]
  refine follows_cancelIn fun more db₃ db₄ fewer kept₃ kept₄ => ?_
  intro db₅ quiet kept₅ db' reply wrote
  cases wrote
  have since : Keeps (.taskShare taskId :: .projectShare projectId :: held) db₂ db₅ :=
    Keeps.trans _ (Keeps.trans _ kept₃ kept₄) (kept₅.subset fewer)
  have found₅ := since.tasks _ task (.inl mem_cons_self) found
  have there₅ := since.projects _ project (.inl (mem_cons_of_mem _ mem_cons_self))
    (kept₂.projects _ project (.inl mem_cons_self) there)
  have inProject : task.projectId = projectId := by
    obtain ⟨task₂, found₂, same⟩ := (Keeps.trans held kept₁ (kept₂.subset (subset_cons_self _ _))).stays _ task₀ found₀
    rw [found, Option.some.injEq] at found₂
    exact found₂ ▸ same.trans ofProject
  have calmer : ∀ id, Calmer id db₅ (db₅.cancelEntries taskId (db₃.activeEntries taskId) now) :=
    fun id => calmer_cancelEntries db₅ taskId _ now
  refine ⟨respects_of (quiet_of_calmer quiet rfl rfl fun id _ _ _ => calmer id) (fun _ _ old => .inl old)
    (fun _ _ old => .inl old) fun id _ _ _ => calmer id, fun _ _ old => .inl old, fun id entry before => ?_, rfl⟩
  refine (entry_cancelEntries before).imp_right fun listed => ?_
  obtain ⟨⟨ofTask, isActive⟩, cancelled⟩ := listed
  exact ⟨isActive, ⟨now, cancelled⟩, task, ofTask ▸ found₅, isTerminal, inProject ▸ isStopping_of there₅ isStopping⟩

/-! ### The end of a run -/

theorem hasActiveTask_iff : db.hasActiveTask projectId = true ↔ ∃ taskId, ActiveTask db projectId taskId := by
  unfold StopTables.hasActiveTask ActiveTask
  rw [any_eq_true]
  constructor
  · rintro ⟨task, member, active⟩
    rw [Bool.and_eq_true, decide_eq_true_eq, Bool.not_eq_true'] at active
    exact ⟨task.id, task, Keyed.get_self member, active⟩
  · rintro ⟨taskId, task, found, active⟩
    refine ⟨task, Keyed.mem_of_get found, ?_⟩
    rw [Bool.and_eq_true, decide_eq_true_eq, Bool.not_eq_true']
    exact active

theorem hasActiveQueueEntry_iff :
    db.hasActiveQueueEntry projectId = true ↔ ∃ taskId id, InProject db projectId taskId ∧ ActiveFor db taskId id := by
  unfold StopTables.hasActiveQueueEntry StopTables.taskIn InProject ActiveFor
  rw [any_eq_true]
  constructor
  · rintro ⟨entry, member, active⟩
    rw [Bool.and_eq_true] at active
    obtain ⟨task, found, ofProject⟩ := (Option.any_eq_true _ _).mp active.2
    rw [Bool.and_true, decide_eq_true_eq] at ofProject
    exact ⟨entry.taskId, entry.id, ⟨task, found, ofProject⟩, entry, Keyed.get_self member, rfl, active.1⟩
  · rintro ⟨taskId, id, ⟨task, found, ofProject⟩, entry, there, rfl, isActive⟩
    refine ⟨entry, Keyed.mem_of_get there, ?_⟩
    rw [Bool.and_eq_true]
    exact ⟨isActive, (Option.any_eq_true _ _).mpr ⟨task, found, by rw [Bool.and_true]; exact decide_eq_true ofProject⟩⟩

theorem respects_mark (quiet : Quiet db) (found : db.projects.get projectId = some project)
    (ended : project.status ∈ stopping → (∀ taskId, ¬ActiveTask db projectId taskId) ∧
      ∀ taskId id, InProject db projectId taskId → ¬ActiveFor db taskId id) :
    stopDiscipline.Respects held db (db.markTaskStopProcessed projectId now) := by
  refine respects_of (fun id row stop there isStopping request processed => ?_) (fun _ _ old => .inl old)
    (fun _ _ old => .inl old) fun id _ _ _ => calmer_of_eq rfl rfl
  by_cases same : id = projectId
  · subst same
    rw [show (db.markTaskStopProcessed id now).projects.get id = _ from found, Option.some.injEq] at there
    exact ended (there ▸ isStopping)
  · refine quiet id row stop there isStopping ?_ processed
    have written := Keyed.get_update db.stops (fun stop => decide (stop.projectId = projectId ∧ stop.processedAt = none))
      (fun stop => { stop with processedAt := some now }) (fun _ _ => rfl) id
    rw [show (db.markTaskStopProcessed projectId now).stops.get id = _ from written, Option.map_eq_some_iff] at request
    obtain ⟨old, before, rfl⟩ := request
    have isKey : old.projectId = id := Keyed.key_of_get before
    rw [before, if_neg (by simp [isKey, same])]

theorem follows_finish (now : Instant) : stopDiscipline.Follows held db (finish projectId now) := by
  refine follows_shareLockStatus (fun db' _ => trivial) fun db₁ project _ found => ?_
  have open_ : ∀ held db, stopDiscipline.Follows held db (.commit fun db => .ok (db, .finished projectId false)) := by
    intro held db db' quiet _ db'' reply wrote
    cases wrote
    exact ⟨Discipline.respects_self quiet, StopperStep.refl _⟩
  dsimp only
  split_ifs with isStopping
  · intro db₂ _ kept₂
    dsimp only
    split_ifs with active
    · exact open_ _ _
    intro db₃ _ kept₃
    dsimp only
    split_ifs with queued
    · exact open_ _ _
    intro db₄ quiet kept₄ db' reply wrote
    cases wrote
    -- under the lock of the project nothing became active since it was looked for
    have there₂ := kept₂.projects _ project (.inl mem_cons_self) found
    have there₃ := kept₃.projects _ project (.inl mem_cons_self) there₂
    have there₄ := kept₄.projects _ project (.inl mem_cons_self) there₃
    have live := not_active_of_stopping isStopping
    have calm₃ := kept₃.calmer _ project (.inl mem_cons_self) there₂ live
    have calm₄ := kept₄.calmer _ project (.inl mem_cons_self) there₃ live
    refine ⟨respects_mark quiet there₄ fun _ => ⟨fun taskId isActive => ?_, fun taskId id inProject isActive => ?_⟩,
      fun _ _ old => .inl old, fun _ _ old => .inl old, rfl⟩
    · exact active (hasActiveTask_iff.mpr ⟨taskId, calm₃.tasks taskId (calm₄.tasks taskId isActive)⟩)
    · exact queued (hasActiveQueueEntry_iff.mpr ⟨taskId, id, calm₄.entries taskId id inProject isActive⟩)
  · intro db₂ quiet kept₂ db' reply wrote
    cases wrote
    have there₂ := kept₂.projects _ project (.inl mem_cons_self) found
    exact ⟨respects_mark quiet there₂ fun never => absurd never isStopping, fun _ _ old => .inl old,
      fun _ _ old => .inl old, rfl⟩

/-! ### The others -/

theorem get_writeProject (db : StopTables) (projectId : Uuid) (write : Project → Project)
    (keeps : ∀ project, (write project).id = project.id) (id : Uuid) :
    (db.writeProject projectId write keeps).projects.get id =
      (db.projects.get id).map fun project => if decide (project.id = projectId) then write project else project :=
  Keyed.get_update db.projects (fun project => decide (project.id = projectId)) write (fun project _ => keeps project) id

theorem respects_writeProject {write : Project → Project}
    {keeps : ∀ project, (write project).id = project.id} {asks : Prop} [Decidable asks]
    (quiet : Quiet db) (locked : .projectUpdate projectId ∈ held) (found : db.projects.get projectId = some project)
    (asked : (write project).status ∈ stopping → project.status ∉ stopping → asks) :
    stopDiscipline.Respects held db
      (if asks then (db.writeProject projectId write keeps).requestTaskStop projectId now
        else db.writeProject projectId write keeps) := by
  have written := get_writeProject db projectId write keeps
  have projects : (if asks then (db.writeProject projectId write keeps).requestTaskStop projectId now
      else db.writeProject projectId write keeps).projects = (db.writeProject projectId write keeps).projects := by
    split_ifs <;> rfl
  have tasks : (if asks then (db.writeProject projectId write keeps).requestTaskStop projectId now
      else db.writeProject projectId write keeps).tasks = db.tasks := by
    split_ifs <;> rfl
  have entries : (if asks then (db.writeProject projectId write keeps).requestTaskStop projectId now
      else db.writeProject projectId write keeps).entries = db.entries := by
    split_ifs <;> rfl
  have stops : ∀ id, (if asks then (db.writeProject projectId write keeps).requestTaskStop projectId now
      else db.writeProject projectId write keeps).stops.get id =
        if asks ∧ id = projectId then some ⟨projectId, now, none⟩ else db.stops.get id := by
    intro id
    by_cases yes : asks
    · rw [if_pos yes]
      simp only [yes, true_and]
      exact Keyed.get_put _ _ id
    · rw [if_neg yes, if_neg fun both => yes both.1]
      rfl
  have calmer : ∀ id, Calmer id db (if asks then (db.writeProject projectId write keeps).requestTaskStop projectId now
      else db.writeProject projectId write keeps) := fun id => calmer_of_eq tasks entries
  generalize (if asks then (db.writeProject projectId write keeps).requestTaskStop projectId now
      else db.writeProject projectId write keeps) = db' at projects tasks entries stops calmer ⊢
  refine respects_of (fun id row stop there isStopping request processed => ?_) (fun id row old => ?_)
    (fun id row old => .inl (tasks ▸ old)) fun id _ _ _ => calmer id
  · rw [stops] at request
    split_ifs at request with here
    · rw [Option.some.injEq] at request
      exact absurd (request ▸ rfl) processed
    · have before : ∃ old, db.projects.get id = some old ∧ old.status ∈ stopping := by
        rw [projects, written, Option.map_eq_some_iff] at there
        obtain ⟨old, before, rfl⟩ := there
        have isKey : old.id = id := Keyed.key_of_get before
        refine ⟨old, before, ?_⟩
        split_ifs at isStopping with same
        · rw [decide_eq_true_eq, isKey] at same
          subst same
          rw [found, Option.some.injEq] at before
          subst before
          by_contra notBefore
          exact here ⟨asked isStopping notBefore, rfl⟩
        · exact isStopping
      obtain ⟨old, before, wasStopping⟩ := before
      obtain ⟨noTask, noEntry⟩ := quiet id old stop before wasStopping request processed
      refine ⟨fun taskId active => noTask taskId ((calmer id).tasks taskId active), fun taskId entry inProject active => ?_⟩
      obtain ⟨inProject, active⟩ := (calmer id).entries taskId entry inProject active
      exact noEntry taskId entry inProject active
  · by_cases same : id = projectId
    · exact .inr (same ▸ locked)
    · left
      have isKey : row.id = id := Keyed.key_of_get old
      rw [projects, written, old, Option.map_some, if_neg (by simp [isKey, same])]

theorem lifecycleRow_status (action : LifecycleAction) (newStatus : ProjectStatus) (now : Instant) (project : Project) :
    (lifecycleRow action newStatus now project).status = newStatus := by
  cases action <;> rfl

theorem lifecycle_asks {status : ProjectStatus} {action : LifecycleAction} {plan : TransitionPlan}
    (planned : planTransition status action = some plan) (isStopping : plan.newStatus ∈ stopping)
    (live : status ∉ stopping) : action = .beginDeletion := by
  cases status <;> cases action <;> first
    | rfl
    | exact absurd (by decide) live
    | cases planned
      exact absurd isStopping (by decide)
    | cases planned

theorem follows_lifecycle (action : LifecycleAction) (refused : Bool) (now : Instant) :
    stopDiscipline.Follows held db (lifecycle projectId action refused now) := by
  intro db₁ _ _
  beta_reduce
  obtain found | ⟨project, found⟩ := (db₁.projects.get projectId).eq_none_or_eq_some
  · rw [if_pos (by rw [found]; rfl), found]
    trivial
  rw [if_neg (by simp [found]), found]
  dsimp only
  cases planned : planTransition project.status action with
  | none => trivial
  | some plan =>
    dsimp only
    by_cases refusal : refused = true
    · rw [if_pos refusal]
      trivial
    rw [if_neg refusal]
    by_cases unchanged : plan.changed = false
    · rw [if_pos unchanged]
      intro db₂ quiet _ db' reply wrote
      cases wrote
      exact ⟨Discipline.respects_self quiet, trivial⟩
    rw [if_neg unchanged]
    by_cases closed : action = .restore ∧
        project.deletionScheduledAt.any (fun deadline => restoreWindowOpen deadline now) = false
    · rw [if_pos closed]
      trivial
    rw [if_neg closed]
    by_cases early : action = .purge ∧ project.deletionScheduledAt.any (fun deadline => decide (deadline ≤ now)) = false
    · rw [if_pos early]
      trivial
    rw [if_neg early]
    intro db₂ quiet kept db' reply wrote
    cases wrote
    have found₂ := kept.projects _ project (.inr mem_cons_self) found
    refine ⟨?_, trivial⟩
    refine respects_writeProject quiet mem_cons_self found₂ fun isStopping live => ?_
    rw [lifecycleRow_status] at isStopping
    exact lifecycle_asks planned isStopping live

theorem follows_createTask (readOnly refused : Bool) :
    stopDiscipline.Follows held db (createTask projectId taskId readOnly refused) := by
  refine follows_requireActive fun db₁ project kept found active => ?_
  split_ifs
  · trivial
  intro db₂ quiet kept₂ db' reply wrote
  dsimp only at wrote
  have found₂ := kept₂.projects _ project (.inl mem_cons_self) found
  cases added : db₂.tasks.tryInsert ⟨taskId, projectId, .queued, readOnly⟩ with
  | none =>
    rw [added] at wrote
    cases wrote
  | some tasks =>
    rw [added] at wrote
    cases wrote
    have get := Keyed.get_of_tryInsert added
    have fresh := Keyed.fresh_of_tryInsert added
    have calmer : ∀ id row, db₂.projects.get id = some row → row.status ≠ .active → Calmer id db₂ { db₂ with tasks } := by
      intro id row there notActive
      have other : id ≠ projectId := by
        rintro rfl
        rw [found₂, Option.some.injEq] at there
        exact notActive (there ▸ active)
      have old : ∀ task k, tasks.get k = some task → task.projectId = id → db₂.tasks.get k = some task := by
        intro task k here inProject
        rw [get] at here
        split_ifs at here with same
        · rw [Option.some.injEq] at here
          exact absurd (here ▸ inProject).symm other
        · exact here
      refine ⟨fun k active => ?_, fun k entry inProject active => ?_⟩
      · obtain ⟨task, here, inProject, runs⟩ := active
        exact ⟨task, old task k here inProject, inProject, runs⟩
      · obtain ⟨task, here, inProject⟩ := inProject
        exact ⟨⟨task, old task k here inProject, inProject⟩, active⟩
    refine ⟨respects_of (quiet_of_calmer quiet rfl rfl calmer) (fun _ _ old => .inl old) (fun id row old => .inl ?_) calmer,
      trivial⟩
    have other : id ≠ taskId := by
      rintro rfl
      rw [fresh] at old
      cases old
    exact (get id).trans ((if_neg other).trans old)

theorem follows_executeCommand (command : TaskCommand) (waitReason : Option Tasks.WaitReason) (refused : Bool) :
    stopDiscipline.Follows held db (executeCommand taskId command waitReason refused) := by
  refine follows_execute fun more db₁ task plan locked found planned gated => ?_
  intro db₂ quiet kept db' reply wrote
  cases wrote
  have found₂ := kept.tasks _ task (.inr locked) found
  have get := get_setState_of_found found₂ plan.target
  have calmer : ∀ id row, db₂.projects.get id = some row → row.status ≠ .active →
      Calmer id db₂ (db₂.setState taskId plan.target) := by
    intro id row there notActive
    refine calmer_setState found₂ ?_
    cases ended : task.state.isTerminal with
    | false => exact .inl rfl
    | true =>
      -- the gate holds the project, and it is Active
      obtain ⟨projectHeld, project, before, active⟩ := gated (terminal_gated planned ended)
      have now := kept.projects _ project (.inl projectHeld) before
      refine .inr (.inr fun same => notActive ?_)
      rw [← same, now, Option.some.injEq] at there
      exact there ▸ active
  refine ⟨respects_of (quiet_of_calmer quiet rfl rfl calmer) (fun _ _ old => .inl old) (fun id row old => ?_) calmer, trivial⟩
  by_cases same : id = taskId
  · subst same
    rw [found₂, Option.some.injEq] at old
    exact .inr ⟨locked, _, (get id).trans (if_pos rfl), old ▸ rfl⟩
  · exact .inl ((get id).trans ((if_neg same).trans old))

theorem follows_enqueue (id : ℤ) (priority : Priority) (now : Instant) :
    stopDiscipline.Follows held db (enqueue taskId id priority now) := by
  intro db₀ _ _
  dsimp only
  cases found : db₀.tasks.get taskId with
  | none => trivial
  | some task =>
    refine follows_requireActive fun db₁ project kept₁ there active => ?_
    intro db₂ quiet kept₂ db' reply wrote
    dsimp only at wrote
    have there₂ := kept₂.projects _ project (.inl mem_cons_self) there
    have projectOf : ∀ other, InProject db₂ other taskId → other = task.projectId := by
      rintro other ⟨task₂, found₂, same⟩
      obtain ⟨task', found', same'⟩ :=
        (Keeps.trans held kept₁ (kept₂.subset (subset_cons_self _ _))).stays taskId task found
      rw [found₂, Option.some.injEq] at found'
      exact same.symm.trans (found' ▸ same')
    split_ifs at wrote
    cases added : db₂.entries.tryInsert (newEntry id taskId priority now) with
    | none =>
      rw [added] at wrote
      cases wrote
    | some entries =>
      rw [added] at wrote
      cases wrote
      have get := Keyed.get_of_tryInsert added
      have calmer : ∀ k row, db₂.projects.get k = some row → row.status ≠ .active → Calmer k db₂ { db₂ with entries } := by
        intro k row here notActive
        refine ⟨fun _ active => active, fun other e inProject ⟨entry, inTable, ofTask, isActive⟩ => ?_⟩
        rw [show ({ db₂ with entries } : StopTables).entries.get e = _ from get e] at inTable
        split_ifs at inTable with same
        · -- the new entry is of a task of an Active project
          rw [Option.some.injEq] at inTable
          subst inTable
          have ofNew : taskId = other := ofTask
          subst ofNew
          have isProject := projectOf k inProject
          subst isProject
          rw [there₂, Option.some.injEq] at here
          exact absurd (here ▸ active) notActive
        · exact ⟨inProject, entry, inTable, ofTask, isActive⟩
      exact ⟨respects_of (quiet_of_calmer quiet rfl rfl calmer) (fun _ _ old => .inl old) (fun _ _ old => .inl old) calmer,
        trivial⟩

theorem respects_newProject {row : Project} {projects : Keyed Project.id} (quiet : Quiet db) (active : row.status = .active)
    (added : db.projects.tryInsert row = some projects) : stopDiscipline.Respects held db { db with projects } := by
  have get := Keyed.get_of_tryInsert added
  have fresh := Keyed.fresh_of_tryInsert added
  refine respects_of (fun id project stop there isStopping request processed => ?_) (fun id project old => .inl ?_)
    (fun _ _ old => .inl old) fun id _ _ _ => calmer_of_eq rfl rfl
  · rw [show ({ db with projects } : StopTables).projects.get id = _ from get id] at there
    split_ifs at there
    · rw [Option.some.injEq] at there
      exact absurd (there ▸ active) (not_active_of_stopping isStopping)
    · exact quiet id project stop there isStopping request processed
  · have other : id ≠ row.id := by
      rintro rfl
      rw [fresh] at old
      cases old
    exact (get id).trans ((if_neg other).trans old)

theorem respects_move (quiet : Quiet db) (id : ℤ) (move : EntryMove) :
    stopDiscipline.Respects held db ((StopChange.entry id move).apply db) := by
  have get : ∀ k, ((StopChange.entry id move).apply db).entries.get k = (db.entries.get k).map fun entry =>
      if decide (entry.id = id) && entry.isActive then move.write entry else entry := fun k =>
    Keyed.get_update db.entries (fun entry => decide (entry.id = id) && entry.isActive) move.write
      (fun entry _ => move.write_id entry) k
  have calmer : ∀ k, Calmer k db ((StopChange.entry id move).apply db) := by
    refine fun k => ⟨fun _ active => active, fun taskId e inProject ⟨entry, there, ofTask, isActive⟩ => ⟨inProject, ?_⟩⟩
    rw [get, Option.map_eq_some_iff] at there
    obtain ⟨old, before, rfl⟩ := there
    split_ifs at ofTask isActive with moved
    · rw [Bool.and_eq_true] at moved
      have sameTask : (move.write old).taskId = old.taskId := by cases move <;> rfl
      exact ⟨old, before, sameTask.symm.trans ofTask, moved.2⟩
    · exact ⟨old, before, ofTask, isActive⟩
  exact respects_of (quiet_of_calmer quiet rfl rfl fun k _ _ _ => calmer k) (fun _ _ old => .inl old)
    (fun _ _ old => .inl old) fun k _ _ _ => calmer k

theorem stop_obeyed : stopDiscipline.Obeyed where
  programs operation db _ := by
    cases operation with
    | stopTask projectId taskId refused now => exact follows_stopTask refused now
    | cancelEntryOfFinishedTask projectId taskId now => exact follows_cancelEntryOfFinishedTask now
    | finish projectId now => exact follows_finish now
    | lifecycle projectId action refused now => exact follows_lifecycle action refused now
    | createTask projectId taskId readOnly refused => exact follows_createTask readOnly refused
    | execute taskId command waitReason refused => exact follows_executeCommand command waitReason refused
    | enqueue taskId id priority now => exact follows_enqueue id priority now
  ambient change db quiet := by
    cases change with
    | project row =>
      simp only [stopSystem, StopChange.apply]
      split_ifs with active
      · cases added : db.projects.tryInsert row with
        | none => exact Discipline.respects_self quiet
        | some projects => exact respects_newProject quiet active added
      · exact Discipline.respects_self quiet
    | entry id move => exact respects_move quiet id move

/-! ### The stopper -/

def noRows (db : StopTables) : Prop :=
  db.projects.rows = [] ∧ db.stops.rows = [] ∧ db.tasks.rows = [] ∧ db.entries.rows = []

theorem quiet_of_noRows (none : noRows db) : Quiet db := by
  intro projectId project stop found
  unfold Keyed.get at found
  rw [none.1] at found
  cases found

abbrev stopRuns : Machine (World StopTables StopLock StopFailure StopReply) (Happening StopOperation StopChange) :=
  stopSystem.machine noRows

def StopReply.ofStopper : StopReply → Bool
  | .stopped _ _ | .entryOfFinished _ _ | .finished _ _ | .skipped => true
  | _ => false

/-- **The stopper cancels only what is being deleted, each task with its entry and no entry of a task that goes on; and
once a request was processed, nothing of the project is active until it is restored.** -/
theorem stopper_safe {w : World StopTables StopLock StopFailure StopReply} (reach : stopRuns.Reachable w) :
    Quiet w.db ∧ ∀ i w' session reply, stopSystem.step w (.advance i) = some w' → w'.sessions[i]? = some session →
      session.phase = .ended (.ok reply) → reply.ofStopper = true →
        StopperStep w.db w'.db ∧
          ∀ taskId entry, reply = .stopped taskId entry →
            ∃ task, w'.db.tasks.get taskId = some task ∧ task.state = .cancelled := by
  have sound := Discipline.sound_of_reachable stop_obeyed (fun _ => quiet_of_noRows) reach
  refine ⟨sound.inv, fun i w' session reply taken ended phase ofStopper => ?_⟩
  have answered : stopReplies w.db w'.db reply := sound.answered taken ended phase
  cases reply with
  | stopped taskId entry => exact ⟨answered.1, fun _ _ same => by cases same; exact answered.2⟩
  | entryOfFinished | finished => exact ⟨answered, nofun⟩
  | skipped => exact ⟨(show w'.db = w.db from answered) ▸ StopperStep.refl _, nofun⟩
  | project | task | entry => cases ofStopper

/-! ### A task that is stopped with its entry -/

namespace Sample

def start : World StopTables StopLock StopFailure StopReply := ⟨⟨.empty, .empty, .empty, .empty⟩, []⟩

def events : List (Happening StopOperation StopChange) :=
  .ambient (.project { id := 1, name := [80], status := .active, createdBy := none }) ::
  .begin (.createTask 1 2 false false) :: List.replicate 2 (.advance 0) ++
  .begin (.enqueue 2 1 .normal 0) :: List.replicate 3 (.advance 1) ++
  .begin (.lifecycle 1 .beginDeletion false 3) :: List.replicate 2 (.advance 2) ++
  .begin (.stopTask 1 2 false 5) :: List.replicate 5 (.advance 3)

def stop : Option (World StopTables StopLock StopFailure StopReply) := stopRuns.run start events

theorem stop_commits :
    stop.any (fun w => !(w.db.activeEntries 2).isEmpty && (stopSystem.step w (.advance 3)).any fun w' =>
      (w'.sessions[3]?).any fun session => decide (session.value = some (.stopped 2 true))) = true := by decide

end Sample

/-- The step that stops the sample's task and its entry is one of the stopper. -/
theorem stopper_safe_sample :
    ∃ w w' : World StopTables StopLock StopFailure StopReply, stopRuns.Reachable w ∧ (w.db.activeEntries 2).isEmpty = false ∧ StopperStep w.db w'.db ∧
      ∃ task, w'.db.tasks.get 2 = some task ∧ task.state = .cancelled := by
  obtain ⟨w, ran, there⟩ := (Option.any_eq_true _ _).mp Sample.stop_commits
  rw [Bool.and_eq_true, Bool.not_eq_true'] at there
  obtain ⟨w', taken, ends⟩ := (Option.any_eq_true _ _).mp there.2
  obtain ⟨session, ended, value⟩ := (Option.any_eq_true _ _).mp ends
  have reach : stopRuns.Reachable w := .run (.start ⟨⟨rfl, rfl, rfl, rfl⟩, rfl⟩) ran
  have safe := (stopper_safe reach).2 3 w' session _ taken ended
    (session.phase_of_value (of_decide_eq_true value)) rfl
  exact ⟨w, w', reach, there.1, safe.1, safe.2 2 true rfl⟩

end PawBackend.Projects.TaskStop
