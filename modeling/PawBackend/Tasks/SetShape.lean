/-
**The shape of a Working Set** (`tasks/service.py`: `create_task`, `change_working_set`, `execute`).

A task that runs has a target, a read-only one only reads, no Working Set is too large, and every member has a state
in the current attempt that has seen its role.
-/

import PawBackend.Tasks.Members

namespace PawBackend.Tasks

open Lib List
open Tools (Uuid Instant TaskRun)

/-- What every accepted call keeps of a Working Set. -/
structure Formed (db : TaskDb) : Prop where
  unborn : db.task = none → db.repositories.rows = [] ∧ db.attemptRepositories.rows = []
  targeted : ∀ task, db.task = some task → task.readOnly = false →
    task.state = .running ∨ task.state = .evaluating → ∃ id, db.role id = some .target
  referenced : ∀ task, db.task = some task → task.readOnly = true →
    ∀ id role, db.role id = some role → role = .referenced
  few : db.members.length ≤ TaskDb.maxWorkingSetRepositories
  stated : ∀ task, db.task = some task → ∀ id role, db.role id = some role →
    ∃ state, db.attemptRepositoryRow task id = some state ∧ role.strength ≤ state.strongestRole.strength
  attempts : ∀ task, db.task = some task → ∀ key state, db.attemptRepositories.get key = some state →
    key.1 ≤ task.attempt

theorem formed_empty : Formed .empty where
  unborn _ := ⟨rfl, rfl⟩
  targeted := by rintro _ ⟨⟩
  referenced := by rintro _ ⟨⟩
  few := Nat.zero_le _
  stated := by rintro _ ⟨⟩
  attempts := by rintro _ ⟨⟩

theorem Steps.toEvaluating {readOnly : Bool} {command : TaskCommand} {source : TaskState}
    (step : Steps readOnly command source .evaluating) : source = .running := by
  obtain ⟨rule, found, mem, leads⟩ := step
  cases readOnly <;> cases command <;> simp [table, transitions, readOnlyTransitions] at found <;>
    subst found <;> simp_all

structure Grown (t u : Keyed TaskAttemptRepositoryRow.key) : Prop where
  keys : ∀ key, (u.get key).isSome = (t.get key).isSome
  strongest : ∀ key state, t.get key = some state →
    ∃ state', u.get key = some state' ∧ state.strongestRole.strength ≤ state'.strongestRole.strength

theorem Grown.refl (t : Keyed TaskAttemptRepositoryRow.key) : Grown t t :=
  ⟨fun _ => rfl, fun _ state found => ⟨state, found, le_refl _⟩⟩

theorem Grown.of_map {t u : Keyed TaskAttemptRepositoryRow.key}
    {f : ℕ × Uuid → TaskAttemptRepositoryRow → TaskAttemptRepositoryRow}
    (mapped : ∀ key, u.get key = (t.get key).map (f key))
    (grows : ∀ key state, state.strongestRole.strength ≤ (f key state).strongestRole.strength) :
    Grown t u := by
  constructor
  · intro key
    rw [mapped, Option.isSome_map]
  · intro key state found
    exact ⟨f key state, by rw [mapped, found, Option.map_some], grows key state⟩

theorem grown_updated {db : TaskDb} {row : TaskAttemptRepositoryRow} {key : ℕ × Uuid}
    (there : db.attemptRepositories.get key = some row) (update : TaskDb.AttemptUpdate) (now : Instant) :
    Grown db.attemptRepositories
      (db.attemptRepositories.put (TaskDb.updatedState row update now)) := by
  have isKey : (TaskDb.updatedState row update now).key = key := Keyed.key_of_get (a := row) there
  constructor
  · intro other
    rw [Keyed.get_put, isKey]
    split_ifs with this
    · rw [this, there]
      rfl
    · rfl
  · intro other state found
    rw [Keyed.get_put, isKey]
    split_ifs with this
    · rw [this, there, Option.some.injEq] at found
      exact ⟨_, rfl, by rw [← found]; exact le_refl _⟩
    · exact ⟨state, found, le_refl _⟩

theorem Admitted.grown {task : TaskRow} {use : TaskDb.RepositoryUse} {env : Surroundings} {ids : List Uuid}
    {db after : TaskDb} (admitted : Admitted task use env ids db after) :
    Grown db.attemptRepositories after.attemptRepositories := by
  refine .of_map (f := fun key row =>
    if marksChanged use.capability use.executes = true ∧ key.1 = task.attempt ∧ key.2 ∈ ids then
      TaskDb.admittedState row ((db.role key.2).getD .referenced) env.now
    else row) ?_ ?_
  · intro key
    rw [admitted.states key]
    split_ifs
    · rfl
    · rw [Option.map_id']
  · intro key state
    split_ifs
    · exact (RepoRole.le_stronger _ _).2
    · exact le_refl _

theorem grown_unknown (t : Keyed TaskAttemptRepositoryRow.key) (touched : TaskAttemptRepositoryRow → Bool)
    (now : Instant) :
    Grown t (t.update touched (fun state => TaskDb.unknownState state now) fun _ _ => rfl) := by
  refine .of_map (f := fun _ row => if touched row then TaskDb.unknownState row now else row) ?_ ?_
  · exact get_unknown t touched now
  · intro key state
    split_ifs
    · exact le_refl _
    · exact le_refl _

/-! ### One call -/

section Calls

variable {db after : TaskDb} {env : Surroundings}

theorem Formed.grow (kept : Formed db) (repositories : after.repositories = db.repositories)
    (place : after.task.map (fun task => (task.state, task.readOnly, task.attempt)) =
      db.task.map fun task => (task.state, task.readOnly, task.attempt))
    (grown : Grown db.attemptRepositories after.attemptRepositories) : Formed after := by
  have sameRole := role_congr repositories
  have before : ∀ {task}, after.task = some task → ∃ old, db.task = some old ∧
      old.state = task.state ∧ old.readOnly = task.readOnly ∧ old.attempt = task.attempt := by
    intro task found
    rw [found, Option.map_some] at place
    obtain ⟨old, isOld, same⟩ := Option.map_eq_some_iff.mp place.symm
    simp only [Prod.mk.injEq] at same
    exact ⟨old, isOld, same⟩
  refine ⟨?_, ?_, ?_, ?_, ?_, ?_⟩
  · intro absent
    rw [absent, Option.map_none, eq_comm, Option.map_eq_none_iff] at place
    obtain ⟨noMembers, noStates⟩ := kept.unborn place
    refine ⟨by rw [repositories, noMembers], eq_nil_iff_forall_not_mem.mpr fun row mem => ?_⟩
    have keys := grown.keys row.key
    rw [Keyed.get_self mem, Keyed.get_eq_none.mpr (by simp [noStates])] at keys
    cases keys
  · intro task found writes active
    obtain ⟨old, isOld, state, readOnly, -⟩ := before found
    simpa only [sameRole] using kept.targeted old isOld (readOnly ▸ writes) (state ▸ active)
  · intro task found reads id role held
    obtain ⟨old, isOld, -, readOnly, -⟩ := before found
    rw [sameRole] at held
    exact kept.referenced old isOld (readOnly ▸ reads) id role held
  · rw [members_congr repositories]
    exact kept.few
  · intro task found id role held
    obtain ⟨old, isOld, -, -, attempt⟩ := before found
    rw [sameRole] at held
    obtain ⟨state, isState, seen⟩ := kept.stated old isOld id role held
    obtain ⟨state', isState', more⟩ := grown.strongest _ _ isState
    refine ⟨state', ?_, seen.trans more⟩
    rw [TaskDb.attemptRepositoryRow, ← attempt]
    exact isState'
  · intro task found key state isState
    obtain ⟨old, isOld, -, -, attempt⟩ := before found
    have keys := grown.keys key
    rw [isState] at keys
    obtain ⟨state', isState'⟩ := Option.isSome_iff_exists.mp keys.symm
    rw [← attempt]
    exact kept.attempts old isOld key state' isState'

theorem Formed.create {new : TaskDb.NewTask} {repositories : Keyed TaskRepositoryRow.repositoryId}
    {states : Keyed TaskAttemptRepositoryRow.key} (kept : Formed db) (absent : db.task = none)
    (shape : WorkingSetChecked new.repositories new.readOnly)
    (added : db.repositories.insertAll
      (new.repositories.map fun entry => entry.row new.createdBy env.now) = some repositories)
    (fresh : db.attemptRepositories.insertAll (TaskDb.attemptRowsFor 1
      (new.repositories.map fun entry => entry.row new.createdBy env.now) env.now) = some states)
    (isTask : after.task = some (TaskDb.createdRow new env.now)) (isMembers : after.repositories = repositories)
    (isStates : after.attemptRepositories = states) : Formed after := by
  obtain ⟨noMembers, noStates⟩ := kept.unborn absent
  have members : after.members = new.repositories.map fun entry => entry.row new.createdBy env.now := by
    unfold TaskDb.members
    rw [isMembers, Keyed.rows_of_insertAll added, noMembers, nil_append, filter_eq_self]
    intro row mem
    obtain ⟨entry, -, rfl⟩ := mem_map.mp mem
    rfl
  have entryOf : ∀ {id role}, after.role id = some role →
      ∃ entry ∈ new.repositories, entry.repositoryId = id ∧ entry.role = role := by
    intro id role held
    obtain ⟨row, mem, isId, isRole⟩ := role_eq_some.mp held
    rw [members] at mem
    obtain ⟨entry, isEntry, rfl⟩ := mem_map.mp mem
    exact ⟨entry, isEntry, isId, isRole⟩
  refine ⟨?_, ?_, ?_, ?_, ?_, ?_⟩
  · rw [isTask]
    rintro ⟨⟩
  · rw [isTask]
    rintro _ ⟨⟩ _ (active | active)
    · cases active
    · cases active
  · rw [isTask]
    rintro _ ⟨⟩ reads id role held
    obtain ⟨entry, isEntry, -, rfl⟩ := entryOf held
    exact (shape.readOnlyShape reads).2 entry isEntry
  · rw [members, length_map]
    exact shape.few
  · rw [isTask]
    rintro _ ⟨⟩ id role held
    obtain ⟨row, mem, rfl, rfl⟩ := role_eq_some.mp held
    rw [members] at mem
    rw [TaskDb.attemptRepositoryRow, isStates]
    rcases get_attemptRows fresh (1, row.repositoryId) with ⟨-, none⟩ | ⟨other, isMember, same, found⟩
    · exact absurd rfl (none row mem)
    · refine ⟨_, found, ?_⟩
      rw [Prod.mk.injEq] at same
      have otherRole : after.role other.repositoryId = some other.role := role_of_mem (members ▸ isMember)
      rw [← same.2, held, Option.some.injEq] at otherRole
      rw [TaskDb.freshState, otherRole]
  · rw [isTask]
    rintro _ ⟨⟩ key state found
    rw [isStates] at found
    rcases get_attemptRows fresh key with ⟨same, -⟩ | ⟨row, -, rfl, -⟩
    · rw [same, Keyed.get_eq_none.mpr (by simp [noStates])] at found
      cases found
    · exact le_refl _

theorem Formed.execute {command : TaskCommand} {args : TaskDb.CommandArguments} {task : TaskRow}
    {plan : TransitionPlan} {states : Keyed TaskAttemptRepositoryRow.key} (kept : Formed db)
    (judged : CommandJudged db task command args env plan)
    (fresh : if command = .restart then db.attemptRepositories.insertAll
        (TaskDb.attemptRowsFor (task.attempt + 1) db.members env.now) = some states
      else states = db.attemptRepositories)
    (isTask : after.task = some (TaskDb.commandedRow task command args plan env.now))
    (isMembers : after.repositories = db.repositories) (isStates : after.attemptRepositories = states) :
    Formed after := by
  have sameRole := role_congr isMembers
  refine ⟨?_, ?_, ?_, ?_, ?_, ?_⟩
  · rw [isTask]
    rintro ⟨⟩
  · rw [isTask]
    rintro _ ⟨⟩ writes active
    simp only [sameRole]
    rcases active with running | evaluating
    · obtain ⟨row, mem, isTarget⟩ := judged.targeted running writes
      exact ⟨row.repositoryId, by rw [role_of_mem mem, isTarget]⟩
    · have steps := (planTransition_eq_ok judged.planned).1
      rw [show plan.target = .evaluating from evaluating] at steps
      exact kept.targeted task judged.found writes (.inl steps.toEvaluating)
  · rw [isTask]
    rintro _ ⟨⟩ reads id role held
    rw [sameRole] at held
    exact kept.referenced task judged.found reads id role held
  · rw [members_congr isMembers]
    exact kept.few
  · rw [isTask]
    rintro _ ⟨⟩ id role held
    rw [sameRole] at held
    rw [TaskDb.attemptRepositoryRow, isStates]
    show ∃ state, states.get (if command = .restart then task.attempt + 1 else task.attempt, id) = _ ∧ _
    split_ifs at fresh ⊢ with restarts
    · obtain ⟨row, mem, rfl, rfl⟩ := role_eq_some.mp held
      rcases get_attemptRows fresh (task.attempt + 1, row.repositoryId) with
        ⟨-, none⟩ | ⟨other, isMember, same, found⟩
      · exact absurd rfl (none row mem)
      · refine ⟨_, found, ?_⟩
        rw [Prod.mk.injEq] at same
        have otherRole := role_of_mem isMember
        rw [← same.2, held, Option.some.injEq] at otherRole
        rw [TaskDb.freshState, otherRole]
    · rw [fresh]
      exact kept.stated task judged.found id role held
  · rw [isTask]
    rintro _ ⟨⟩ key state found
    rw [isStates] at found
    show key.1 ≤ if command = .restart then task.attempt + 1 else task.attempt
    split_ifs at fresh ⊢ with restarts
    · rcases get_attemptRows fresh key with ⟨same, -⟩ | ⟨row, -, rfl, -⟩
      · rw [same] at found
        exact (kept.attempts task judged.found key state found).trans (Nat.le_succ _)
      · exact le_refl _
    · rw [fresh] at found
      exact kept.attempts task judged.found key state found

theorem changedState_seen {task : TaskRow} {change : TaskDb.WorkingSetChange} {role : RepoRole}
    (leaves : roleAfter change.operation = some role) (discarded : Option RepositoryChangeState) (now : Instant)
    (row : Option TaskAttemptRepositoryRow) :
    ∃ state, changedState task change discarded now row = some state ∧
      role.strength ≤ state.strongestRole.strength := by
  unfold changedState
  cases row with
  | none => exact ⟨_, by rw [leaves]; rfl, le_refl _⟩
  | some row =>
    dsimp only
    split_ifs with gone
    · exact ⟨_, rfl, by rw [leaves]; exact le_refl _⟩
    · rw [leaves]
      dsimp only
      split_ifs with weaker
      · exact ⟨_, rfl, le_refl _⟩
      · exact ⟨_, rfl, not_lt.mp weaker⟩

theorem length_members_changed {change : TaskDb.WorkingSetChange} {now : Instant}
    (room : db.role change.repositoryId = none → db.members.length < TaskDb.maxWorkingSetRepositories)
    (few : db.members.length ≤ TaskDb.maxWorkingSetRepositories)
    (put : after.repositories = db.repositories.put (db.changedRepository change now)) :
    after.members.length ≤ TaskDb.maxWorkingSetRepositories := by
  unfold TaskDb.members at room few ⊢
  rw [← countP_eq_length_filter] at room few ⊢
  rw [put]
  cases held : db.role change.repositoryId with
  | none => exact (Keyed.countP_put_le _ _ _).trans (room held)
  | some role =>
    obtain ⟨row, isMember, -⟩ := Option.map_eq_some_iff.mp held
    obtain ⟨found, present⟩ := Option.filter_eq_some_iff.mp isMember
    exact (Keyed.countP_put_le_of_counted _ (db.changedRepository change now) _ found present).trans few

theorem Formed.change {task : TaskRow} {change : TaskDb.WorkingSetChange}
    {discarded : Option RepositoryChangeState} (kept : Formed db)
    (judged : ChangeJudged db task change env discarded)
    (isTask : after.task = some (TaskDb.stampedRow task env.now))
    (put : after.repositories = db.repositories.put (db.changedRepository change env.now))
    (isStates : after.attemptRepositories = db.changedStates task change discarded env.now) :
    Formed after := by
  have newRole := role_changed put
  refine ⟨?_, ?_, ?_, length_members_changed judged.room kept.few put, ?_, ?_⟩
  · rw [isTask]
    rintro ⟨⟩
  · rw [isTask]
    rintro _ ⟨⟩ writes active
    simp only [newRole]
    obtain ⟨id, held⟩ := kept.targeted task judged.found writes active
    by_cases this : id = change.repositoryId
    · by_cases stays : roleAfter change.operation = some .target
      · exact ⟨id, by rw [if_pos this, stays]⟩
      · -- The target that goes is not the only one.
        obtain ⟨row, mem, isTarget, other⟩ := judged.keepsTarget (this ▸ held) stays
        exact ⟨row.repositoryId, by rw [if_neg other, role_of_mem mem, isTarget]⟩
    · exact ⟨id, by rw [if_neg this, held]⟩
  · rw [isTask]
    rintro _ ⟨⟩ reads id role held
    rw [newRole] at held
    split_ifs at held with this
    · obtain ⟨notWorking, notTarget⟩ := judged.readOnly reads
      cases role with
      | referenced => rfl
      | working => exact absurd held notWorking
      | target => exact absurd held notTarget
    · exact kept.referenced task judged.found reads id role held
  · rw [isTask]
    rintro _ ⟨⟩ id role held
    rw [newRole] at held
    rw [TaskDb.attemptRepositoryRow, isStates, get_changedStates]
    split_ifs at held with this
    · rw [if_pos (show (_, id) = (_, change.repositoryId) by rw [this]; rfl)]
      exact changedState_seen held discarded env.now _
    · rw [if_neg fun same => this (congrArg Prod.snd same)]
      exact kept.stated task judged.found id role held
  · rw [isTask]
    rintro _ ⟨⟩ key state found
    rw [isStates, get_changedStates] at found
    split_ifs at found with this
    · exact (congrArg Prod.fst this).le
    · exact kept.attempts task judged.found key state found

theorem Formed.accepted {call : TaskCall} {answer : TaskAnswer} (kept : Formed db)
    (done : Accepted db env call answer after) : Formed after := by
  cases done with
  | create absent shape members fresh wrote => exact kept.create absent shape members fresh rfl rfl rfl
  | execute judged wrote fresh =>
    exact kept.execute judged fresh rfl (closed_frame _ _ _ _).1 rfl
  | beginStep | finishStep | beginToolInvocation | finishToolInvocation | addLog | release =>
    exact kept.grow rfl rfl (.refl _)
  | updateAttempt found current there unreserved => exact kept.grow rfl rfl (grown_updated there _ _)
  | changeWorkingSet judged wrote => exact kept.change judged rfl rfl rfl
  | admitUse found current active admitted =>
    have spec := admitted_of_foldlM admitted
    exact kept.grow spec.frame.repositories (by rw [spec.frame.task]) spec.grown
  | releaseStale found wrote =>
    exact kept.grow rfl (by rw [found]; rfl) (grown_unknown _ _ _)

end Calls

/-! ### Runs -/

theorem formed_of_reachable {t : TaskTrace} (reach : taskService.Reachable t) : Formed t.db := by
  refine taskService_invariant (P := fun t => Formed t.db) formed_empty ?_ ?_ reach
  · intro t call env error kept _
    exact kept
  · intro t call env answer after kept done
    exact kept.accepted (accepted_of_perform done)

def Moment.dropsLast (moment : Moment) : Prop :=
  ∃ change task, moment.call = .changeWorkingSet change ∧ change.operation = .remove ∧
    moment.before.task = some task ∧ task.readOnly = true ∧
    ∀ row ∈ moment.before.members, row.repositoryId = change.repositoryId

def Reads (db : TaskDb) : Prop :=
  ∀ task, db.task = some task → task.readOnly = true → ∃ id role, db.role id = some role

theorem Reads.frame {db after : TaskDb} (kept : Reads db) (repositories : after.repositories = db.repositories)
    (same : after.task.map TaskRow.readOnly = db.task.map TaskRow.readOnly) : Reads after := by
  intro task found reads
  rw [found, Option.map_some, eq_comm, Option.map_eq_some_iff] at same
  obtain ⟨old, isOld, readOnly⟩ := same
  simpa only [role_congr repositories] using kept old isOld (readOnly.trans reads)

theorem Reads.change {db after : TaskDb} {task : TaskRow} {change : TaskDb.WorkingSetChange} {env : Surroundings}
    {discarded : Option RepositoryChangeState} (judged : ChangeJudged db task change env discarded)
    (another : ¬Moment.dropsLast ⟨db, .changeWorkingSet change, env⟩)
    (isTask : after.task = some (TaskDb.stampedRow task env.now))
    (put : after.repositories = db.repositories.put (db.changedRepository change env.now)) : Reads after := by
  have newRole := role_changed put
  rw [Reads, isTask]
  rintro _ ⟨⟩ reads
  cases leaves : roleAfter change.operation with
  | some role => exact ⟨change.repositoryId, role, by rw [newRole, if_pos rfl, leaves]⟩
  | none =>
    have removes : change.operation = .remove := by
      cases isOperation : change.operation <;> rw [isOperation] at leaves <;> first | rfl | cases leaves
    by_contra none
    refine another ⟨change, task, rfl, removes, judged.found, reads, fun row mem => ?_⟩
    by_contra other
    exact none ⟨row.repositoryId, row.role, by rw [newRole, if_neg other, role_of_mem mem]⟩

theorem Reads.accepted {db after : TaskDb} {env : Surroundings} {call : TaskCall} {answer : TaskAnswer}
    (kept : Reads db) (formed : Formed db) (done : Accepted db env call answer after)
    (another : ¬Moment.dropsLast ⟨db, call, env⟩) : Reads after := by
  cases done with
  | @create new event repositories states absent shape members fresh wrote =>
    rintro _ ⟨⟩ reads
    obtain ⟨entry, isEntry⟩ := exists_mem_of_ne_nil _ (shape.readOnlyShape reads).1
    refine ⟨entry.repositoryId, entry.role, role_eq_some.mpr ⟨entry.row new.createdBy env.now, ?_, rfl, rfl⟩⟩
    refine mem_filter.mpr ⟨?_, rfl⟩
    rw [Keyed.rows_of_insertAll members, (formed.unborn absent).1]
    exact mem_map.mpr ⟨entry, isEntry, rfl⟩
  | execute judged wrote fresh =>
    exact kept.frame (closed_frame _ _ _ _).1 (by rw [judged.found]; rfl)
  | beginStep | finishStep | beginToolInvocation | finishToolInvocation | addLog | updateAttempt | release =>
    exact kept.frame rfl rfl
  | changeWorkingSet judged wrote => exact .change judged another rfl rfl
  | admitUse found current active admitted =>
    have frame := admitFrame_of_foldlM admitted
    exact kept.frame frame.repositories (by rw [frame.task])
  | releaseStale found wrote => exact kept.frame rfl (by rw [found]; rfl)

theorem reads_of_reachable {t : TaskTrace} (reach : taskService.Reachable t)
    (kept : ∀ moment ∈ t.past, ¬moment.dropsLast) : Reads t.db := by
  refine (taskService_invariant (P := fun t => Formed t.db ∧
    ((∀ moment ∈ t.past, ¬moment.dropsLast) → Reads t.db)) ⟨formed_empty, ?_⟩ ?_ ?_ reach).2 kept
  · rintro - _ ⟨⟩
  · rintro t call env error ⟨formed, reads⟩ _
    exact ⟨formed, fun kept => reads (forall_mem_cons.mp kept).2⟩
  · rintro t call env answer after ⟨formed, reads⟩ done
    have accepted := accepted_of_perform done
    refine ⟨formed.accepted accepted, fun kept => ?_⟩
    obtain ⟨last, earlier⟩ := forall_mem_cons.mp kept
    exact (reads earlier).accepted formed accepted last

/-- What the Working Set of a task looks like. -/
structure Shape (db : TaskDb) (task : TaskRow) : Prop where
  targeted : task.readOnly = false → task.state = .running ∨ task.state = .evaluating →
    ∃ row ∈ db.members, row.role = .target
  readOnly : task.readOnly = true → db.members ≠ [] ∧ ∀ row ∈ db.members, row.role = .referenced
  few : db.members.length ≤ TaskDb.maxWorkingSetRepositories
  stated : ∀ row ∈ db.members, ∃ state, db.attemptRepositoryRow task row.repositoryId = some state ∧
    row.role.strength ≤ state.strongestRole.strength

/-- **The shape of a Working Set.** After any calls none of which took the only repository from a
read-only task: a task that writes and runs or is evaluated has a target, a read-only one has
repositories, all of them `referenced`, there are never too many members, and each of them has a state
in the current attempt that has seen its role. -/
theorem working_set_shape {t : TaskTrace} (reach : taskService.Reachable t)
    (kept : ∀ moment ∈ t.past, ¬moment.dropsLast) {task : TaskRow} (found : t.db.task = some task) :
    Shape t.db task := by
  have formed := formed_of_reachable reach
  refine ⟨?_, ?_, formed.few, ?_⟩
  · intro writes active
    obtain ⟨id, held⟩ := formed.targeted task found writes active
    obtain ⟨row, member, -, isTarget⟩ := role_eq_some.mp held
    exact ⟨row, member, isTarget⟩
  · intro reads
    obtain ⟨id, role, held⟩ := reads_of_reachable reach kept task found reads
    obtain ⟨row, member, -⟩ := role_eq_some.mp held
    refine ⟨ne_nil_of_mem member, fun row member => ?_⟩
    exact formed.referenced task found reads _ _ (role_of_mem member)
  · intro row member
    exact formed.stated task found _ _ (role_of_mem member)

def readingTask (repositories : List Uuid) : TaskCall × Surroundings :=
  (.create
    { createdBy := 1, title := Text.lit "t", readOnly := true
      repositories := repositories.map fun id => ⟨id, .referenced, none⟩ },
    { now := 1, judgedAt := 1 })

def removal : TaskCall × Surroundings :=
  (.changeWorkingSet
    { operation := .remove, repositoryId := 7, actor := .system, expectedRole := some .referenced },
    { now := 2, judgedAt := 2 })

theorem twoReferences_shape :
    ∃ task, (served [readingTask [7, 8], removal]).db.task = some task ∧
      Shape (served [readingTask [7, 8], removal]).db task := by
  refine ⟨{ state := .queued, waitReason := none, agent := none, model := none, attempt := 1
            retryCount := 0, readOnly := true, version := 2, updatedAt := 2 }, rfl, ?_⟩
  refine working_set_shape (served_reachable _) ?_ rfl
  refine forall_mem_cons.mpr ⟨?_, forall_mem_cons.mpr ⟨?_, by simp⟩⟩
  · rintro ⟨change, task, ⟨⟩, -, -, -, only⟩
    have other := only ⟨8, .referenced, none, .user 1, 1, 1, none⟩ (by decide)
    exact absurd other (by decide)
  · rintro ⟨change, task, isCall, -⟩
    cases isCall

/-- The only repository of a read-only task is removed like any other. -/
theorem lastReference_removed :
    ¬ ∀ t, taskService.Reachable t → ∀ task, t.db.task = some task → Shape t.db task := by
  intro claimed
  have shape := claimed _ (served_reachable [readingTask [7], removal])
    { state := .queued, waitReason := none, agent := none, model := none, attempt := 1
      retryCount := 0, readOnly := true, version := 2, updatedAt := 2 } rfl
  exact (shape.readOnly rfl).1 (by decide)

end PawBackend.Tasks
