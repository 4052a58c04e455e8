/-
**The rows of a Working Set, call by call** (`tasks/service.py`: `change_working_set`,
`admit_repository_use`, and the rows `create_task` and Restart add).

What `get` finds in the tables of members, attempt states and reservations after an accepted call. The
results on Working Sets read these and no table.

* `role_changed`, `get_changedStates`: a change of the Working Set touches one repository.
-/

import PawBackend.Tasks.Calls

namespace PawBackend.Tasks

open Lib List
open Tools (Uuid Instant TaskRun)

/-! ### Members and roles -/

section Members

variable {db after : TaskDb} {repositoryId : Uuid}

theorem member_eq_some {row : TaskRepositoryRow} :
    db.member repositoryId = some row ↔ row ∈ db.members ∧ row.repositoryId = repositoryId := by
  unfold TaskDb.member TaskDb.members
  rw [Option.filter_eq_some_iff, Keyed.get_eq_some, mem_filter]
  constructor
  · rintro ⟨⟨member, isId⟩, present⟩
    exact ⟨⟨member, present⟩, isId⟩
  · rintro ⟨⟨member, present⟩, isId⟩
    exact ⟨⟨member, isId⟩, present⟩

theorem role_eq_some {role : RepoRole} :
    db.role repositoryId = some role ↔
      ∃ row ∈ db.members, row.repositoryId = repositoryId ∧ row.role = role := by
  unfold TaskDb.role
  rw [Option.map_eq_some_iff]
  constructor
  · rintro ⟨row, found, isRole⟩
    obtain ⟨mem, isId⟩ := member_eq_some.mp found
    exact ⟨row, mem, isId, isRole⟩
  · rintro ⟨row, mem, isId, isRole⟩
    exact ⟨row, member_eq_some.mpr ⟨mem, isId⟩, isRole⟩

theorem role_of_mem {row : TaskRepositoryRow} (mem : row ∈ db.members) :
    db.role row.repositoryId = some row.role :=
  role_eq_some.mpr ⟨row, mem, rfl, rfl⟩

theorem role_congr (same : after.repositories = db.repositories) (repositoryId : Uuid) :
    after.role repositoryId = db.role repositoryId := by
  unfold TaskDb.role TaskDb.member
  rw [same]

theorem members_congr (same : after.repositories = db.repositories) : after.members = db.members := by
  unfold TaskDb.members
  rw [same]

end Members

/-! ### A change of the Working Set -/

section Changes

variable {db after : TaskDb} {task : TaskRow} {change : TaskDb.WorkingSetChange} {now : Instant}

theorem role_changed (put : after.repositories = db.repositories.put (db.changedRepository change now))
    (repositoryId : Uuid) :
    after.role repositoryId =
      if repositoryId = change.repositoryId then roleAfter change.operation else db.role repositoryId := by
  unfold TaskDb.role TaskDb.member
  rw [put, Keyed.get_put]
  show Option.map _ (Option.filter _ (if repositoryId = change.repositoryId then _ else _)) = _
  split_ifs with this
  · cases leaves : roleAfter change.operation with
    | none | some => simp [TaskDb.changedRepository, leaves]
  · rfl

def changedState (task : TaskRow) (change : TaskDb.WorkingSetChange)
    (discarded : Option RepositoryChangeState) (now : Instant) :
    Option TaskAttemptRepositoryRow → Option TaskAttemptRepositoryRow
  | none => (roleAfter change.operation).map (TaskDb.freshState task.attempt now change.repositoryId)
  | some row =>
    if discarded.isSome then
      some
        { row with
          modified := false, strongestRole := (roleAfter change.operation).getD .referenced
          updatedAt := now }
    else
      match roleAfter change.operation with
      | none => some row
      | some role =>
        if row.strongestRole.strength < role.strength then
          some { row with strongestRole := role, updatedAt := now }
        else some row

theorem get_changedStates (discarded : Option RepositoryChangeState) (key : ℕ × Uuid) :
    (db.changedStates task change discarded now).get key =
      if key = (task.attempt, change.repositoryId) then
        changedState task change discarded now (db.attemptRepositoryRow task change.repositoryId)
      else db.attemptRepositories.get key := by
  have put : ∀ row : TaskAttemptRepositoryRow, row.key = (task.attempt, change.repositoryId) →
      (db.attemptRepositories.put row).get key =
        if key = (task.attempt, change.repositoryId) then some row else db.attemptRepositories.get key := by
    intro row isKey
    rw [Keyed.get_put, isKey]
  have stays : db.attemptRepositories.get key =
      if key = (task.attempt, change.repositoryId) then db.attemptRepositoryRow task change.repositoryId
      else db.attemptRepositories.get key := by
    split_ifs with this
    · rw [this]
      rfl
    · rfl
  unfold TaskDb.changedStates
  cases found : db.attemptRepositoryRow task change.repositoryId with
  | none =>
    rw [found] at stays
    unfold changedState
    dsimp only
    cases roleAfter change.operation with
    | none => exact stays
    | some role => exact put _ rfl
  | some row =>
    have isKey : row.key = (task.attempt, change.repositoryId) := Keyed.key_of_get found
    rw [found] at stays
    unfold changedState
    dsimp only
    by_cases gone : discarded.isSome = true
    · simp only [gone, if_true]
      exact put _ isKey
    · simp only [gone]
      cases roleAfter change.operation with
      | none => exact stays
      | some role =>
        dsimp only
        by_cases weaker : row.strongestRole.strength < role.strength
        · simp only [weaker, if_true]
          exact put _ isKey
        · simp only [weaker, if_false]
          exact stays

theorem strength_of_widens {operation : WorkingSetOperation} {role : RepoRole}
    (widens : narrows operation = false) (accepts : acceptsRole operation (some role) = true) :
    ∃ new, roleAfter operation = some new ∧ role.strength ≤ new.strength := by
  cases operation <;> cases role <;> simp_all [narrows, acceptsRole, roleAfter, WorkingSetOperation.rule,
    RepoRole.strength]

end Changes

/-! ### Creation and Restart -/

section Fresh

variable {db after : TaskDb}

theorem get_of_insertAll_of_some {α κ : Type} [DecidableEq κ] {key : α → κ} {t u : Keyed key} {l : List α}
    (added : t.insertAll l = some u) {k : κ} {a : α} (found : t.get k = some a) : u.get k = some a := by
  rcases Keyed.get_of_insertAll added k with ⟨same, -⟩ | ⟨_, -, -, -, absent⟩
  · rw [same, found]
  · rw [found] at absent
    cases absent

theorem get_attemptRows {t u : Keyed TaskAttemptRepositoryRow.key} {attempt : ℕ}
    {members : List TaskRepositoryRow} {now : Instant}
    (added : t.insertAll (TaskDb.attemptRowsFor attempt members now) = some u) (key : ℕ × Uuid) :
    (u.get key = t.get key ∧ ∀ row ∈ members, (attempt, row.repositoryId) ≠ key) ∨
      ∃ row ∈ members, key = (attempt, row.repositoryId) ∧
        u.get key = some (TaskDb.freshState attempt now row.repositoryId row.role) := by
  unfold TaskDb.attemptRowsFor at added
  rcases Keyed.get_of_insertAll added key with ⟨same, absent⟩ | ⟨state, mem, isKey, found, -⟩
  · refine .inl ⟨same, fun row mem => ?_⟩
    exact absent _ (mem_map.mpr ⟨row, mem, rfl⟩)
  · obtain ⟨row, isMember, rfl⟩ := mem_map.mp mem
    exact .inr ⟨row, isMember, isKey.symm, found⟩

theorem get_unknown (t : Keyed TaskAttemptRepositoryRow.key) (touched : TaskAttemptRepositoryRow → Bool)
    (now : Instant) (key : ℕ × Uuid) :
    (t.update touched (fun state => TaskDb.unknownState state now) fun _ _ => rfl).get key =
      (t.get key).map fun state => if touched state then TaskDb.unknownState state now else state :=
  Keyed.get_update _ _ _ _ key

theorem closed_frame (db : TaskDb) (task : TaskRow) (command : TaskCommand) (now : Instant) :
    (db.closed task command now).repositories = db.repositories ∧
      (db.closed task command now).writes = db.writes := by
  unfold TaskDb.closed
  cases TaskDb.closing command (db.latestStep task.attempt) with
  | none => exact ⟨rfl, rfl⟩
  | some closing =>
    show (db.closeStep closing.1 closing.2 now).repositories = _ ∧ (db.closeStep closing.1 closing.2 now).writes = _
    unfold TaskDb.closeStep
    split_ifs
    · exact ⟨rfl, rfl⟩
    · exact ⟨rfl, rfl⟩

end Fresh

/-! ### Admissions -/

theorem RepoRole.le_stronger (role strongest : RepoRole) :
    role.strength ≤ (role.stronger strongest).strength ∧
      strongest.strength ≤ (role.stronger strongest).strength := by
  unfold RepoRole.stronger
  split_ifs with weaker
  · exact ⟨le_refl _, weaker.le⟩
  · exact ⟨not_lt.mp weaker, le_refl _⟩

theorem RepoRole.stronger_stronger (role strongest : RepoRole) :
    role.stronger (role.stronger strongest) = role.stronger strongest := by
  have above := (role.le_stronger strongest).1
  rw [RepoRole.stronger, if_neg (not_lt.mpr above)]

theorem admittedState_admittedState (row : TaskAttemptRepositoryRow) (role : RepoRole) (now : Instant) :
    TaskDb.admittedState (TaskDb.admittedState row role now) role now = TaskDb.admittedState row role now := by
  simp only [TaskDb.admittedState, RepoRole.stronger_stronger]

/-- What an accepted admission of some repositories found and wrote. -/
structure Admitted (task : TaskRow) (use : TaskDb.RepositoryUse) (env : Surroundings) (ids : List Uuid)
    (db after : TaskDb) : Prop where
  frame : AdmitFrame db after
  allowed : ∀ id ∈ ids, ∃ role, db.role id = some role ∧ roleAllows role use.capability use.executes = true
  stated : ∀ id ∈ ids, (db.attemptRepositoryRow task id).isSome = true
  states : ∀ key, after.attemptRepositories.get key =
    if marksChanged use.capability use.executes = true ∧ key.1 = task.attempt ∧ key.2 ∈ ids then
      (db.attemptRepositories.get key).map fun row =>
        TaskDb.admittedState row ((db.role key.2).getD .referenced) env.now
    else db.attemptRepositories.get key
  writes : ∀ key, after.writes.get key =
    if marksChanged use.capability use.executes = true ∧ key.1 = env.freshId ∧ key.2 ∈ ids then
      some (TaskDb.reservationRow task env.freshId key.2 env.now)
    else db.writes.get key
  fresh : marksChanged use.capability use.executes = true →
    ∀ id ∈ ids, db.writes.get (env.freshId, id) = none

theorem Admitted.nil (task : TaskRow) (use : TaskDb.RepositoryUse) (env : Surroundings) (db : TaskDb) :
    Admitted task use env [] db db where
  frame := .refl db
  allowed := by simp
  stated := by simp
  states := by simp
  writes := by simp
  fresh := by simp

theorem Admitted.cons {task : TaskRow} {use : TaskDb.RepositoryUse} {env : Surroundings} {id : Uuid}
    {ids : List Uuid} {db mid after : TaskDb} (first : TaskDb.admitOne task use env db id = .ok mid)
    (rest : Admitted task use env ids mid after) : Admitted task use env (id :: ids) db after := by
  have step := (AdmitFrame.refl db).admitOne first
  have sameRole : ∀ id, mid.role id = db.role id := role_congr step.repositories
  obtain ⟨mem, state, isMember, isState, allowed, done⟩ := admitOne_eq_ok first
  have isRole : db.role id = some mem.role := by rw [TaskDb.role, isMember, Option.map_some]
  have isState' : db.attemptRepositories.get (task.attempt, id) = some state := isState
  rcases done with ⟨reads, rfl⟩ | ⟨changes, writes, added, rfl⟩
  · -- A use that changes nothing leaves the rows.
    refine ⟨rest.frame, ?_, ?_, ?_, ?_, ?_⟩
    · exact forall_mem_cons.mpr ⟨⟨_, isRole, allowed⟩, rest.allowed⟩
    · exact forall_mem_cons.mpr ⟨by rw [isState]; rfl, rest.stated⟩
    · intro key
      rw [rest.states key, if_neg (by simp [reads]), if_neg (by simp [reads])]
    · intro key
      rw [rest.writes key, if_neg (by simp [reads]), if_neg (by simp [reads])]
    · intro changes
      rw [reads] at changes
      cases changes
  · have stateKey : state.key = (task.attempt, id) := Keyed.key_of_get isState
    have midState : ∀ key, (db.attemptRepositories.put
        (TaskDb.admittedState state mem.role env.now)).get key =
          if key = (task.attempt, id) then some (TaskDb.admittedState state mem.role env.now)
          else db.attemptRepositories.get key := by
      intro key
      rw [Keyed.get_put]
      show (if key = state.key then _ else _) = _
      rw [stateKey]
    have midWrite : ∀ key, writes.get key = if key = (env.freshId, id) then
        some (TaskDb.reservationRow task env.freshId id env.now) else db.writes.get key :=
      Keyed.get_of_tryInsert added
    refine ⟨⟨rest.frame.task, rest.frame.repositories, rest.frame.steps, rest.frame.invocations,
      rest.frame.events, rest.frame.logs⟩, ?_, ?_, ?_, ?_, ?_⟩
    · exact forall_mem_cons.mpr ⟨⟨_, isRole, allowed⟩, rest.allowed⟩
    · refine forall_mem_cons.mpr ⟨by rw [isState]; rfl, fun other mem => ?_⟩
      have stated := rest.stated other mem
      by_cases same : other = id
      · rw [same, isState]
        rfl
      · have before := midState (task.attempt, other)
        rw [if_neg (by simpa using same)] at before
        rw [TaskDb.attemptRepositoryRow, ← before]
        exact stated
    · rintro ⟨attempt, other⟩
      rw [rest.states (attempt, other), midState (attempt, other)]
      simp only [sameRole, changes, true_and, Prod.mk.injEq, mem_cons]
      by_cases isAttempt : attempt = task.attempt
      · subst isAttempt
        by_cases same : other = id
        · subst same
          by_cases again : other ∈ ids
          · simp [again, isRole, isState', admittedState_admittedState]
          · simp [again, isRole, isState']
        · simp [same]
      · simp [isAttempt]
    · rintro ⟨reservation, other⟩
      rw [rest.writes (reservation, other), midWrite (reservation, other)]
      simp only [changes, true_and, Prod.mk.injEq, mem_cons]
      by_cases isFresh : reservation = env.freshId
      · by_cases same : other = id
        · simp [isFresh, same]
        · simp [isFresh, same]
      · simp [isFresh]
    · intro _
      refine forall_mem_cons.mpr ⟨Keyed.fresh_of_tryInsert added, fun other mem => ?_⟩
      have absent := rest.fresh changes other mem
      have before := midWrite (env.freshId, other)
      dsimp only at absent
      rw [absent] at before
      split_ifs at before
      exact before.symm

theorem admitted_of_foldlM {task : TaskRow} {use : TaskDb.RepositoryUse} {env : Surroundings}
    {db after : TaskDb} {ids : List Uuid}
    (done : ids.foldlM (TaskDb.admitOne task use env) db = .ok after) :
    Admitted task use env ids db after := by
  induction ids generalizing db with
  | nil =>
    rw [foldlM_nil, pure_eq_ok] at done
    rw [done]
    exact .nil task use env after
  | cons id rest ih =>
    rw [foldlM_cons, bind_eq_ok] at done
    obtain ⟨mid, first, others⟩ := done
    exact .cons first (ih others)

end PawBackend.Tasks
