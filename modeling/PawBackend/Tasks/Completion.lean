/-
**Complete is sound for tasks that change repositories** (`tasks/service.py`: `_require_completion`;
`tasks/working_set.py`: the obligations).

Complete judges the state rows of the attempt. What they say is traced back to the calls of the past: a
result was recorded by a call after which no write was admitted to the repository, a write that was
admitted is remembered until it is verifiably discarded, and so are the roles the repository held.

* `StateStep` is what one call makes of a state row.
* `Traced` is what the state rows say of the past, in every run.
-/

import PawBackend.Tasks.History
import PawBackend.Tasks.Reservations
import PawBackend.Tasks.SetShape

namespace PawBackend.Tasks

open Lib List
open Tools (Uuid Instant TaskRun)

/-! ### Calls of the past -/

def Moment.accepted (moment : Moment) : Prop := ∃ answer, moment.answer = .ok answer

def Moment.inAttempt (moment : Moment) (attempt : ℕ) : Prop :=
  moment.before.task.map TaskRow.attempt = some attempt

def Moment.admitsChange (moment : Moment) (repositoryId : Uuid) : Prop :=
  ∃ use : TaskDb.RepositoryUse, moment.call = .admitUse use ∧ repositoryId ∈ use.repositoryIds ∧
    marksChanged use.capability use.executes = true ∧ moment.accepted

def Moment.discards (moment : Moment) (repositoryId : Uuid) : Prop :=
  ∃ change task found, moment.call = .changeWorkingSet change ∧ change.repositoryId = repositoryId ∧
    moment.before.task = some task ∧
    moment.before.requireDiscarded task change moment.env = .ok (some found) ∧ moment.accepted

def Moment.records (moment : Moment) (repositoryId : Uuid) (review : ReviewState) : Prop :=
  ∃ run update, moment.call = .updateAttempt run update ∧ update.repositoryId = repositoryId ∧
    update.review = some review ∧ moment.accepted

def TaskAttemptRepositoryRow.review (row : TaskAttemptRepositoryRow) : ReviewState :=
  ⟨row.reviewStatus, row.evaluationResult⟩

theorem accepted_moment {db : TaskDb} {env : Surroundings} {call : TaskCall} {answer : TaskAnswer}
    {after : TaskDb} (done : db.perform env call = .ok (answer, after)) :
    Moment.accepted ⟨db, call, env⟩ :=
  ⟨answer, answer_of_perform done⟩

/-! ### One call -/

structure StateStep (moment : Moment) (repositoryId : Uuid) (state state' : TaskAttemptRepositoryRow) :
    Prop where
  strongest : ¬moment.discards repositoryId → state.strongestRole.strength ≤ state'.strongestRole.strength
  modified : ¬moment.discards repositoryId → state.modified = true → state'.modified = true
  review : state'.review = {} ∨ moment.records repositoryId state'.review ∨
    (state'.review = state.review ∧ ¬moment.admitsChange repositoryId)

theorem StateStep.refl {moment : Moment} (other : ∀ use, moment.call ≠ .admitUse use) (repositoryId : Uuid)
    (state : TaskAttemptRepositoryRow) : StateStep moment repositoryId state state where
  strongest _ := le_refl _
  modified _ := id
  review := .inr (.inr ⟨rfl, fun ⟨use, isCall, _⟩ => other use isCall⟩)

section Calls

variable {db after : TaskDb} {env : Surroundings} {call : TaskCall} {answer : TaskAnswer} {task : TaskRow}
  {repositoryId : Uuid} {state : TaskAttemptRepositoryRow}

theorem StateStep.update {moment : Moment} {run : TaskRun} {update : TaskDb.AttemptUpdate} {now : Instant}
    (isCall : moment.call = .updateAttempt run update) (isRepository : update.repositoryId = repositoryId)
    (accepted : moment.accepted) :
    StateStep moment repositoryId state (TaskDb.updatedState state update now) := by
  refine ⟨fun _ => le_refl _, fun _ => id, ?_⟩
  have other : ¬moment.admitsChange repositoryId := by
    rintro ⟨use, isUse, -⟩
    rw [isCall] at isUse
    cases isUse
  unfold TaskAttemptRepositoryRow.review TaskDb.updatedState
  cases given : update.review with
  | some review => exact .inr (.inl ⟨run, update, isCall, isRepository, given, accepted⟩)
  | none =>
    dsimp only
    split_ifs
    · exact .inl rfl
    · exact .inr (.inr ⟨rfl, other⟩)

theorem StateStep.change {change : TaskDb.WorkingSetChange} {discarded : Option RepositoryChangeState}
    (judged : ChangeJudged db task change env discarded) (isRepository : repositoryId = change.repositoryId)
    (accepted : Moment.accepted ⟨db, .changeWorkingSet change, env⟩) :
    ∃ state', changedState task change discarded env.now (some state) = some state' ∧
      StateStep ⟨db, .changeWorkingSet change, env⟩ repositoryId state state' := by
  have same : StateStep ⟨db, .changeWorkingSet change, env⟩ repositoryId state state :=
    .refl (by rintro use ⟨⟩) _ _
  unfold changedState
  dsimp only
  cases discarded with
  | some found =>
    have gone : Moment.discards ⟨db, .changeWorkingSet change, env⟩ repositoryId :=
      ⟨change, task, found, rfl, isRepository.symm, judged.found, judged.verified, accepted⟩
    exact ⟨_, rfl, fun kept => absurd gone kept, fun kept => absurd gone kept, same.review⟩
  | none =>
    rw [if_neg (by simp)]
    cases roleAfter change.operation with
    | none => exact ⟨state, rfl, same⟩
    | some role =>
      dsimp only
      split_ifs with weaker
      · exact ⟨_, rfl, fun _ => weaker.le, fun _ => id, same.review⟩
      · exact ⟨state, rfl, same⟩

theorem StateStep.admission {use : TaskDb.RepositoryUse} (admitted : Admitted task use env
      use.repositoryIds.eraseDups db after)
    (row : db.attemptRepositories.get (task.attempt, repositoryId) = some state) :
    ∃ state', after.attemptRepositories.get (task.attempt, repositoryId) = some state' ∧
      StateStep ⟨db, .admitUse use, env⟩ repositoryId state state' := by
  have here := admitted.states (task.attempt, repositoryId)
  rw [row] at here
  split_ifs at here with changes
  · refine ⟨_, here, fun _ => (RepoRole.le_stronger _ _).2, fun _ _ => rfl, .inl rfl⟩
  · refine ⟨state, here, fun _ => le_refl _, fun _ => id, .inr (.inr ⟨rfl, ?_⟩)⟩
    rintro ⟨use', isUse, mem, marks, -⟩
    cases isUse
    exact changes ⟨marks, rfl, mem_eraseDups.mpr mem⟩

theorem stateStep_of_perform (done : db.perform env call = .ok (answer, after)) (found : db.task = some task)
    (row : db.attemptRepositories.get (task.attempt, repositoryId) = some state) :
    ∃ state', after.attemptRepositories.get (task.attempt, repositoryId) = some state' ∧
      StateStep ⟨db, call, env⟩ repositoryId state state' := by
  have same : after.attemptRepositories = db.attemptRepositories → (∀ use, call ≠ .admitUse use) →
      ∃ state', after.attemptRepositories.get (task.attempt, repositoryId) = some state' ∧
        StateStep ⟨db, call, env⟩ repositoryId state state' := fun states other =>
    ⟨state, by rw [states, row], .refl other _ _⟩
  have accepted := accepted_moment done
  cases accepted_of_perform done with
  | create absent shape members fresh wrote =>
    rw [absent] at found
    cases found
  | execute judged wrote fresh =>
    split_ifs at fresh
    · exact ⟨state, get_of_insertAll_of_some fresh row, .refl (by rintro use ⟨⟩) _ _⟩
    · exact same fresh (by rintro use ⟨⟩)
  | beginStep | finishStep | beginToolInvocation | finishToolInvocation | addLog | release =>
    exact same rfl (by rintro use ⟨⟩)
  | @updateAttempt run update task' stored isTask current there unreserved =>
    have isKey : stored.key = (task'.attempt, update.repositoryId) := Keyed.key_of_get there
    rw [Keyed.get_put]
    split_ifs with this
    · have thisKey : (task.attempt, repositoryId) = stored.key := this
      have isStored : state = stored := by
        rw [thisKey, isKey] at row
        exact Option.some.inj (row.symm.trans there)
      rw [isStored]
      exact ⟨_, rfl, .update rfl (congrArg Prod.snd (thisKey.trans isKey)).symm accepted⟩
    · exact ⟨state, row, .refl (by rintro use ⟨⟩) _ _⟩
  | @changeWorkingSet change task' event discarded judged wrote =>
    rw [get_changedStates]
    split_ifs with this
    · have isRow : db.attemptRepositoryRow task' change.repositoryId = some state := by
        rw [TaskDb.attemptRepositoryRow, ← this, row]
      rw [isRow]
      exact StateStep.change judged (congrArg Prod.snd this) accepted
    · exact ⟨state, row, .refl (by rintro use ⟨⟩) _ _⟩
  | @admitUse use task' after isTask current active admitted =>
    rw [found, Option.some.injEq] at isTask
    rw [← isTask] at admitted
    exact StateStep.admission (admitted_of_foldlM admitted) row
  | releaseStale found wrote =>
    refine ⟨_, (get_unknown _ _ _ _).trans (congrArg _ row), ?_⟩
    dsimp only
    split_ifs
    · exact ⟨fun _ => le_refl _, fun _ _ => rfl, .inl rfl⟩
    · exact .refl (by rintro use ⟨⟩) _ _

theorem newState_of_accepted (done : Accepted db env call answer after) {key : ℕ × Uuid}
    (absent : db.attemptRepositories.get key = none) (row : after.attemptRepositories.get key = some state) :
    state.review = {} := by
  have same : after.attemptRepositories = db.attemptRepositories → state.review = {} := by
    intro states
    rw [states, absent] at row
    cases row
  have begun : ∀ {attempt members}, db.attemptRepositories.insertAll
      (TaskDb.attemptRowsFor attempt members env.now) = some after.attemptRepositories →
      state.review = {} := by
    intro attempt members added
    rcases get_attemptRows added key with ⟨kept, -⟩ | ⟨mem, -, -, found⟩
    · rw [kept, absent] at row
      cases row
    · rw [found, Option.some.injEq] at row
      rw [← row]
      rfl
  cases done with
  | create _ shape members fresh wrote => exact begun fresh
  | execute judged wrote fresh =>
    split_ifs at fresh
    · exact begun fresh
    · exact same fresh
  | beginStep | finishStep | beginToolInvocation | finishToolInvocation | addLog | release => exact same rfl
  | @updateAttempt run update task stored isTask current there unreserved =>
    rw [Keyed.get_put] at row
    split_ifs at row with this
    · have isKey : key = (task.attempt, update.repositoryId) := this.trans (Keyed.key_of_get (a := stored) there)
      rw [isKey] at absent
      cases absent.symm.trans there
    · rw [absent] at row
      cases row
  | @changeWorkingSet change task event discarded judged wrote =>
    rw [get_changedStates] at row
    split_ifs at row with this
    · have noRow : db.attemptRepositoryRow task change.repositoryId = none := by
        rw [TaskDb.attemptRepositoryRow, ← this, absent]
      rw [noRow] at row
      obtain ⟨role, -, rfl⟩ := Option.map_eq_some_iff.mp row
      rfl
    · rw [absent] at row
      cases row
  | admitUse found current active admitted =>
    rw [(admitted_of_foldlM admitted).states key, absent] at row
    split_ifs at row
    cases row
  | releaseStale found wrote =>
    have here := (get_unknown _ _ _ key).symm.trans row
    rw [absent] at here
    cases here

theorem attempt_of_accepted (done : Accepted db env call answer after) (found : db.task = some task) :
    ∃ task', after.task = some task' ∧ task.attempt ≤ task'.attempt := by
  cases done with
  | create absent shape members fresh wrote =>
    rw [absent] at found
    cases found
  | execute judged wrote fresh =>
    rw [judged.found, Option.some.injEq] at found
    refine ⟨_, rfl, ?_⟩
    rw [found]
    show task.attempt ≤ if _ then task.attempt + 1 else task.attempt
    split_ifs
    · exact Nat.le_succ _
    · exact le_refl _
  | beginStep | finishStep | beginToolInvocation | finishToolInvocation | addLog | updateAttempt | release =>
    exact ⟨task, found, le_refl _⟩
  | changeWorkingSet judged wrote =>
    rw [judged.found, Option.some.injEq] at found
    exact ⟨_, rfl, by rw [found]; exact le_refl _⟩
  | admitUse isTask current active admitted =>
    exact ⟨task, by rw [(admitFrame_of_foldlM admitted).task, found], le_refl _⟩
  | releaseStale isTask wrote =>
    rw [isTask, Option.some.injEq] at found
    exact ⟨_, rfl, by rw [found]; exact le_refl _⟩

theorem modified_of_admission (done : db.perform env call = .ok (answer, after)) (found : db.task = some task)
    (admits : Moment.admitsChange ⟨db, call, env⟩ repositoryId) :
    ∃ state, after.attemptRepositories.get (task.attempt, repositoryId) = some state ∧
      state.modified = true := by
  obtain ⟨use, isCall, mem, marks, -⟩ := admits
  replace isCall : call = .admitUse use := isCall
  have accepted := accepted_of_perform done
  rw [isCall] at accepted
  cases accepted with
  | admitUse isTask current active admitted =>
    rw [found, Option.some.injEq] at isTask
    rw [← isTask] at admitted
    have spec := admitted_of_foldlM admitted
    rw [← mem_eraseDups] at mem
    obtain ⟨state, isState⟩ := Option.isSome_iff_exists.mp (spec.stated _ mem)
    have here := spec.states (task.attempt, repositoryId)
    rw [if_pos ⟨marks, rfl, mem⟩] at here
    exact ⟨_, here.trans (congrArg _ isState), rfl⟩

end Calls

/-! ### Runs -/

/-- A stretch of the past, up to now, in which the task stayed in an attempt and no change of a repository
was discarded. -/
def Undiscarded (past stretch : List Moment) (attempt : ℕ) (repositoryId : Uuid) : Prop :=
  ∃ earlier, past = stretch ++ earlier ∧
    ∀ moment ∈ stretch, moment.inAttempt attempt ∧ ¬moment.discards repositoryId

structure Traced (t : TaskTrace) (task : TaskRow) : Prop where
  older : ∀ moment ∈ t.past, ∀ old, moment.before.task = some old → old.attempt ≤ task.attempt
  held : ∀ repositoryId stretch, Undiscarded t.past stretch task.attempt repositoryId →
    ∀ moment ∈ stretch, ∀ role, moment.before.role repositoryId = some role →
      ∃ state, t.db.attemptRepositoryRow task repositoryId = some state ∧
        role.strength ≤ state.strongestRole.strength
  modified : ∀ repositoryId later moment earlier, t.past = later ++ moment :: earlier →
    moment.inAttempt task.attempt → moment.admitsChange repositoryId →
    (∀ other ∈ later, ¬other.discards repositoryId) →
      ∃ state, t.db.attemptRepositoryRow task repositoryId = some state ∧ state.modified = true
  recorded : ∀ repositoryId state, t.db.attemptRepositoryRow task repositoryId = some state →
    state.review = {} ∨ ∃ later moment earlier, t.past = later ++ moment :: earlier ∧
      moment.inAttempt task.attempt ∧ moment.records repositoryId state.review ∧
      ∀ other ∈ later, ¬other.admitsChange repositoryId

theorem not_admitsChange_of_refused {db : TaskDb} {env : Surroundings} {call : TaskCall} {error : TaskError}
    (refused : db.perform env call = .error error) (repositoryId : Uuid) :
    ¬Moment.admitsChange ⟨db, call, env⟩ repositoryId := by
  rintro ⟨_, -, -, -, answer, answered⟩
  exact answer_of_refused refused answer answered

variable {t : TaskTrace} {inspect : Uuid → Option RepositoryChangeState}

theorem Traced.refused {task : TaskRow} {call : TaskCall} {env : Surroundings}
    {error : TaskError} (kept : Traced t task) (formed : Formed t.db) (found : t.db.task = some task)
    (refused : t.db.perform env call = .error error) :
    Traced ⟨t.db, ⟨t.db, call, env⟩ :: t.past⟩ task := by
  refine ⟨?_, ?_, ?_, ?_⟩
  · refine forall_mem_cons.mpr ⟨fun old isOld => ?_, kept.older⟩
    rw [found, Option.some.injEq] at isOld
    rw [isOld]
  · rintro repositoryId (_ | ⟨last, stretch⟩) ⟨earlier, isPast, stays⟩ moment mem role isRole
    · cases mem
    · rw [cons_append, List.cons.injEq] at isPast
      obtain ⟨rfl, isPast⟩ := isPast
      rcases mem_cons.mp mem with rfl | mem
      · exact formed.stated task found repositoryId role isRole
      · exact kept.held repositoryId stretch ⟨earlier, isPast, (forall_mem_cons.mp stays).2⟩ moment
          mem role isRole
  · rintro repositoryId (_ | ⟨last, later⟩) moment earlier isPast current admits stays
    · rw [nil_append, List.cons.injEq] at isPast
      rw [← isPast.1] at admits
      exact absurd admits (not_admitsChange_of_refused refused repositoryId)
    · rw [cons_append, List.cons.injEq] at isPast
      exact kept.modified repositoryId later moment earlier isPast.2 current admits
        (forall_mem_cons.mp stays).2
  · intro repositoryId state isState
    rcases kept.recorded repositoryId state isState with none | ⟨later, moment, earlier, isPast, rest⟩
    · exact .inl none
    · refine .inr ⟨_ :: later, moment, earlier, by rw [isPast]; rfl, rest.1, rest.2.1, ?_⟩
      exact forall_mem_cons.mpr ⟨not_admitsChange_of_refused refused repositoryId, rest.2.2⟩

theorem Traced.accepted {task' : TaskRow} {call : TaskCall} {env : Surroundings}
    {answer : TaskAnswer} {after : TaskDb} (formed : Formed t.db)
    (unborn : t.db.task = none → ∀ moment ∈ t.past, moment.before.task = none)
    (kept : ∀ task, t.db.task = some task → Traced t task)
    (done : t.db.perform env call = .ok (answer, after)) (found' : after.task = some task') :
    Traced ⟨after, ⟨t.db, call, env⟩ :: t.past⟩ task' := by
  have accepted := accepted_of_perform done
  have grows : ∀ task, t.db.task = some task → task.attempt ≤ task'.attempt := by
    intro task found
    obtain ⟨task'', isTask, more⟩ := attempt_of_accepted accepted found
    rw [found', Option.some.injEq] at isTask
    rwa [isTask]
  -- A row of the attempt that was there, and what the call made of it.
  have step : ∀ task repositoryId state, t.db.task = some task → task.attempt = task'.attempt →
      t.db.attemptRepositoryRow task repositoryId = some state →
      ∃ state', after.attemptRepositoryRow task' repositoryId = some state' ∧
        StateStep ⟨t.db, call, env⟩ repositoryId state state' := by
    intro task repositoryId state found same row
    rw [TaskDb.attemptRepositoryRow, ← same]
    exact stateStep_of_perform done found row
  have current : ∀ {attempt : ℕ}, Moment.inAttempt ⟨t.db, call, env⟩ attempt →
      ∃ task, t.db.task = some task ∧ task.attempt = attempt := by
    intro attempt inAttempt
    exact Option.map_eq_some_iff.mp inAttempt
  refine ⟨?_, ?_, ?_, ?_⟩
  · refine forall_mem_cons.mpr ⟨grows, fun moment mem old isOld => ?_⟩
    cases found : t.db.task with
    | none =>
      rw [unborn found moment mem] at isOld
      cases isOld
    | some task => exact ((kept task found).older moment mem old isOld).trans (grows task found)
  · rintro repositoryId (_ | ⟨last, stretch⟩) ⟨earlier, isPast, stays⟩ moment mem role isRole
    · cases mem
    · rw [cons_append, List.cons.injEq] at isPast
      obtain ⟨rfl, isPast⟩ := isPast
      obtain ⟨⟨inAttempt, undiscarded⟩, stays⟩ := forall_mem_cons.mp stays
      obtain ⟨task, found, same⟩ := current inAttempt
      have before : ∃ state, t.db.attemptRepositoryRow task repositoryId = some state ∧
          role.strength ≤ state.strongestRole.strength := by
        rcases mem_cons.mp mem with rfl | mem
        · exact formed.stated task found repositoryId role isRole
        · refine (kept task found).held repositoryId stretch ⟨earlier, isPast, ?_⟩ moment mem role isRole
          rw [same]
          exact stays
      obtain ⟨state, isState, seen⟩ := before
      obtain ⟨state', isState', step⟩ := step task repositoryId state found same isState
      exact ⟨state', isState', seen.trans (step.strongest undiscarded)⟩
  · rintro repositoryId (_ | ⟨last, later⟩) moment earlier isPast inAttempt admits stays
    · rw [nil_append, List.cons.injEq] at isPast
      obtain ⟨rfl, -⟩ := isPast
      obtain ⟨task, found, same⟩ := current inAttempt
      rw [TaskDb.attemptRepositoryRow, ← same]
      exact modified_of_admission done found admits
    · rw [cons_append, List.cons.injEq] at isPast
      obtain ⟨rfl, isPast⟩ := isPast
      obtain ⟨undiscarded, stays⟩ := forall_mem_cons.mp stays
      have mem : moment ∈ t.past := by
        rw [isPast]
        exact mem_append_right _ mem_cons_self
      obtain ⟨old, isOld, same⟩ := Option.map_eq_some_iff.mp inAttempt
      cases found : t.db.task with
      | none =>
        rw [unborn found moment mem] at isOld
        cases isOld
      | some task =>
        have sameAttempt : task.attempt = task'.attempt :=
          le_antisymm (grows task found) (same ▸ (kept task found).older moment mem old isOld)
        obtain ⟨state, isState, modified⟩ := (kept task found).modified repositoryId later moment earlier
          isPast (by rw [sameAttempt]; exact inAttempt) admits stays
        obtain ⟨state', isState', step⟩ := step task repositoryId state found sameAttempt isState
        exact ⟨state', isState', step.modified undiscarded modified⟩
  · intro repositoryId state' isState'
    cases isState : t.db.attemptRepositories.get (task'.attempt, repositoryId) with
    | none => exact .inl (newState_of_accepted accepted isState isState')
    | some state =>
      cases found : t.db.task with
      | none =>
        have mem := Keyed.mem_of_get isState
        rw [(formed.unborn found).2] at mem
        exact absurd mem not_mem_nil
      | some task =>
        have sameAttempt : task.attempt = task'.attempt :=
          le_antisymm (grows task found) (formed.attempts task found _ _ isState)
        have isRow : t.db.attemptRepositoryRow task repositoryId = some state := by
          rw [TaskDb.attemptRepositoryRow, sameAttempt, isState]
        obtain ⟨state'', isState'', step⟩ := step task repositoryId state found sameAttempt isRow
        have isSame : state'' = state' := Option.some.inj (isState''.symm.trans isState')
        rw [isSame] at step
        rcases step.review with none | records | ⟨same, notAdmitted⟩
        · exact .inl none
        · refine .inr ⟨[], _, t.past, rfl, ?_, records, by simp⟩
          show t.db.task.map TaskRow.attempt = _
          rw [found, Option.map_some, sameAttempt]
        · rw [same]
          rcases (kept task found).recorded repositoryId state isRow with
            none | ⟨later, moment, earlier, isPast, inAttempt, records, unadmitted⟩
          · exact .inl none
          · refine .inr ⟨_ :: later, moment, earlier, by rw [isPast]; rfl, ?_, records, ?_⟩
            · rw [← sameAttempt]
              exact inAttempt
            · exact forall_mem_cons.mpr ⟨notAdmitted, unadmitted⟩

def Unborn (t : TaskTrace) : Prop := t.db.task = none → ∀ moment ∈ t.past, moment.before.task = none

theorem Unborn.accepted {call : TaskCall} {env : Surroundings} {answer : TaskAnswer}
    {after : TaskDb} (kept : Unborn t) (done : Accepted t.db env call answer after) :
    Unborn ⟨after, ⟨t.db, call, env⟩ :: t.past⟩ := by
  intro absent
  have before : t.db.task = none := by
    by_contra some
    obtain ⟨task, found⟩ := Option.ne_none_iff_exists'.mp some
    obtain ⟨task', found', -⟩ := attempt_of_accepted done found
    rw [show after.task = none from absent] at found'
    cases found'
  exact forall_mem_cons.mpr ⟨before, kept before⟩

theorem traced_of_reachable (reach : taskService.Reachable t) {task : TaskRow}
    (found : t.db.task = some task) : Traced t task := by
  have all : Formed t.db ∧ Unborn t ∧ ∀ task, t.db.task = some task → Traced t task := by
    refine taskService_invariant (P := fun t =>
      Formed t.db ∧ Unborn t ∧ ∀ task, t.db.task = some task → Traced t task) ?_ ?_ ?_ reach
    · exact ⟨formed_empty, by rintro - _ ⟨⟩, by rintro _ ⟨⟩⟩
    · rintro t call env error ⟨formed, unborn, kept⟩ refused
      refine ⟨formed, fun absent => forall_mem_cons.mpr ⟨absent, unborn absent⟩, ?_⟩
      intro task found
      exact (kept task found).refused formed found refused
    · rintro t call env answer after ⟨formed, unborn, kept⟩ done
      have accepted := accepted_of_perform done
      refine ⟨formed.accepted accepted, unborn.accepted accepted, ?_⟩
      intro task found
      exact Traced.accepted formed unborn kept done found
  exact all.2.2 task found

/-! ### What Complete judges -/

theorem requireCompletion_eq_ok {db : TaskDb} {task : TaskRow}
    {done : Unit}
    (met : db.requireCompletion task inspect = .ok done) :
    (task.readOnly = false → ∃ row ∈ db.members, row.role = .target) ∧
    (∀ row ∈ db.members, (db.attemptRepositoryRow task row.repositoryId).isSome = true) ∧
    ∀ repositoryId state needed, db.attemptRepositoryRow task repositoryId = some state →
      obligation (db.completionFacts inspect state) = some needed →
        meets (db.completionFacts inspect state) needed = true := by
  unfold TaskDb.requireCompletion at met
  simp only [refuse_eq_ok, not_not] at met
  obtain ⟨targeted, stated, unmet, -⟩ := met
  refine ⟨?_, ?_, ?_⟩
  · intro writes
    by_contra none
    push Not at none
    exact targeted ⟨by simp [writes], none⟩
  · intro row mem
    push Not at stated
    obtain ⟨state, isState, same⟩ := stated row mem
    rw [mem_filter, decide_eq_true_iff] at isState
    have found : db.attemptRepositories.get (task.attempt, row.repositoryId) = some state :=
      Keyed.get_eq_some.mpr ⟨isState.1, by rw [TaskAttemptRepositoryRow.key, isState.2, same]⟩
    rw [TaskDb.attemptRepositoryRow, found]
    rfl
  · intro repositoryId state needed found owed
    obtain ⟨mem, isKey⟩ := Keyed.get_eq_some.mp found
    rw [TaskAttemptRepositoryRow.key, Prod.mk.injEq] at isKey
    refine meets_of_unmet_nil unmet (mem_map_of_mem ?_) owed
    rw [mem_filter, decide_eq_true_iff]
    exact ⟨mem, isKey.1⟩

def Delivered (state : TaskAttemptRepositoryRow) : Prop :=
  state.evaluationResult = .passed ∧
    (∃ request, state.pullRequest = some request ∧ (request.state = .opened ∨ request.state = .merged)) ∧
    state.reviewStatus = .approved

theorem passed_of_meets {db : TaskDb} {state : TaskAttemptRepositoryRow} {needed : RepoRole}
    (met : meets (db.completionFacts inspect state) needed = true) : state.evaluationResult = .passed := by
  unfold meets at met
  split_ifs at met with failed
  · exact not_not.mp failed
  · exact not_not.mp failed

theorem delivered_of_meets {db : TaskDb}
    {state : TaskAttemptRepositoryRow} (met : meets (db.completionFacts inspect state) .target = true) :
    Delivered state := by
  refine ⟨passed_of_meets met, ?_⟩
  unfold meets at met
  split_ifs at met with failed other
  · exact absurd rfl other
  · rw [Bool.and_eq_true, decide_eq_true_iff] at met
    refine ⟨?_, met.2⟩
    have delivered := of_decide_eq_true met.1
    cases isRequest : state.pullRequest with
    | none => simp [TaskDb.completionFacts, isRequest] at delivered
    | some request => exact ⟨request, rfl, by simpa [TaskDb.completionFacts, isRequest] using delivered⟩

theorem obligation_of_modified (db : TaskDb) (inspect : Uuid → Option RepositoryChangeState)
    {state : TaskAttemptRepositoryRow} (modified : state.modified = true) :
    ∃ needed, obligation (db.completionFacts inspect state) = some needed ∧
      (state.strongestRole = .target → needed = .target) := by
  have isModified : (db.completionFacts inspect state).modified = true := by
    simp [TaskDb.completionFacts, modified]
  have changed : wasChanged (db.completionFacts inspect state) = true := by
    unfold wasChanged
    rw [if_pos (.inl isModified)]
  unfold obligation
  split_ifs with target unchanged
  · exact ⟨_, rfl, fun _ => rfl⟩
  · simp [changed] at unchanged
  · dsimp only
    split_ifs with strong
    · exact ⟨_, rfl, fun _ => rfl⟩
    · refine ⟨_, rfl, fun isTarget => ?_⟩
      refine absurd ?_ strong
      have seen : (db.completionFacts inspect state).strongestRole = .target := isTarget
      cases (db.completionFacts inspect state).role with
      | none => exact seen
      | some role =>
        rw [Option.elim_some, seen]
        cases role <;> rfl

theorem obligation_of_target {db : TaskDb}
    {state : TaskAttemptRepositoryRow} (held : db.role state.repositoryId = some .target) :
    obligation (db.completionFacts inspect state) = some .target := by
  unfold obligation
  exact if_pos held

/-- The roles a repository has held in the current attempt, since the last change of it that was
verifiably discarded. -/
def HeldSince (t : TaskTrace) (task : TaskRow) (repositoryId : Uuid) (role : RepoRole) : Prop :=
  t.db.role repositoryId = some role ∨
    ∃ stretch, Undiscarded t.past stretch task.attempt repositoryId ∧
      ∃ moment ∈ stretch, moment.before.role repositoryId = some role

structure Sound (t : TaskTrace) (task : TaskRow) (now : Instant) : Prop where
  targeted : ∃ row ∈ t.db.members, row.role = .target
  unreserved : ∀ row ∈ t.db.writes.rows, TaskDb.isLive now row = false
  targets : ∀ row ∈ t.db.members, row.role = .target →
    ∃ state, t.db.attemptRepositoryRow task row.repositoryId = some state ∧ Delivered state
  changed : ∀ repositoryId later moment earlier, t.past = later ++ moment :: earlier →
    moment.inAttempt task.attempt → moment.admitsChange repositoryId →
    (∀ other ∈ later, ¬other.discards repositoryId) →
      ∃ state, t.db.attemptRepositoryRow task repositoryId = some state ∧
        state.evaluationResult = .passed ∧ (HeldSince t task repositoryId .target → Delivered state)
  evidence : ∀ repositoryId state, t.db.attemptRepositoryRow task repositoryId = some state →
    state.evaluationResult = .passed ∨ state.reviewStatus = .approved →
      ∃ later moment earlier, t.past = later ++ moment :: earlier ∧ moment.inAttempt task.attempt ∧
        moment.records repositoryId ⟨state.reviewStatus, state.evaluationResult⟩ ∧
        ∀ other ∈ later, ¬other.admitsChange repositoryId

/-- **Complete is sound.** Where Complete is accepted for a task that is not read-only: there is a target,
no reservation is live, every target is evaluated, delivered and approved, every repository a write was
admitted to in the attempt and whose change was not verifiably discarded since meets what the strongest role
it held since its last verified discard owes, and every result that counts was recorded after the last write
to its repository. -/
theorem complete_is_sound {t : TaskTrace} (reach : taskService.Reachable t) {task : TaskRow}
    (found : t.db.task = some task) (writes : task.readOnly = false) {args : TaskDb.CommandArguments}
    {env : Surroundings} {answer : TaskAnswer} {after : TaskDb}
    (done : t.db.perform env (.execute .complete args) = .ok (answer, after)) :
    after.task.map TaskRow.state = some .completed ∧ Sound t task env.judgedAt := by
  have formed := formed_of_reachable reach
  have traced := traced_of_reachable reach found
  cases accepted_of_perform done with
  | @execute _ _ row plan event states logs judged wrote fresh =>
    have isTask : row = task := Option.some.inj (judged.found.symm.trans found)
    rw [isTask] at judged
    obtain ⟨targeted, stated, meet⟩ := requireCompletion_eq_ok (judged.complete rfl)
    refine ⟨?_, targeted writes, ?_, ?_, ?_, ?_⟩
    · have steps := (planTransition_eq_ok judged.planned).1
      rw [writes] at steps
      obtain ⟨rule, isRule, -, leads⟩ := steps
      cases isRule
      exact congrArg some leads.symm
    · intro write member
      by_contra live
      have inFlight : write ∈ t.db.liveWrites env.judgedAt none := by
        unfold TaskDb.liveWrites
        rw [mem_insertionSort, mem_filter]
        simp [member, Bool.not_eq_false _ ▸ live]
      rw [judged.unreserved rfl] at inFlight
      exact absurd inFlight not_mem_nil
    · intro member isMember isTarget
      obtain ⟨state, isState⟩ := Option.isSome_iff_exists.mp (stated member isMember)
      have sameId : state.repositoryId = member.repositoryId := congrArg Prod.snd (Keyed.key_of_get isState)
      have held : t.db.role state.repositoryId = some .target := by
        rw [sameId, role_of_mem isMember, isTarget]
      exact ⟨state, isState, delivered_of_meets (meet _ state _ isState (obligation_of_target held))⟩
    · intro repositoryId later moment earlier isPast inAttempt admits stays
      obtain ⟨state, isState, modified⟩ :=
        traced.modified repositoryId later moment earlier isPast inAttempt admits stays
      obtain ⟨needed, owed, ofTarget⟩ := obligation_of_modified t.db env.inspect modified
      have met := meet _ state _ isState owed
      refine ⟨state, isState, passed_of_meets met, fun held => ?_⟩
      have seen : ∃ state, t.db.attemptRepositoryRow task repositoryId = some state ∧
          RepoRole.target.strength ≤ state.strongestRole.strength := by
        rcases held with isRole | ⟨stretch, undiscarded, moment, member, isRole⟩
        · exact formed.stated task found repositoryId .target isRole
        · exact traced.held repositoryId stretch undiscarded moment member .target isRole
      obtain ⟨state', isState', strong⟩ := seen
      rw [isState, Option.some.injEq] at isState'
      rw [← isState'] at strong
      have isTarget : state.strongestRole = .target := by
        cases isStrongest : state.strongestRole with
        | referenced | working => simp [isStrongest, RepoRole.strength] at strong
        | target => rfl
      rw [ofTarget isTarget] at met
      exact delivered_of_meets met
    · intro repositoryId state isState good
      rcases traced.recorded repositoryId state isState with none | recorded
      · unfold TaskAttemptRepositoryRow.review at none
        rw [ReviewState.mk.injEq] at none
        rw [none.1, none.2] at good
        simp at good
      · exact recorded

/-- Repository 8 is a target until its change is found discarded, then it is written to as a working
one; repository 7 is delivered and approved. -/
def downgradedTask : List (TaskCall × Surroundings) :=
  [(.create
      { createdBy := 1, title := Text.lit "t"
        repositories := [⟨7, .target, some (Text.lit "a")⟩, ⟨8, .target, some (Text.lit "b")⟩] },
      { now := 1, judgedAt := 1 }),
    (.execute .start { actor := .system }, { now := 2, judgedAt := 2 }),
    (.changeWorkingSet
      { operation := .downgradeToWorking, repositoryId := 8, actor := .system, expectedRole := some .target },
      { now := 3, judgedAt := 3, inspect := fun _ => some ⟨true, some (Text.lit "b"), false, false⟩ }),
    (.admitUse { run := .first, repositoryIds := [8], capability := .projectRepoWrite, executes := false },
      { now := 4, judgedAt := 4, freshId := 9 }),
    (.release 9, { now := 5, judgedAt := 5 }),
    (.updateAttempt .first { repositoryId := 8, review := some { evaluationResult := .passed } },
      { now := 6, judgedAt := 6 }),
    (.updateAttempt .first
      { repositoryId := 7, review := some ⟨.approved, .passed⟩
        pullRequest := some ⟨1, Text.lit "u", .opened⟩ }, { now := 7, judgedAt := 7 }),
    (.execute .beginEvaluation { actor := .system }, { now := 8, judgedAt := 8 })]

/-- The row of `downgradedTask`. -/
def downgradedRow : TaskRow :=
  { state := .evaluating, waitReason := none, agent := none, model := none, attempt := 1, retryCount := 0
    readOnly := false, version := 4, updatedAt := 8 }

theorem downgradedTask_completes : ((served downgradedTask).db.perform { now := 9, judgedAt := 9 }
    (.execute .complete { actor := .system })).isOk = true := by
  decide

theorem downgradedTask_sound : (served downgradedTask).db.task = some downgradedRow ∧
    Sound (served downgradedTask) downgradedRow 9 := by
  have found : (served downgradedTask).db.task = some downgradedRow := by decide
  have completes := downgradedTask_completes
  cases done : (served downgradedTask).db.perform { now := 9, judgedAt := 9 }
      (.execute .complete { actor := .system }) with
  | error error =>
    rw [done] at completes
    cases completes
  | ok result =>
    exact ⟨found, (complete_is_sound (served_reachable downgradedTask) found rfl done).2⟩

/-- A repository that was a target in the attempt is completed on its evaluation alone, once a change
of it was found discarded. -/
theorem discarded_target_completes :
    ¬ ∀ t, taskService.Reachable t → ∀ task, t.db.task = some task → task.readOnly = false →
      ∀ args env result, t.db.perform env (.execute .complete args) = .ok result →
      ∀ repositoryId later moment earlier, t.past = later ++ moment :: earlier →
        moment.inAttempt task.attempt → moment.admitsChange repositoryId →
        (∀ other ∈ later, ¬other.discards repositoryId) →
        (∃ other ∈ t.past, other.inAttempt task.attempt ∧
          other.before.role repositoryId = some .target) →
          ∃ state, t.db.attemptRepositoryRow task repositoryId = some state ∧ Delivered state := by
  intro claimed
  have found : (served downgradedTask).db.task = some downgradedRow := by decide
  have completes := downgradedTask_completes
  cases done : (served downgradedTask).db.perform { now := 9, judgedAt := 9 }
      (.execute .complete { actor := .system }) with
  | error error =>
    rw [done] at completes
    cases completes
  | ok result =>
    have undiscarded : ∀ other ∈ (served downgradedTask).past.take 4, ¬other.discards 8 := by
      have calls : ((served downgradedTask).past.take 4).all (fun other => !other.call.marks) = true := rfl
      rintro other member ⟨change, task, found, isCall, -⟩
      have unmarked := all_eq_true.mp calls other member
      rw [isCall] at unmarked
      cases unmarked
    obtain ⟨state, isState, -, ⟨request, isRequest, -⟩, -⟩ :=
      claimed _ (served_reachable downgradedTask) downgradedRow found rfl _ _ _ done 8
        ((served downgradedTask).past.take 4) _ ((served downgradedTask).past.drop 5) rfl rfl
        ⟨_, rfl, by decide, rfl, _, rfl⟩ undiscarded
        ⟨_, mem_of_mem_drop (i := 6) mem_cons_self, rfl, rfl⟩
    have noRequest : ((served downgradedTask).db.attemptRepositoryRow downgradedRow 8).bind
        TaskAttemptRepositoryRow.pullRequest = none := by decide
    rw [isState, Option.bind_some, isRequest] at noRequest
    cases noRequest

end PawBackend.Tasks
