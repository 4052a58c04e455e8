/-
**A live reservation pins its repository's role** (`tasks/service.py`: `admit_repository_use`,
`release_repository_use`, `change_working_set`).

A reservation says no word of what it was admitted for: `Moment.admits` is the call that made it.
-/

import PawBackend.Tasks.Members

namespace PawBackend.Tasks

open Lib List
open Tools (Uuid Instant TaskRun)

def Moment.admits (moment : Moment) (reservation : Uuid) (use : TaskDb.RepositoryUse) : Prop :=
  moment.call = .admitUse use ∧ moment.answer = .ok (.reservation (some reservation))

theorem answer_of_perform {db : TaskDb} {env : Surroundings} {call : TaskCall} {answer : TaskAnswer}
    {after : TaskDb} (done : db.perform env call = .ok (answer, after)) :
    Moment.answer ⟨db, call, env⟩ = .ok answer := by
  show (db.perform env call).map Prod.fst = _
  rw [done]
  rfl

theorem answer_of_refused {db : TaskDb} {env : Surroundings} {call : TaskCall} {error : TaskError}
    (refused : db.perform env call = .error error) (answer : TaskAnswer) :
    Moment.answer ⟨db, call, env⟩ ≠ .ok answer := by
  show (db.perform env call).map Prod.fst ≠ _
  rw [refused]
  rintro ⟨⟩

/-! ### One call -/

section Calls

variable {db after : TaskDb} {env : Surroundings} {call : TaskCall} {answer : TaskAnswer} {now : Instant}

/-- Of the reservations that were there, none comes back to life. -/
def WritesKept (now : Instant) (db after : TaskDb) : Prop :=
  ∀ key row, db.writes.get key = some row →
    ∃ row', after.writes.get key = some row' ∧ (TaskDb.isLive now row' = true → TaskDb.isLive now row = true)

theorem WritesKept.of_eq (same : after.writes = db.writes) : WritesKept now db after := by
  intro key row found
  exact ⟨row, by rw [same, found], id⟩

def ReleasedIn (env : Surroundings) (db after : TaskDb) : Prop :=
  ∃ selected : TaskRepositoryWriteRow → Bool, ∀ key, after.writes.get key =
    (db.writes.get key).map fun row =>
      if selected row then { row with releasedAt := some env.now } else row

theorem ReleasedIn.of_update {selected : TaskRepositoryWriteRow → Bool}
    (keeps : ∀ row, selected row = true →
      TaskRepositoryWriteRow.key { row with releasedAt := some env.now } = row.key)
    (updated : after.writes =
      db.writes.update selected (fun row => { row with releasedAt := some env.now }) keeps) :
    ReleasedIn env db after := by
  refine ⟨selected, fun key => ?_⟩
  rw [updated]
  exact Keyed.get_update _ _ _ _ _

theorem WritesKept.release (released : ReleasedIn env db after) : WritesKept now db after := by
  obtain ⟨selected, released⟩ := released
  intro key row found
  refine ⟨_, by rw [released, found, Option.map_some], ?_⟩
  split_ifs
  · simp [TaskDb.isLive]
  · exact id

theorem writesKept_of_accepted (done : Accepted db env call answer after) : WritesKept now db after := by
  cases done with
  | create | beginStep | finishStep | beginToolInvocation | finishToolInvocation | addLog | updateAttempt
  | changeWorkingSet => exact .of_eq rfl
  | execute judged wrote fresh => exact .of_eq (closed_frame _ _ _ _).2
  | admitUse found current active admitted =>
    have spec := admitted_of_foldlM admitted
    intro key row found
    have here := spec.writes key
    split_ifs at here with new
    · have absent := spec.fresh new.1 key.2 new.2.2
      rw [← new.2.1, found] at absent
      cases absent
    · exact ⟨row, here.trans found, id⟩
  | release | releaseStale => exact .release (.of_update (fun _ _ => rfl) rfl)

variable {row : TaskRepositoryWriteRow}

theorem mem_liveWrites {repositoryId : Uuid} (mem : row ∈ db.writes.rows) (live : TaskDb.isLive now row = true)
    (isRepository : row.repositoryId = repositoryId) : row ∈ db.liveWrites now (some repositoryId) := by
  unfold TaskDb.liveWrites
  rw [mem_insertionSort, mem_filter]
  simp [mem, live, isRepository]

theorem isLive_of_le {earlier : Instant} (before : earlier ≤ now)
    (live : TaskDb.isLive now row = true) : TaskDb.isLive earlier row = true := by
  unfold TaskDb.isLive at live ⊢
  rw [Bool.and_eq_true, decide_eq_true_iff] at live ⊢
  exact ⟨live.1, before.trans_lt live.2⟩

theorem role_of_accepted (done : Accepted db env call answer after) (judgedBefore : env.judgedAt ≤ now)
    {key : Uuid × Uuid} (found : db.writes.get key = some row)
    (live : TaskDb.isLive now row = true) {role : RepoRole} (held : db.role key.2 = some role) :
    ∃ role', after.role key.2 = some role' ∧ role.strength ≤ role'.strength := by
  have same : after.repositories = db.repositories → ∃ role', after.role key.2 = some role' ∧
      role.strength ≤ role'.strength := fun repositories =>
    ⟨role, by rw [role_congr repositories, held], le_refl _⟩
  cases done with
  | create absent shape members fresh wrote =>
    -- The rows of the new members do not replace any.
    obtain ⟨member, isMember, isRole⟩ := Option.map_eq_some_iff.mp held
    obtain ⟨stored, present⟩ := Option.filter_eq_some_iff.mp isMember
    refine ⟨role, ?_, le_refl _⟩
    unfold TaskDb.role TaskDb.member
    rw [get_of_insertAll_of_some members stored, Option.map_eq_some_iff]
    exact ⟨member, Option.filter_eq_some_iff.mpr ⟨rfl, present⟩, isRole⟩
  | execute judged wrote fresh => exact same (closed_frame _ _ _ _).1
  | beginStep | finishStep | beginToolInvocation | finishToolInvocation | addLog | updateAttempt | release
  | releaseStale => exact same rfl
  | @changeWorkingSet change task event discarded judged wrote =>
    rw [role_changed rfl]
    split_ifs with this
    · cases shrinks : narrows change.operation with
      | false => exact strength_of_widens shrinks (held ▸ this ▸ judged.accepts)
      | true =>
        have isRepository : row.repositoryId = change.repositoryId :=
          (congrArg Prod.snd (Keyed.key_of_get found)).trans this
        have member := mem_liveWrites (Keyed.mem_of_get found) (isLive_of_le judgedBefore live) isRepository
        rw [judged.unreserved shrinks] at member
        exact absurd member not_mem_nil
    · exact ⟨role, held, le_refl _⟩
  | admitUse found current active admitted => exact same (admitFrame_of_foldlM admitted).repositories

theorem new_reservation (done : Accepted db env call answer after) {key : Uuid × Uuid}
    (found : after.writes.get key = some row) :
    (db.writes.get key).isSome = true ∨ ∃ use : TaskDb.RepositoryUse, call = .admitUse use ∧
      answer = .reservation (some key.1) ∧ key.2 ∈ use.repositoryIds := by
  have same : after.writes = db.writes → (db.writes.get key).isSome = true := by
    intro writes
    rw [← writes, found]
    rfl
  have updated : ReleasedIn env db after → (db.writes.get key).isSome = true := by
    rintro ⟨selected, released⟩
    rw [released] at found
    obtain ⟨old, isOld, -⟩ := Option.map_eq_some_iff.mp found
    rw [isOld]
    rfl
  cases done with
  | create | beginStep | finishStep | beginToolInvocation | finishToolInvocation | addLog | updateAttempt
  | changeWorkingSet => exact .inl (same rfl)
  | execute judged wrote fresh => exact .inl (same (closed_frame _ _ _ _).2)
  | @admitUse use task _ isTask current active admitted =>
    have here := (admitted_of_foldlM admitted).writes key
    split_ifs at here with new
    · refine .inr ⟨use, rfl, ?_, mem_eraseDups.mp new.2.2⟩
      rw [if_pos new.1, new.2.1]
    · rw [here] at found
      exact .inl (by rw [found]; rfl)
  | release | releaseStale => exact .inl (updated (.of_update (fun _ _ => rfl) rfl))

theorem admitted_reservation {use : TaskDb.RepositoryUse} {reservation repositoryId : Uuid}
    (done : Accepted db env (.admitUse use) (.reservation (some reservation)) after)
    (mem : repositoryId ∈ use.repositoryIds) :
    ∃ row role, after.writes.get (reservation, repositoryId) = some row ∧
      after.role repositoryId = some role ∧ roleAllows role use.capability use.executes = true := by
  generalize isAnswer : TaskAnswer.reservation (some reservation) = answer at done
  cases done with
  | admitUse found current active admitted =>
    have spec := admitted_of_foldlM admitted
    rw [← mem_eraseDups] at mem
    obtain ⟨role, held, allowed⟩ := spec.allowed _ mem
    rw [TaskAnswer.reservation.injEq] at isAnswer
    split_ifs at isAnswer with changes
    rw [Option.some.injEq] at isAnswer
    have here := spec.writes (reservation, repositoryId)
    rw [if_pos ⟨changes, isAnswer, mem⟩] at here
    exact ⟨_, role, here, by rw [role_congr spec.frame.repositories, held], allowed⟩

end Calls

/-! ### Runs -/

/-- Every reservation was made by an admission, and while it lives, its repository has a role that
allows what was admitted. -/
structure Pinned (now : Instant) (t : TaskTrace) : Prop where
  made : ∀ row ∈ t.db.writes.rows, ∃ moment ∈ t.past, ∃ use : TaskDb.RepositoryUse,
    moment.admits row.id use ∧ row.repositoryId ∈ use.repositoryIds
  pins : ∀ moment ∈ t.past, ∀ reservation use, moment.admits reservation use →
    ∀ repositoryId ∈ use.repositoryIds, ∃ row, t.db.writes.get (reservation, repositoryId) = some row ∧
      (TaskDb.isLive now row = true → ∃ role, t.db.role repositoryId = some role ∧
        roleAllows role use.capability use.executes = true)

variable {t : TaskTrace}

theorem Pinned.refused {now : Instant} {call : TaskCall} {env : Surroundings}
    {error : TaskError} (kept : Pinned now t) (refused : t.db.perform env call = .error error) :
    Pinned now ⟨t.db, ⟨t.db, call, env⟩ :: t.past⟩ := by
  constructor
  · intro row mem
    obtain ⟨moment, isPast, made⟩ := kept.made row mem
    exact ⟨moment, mem_cons_of_mem _ isPast, made⟩
  · refine forall_mem_cons.mpr ⟨?_, kept.pins⟩
    rintro reservation use ⟨-, answered⟩
    exact absurd answered (answer_of_refused refused _)

theorem Pinned.accepted {now : Instant} {call : TaskCall} {env : Surroundings}
    {answer : TaskAnswer} {after : TaskDb} (kept : Pinned now t) (judgedBefore : env.judgedAt ≤ now)
    (done : t.db.perform env call = .ok (answer, after)) :
    Pinned now ⟨after, ⟨t.db, call, env⟩ :: t.past⟩ := by
  have accepted := accepted_of_perform done
  constructor
  · intro row mem
    rcases new_reservation accepted (Keyed.get_self mem) with old | ⟨use, isCall, isAnswer, isMember⟩
    · obtain ⟨before, found⟩ := Option.isSome_iff_exists.mp old
      obtain ⟨moment, isPast, use, admits, isMember⟩ := kept.made before (Keyed.mem_of_get found)
      have sameKey : before.key = row.key := Keyed.key_of_get found
      simp only [TaskRepositoryWriteRow.key, Prod.mk.injEq] at sameKey
      rw [sameKey.1] at admits
      rw [sameKey.2] at isMember
      exact ⟨moment, mem_cons_of_mem _ isPast, use, admits, isMember⟩
    · refine ⟨_, mem_cons_self, use, ⟨isCall, ?_⟩, isMember⟩
      rw [answer_of_perform done, isAnswer]
      rfl
  · refine forall_mem_cons.mpr ⟨?_, ?_⟩
    · rintro reservation use ⟨isCall, answered⟩ repositoryId mem
      rw [answer_of_perform done, Except.ok.injEq] at answered
      replace isCall : call = .admitUse use := isCall
      rw [isCall, answered] at accepted
      obtain ⟨row, role, found, held, allowed⟩ := admitted_reservation accepted mem
      exact ⟨row, found, fun _ => ⟨role, held, allowed⟩⟩
    · intro moment isPast reservation use admits repositoryId mem
      obtain ⟨row, found, pins⟩ := kept.pins moment isPast reservation use admits repositoryId mem
      obtain ⟨row', found', alive⟩ := writesKept_of_accepted accepted _ row found
      refine ⟨row', found', fun live => ?_⟩
      obtain ⟨role, held, allowed⟩ := pins (alive live)
      obtain ⟨role', held', stronger⟩ := role_of_accepted accepted judgedBefore found (alive live) held
      exact ⟨role', held', roleAllows_mono stronger allowed⟩

theorem pinned_of_reachable (reach : taskService.Reachable t) {now : Instant}
    (notBefore : ∀ moment ∈ t.past, moment.env.judgedAt ≤ now) : Pinned now t := by
  refine taskService_invariant (P := fun t =>
    (∀ moment ∈ t.past, moment.env.judgedAt ≤ now) → Pinned now t) ?_ ?_ ?_ reach notBefore
  · intro _
    exact ⟨by rintro _ ⟨⟩, by rintro _ ⟨⟩⟩
  · intro t call env error kept refused notBefore
    exact (kept (forall_mem_cons.mp notBefore).2).refused refused
  · intro t call env answer after kept done notBefore
    obtain ⟨last, earlier⟩ := forall_mem_cons.mp notBefore
    exact (kept earlier).accepted last done

/-- **A live reservation pins its repository's role.** After any calls, at an instant that no reading of
their clock is later than: a reservation that is neither released nor expired then was made by an
admission, and its repository is in the Working Set with a role that allows what was admitted. -/
theorem live_reservation_pins_role {t : TaskTrace} (reach : taskService.Reachable t) {now : Instant}
    (notBefore : ∀ moment ∈ t.past, moment.env.now ≤ now ∧ moment.env.judgedAt ≤ now)
    {row : TaskRepositoryWriteRow} (member : row ∈ t.db.writes.rows) (live : TaskDb.isLive now row = true) :
    (∃ moment ∈ t.past, ∃ use : TaskDb.RepositoryUse,
      moment.admits row.id use ∧ row.repositoryId ∈ use.repositoryIds) ∧
    ∀ moment ∈ t.past, ∀ use, moment.admits row.id use → row.repositoryId ∈ use.repositoryIds →
      ∃ role, t.db.role row.repositoryId = some role ∧
        roleAllows role use.capability use.executes = true := by
  have pinned := pinned_of_reachable reach fun moment isPast => (notBefore moment isPast).2
  refine ⟨pinned.made row member, ?_⟩
  intro moment isPast use admits isMember
  obtain ⟨row', found, pins⟩ := pinned.pins moment isPast row.id use admits row.repositoryId isMember
  have same : row' = row := Option.some.inj (found.symm.trans (Keyed.get_self member))
  exact pins (same ▸ live)

/-- A write is admitted to repository 7, whose removal is then refused. -/
def reservedTask : List (TaskCall × Surroundings) :=
  [(.create { createdBy := 1, title := Text.lit "t", repositories := [⟨7, .target, none⟩, ⟨8, .target, none⟩] },
      { now := 1, judgedAt := 1 }),
    (.execute .start { actor := .system }, { now := 2, judgedAt := 2 }),
    (.admitUse { run := .first, repositoryIds := [7], capability := .projectRepoWrite, executes := false },
      { now := 3, judgedAt := 3, freshId := 9 }),
    (.changeWorkingSet
      { operation := .remove, repositoryId := 7, actor := .system, expectedRole := some .target },
      { now := 4, judgedAt := 4 })]

theorem reservedTask_pinned :
    ∃ row ∈ (served reservedTask).db.writes.rows, TaskDb.isLive 5 row = true ∧
      ∃ role, (served reservedTask).db.role row.repositoryId = some role ∧
        roleAllows role .projectRepoWrite false = true := by
  have member : ({ id := 9, repositoryId := 7, attempt := 1, retryCount := 0, admittedAt := 3
                   expiresAt := 3 + writeReservation, releasedAt := none } : TaskRepositoryWriteRow) ∈
      (served reservedTask).db.writes.rows := by decide
  have live : TaskDb.isLive 5 { id := 9, repositoryId := 7, attempt := 1, retryCount := 0, admittedAt := 3
                                expiresAt := 3 + writeReservation, releasedAt := none } = true := by decide
  have notBefore : ∀ moment ∈ (served reservedTask).past, moment.env.now ≤ 5 ∧ moment.env.judgedAt ≤ 5 := by
    simp [served, reservedTask]
  obtain ⟨-, pins⟩ := live_reservation_pins_role (served_reachable reservedTask) notBefore member live
  refine ⟨_, member, live, ?_⟩
  exact pins _ (mem_cons_of_mem _ mem_cons_self)
    { run := .first, repositoryIds := [7], capability := .projectRepoWrite, executes := false }
    ⟨rfl, rfl⟩ (by decide)

end PawBackend.Tasks
