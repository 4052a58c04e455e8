/-
**What the row locks fix** (`projects/service.py`, `auth/onboarding/lifecycle.py`).

The check of an operation is about the moment of its own statement. What makes it last until the commit are the
locks, and `RowLock.fixes` says what each of them keeps the others from changing:

* the lock of a project fixes its row and its members, and its live Managers stay live: whoever deletes the
  account of one of them needs the same lock;
* a shared lock of a user keeps an active account active;
* the lock of a user who is deleted keeps the user from becoming a Manager anywhere: that needs the shared one.
-/

import PawBackend.Projects.Service

namespace PawBackend.Projects

open Lib
open Tools (Uuid Instant)
open Authz

variable {db db' seen : ProjectDb} {held : List RowLock} {projectId userId : Uuid}

/-! ### What the locks fix -/

def RowLock.fixes (l : RowLock) (db db' : ProjectDb) : Prop :=
  match l with
  | .project projectId =>
    db.projects.get projectId ≠ none →
      db'.projects.get projectId = db.projects.get projectId ∧
      (∀ userId, db'.members.get (projectId, userId) = db.members.get (projectId, userId)) ∧
      ∀ userId, db.manages projectId userId = true → db.accountActive userId = true → db'.accountActive userId = true
  | .userShare userId => db.accountActive userId = true → db'.accountActive userId = true
  | .userUpdate userId => ∀ projectId, db'.manages projectId userId = true → db.manages projectId userId = true

/-- What a transaction that holds these locks may rely on. -/
structure Keeps (held : List RowLock) (db db' : ProjectDb) : Prop where
  users : ∀ id, db'.users.get id = none ↔ db.users.get id = none
  projects : ∀ id, db.projects.get id ≠ none → db'.projects.get id ≠ none
  fixed : ∀ l ∈ held, l.fixes db db'

def OtherLiveManager (db : ProjectDb) (projectId userId : Uuid) : Prop :=
  ∃ other, other ≠ userId ∧ db.manages projectId other = true ∧ db.accountActive other = true

def HasLiveManager (db : ProjectDb) (projectId : Uuid) : Prop :=
  ∃ userId, db.manages projectId userId = true ∧ db.accountActive userId = true

structure Managed (db : ProjectDb) : Prop where
  foreign : ∀ projectId userId, db.members.get (projectId, userId) ≠ none →
    db.users.get userId ≠ none ∧ db.projects.get projectId ≠ none
  managed : ∀ projectId project, db.projects.get projectId = some project → project.status.isLive = true →
    HasLiveManager db projectId

theorem manages_congr (same : db'.members.get (projectId, userId) = db.members.get (projectId, userId)) :
    db'.manages projectId userId = db.manages projectId userId := by
  unfold ProjectDb.manages
  rw [same]

theorem accountActive_congr (same : db'.users.get userId = db.users.get userId) :
    db'.accountActive userId = db.accountActive userId := by
  unfold ProjectDb.accountActive
  rw [same]

theorem Keeps.refl (held : List RowLock) (db : ProjectDb) : Keeps held db db := by
  refine ⟨fun _ => Iff.rfl, fun _ => id, fun l _ => ?_⟩
  cases l with
  | userShare userId => exact id
  | userUpdate userId => exact fun _ => id
  | project projectId => exact fun _ => ⟨rfl, fun _ => rfl, fun _ _ => id⟩

theorem RowLock.fixes_trans {a b c : ProjectDb} {l : RowLock} (first : l.fixes a b) (second : l.fixes b c) : l.fixes a c := by
  cases l with
  | userShare userId => exact fun active => second (first active)
  | userUpdate userId => exact fun projectId manager => first projectId (second projectId manager)
  | project projectId =>
    intro there
    obtain ⟨row, members, stay⟩ := first there
    obtain ⟨row', members', stay'⟩ := second (row ▸ there)
    refine ⟨row'.trans row, fun userId => (members' userId).trans (members userId), fun userId manager active => ?_⟩
    exact stay' userId ((manages_congr (members userId)).trans manager) (stay userId manager active)

theorem Keeps.trans (held : List RowLock) {a b c : ProjectDb} (first : Keeps held a b) (second : Keeps held b c) :
    Keeps held a c where
  users id := (second.users id).trans (first.users id)
  projects id there := second.projects id (first.projects id there)
  fixed l member := RowLock.fixes_trans (first.fixed l member) (second.fixed l member)

theorem Keeps.subset {more : List RowLock} (kept : Keeps more db db') (fewer : held ⊆ more) : Keeps held db db' :=
  ⟨kept.users, kept.projects, fun l member => kept.fixed l (fewer member)⟩

def managerDiscipline : Discipline service where
  inv := Managed
  keeps := Keeps
  answers _ _ _ := True
  refl := Keeps.refl
  trans := Keeps.trans

theorem OtherLiveManager.kept (other : OtherLiveManager db projectId userId) (kept : Keeps held db db')
    (locked : .project projectId ∈ held) (there : db.projects.get projectId ≠ none) :
    OtherLiveManager db' projectId userId := by
  obtain ⟨v, apart, manager, active⟩ := other
  obtain ⟨-, members, stay⟩ := kept.fixed _ locked there
  exact ⟨v, apart, (manages_congr (members v)).trans manager, stay v manager active⟩

theorem HasLiveManager.kept (live : HasLiveManager db projectId) (kept : Keeps held db db')
    (locked : .project projectId ∈ held) (there : db.projects.get projectId ≠ none) :
    HasLiveManager db' projectId := by
  obtain ⟨v, manager, active⟩ := live
  obtain ⟨-, members, stay⟩ := kept.fixed _ locked there
  exact ⟨v, (manages_congr (members v)).trans manager, stay v manager active⟩

/-! ### Changes that respect the others -/

theorem respects_membership (sound : Managed db) (locked : .project projectId ∈ held)
    (changed : db.MembershipChange db' projectId userId)
    (foreign : db.users.get userId ≠ none ∧ db.projects.get projectId ≠ none)
    (promoted : db'.manages projectId userId = true → db.manages projectId userId = true ∨ .userShare userId ∈ held)
    (left : ∀ project, db.projects.get projectId = some project → project.status.isLive = true →
      HasLiveManager db' projectId) : managerDiscipline.Respects held db db' := by
  have active : ∀ id, db'.accountActive id = db.accountActive id := fun id =>
    accountActive_congr (congrArg (fun users => Keyed.get users id) changed.users)
  constructor
  · refine ⟨fun p u found => ?_, fun p project found live => ?_⟩
    · rw [changed.users, changed.projects]
      by_cases same : (p, u) = (projectId, userId)
      · cases same
        exact foreign
      · exact sound.foreign p u (changed.others _ same ▸ found)
    · rw [changed.projects] at found
      by_cases same : p = projectId
      · exact same ▸ left project (same ▸ found) live
      · obtain ⟨v, manager, isActive⟩ := sound.managed p project found live
        refine ⟨v, ?_, (active v).trans isActive⟩
        exact (manages_congr (changed.others _ fun both => same (congrArg Prod.fst both))).trans manager
  · intro others apart
    refine ⟨fun v => by rw [changed.users], fun p there => by rwa [changed.projects], fun l member => ?_⟩
    have clear := apart _ locked l member
    cases l with
    | userShare v => exact fun isActive => (active v).trans isActive
    | userUpdate v =>
      intro p manager
      by_cases same : (p, v) = (projectId, userId)
      · cases same
        rcases promoted manager with before | shared
        · exact before
        · exact absurd (apart _ shared _ member) (by simp [service, RowLock.conflict])
      · exact (manages_congr (changed.others _ same)).symm.trans manager
    | project p =>
      have other : p ≠ projectId := fun same => by simp [service, RowLock.conflict, same] at clear
      refine fun _ => ⟨by rw [changed.projects], fun v => ?_, fun v _ isActive => (active v).trans isActive⟩
      exact changed.others _ fun both => other (congrArg Prod.fst both)

theorem respects_project {project : Project} (sound : Managed db) (locked : .project projectId ∈ held)
    (changed : db.ProjectChange db' projectId project)
    (left : project.status.isLive = true → HasLiveManager db projectId) : managerDiscipline.Respects held db db' := by
  have active : ∀ id, db'.accountActive id = db.accountActive id := fun id =>
    accountActive_congr (congrArg (fun users => Keyed.get users id) changed.users)
  have manages : ∀ p v, db'.manages p v = db.manages p v := fun p v =>
    manages_congr (congrArg (fun members => Keyed.get members (p, v)) changed.members)
  have stays : ∀ id, db.projects.get id ≠ none → db'.projects.get id ≠ none := by
    intro id there
    by_cases same : id = projectId
    · rw [same, changed.found]
      exact Option.some_ne_none project
    · rwa [changed.others id same]
  have carried : ∀ p, HasLiveManager db p → HasLiveManager db' p := by
    rintro p ⟨v, manager, isActive⟩
    exact ⟨v, (manages p v).trans manager, (active v).trans isActive⟩
  constructor
  · refine ⟨fun p u found => ?_, fun p row found live => ?_⟩
    · rw [changed.members] at found
      rw [changed.users]
      exact (sound.foreign p u found).imp_right (stays p)
    · by_cases same : p = projectId
      · subst same
        rw [changed.found, Option.some.injEq] at found
        exact carried p (left (found ▸ live))
      · exact carried p (sound.managed p row (changed.others p same ▸ found) live)
  · intro others apart
    refine ⟨fun id => by rw [changed.users], stays, fun l member => ?_⟩
    have clear := apart _ locked l member
    cases l with
    | userShare v => exact fun isActive => (active v).trans isActive
    | userUpdate v => exact fun p manager => (manages p v).symm.trans manager
    | project p =>
      have other : p ≠ projectId := fun same => by simp [service, RowLock.conflict, same] at clear
      refine fun _ => ⟨changed.others p other, fun v => by rw [changed.members], fun v _ isActive => ?_⟩
      exact (active v).trans isActive

theorem respects_status {old new : UserStatus} {now : Instant} (sound : Managed db)
    (locked : .userUpdate userId ∈ held) (changed : db.setStatus userId old new now = .ok db')
    (replaced : old = .active → ∀ p, db.manages p userId = true → .project p ∈ held ∧
      ∀ project, db.projects.get p = some project → project.status.isLive = true → OtherLiveManager db p userId) :
    managerDiscipline.Respects held db db' := by
  obtain ⟨-, projects, members, others, row, found, isOld, after⟩ := ProjectDb.setStatus_ok changed
  have manages : ∀ p v, db'.manages p v = db.manages p v := fun p v =>
    manages_congr (congrArg (fun members => Keyed.get members (p, v)) members)
  have apartUser : ∀ v, v ≠ userId → db'.accountActive v = db.accountActive v := fun v apart =>
    accountActive_congr (others v apart)
  have wasActive : db.accountActive userId = true → old = .active := by
    intro active
    obtain ⟨row', found', isActive⟩ := ProjectDb.accountActive_iff.mp active
    rw [found, Option.some.injEq] at found'
    rw [← isOld, found', isActive]
  constructor
  · refine ⟨fun p u there => ?_, fun p project there live => ?_⟩
    · rw [members] at there
      rw [projects]
      refine (sound.foreign p u there).imp_left fun user => ?_
      by_cases same : u = userId
      · rw [same, after]
        exact Option.some_ne_none _
      · rwa [others u same]
    · rw [projects] at there
      obtain ⟨v, manager, active⟩ := sound.managed p project there live
      by_cases same : v = userId
      · subst same
        obtain ⟨w, apart, manager', active'⟩ := (replaced (wasActive active) p manager).2 project there live
        exact ⟨w, (manages p w).trans manager', (apartUser w apart).trans active'⟩
      · exact ⟨v, (manages p v).trans manager, (apartUser v same).trans active⟩
  · intro others' apart
    refine ⟨fun id => ?_, fun p there => by rwa [projects], fun l member => ?_⟩
    · by_cases same : id = userId
      · rw [same, after, found]
        simp
      · rw [others id same]
    · have clear := apart _ locked l member
      cases l with
      | userShare v =>
        have other : v ≠ userId := fun same => by simp [service, RowLock.conflict, same] at clear
        exact fun active => (apartUser v other).trans active
      | userUpdate v => exact fun p manager => (manages p v).symm.trans manager
      | project p =>
        refine fun _ => ⟨by rw [projects], fun v => by rw [members], fun v manager active => ?_⟩
        by_cases same : v = userId
        · subst same
          have both := apart _ (replaced (wasActive active) p manager).1 _ member
          simp [service, RowLock.conflict] at both
        · exact (apartUser v same).trans active

theorem respects_creation {project : Project} {manager : Member} {mid : ProjectDb} (sound : Managed db)
    (locked : .userShare userId ∈ held) (active : db.accountActive userId = true)
    (created : db.insertProject project = .ok mid) (inserted : mid.insertMember manager = .ok db')
    (isManager : manager.isManager = true) (key : manager.key = (project.id, userId)) :
    managerDiscipline.Respects held db db' := by
  unfold ProjectDb.insertProject at created
  cases added : db.projects.tryInsert project with
  | none =>
    rw [added] at created
    cases created
  | some projects =>
    rw [added] at created
    cases created
    obtain ⟨changed, found, -, user, -⟩ := ProjectDb.insertMember_ok inserted
    have fresh : db.projects.get project.id = none := Keyed.fresh_of_tryInsert added
    have row : ∀ p, db'.projects.get p = if p = project.id then some project else db.projects.get p := fun p => by
      rw [changed.projects]
      exact Keyed.get_of_tryInsert added p
    have users : db'.users = db.users := changed.users
    rw [show (manager.projectId, manager.userId) = (project.id, userId) from key] at found
    have others : ∀ k, k ≠ (project.id, userId) → db'.members.get k = db.members.get k := fun k other =>
      changed.others k fun same => other (same.trans key)
    have isActive : ∀ v, db'.accountActive v = db.accountActive v := fun v =>
      accountActive_congr (congrArg (fun users => Keyed.get users v) users)
    have stays : ∀ p, db.projects.get p ≠ none → db'.projects.get p ≠ none := by
      intro p there
      rwa [row, if_neg fun same : p = project.id => there (same ▸ fresh)]
    constructor
    · refine ⟨fun p u there => ?_, fun p other there live => ?_⟩
      · rw [users]
        by_cases same : (p, u) = (project.id, userId)
        · cases same
          refine ⟨fun gone => ?_, fun gone => ?_⟩
          · obtain ⟨here, found', -⟩ := ProjectDb.accountActive_iff.mp active
            rw [gone] at found'
            cases found'
          · rw [row, if_pos rfl] at gone
            cases gone
        · rw [others _ same] at there
          exact (sound.foreign p u there).imp_right (stays p)
      · by_cases same : p = project.id
        · subst same
          refine ⟨userId, ?_, (isActive userId).trans active⟩
          unfold ProjectDb.manages
          rw [found]
          exact isManager
        · rw [row, if_neg same] at there
          obtain ⟨v, manages, live⟩ := sound.managed p other there live
          refine ⟨v, (manages_congr (others _ fun both => same (congrArg Prod.fst both))).trans manages, ?_⟩
          exact (isActive v).trans live
    · intro others' apart
      refine ⟨fun v => by rw [users], stays, fun l member => ?_⟩
      have clear := apart _ locked l member
      cases l with
      | userShare v => exact fun active => (isActive v).trans active
      | userUpdate v =>
        have other : v ≠ userId := fun same => by simp [service, RowLock.conflict, same] at clear
        exact fun p manages => (manages_congr (others _ fun both => other (congrArg Prod.snd both))).symm.trans manages
      | project p =>
        intro there
        have other : p ≠ project.id := fun same => there (same ▸ fresh)
        refine ⟨by rw [row, if_neg other], fun v => ?_, fun v _ active => (isActive v).trans active⟩
        exact others _ fun both => other (congrArg Prod.fst both)

theorem respects_redeem (sound : Managed db) : managerDiscipline.Respects [] db (redeem userId db) := by
  have row : ∀ v, (redeem userId db).users.get v =
      (db.users.get v).map fun row =>
        if decide (row.id = userId ∧ row.status = .invited) = true then { row with status := .active } else row :=
    fun v => Keyed.get_update db.users (fun row => decide (row.id = userId ∧ row.status = .invited))
      (fun row => { row with status := .active }) (fun _ _ => rfl) v
  have absent : ∀ v, (redeem userId db).users.get v = none ↔ db.users.get v = none := by
    intro v
    rw [row, Option.map_eq_none_iff]
  have stays : ∀ v, db.accountActive v = true → (redeem userId db).accountActive v = true := by
    intro v active
    obtain ⟨user, found, isActive⟩ := ProjectDb.accountActive_iff.mp active
    rw [ProjectDb.accountActive_iff, row, found]
    refine ⟨_, rfl, ?_⟩
    beta_reduce
    split_ifs
    · rfl
    · exact isActive
  constructor
  · refine ⟨fun p u there => (sound.foreign p u there).imp_left (mt (absent u).mp), fun p project found live => ?_⟩
    obtain ⟨v, manager, active⟩ := sound.managed p project found live
    exact ⟨v, manager, stays v active⟩
  · intro others _
    refine ⟨absent, fun p there => there, fun l member => ?_⟩
    cases l with
    | userShare v => exact stays v
    | userUpdate v => exact fun p manager => manager
    | project p => exact fun _ => ⟨rfl, fun _ => rfl, fun v _ active => stays v active⟩

end PawBackend.Projects
