/-
**Every live project has a live Manager** (`projects/service.py`, `auth/onboarding/lifecycle.py`).

A project that is active or archived has an accepted Manager whose account is active, in every state of every
interleaving of the operations (`live_manager_remains`).
-/

import PawBackend.Lib.Checks
import PawBackend.Projects.Locking

namespace PawBackend.Projects

open Lib List
open Tools (Uuid Instant)
open Authz

variable {db db' seen : ProjectDb} {held : List RowLock} {projectId userId : Uuid}

/-! ### The parts of the operations -/

theorem follows_unchanged (reply : Reply) : managerDiscipline.Follows held seen (unchanged reply) := by
  intro db sound _ db' value same
  cases same
  exact ⟨Discipline.respects_self sound, trivial⟩

theorem follows_lockProject {next : ProjectDb → Option Project → ServiceTxn}
    (absent : ∀ db, Managed db → Keeps held seen db → db.projects.get projectId = none →
      managerDiscipline.Follows held db (next db none))
    (there : ∀ db project, Managed db → Keeps held seen db → db.projects.get projectId = some project →
      managerDiscipline.Follows (.project projectId :: held) db (next db (some project))) :
    managerDiscipline.Follows held seen (lockProject projectId next) := by
  intro db sound kept
  beta_reduce
  obtain found | ⟨project, found⟩ := (db.projects.get projectId).eq_none_or_eq_some
  · rw [if_pos (by rw [found]; rfl), found]
    exact absent db sound kept found
  · rw [if_neg (by simp [found]), found]
    exact there db project sound kept found

theorem follows_lockUserStatus {next : Option UserStatus → ServiceTxn}
    (absent : ∀ db, Managed db → Keeps held seen db → db.users.get userId = none →
      managerDiscipline.Follows held db (next none))
    (there : ∀ db row, Managed db → Keeps held seen db → db.users.get userId = some row →
      managerDiscipline.Follows (.userShare userId :: held) db (next (some row.status))) :
    managerDiscipline.Follows held seen (lockUserStatus userId next) := by
  intro db sound kept
  beta_reduce
  obtain found | ⟨row, found⟩ := (db.users.get userId).eq_none_or_eq_some
  · rw [if_pos (by rw [found]; rfl), found]
    exact absent db sound kept found
  · rw [if_neg (by simp [found]), found]
    exact there db row sound kept found

variable {sink : AuditSink} {actor : Principal}

variable {next : ServiceTxn} {project : Project}

theorem follows_authorizeOwn {capability : Capability} {resource : Resource}
    (follows : managerDiscipline.Follows held seen next) :
    managerDiscipline.Follows held seen (authorizeOwn sink actor capability resource next) := by
  unfold authorizeOwn
  dsimp only
  split_ifs
  · exact follows
  · trivial

theorem follows_load {next : Project → ServiceTxn}
    (there : ∀ db project, Managed db → db.projects.get projectId = some project →
      managerDiscipline.Follows (.project projectId :: held) db (next project)) :
    managerDiscipline.Follows held seen (load projectId next) := by
  refine follows_lockProject (fun _ _ _ _ => trivial) fun db project sound kept found => ?_
  dsimp only
  split_ifs
  · trivial
  · exact there db project sound found

theorem follows_guarded {capability : Capability} {next : Project → ServiceTxn}
    (there : ∀ db project, Managed db → db.projects.get projectId = some project →
      managerDiscipline.Follows (.project projectId :: held) db (next project)) :
    managerDiscipline.Follows held seen (guarded sink actor capability projectId next) := by
  refine follows_load fun db project sound found => ?_
  intro db' sound' kept
  dsimp only
  have same := (kept.fixed _ mem_cons_self (by rw [found]; exact Option.some_ne_none _)).1
  cases project.status.authzState with
  | none => trivial
  | some state =>
    dsimp only
    split_ifs
    · exact there db' project sound' (same.trans found)
    all_goals trivial

theorem there_of_found (found : db.projects.get projectId = some project) :
    db.projects.get projectId ≠ none := by
  rw [found]
  exact Option.some_ne_none project

def Dispensable (db : ProjectDb) (projectId userId : Uuid) : Prop :=
  db.manages projectId userId = false ∨ OtherLiveManager db projectId userId

theorem Dispensable.kept (spare : Dispensable db projectId userId) (kept : Keeps held db db')
    (locked : .project projectId ∈ held) (there : db.projects.get projectId ≠ none) :
    Dispensable db' projectId userId := by
  refine spare.imp (fun noManager => ?_) fun other => other.kept kept locked there
  exact (manages_congr ((kept.fixed _ locked there).2.1 userId)).trans noManager

theorem Dispensable.left (spare : Dispensable db projectId userId) (sound : Managed db)
    (changed : db.MembershipChange db' projectId userId)
    (found : db.projects.get projectId = some project) (live : project.status.isLive = true) :
    HasLiveManager db' projectId := by
  have other : OtherLiveManager db projectId userId := by
    rcases spare with noManager | other
    · obtain ⟨v, manager, active⟩ := sound.managed projectId project found live
      refine ⟨v, fun same => ?_, manager, active⟩
      rw [same, noManager] at manager
      cases manager
    · exact other
  obtain ⟨v, apart, manager, active⟩ := other
  refine ⟨v, (manages_congr (changed.others _ fun both => apart (congrArg Prod.snd both))).trans manager, ?_⟩
  exact (accountActive_congr (congrArg (fun users => Keyed.get users v) changed.users)).trans active

theorem respects_delete (sound : Managed db) (locked : .project projectId ∈ held)
    (member : db.members.get (projectId, userId) ≠ none)
    (spare : (∀ project, db.projects.get projectId = some project → project.status.isLive = false) ∨
      Dispensable db projectId userId) :
    managerDiscipline.Respects held db (db.deleteMember projectId userId) := by
  have changed := ProjectDb.deleteMember_change db projectId userId
  refine respects_membership sound locked changed (sound.foreign projectId userId member) (fun manager => ?_)
    fun project found live => ?_
  · unfold ProjectDb.manages at manager
    rw [ProjectDb.get_deleteMember] at manager
    cases manager
  · rcases spare with dead | spare
    · rw [dead project found] at live
      cases live
    · exact spare.left sound changed found live

theorem dispensable_of_not_active {m : Member} (found : db.members.get (projectId, userId) = some m)
    (invited : m.status.isActive = false) : Dispensable db projectId userId := by
  refine .inl ?_
  unfold ProjectDb.manages
  rw [found, Option.any_some, Member.isManager, invited, Bool.false_and]

theorem follows_requireManagerLeft {target : Member} {newRole : Option ProjectRole}
    (found : seen.members.get (projectId, userId) = some target)
    (follows : ∀ db, Keeps held seen db → (newRole = some .manager ∨ Dispensable db projectId userId) →
      managerDiscipline.Follows held db next) :
    managerDiscipline.Follows held seen (requireManagerLeft target projectId newRole next) := by
  have isUser : target.userId = userId := congrArg Prod.snd (Keyed.key_of_get found)
  unfold requireManagerLeft
  by_cases active : target.status.isActive = false
  · rw [if_pos active]
    exact follows seen (Keeps.refl held seen) (.inr (dispensable_of_not_active found active))
  rw [if_neg active]
  by_cases other : target.role ≠ .manager ∨ newRole = some .manager
  · rw [if_pos other]
    refine follows seen (Keeps.refl held seen) (other.symm.imp_right fun lower => .inl ?_)
    unfold ProjectDb.manages
    rw [found, Option.any_some, Member.isManager, decide_eq_false lower, Bool.and_false]
  rw [if_neg other]
  rw [not_or] at other
  intro db sound kept
  dsimp only
  split_ifs with remains
  · refine follows db kept (.inr (.inr ?_))
    obtain ⟨m, member, manager, apart⟩ := (managerWouldRemain_iff other.2).mp remains
    unfold ProjectDb.listLiveMembers at member
    simp only [mem_filter, Bool.and_eq_true, decide_eq_true_eq] at member
    obtain ⟨member, ⟨inProject, -⟩, live⟩ := member
    exact ⟨m.userId, isUser ▸ apart, ProjectDb.manages_iff.mpr ⟨m, member, inProject, rfl, manager⟩, live⟩
  · trivial

/-! ### The operations -/

theorem follows_createProject (newId : Uuid) (name : Text) (now : Instant) :
    managerDiscipline.Follows [] db (createProject sink actor newId name now) := by
  refine follows_authorizeOwn (follows_lockUserStatus (fun before sound _ absent => ?_) fun before row sound _ found => ?_)
  · -- no user with this id: the foreign key of the membership refuses the insert
    rw [if_neg (by simp)]
    intro db sound kept db' value wrote
    simp only [bind_eq_ok, pure_eq_ok, Prod.mk.injEq] at wrote
    obtain ⟨mid, created, db'', inserted, rfl, -⟩ := wrote
    obtain ⟨-, -, -, user, -⟩ := ProjectDb.insertMember_ok inserted
    unfold ProjectDb.insertProject at created
    split at created
    · cases created
      exact absurd ((kept.users actor.userId).mpr absent) user
    · cases created
  · split_ifs with inactive
    · trivial
    have isActive : row.status = .active := by simpa using inactive
    intro db sound kept db' value wrote
    simp only [bind_eq_ok, pure_eq_ok, Prod.mk.injEq] at wrote
    obtain ⟨mid, created, db'', inserted, rfl, -⟩ := wrote
    have active := kept.fixed _ mem_cons_self (ProjectDb.accountActive_iff.mpr ⟨row, found, isActive⟩)
    exact ⟨respects_creation sound mem_cons_self active created inserted rfl rfl, trivial⟩

theorem withdrawExpired_change (state : InviteState) (db : ProjectDb) (projectId userId : Uuid) :
    db.MembershipChange (withdrawExpired state projectId userId db) projectId userId := by
  unfold withdrawExpired
  split_ifs
  · exact ProjectDb.deleteMember_change db projectId userId
  · exact ⟨rfl, rfl, fun _ _ => rfl⟩

theorem follows_inviteMember (role : ProjectRole) (now : Instant) :
    managerDiscipline.Follows [] db (inviteMember sink actor projectId userId role now) := by
  refine follows_guarded fun db project sound found => ?_
  intro db₁ _ kept₁
  dsimp only
  split_ifs with inactive
  · trivial
  intro db₂ _ kept₂
  dsimp only
  split_ifs with isMember isOpen
  · trivial
  · trivial
  intro db₃ _ kept₃
  dsimp only
  split_ifs with full
  · trivial
  intro db₄ sound kept₄ db' value wrote
  simp only [bind_eq_ok, pure_eq_ok, Prod.mk.injEq] at wrote
  obtain ⟨after, inserted, rfl, -⟩ := wrote
  have locked : RowLock.project projectId ∈ RowLock.project projectId :: [] := mem_cons_self
  have there₂ := kept₂.projects _ (kept₁.projects _ (there_of_found found))
  have same : db₄.members.get (projectId, userId) = db₂.members.get (projectId, userId) :=
    ((Keeps.trans _ kept₃ kept₄).fixed _ locked there₂).2.1 userId
  -- what the invitation replaces is an invitation as well
  have noMember : ∀ m, db₄.members.get (projectId, userId) = some m → m.status.isActive = false := fun m there =>
    isActive_of_inviteState now (same.symm.trans there) isMember
  obtain ⟨changed, isThere, -, user, project⟩ := ProjectDb.insertMember_ok inserted
  have first := withdrawExpired_change (inviteState (db₂.members.get (projectId, userId)) now) db₄ projectId userId
  have whole := first.trans changed
  have spare : Dispensable db₄ projectId userId := by
    cases there : db₄.members.get (projectId, userId) with
    | none => exact .inl (by unfold ProjectDb.manages; rw [there]; rfl)
    | some m => exact dispensable_of_not_active there (noMember m there)
  refine ⟨respects_membership sound locked whole ?_ (fun manager => ?_) fun project found live => ?_, trivial⟩
  · rw [first.users] at user
    rw [first.projects] at project
    exact ⟨user, project⟩
  · unfold ProjectDb.manages at manager
    rw [show after.members.get (projectId, userId) = some (invitation projectId userId role now) from isThere] at manager
    cases manager
  · exact spare.left sound whole found live

theorem follows_acceptInvite (now : Instant) :
    managerDiscipline.Follows [] db (acceptInvite sink actor projectId now) := by
  refine follows_authorizeOwn (follows_lockUserStatus (fun before _ _ _ => ?_) fun before row _ _ _ => ?_)
  · refine follows_lockProject (fun _ _ _ _ => trivial) fun db project _ _ found => ?_
    by_cases closed : joinable (some project) = false
    · rw [if_pos closed]
      trivial
    rw [if_neg closed]
    intro db₁ _ kept₁
    dsimp only
    split
    · trivial
    · trivial
    · exact follows_unchanged _
    · rw [if_pos (Option.some_ne_none _).symm]
      trivial
  · refine follows_lockProject (fun _ _ _ _ => trivial) fun db project _ _ found => ?_
    by_cases closed : joinable (some project) = false
    · rw [if_pos closed]
      trivial
    rw [if_neg closed]
    intro db₁ _ kept₁
    dsimp only
    split
    · trivial
    · trivial
    · exact follows_unchanged _
    · split_ifs with inactive
      · trivial
      intro db₂ sound kept₂ db' value wrote
      simp only [bind_eq_ok, pure_eq_ok] at wrote
      obtain ⟨⟨after, member⟩, activated, same⟩ := wrote
      cases same
      obtain ⟨changed, -, m, there, invited⟩ := ProjectDb.activateInvite_ok activated
      refine ⟨respects_membership sound mem_cons_self changed ?_ (fun _ => .inr ?_) fun project found live => ?_, trivial⟩
      · exact sound.foreign _ _ (by rw [there]; exact Option.some_ne_none m)
      · exact mem_cons_of_mem _ mem_cons_self
      · exact (dispensable_of_not_active there invited).left sound changed found live

theorem follows_declineInvite (now : Instant) :
    managerDiscipline.Follows [] db (declineInvite sink actor projectId now) := by
  refine follows_authorizeOwn (follows_lockProject (fun _ _ _ _ => ?_) fun db project _ _ found => ?_)
  · trivial
  split_ifs
  · trivial
  intro db₁ _ kept₁
  dsimp only
  split_ifs with answerable
  · intro db₂ sound kept₂ db' value wrote
    cases wrote
    have locked : RowLock.project projectId ∈ RowLock.project projectId :: [] := mem_cons_self
    have there₁ := kept₁.projects _ (there_of_found found)
    have same : db₂.members.get (projectId, actor.userId) = db₁.members.get (projectId, actor.userId) :=
      (kept₂.fixed _ locked there₁).2.1 actor.userId
    cases row : db₁.members.get (projectId, actor.userId) with
    | none =>
      rw [row] at answerable
      rcases answerable with isOpen | expired <;> contradiction
    | some m =>
      rw [row] at same
      have invited : m.status.isActive = false := by
        refine isActive_of_inviteState now row fun isMember => ?_
        rw [isMember] at answerable
        rcases answerable with isOpen | expired <;> contradiction
      exact ⟨respects_delete sound locked (by rw [same]; exact Option.some_ne_none m)
        (.inr (dispensable_of_not_active same invited)), trivial⟩
  · trivial

theorem follows_removeMember : managerDiscipline.Follows [] db (removeMember sink actor projectId userId) := by
  refine follows_guarded fun db project sound found => ?_
  intro db₁ _ kept₁
  dsimp only
  have locked : RowLock.project projectId ∈ RowLock.project projectId :: [] := mem_cons_self
  have there₁ := kept₁.projects _ (there_of_found found)
  cases row : db₁.members.get (projectId, userId) with
  | none => trivial
  | some target =>
    refine follows_requireManagerLeft row fun db₂ kept₂ spare => ?_
    intro db₃ sound kept₃ db' value wrote
    cases wrote
    have same := ((Keeps.trans _ kept₂ kept₃).fixed _ locked there₁).2.1 userId
    refine ⟨respects_delete sound locked (by rw [same, row]; exact Option.some_ne_none target) (.inr ?_), trivial⟩
    exact (spare.resolve_left (by simp)).kept kept₃ locked (kept₂.projects _ there₁)

theorem follows_leaveProject : managerDiscipline.Follows [] db (leaveProject sink actor projectId) := by
  refine follows_authorizeOwn (follows_load fun db project sound found => ?_)
  intro db₁ _ kept₁
  dsimp only
  have locked : RowLock.project projectId ∈ RowLock.project projectId :: [] := mem_cons_self
  have there₁ := kept₁.projects _ (there_of_found found)
  cases row : db₁.members.get (projectId, actor.userId) with
  | none => trivial
  | some member =>
    dsimp only
    split_ifs with invited pending
    · trivial
    · refine follows_requireManagerLeft row fun db₂ kept₂ spare => ?_
      intro db₃ sound kept₃ db' value wrote
      cases wrote
      have same := ((Keeps.trans _ kept₂ kept₃).fixed _ locked there₁).2.1 actor.userId
      refine ⟨respects_delete sound locked (by rw [same, row]; exact Option.some_ne_none member) (.inr ?_), trivial⟩
      exact (spare.resolve_left (by simp)).kept kept₃ locked (kept₂.projects _ there₁)
    · -- whoever leaves a project that is pending deletion may be the last Manager
      intro db₂ sound kept₂ db' value wrote
      cases wrote
      obtain ⟨projectSame, same, -⟩ := kept₂.fixed _ locked there₁
      have stays := (kept₁.fixed _ locked (there_of_found found)).1
      refine ⟨respects_delete sound locked (by rw [same, row]; exact Option.some_ne_none member) (.inl ?_), trivial⟩
      intro project' found'
      rw [projectSame, stays, found, Option.some.injEq] at found'
      rw [← found', not_not.mp pending]
      rfl

theorem follows_setRole {target : Member} {role : ProjectRole} (locked : .project projectId ∈ held)
    (promoted : role = .manager → .userShare userId ∈ held) (there : db.projects.get projectId ≠ none)
    (found : db.members.get (projectId, userId) = some target) :
    managerDiscipline.Follows held db (requireManagerLeft target projectId (some role)
      (.commit fun db => do
        let (db, member) ← db.setMemberRole projectId userId role
        return (db, .member member))) := by
  refine follows_requireManagerLeft found fun db₂ kept₂ spare => ?_
  intro db₃ sound kept₃ db' value wrote
  simp only [bind_eq_ok, pure_eq_ok] at wrote
  obtain ⟨⟨after, member⟩, set, same⟩ := wrote
  cases same
  obtain ⟨changed, isThere, isRole, active, m, before⟩ := ProjectDb.setMemberRole_ok set
  have foreign := sound.foreign projectId userId (by rw [before]; exact Option.some_ne_none m)
  have manages : after.manages projectId userId = decide (role = .manager) := by
    unfold ProjectDb.manages
    rw [isThere, Option.any_some, Member.isManager, active, isRole, Bool.true_and]
  refine ⟨respects_membership sound locked changed foreign (fun manager => .inr (promoted ?_)) fun project found live => ?_, trivial⟩
  · rw [manages] at manager
    exact of_decide_eq_true manager
  · rcases spare with isManager | spare
    · obtain ⟨v, manager, live⟩ := sound.managed projectId project found live
      have activeAfter : after.accountActive v = true :=
        (accountActive_congr (congrArg (fun users => Keyed.get users v) changed.users)).trans live
      by_cases same : v = userId
      · refine ⟨v, ?_, activeAfter⟩
        rw [same, manages]
        exact decide_eq_true (Option.some.inj isManager)
      · exact ⟨v, (manages_congr (changed.others _ fun both => same (congrArg Prod.snd both))).trans manager,
          activeAfter⟩
    · exact (spare.kept kept₃ locked (kept₂.projects _ there)).left sound changed found live

theorem follows_changeRole (role : ProjectRole) :
    managerDiscipline.Follows [] db (changeRole sink actor projectId userId role) := by
  refine follows_guarded fun db project sound found => ?_
  intro db₁ sound₁ kept₁
  dsimp only
  have there₁ := kept₁.projects _ (there_of_found found)
  cases row : db₁.members.get (projectId, userId) with
  | none => trivial
  | some target =>
    dsimp only
    have user₁ := (sound₁.foreign projectId userId (by rw [row]; exact Option.some_ne_none target)).1
    split_ifs with invited sameRole isManager
    · trivial
    · exact follows_unchanged _
    · refine follows_lockUserStatus (fun db₂ _ kept₂ absent => ?_) fun db₂ row₂ _ kept₂ found₂ => ?_
      · exact absurd ((kept₂.users userId).mp absent) user₁
      · split_ifs
        · trivial
        · have same := (kept₂.fixed _ mem_cons_self there₁).2.1 userId
          exact follows_setRole (mem_cons_of_mem _ mem_cons_self) (fun _ => mem_cons_self)
            (kept₂.projects _ there₁) (same.trans row)
    · exact follows_setRole mem_cons_self (fun isManager' => absurd isManager' isManager) there₁ row

theorem follows_commitLifecycle {action : LifecycleAction} {status : ProjectStatus} {now : Instant}
    (locked : .project projectId ∈ held)
    (live : ∀ db, Managed db → Keeps held seen db → status.isLive = true → HasLiveManager db projectId) :
    managerDiscipline.Follows held seen (commitLifecycle projectId action status now) := by
  intro db sound kept db' value wrote
  simp only [bind_eq_ok, pure_eq_ok] at wrote
  obtain ⟨⟨after, project⟩, set, same⟩ := wrote
  cases same
  obtain ⟨changed, isStatus, -⟩ := ProjectDb.setLifecycle_ok set
  have whole : db.ProjectChange (if action = .beginDeletion then after.requestTaskStop projectId now else after)
      projectId project := by
    split_ifs
    · exact ⟨changed.users, changed.members, changed.others, changed.found⟩
    · exact changed
  exact ⟨respects_project sound locked whole fun isLive => live db sound kept (isStatus ▸ isLive), trivial⟩

theorem follows_lifecycle (action : LifecycleAction) (confirmName : Option Text) (now : Instant) :
    managerDiscipline.Follows [] db (lifecycle sink actor projectId action confirmName now) := by
  refine follows_guarded fun db project sound found => ?_
  have locked : RowLock.project projectId ∈ RowLock.project projectId :: [] := mem_cons_self
  have there := there_of_found found
  by_cases mismatch : confirmName ≠ none ∧ confirmName ≠ some project.name
  · rw [if_pos mismatch]
    trivial
  rw [if_neg mismatch]
  cases planned : planTransition project.status action with
  | none => trivial
  | some plan =>
    dsimp only
    split_ifs with same isRestore closed
    · exact follows_unchanged _
    · trivial
    · intro db₁ _ kept₁
      dsimp only
      split_ifs with noManager
      · trivial
      refine follows_commitLifecycle locked fun db₂ _ kept₂ _ => ?_
      refine HasLiveManager.kept ?_ kept₂ locked (kept₁.projects _ there)
      obtain ⟨m, member, manager⟩ := any_eq_true.mp (Bool.eq_true_of_not_eq_false noManager)
      unfold ProjectDb.listLiveMembers at member
      simp only [mem_filter, Bool.and_eq_true, decide_eq_true_eq] at member
      obtain ⟨member, ⟨inProject, active⟩, live⟩ := member
      refine ⟨m.userId, ProjectDb.manages_iff.mpr ⟨m, member, inProject, rfl, ?_⟩, live⟩
      rw [Member.isManager, active, manager]
      rfl
    · refine follows_commitLifecycle locked fun db₁ _ kept₁ live => ?_
      have before := (planTransition_live planned live).resolve_right isRestore
      exact (sound.managed projectId project found before).kept kept₁ locked there

/-! ### Accounts -/

theorem follows_administer {steppedUp ownerOnly : Bool} {change : UserRow → ServiceTxn}
    (follows : ∀ db row, Managed db → managerDiscipline.Follows [.userUpdate userId] db (change row)) :
    managerDiscipline.Follows [] db (administer actor userId steppedUp ownerOnly change) := by
  unfold administer
  split_ifs
  · trivial
  intro db sound _
  beta_reduce
  obtain found | ⟨row, found⟩ := (db.users.get userId).eq_none_or_eq_some
  · rw [if_pos (by rw [found]; rfl), found]
    trivial
  · rw [if_neg (by simp [found]), found]
    dsimp only
    split_ifs
    · trivial
    · trivial
    · exact follows db row sound

theorem follows_lockProjects {ids : List Uuid} (there : ∀ id ∈ ids, seen.projects.get id ≠ none)
    (sound : Managed seen)
    (follows : ∀ more db, held ⊆ more → Managed db → Keeps held seen db → (∀ id ∈ ids, .project id ∈ more) →
      managerDiscipline.Follows more db next) :
    managerDiscipline.Follows held seen (lockProjects next ids) := by
  induction ids generalizing held seen with
  | nil => exact follows held seen (List.Subset.refl held) sound (Keeps.refl held seen) nofun
  | cons id rest ih =>
    refine follows_lockProject (fun db _ kept absent => ?_) fun db project sound' kept found => ?_
    · exact absurd absent (kept.projects id (there id mem_cons_self))
    · refine ih (fun other member => kept.projects other (there other (mem_cons_of_mem _ member))) sound' ?_
      intro more db' subset sound'' kept' all
      have fewer : held ⊆ RowLock.project id :: held := subset_cons_self _ _
      refine follows more db' (List.Subset.trans fewer subset) sound'' (Keeps.trans held kept (kept'.subset fewer)) fun other member => ?_
      rcases mem_cons.mp member with rfl | member
      · exact subset mem_cons_self
      · exact all other member

theorem mem_managedProjectIds : projectId ∈ db.managedProjectIds userId ↔
    db.projects.get projectId ≠ none ∧ db.manages projectId userId = true := by
  unfold ProjectDb.managedProjectIds
  rw [mem_mergeSort, mem_map]
  constructor
  · rintro ⟨row, member, rfl⟩
    rw [mem_filter] at member
    exact ⟨there_of_found (Keyed.get_self member.1), member.2⟩
  · rintro ⟨there, manager⟩
    obtain ⟨row, found⟩ := Option.ne_none_iff_exists'.mp there
    have same : row.id = projectId := Keyed.key_of_get found
    exact ⟨row, mem_filter.mpr ⟨Keyed.mem_of_get found, same ▸ manager⟩, same⟩

theorem otherLiveManager_of_not_last (notLast : db.isLastManager userId = false)
    (manager : db.manages projectId userId = true) (found : db.projects.get projectId = some project)
    (live : project.status.isLive = true) : OtherLiveManager db projectId userId := by
  obtain ⟨m, member, rfl, rfl, isManager⟩ := ProjectDb.manages_iff.mp manager
  unfold ProjectDb.isLastManager at notLast
  have here := any_eq_false.mp notLast m member
  rw [found] at here
  simp only [isManager, live, Option.any_some, decide_true, Bool.true_and, Bool.not_eq_true, Bool.not_eq_false',
    any_eq_true, Bool.and_eq_true, decide_eq_true_eq] at here
  obtain ⟨o, member', ⟨⟨inProject, apart⟩, isManager'⟩, active⟩ := here
  exact ⟨o.userId, apart, ProjectDb.manages_iff.mpr ⟨o, member', inProject, rfl, isManager'⟩, active⟩

theorem follows_deleteUser (steppedUp : Bool) (now : Instant) :
    managerDiscipline.Follows [] db (deleteUser actor userId steppedUp now) := by
  unfold deleteUser
  split_ifs
  · trivial
  refine follows_administer fun db row sound => ?_
  split_ifs
  · intro db₁ sound₁ _ db' value wrote
    simp only [bind_eq_ok, pure_eq_ok, Prod.mk.injEq] at wrote
    obtain ⟨after, set, rfl, -⟩ := wrote
    exact ⟨respects_status sound₁ mem_cons_self set nofun, trivial⟩
  · trivial
  intro db₁ sound₁ _
  refine follows_lockProjects (fun id member => (mem_managedProjectIds.mp member).1) sound₁ ?_
  intro more db₂ subset _ kept₂ all db₃ _ kept₃
  have isHeld : RowLock.userUpdate userId ∈ more := subset mem_cons_self
  dsimp only
  split_ifs with last
  · trivial
  intro db₄ sound₄ kept₄ db' value wrote
  simp only [bind_eq_ok, pure_eq_ok, Prod.mk.injEq] at wrote
  obtain ⟨after, set, rfl, -⟩ := wrote
  refine ⟨respects_status sound₄ isHeld set fun _ p manager => ?_, trivial⟩
  -- the user cannot become a Manager of another project while its row is locked
  have manager₃ := kept₄.fixed _ isHeld p manager
  have manager₂ := kept₃.fixed _ isHeld p manager₃
  have manager₁ := kept₂.fixed _ mem_cons_self p manager₂
  have there₁ : db₁.projects.get p ≠ none := by
    refine (sound₁.foreign p userId fun none => ?_).2
    unfold ProjectDb.manages at manager₁
    rw [none] at manager₁
    cases manager₁
  have locked := all p (mem_managedProjectIds.mpr ⟨there₁, manager₁⟩)
  have there₃ := kept₃.projects p (kept₂.projects p there₁)
  refine ⟨locked, fun project found live => ?_⟩
  have same := (kept₄.fixed _ locked there₃).1
  exact (otherLiveManager_of_not_last (Bool.eq_false_of_not_eq_true last) manager₃ (same ▸ found) live).kept kept₄ locked there₃

theorem follows_restoreUser (steppedUp : Bool) (now clock : Instant) :
    managerDiscipline.Follows [] db (restoreUser actor userId steppedUp now clock) := by
  unfold restoreUser
  split_ifs
  · trivial
  refine follows_administer fun db row sound => ?_
  split_ifs
  · trivial
  intro db₁ _ _
  dsimp only
  split_ifs
  · trivial
  intro db₂ sound₂ _ db' value wrote
  simp only [bind_eq_ok, pure_eq_ok, Prod.mk.injEq] at wrote
  obtain ⟨after, set, rfl, -⟩ := wrote
  exact ⟨respects_status sound₂ mem_cons_self set nofun, trivial⟩

/-! ### Every interleaving -/

theorem obeyed : managerDiscipline.Obeyed where
  programs operation db _ := by
    cases operation with
    | createProject sink actor newId name now => exact follows_createProject newId name now
    | inviteMember sink actor projectId userId role now => exact follows_inviteMember role now
    | acceptInvite sink actor projectId now => exact follows_acceptInvite now
    | declineInvite sink actor projectId now => exact follows_declineInvite now
    | removeMember sink actor projectId userId => exact follows_removeMember
    | leaveProject sink actor projectId => exact follows_leaveProject
    | changeRole sink actor projectId userId role => exact follows_changeRole role
    | archive sink actor projectId now => exact follows_lifecycle .archive none now
    | unarchive sink actor projectId now => exact follows_lifecycle .unarchive none now
    | beginDeletion sink actor projectId confirmName now => exact follows_lifecycle .beginDeletion _ now
    | restore sink actor projectId now => exact follows_lifecycle .restore none now
    | deleteUser actor userId steppedUp now => exact follows_deleteUser steppedUp now
    | restoreUser actor userId steppedUp now clock => exact follows_restoreUser steppedUp now clock
  ambient _ _ sound := respects_redeem sound

theorem managed_of_noProjects (none : noProjects db) : Managed db := by
  refine ⟨fun projectId userId found => ?_, fun projectId project found => ?_⟩
  · rw [none.2] at found
    exact absurd rfl found
  · rw [none.1] at found
    cases found

/-- **A project that is active or archived has an accepted Manager whose account is active**, whatever
transactions are committed, are under way or were lost, in whatever order their statements ran. -/
theorem live_manager_remains {w : World ProjectDb RowLock Failure Reply}
    (reach : (service.machine noProjects).Reachable w) (project : Project) (there : project ∈ w.db.projects.rows)
    (live : project.status = .active ∨ project.status = .archived) :
    ∃ m ∈ w.db.members.rows, m.projectId = project.id ∧ m.status.isActive = true ∧ m.role = .manager ∧
      ∃ user ∈ w.db.users.rows, user.id = m.userId ∧ user.status = .active := by
  have sound := Discipline.sound_of_reachable obeyed (fun _ none => managed_of_noProjects none) reach
  obtain ⟨userId, manager, active⟩ :=
    sound.inv.managed project.id project (Keyed.get_self there) (decide_eq_true live)
  obtain ⟨m, member, inProject, isUser, isManager⟩ := ProjectDb.manages_iff.mp manager
  obtain ⟨user, found, isActive⟩ := ProjectDb.accountActive_iff.mp active
  unfold Member.isManager at isManager
  rw [Bool.and_eq_true, decide_eq_true_eq] at isManager
  exact ⟨m, member, inProject, isManager.1, isManager.2, user, Keyed.mem_of_get found,
    (Keyed.key_of_get found).trans isUser.symm, isActive⟩

/-! ### Two Managers deleted at once -/

def sampleUser (n : ℕ) (role : SystemRole) : UserRow := ⟨BitVec.ofNat 128 n, role, .active⟩

def sampleActor (n : ℕ) (role : SystemRole) : Principal := ⟨BitVec.ofNat 128 n, role, fun _ => none⟩

theorem sampleUsers_distinct :
    ([sampleUser 1 .owner, sampleUser 2 .user, sampleUser 3 .user].map UserRow.id).Nodup := by decide

def sampleStart : World ProjectDb RowLock Failure Reply where
  db := ⟨⟨_, sampleUsers_distinct⟩, [], .empty, .empty, .empty⟩
  sessions := []

/-- User 2 creates a project and makes user 3 a Manager of it; then the owner deletes both at once. -/
def sampleEvents : List (Happening Operation Uuid) :=
  let begin (operation : Operation) (i statements : ℕ) : List (Happening Operation Uuid) :=
    .begin operation :: List.replicate statements (.advance i)
  let sink : AuditSink := fun _ _ => true
  begin (.createProject sink (sampleActor 2 .user) 9 [80] 0) 0 2 ++
  begin (.inviteMember sink (sampleActor 2 .user) 9 3 .contributor 1) 1 6 ++
  begin (.acceptInvite sink (sampleActor 3 .user) 9 2) 2 4 ++
  begin (.changeRole sink (sampleActor 2 .user) 9 3 .manager) 3 5 ++
  begin (.deleteUser (sampleActor 1 .owner) 2 true 3) 4 2 ++
  begin (.deleteUser (sampleActor 1 .owner) 3 true 3) 5 2 ++
  -- the second waits for the project until the first has committed
  List.replicate 3 (.advance 4) ++ List.replicate 2 (.advance 5)

def sampleEnd : Option (World ProjectDb RowLock Failure Reply) :=
  (service.machine noProjects).run sampleStart sampleEvents

theorem sampleEnd_live :
    sampleEnd.any (fun w => w.db.projects.rows.any (fun project => decide (project.status = .active)) &&
      !w.db.accountActive 2) = true := by with_unfolding_all decide

/-- One of the two deletions went through, and the project still has a live Manager. -/
theorem live_manager_remains_sample :
    ∃ w project, (service.machine noProjects).Reachable w ∧ project ∈ w.db.projects.rows ∧ w.db.accountActive 2 = false ∧
      ∃ m ∈ w.db.members.rows, m.projectId = project.id ∧ m.status.isActive = true ∧ m.role = .manager ∧
        ∃ user ∈ w.db.users.rows, user.id = m.userId ∧ user.status = .active := by
  obtain ⟨w, ran, there⟩ := (Option.any_eq_true _ _).mp sampleEnd_live
  rw [Bool.and_eq_true, any_eq_true, Bool.not_eq_true'] at there
  obtain ⟨⟨project, member, active⟩, gone⟩ := there
  have reach : (service.machine noProjects).Reachable w := .run (.start ⟨⟨rfl, rfl⟩, rfl⟩) ran
  exact ⟨w, project, reach, member, gone, live_manager_remains reach project member (.inl (of_decide_eq_true active))⟩

end PawBackend.Projects
