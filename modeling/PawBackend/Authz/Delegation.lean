/-
**Delegation never widens authority** (`authz/policy.py`: `Policy`, `decide`, `decide_agent`;
`authz/delegation.py`).

`decideUnder` is the decision for a person under any policy (`decidePolicy` is the one under the default
policy), `decideAgent` the one for an agent that acts for a person, and `deriveChildGrant` the only way to the
grant of a sub-agent.

* `decideUnder_narrowed`: an ACL override, a state other than active and a lost role only take away;
* `decideAgent_derived`: so does every grant of a chain of derived grants.
-/

import PawBackend.Authz.Policy
import PawBackend.Lib.Checks

namespace PawBackend.Authz

open Lib
open Tools (Uuid)

/-! ### A policy -/

/-- `Policy`: a project role grants capabilities of projects only. -/
structure Policy where
  systemGrants : SystemRole → List Capability
  projectGrants : ProjectRole → List Capability
  project_scoped : ∀ role, ∀ capability ∈ projectGrants role, capability.scope = .project

namespace Policy

def systemRoleAllows (policy : Policy) (role : SystemRole) (capability : Capability) : Bool :=
  decide (capability ∈ policy.systemGrants role)

def projectRoleAllows (policy : Policy) (role : ProjectRole) (capability : Capability) : Bool :=
  decide (capability ∈ policy.projectGrants role)

def projectRoleDecision (policy : Policy) (principal : Principal) (capability : Capability) (projectId : Uuid) :
    Decision :=
  if policy.systemRoleAllows principal.systemRole capability then .allow .grantedBySystemRole capability
  else
    match principal.projectRoles projectId with
    | none => .deny .notProjectMember capability
    | some role =>
      if policy.projectRoleAllows role capability then .allow .grantedByProjectRole capability
      else .deny .capabilityNotGranted capability

end Policy

/-- What `decide` answers on a project resource. -/
def decideProject (policy : Policy) (principal : Principal) (capability : Capability) (resource : Resource) : Decision :=
  match resource.projectId, resource.projectState with
  | some projectId, some state =>
    if state.allows capability = false then .deny .projectStateForbids capability
    else if resource.repoId ≠ none ∧ resource.repoAcl = none then .deny .repoAclUnresolved capability
    else if resource.repoId ≠ none ∧ resource.repoAcl.any (fun acl =>
        some acl.repoId ≠ resource.repoId ∨ acl.projectId ≠ projectId) then .deny .repoAclMismatch capability
    else withinAcl (policy.projectRoleDecision principal capability projectId) capability resource.repoAcl
  | _, _ => .deny .invalidResource capability

/-- `decide`. -/
def decideUnder (policy : Policy) (principal : Option Principal) (capability : Capability)
    (resource : Option Resource) : Decision :=
  match principal, resource with
  | none, _ => .deny .unauthenticated capability
  | some _, none => .deny .invalidResource capability
  | some principal, some resource =>
    if resource.repoId ≠ none ∧ (capability.scope ≠ .project ∨ capability.repoPermission = none) then
      .deny .invalidResource capability
    else
      match capability.scope with
      | .system =>
        if policy.systemRoleAllows principal.systemRole capability then .allow .grantedBySystemRole capability
        else .deny .capabilityNotGranted capability
      | .self =>
        match resource.ownerId with
        | none => .deny .invalidResource capability
        | some owner =>
          if policy.systemRoleAllows principal.systemRole capability = false then
            .deny .capabilityNotGranted capability
          else if owner ≠ principal.userId then .deny .notResourceOwner capability
          else .allow .grantedToResourceOwner capability
      | .project => decideProject policy principal capability resource

/-- `CAPABILITIES[capability].delegable`. -/
def Capability.delegable : Capability → Bool
  | .chatUse | .workspaceUse | .githubUse | .memoryUse | .memoryRead | .prCreate | .sharedMemoryRead | .projectRead
  | .projectChat | .projectTaskRun | .projectRepoWrite | .projectPrCreate | .projectMemoryUse
  | .projectTaskWorkingSetManage => true
  | _ => false

def decideAgent (policy : Policy) (delegator : Option Principal) (grant : AgentGrant) (capability : Capability)
    (resource : Option Resource) : Decision :=
  let userDecision := decideUnder policy delegator capability resource
  if userDecision.allowed = false then userDecision
  else if capability.delegable = false then .deny .agentCapabilityForbidden capability
  else if capability ∉ grant.capabilities then .deny .agentCapabilityNotGranted capability
  else if grant.projectIds.any fun projects =>
      !resource.any fun own => own.projectId.any fun project => decide (project ∈ projects) then
    .deny .agentProjectNotGranted capability
  else if (resource.bind fun own => own.repoAcl.bind RepoAcl.allowed).any fun allowed =>
      decide (RepoPermission.agent ∉ allowed) then .deny .repoAclForbids capability
  else userDecision

/-! ### Derived grants -/

/-- `GrantEscalationError`. -/
inductive EscalationReason
  | sameAgent
  | capability
  | notDelegable
  | project
  deriving DecidableEq, Repr

def delegableCapabilities (grant : AgentGrant) : List Capability := grant.capabilities.filter Capability.delegable

/-- `projects_within`; without a list it is all of them. -/
def projectsWithin (child parent : Option (List Uuid)) : Bool :=
  match child, parent with
  | _, none => true
  | none, some _ => false
  | some child, some parent => decide (child ⊆ parent)

def childCapabilities (parent : AgentGrant) : Option (List Capability) → Except EscalationReason (List Capability)
  | none => .ok (delegableCapabilities parent)
  | some granted =>
    if ¬ granted ⊆ parent.capabilities then .error .capability
    else if granted.all Capability.delegable = false then .error .notDelegable
    else .ok granted

def childProjects (parent : AgentGrant) :
    Option (Option (List Uuid)) → Except EscalationReason (Option (List Uuid))
  | none => .ok parent.projectIds
  | some reach => if projectsWithin reach parent.projectIds = false then .error .project else .ok reach

def deriveChildGrant (parent : AgentGrant) (childAgentId : Uuid) (capabilities : Option (List Capability))
    (projectIds : Option (Option (List Uuid))) : Except EscalationReason AgentGrant := do
  if childAgentId = parent.agentId then throw .sameAgent
  let granted ← childCapabilities parent capabilities
  let reach ← childProjects parent projectIds
  return ⟨childAgentId, granted, reach⟩

/-! ### When a decision allows -/

section Allowed

variable {policy : Policy} {principal : Principal} {capability : Capability} {resource : Resource}

def Policy.Grants (policy : Policy) (principal : Principal) (capability : Capability) (projectId : Uuid) : Prop :=
  policy.systemRoleAllows principal.systemRole capability = true ∨
    ∃ role, principal.projectRoles projectId = some role ∧ policy.projectRoleAllows role capability = true

theorem projectRoleDecision_allowed {projectId : Uuid} :
    (policy.projectRoleDecision principal capability projectId).allowed = true ↔
      policy.Grants principal capability projectId := by
  unfold Policy.projectRoleDecision Policy.Grants
  by_cases bySystem : policy.systemRoleAllows principal.systemRole capability = true
  · rw [if_pos bySystem]
    exact iff_of_true rfl (Or.inl bySystem)
  · rw [if_neg bySystem]
    cases role : principal.projectRoles projectId with
    | none => exact iff_of_false Bool.false_ne_true (by simp [bySystem])
    | some own =>
      by_cases byRole : policy.projectRoleAllows own capability = true
      · simp only [if_pos byRole]
        exact iff_of_true rfl (Or.inr ⟨own, rfl, byRole⟩)
      · simp only [if_neg byRole]
        exact iff_of_false Bool.false_ne_true (by simp [bySystem, byRole])

def RepoAcl.Permits (acl : RepoAcl) (capability : Capability) : Prop :=
  ∀ allowed, acl.allowed = some allowed → ∃ permission ∈ allowed, capability.repoPermission = some permission

theorem withinAcl_allowed {granted : Decision} {acl : Option RepoAcl} :
    (withinAcl granted capability acl).allowed = true ↔
      granted.allowed = true ∧ ∀ own, acl = some own → own.Permits capability := by
  unfold withinAcl
  cases acl with
  | none => simp
  | some own =>
    cases isAllowed : own.allowed with
    | none => simp [RepoAcl.Permits, isAllowed]
    | some allowed =>
      simp only [Option.bind_some, isAllowed]
      by_cases forbids : granted.allowed = true ∧
          ∀ permission, capability.repoPermission = some permission → permission ∉ allowed
      · rw [if_pos forbids]
        refine iff_of_false Bool.false_ne_true ?_
        rintro ⟨-, permits⟩
        obtain ⟨permission, mem, isOf⟩ := permits own rfl allowed isAllowed
        exact forbids.2 permission isOf mem
      · rw [if_neg forbids]
        refine ⟨fun isGranted => ⟨isGranted, ?_⟩, And.left⟩
        rintro _ same stored isStored
        cases same
        rw [isAllowed] at isStored
        cases isStored
        by_contra missing
        exact forbids ⟨isGranted, fun permission isOf mem => missing ⟨permission, mem, isOf⟩⟩

/-- The ACL of a resource about a repository is known, and is that repository's. -/
def Resource.AclResolved (resource : Resource) (projectId : Uuid) : Prop :=
  resource.repoId ≠ none → ∃ acl, resource.repoAcl = some acl ∧ some acl.repoId = resource.repoId ∧
    acl.projectId = projectId

theorem decideProject_allowed :
    (decideProject policy principal capability resource).allowed = true ↔
      ∃ projectId state, resource.projectId = some projectId ∧ resource.projectState = some state ∧
        state.allows capability = true ∧ resource.AclResolved projectId ∧
        policy.Grants principal capability projectId ∧
        ∀ acl, resource.repoAcl = some acl → acl.Permits capability := by
  unfold decideProject
  cases isProject : resource.projectId with
  | none => simp [Decision.deny]
  | some projectId =>
    cases isState : resource.projectState with
    | none => simp [Decision.deny]
    | some state =>
      simp only [Option.some.injEq, exists_and_left, exists_eq_left']
      by_cases forbids : state.allows capability = false
      · rw [if_pos forbids]
        exact iff_of_false Bool.false_ne_true fun all => by rw [all.1] at forbids; cases forbids
      rw [if_neg forbids]
      by_cases unresolved : resource.repoId ≠ none ∧ resource.repoAcl = none
      · rw [if_pos unresolved]
        refine iff_of_false Bool.false_ne_true ?_
        rintro ⟨-, resolved, -⟩
        obtain ⟨acl, isAcl, -⟩ := resolved unresolved.1
        rw [unresolved.2] at isAcl
        cases isAcl
      rw [if_neg unresolved]
      by_cases mismatch : resource.repoId ≠ none ∧ resource.repoAcl.any (fun acl =>
          some acl.repoId ≠ resource.repoId ∨ acl.projectId ≠ projectId) = true
      · rw [if_pos mismatch]
        refine iff_of_false Bool.false_ne_true ?_
        rintro ⟨-, resolved, -⟩
        obtain ⟨acl, isAcl, sameRepo, sameProject⟩ := resolved mismatch.1
        rw [isAcl] at mismatch
        simp [sameRepo, sameProject] at mismatch
      rw [if_neg mismatch, withinAcl_allowed, projectRoleDecision_allowed]
      refine ⟨fun both => ⟨Bool.eq_true_of_not_eq_false forbids, fun named => ?_, both⟩, fun all => all.2.2⟩
      cases isAcl : resource.repoAcl with
      | none => exact absurd ⟨named, isAcl⟩ unresolved
      | some acl =>
        refine ⟨acl, rfl, ?_⟩
        by_contra wrong
        rw [not_and_or] at wrong
        refine mismatch ⟨named, ?_⟩
        rw [isAcl]
        simpa using wrong

theorem decideUnder_allowed :
    (decideUnder policy (some principal) capability (some resource)).allowed = true ↔
      (resource.repoId ≠ none → capability.scope = .project ∧ capability.repoPermission ≠ none) ∧
        match capability.scope with
        | .system => policy.systemRoleAllows principal.systemRole capability = true
        | .self => resource.ownerId = some principal.userId ∧
            policy.systemRoleAllows principal.systemRole capability = true
        | .project => (decideProject policy principal capability resource).allowed = true := by
  unfold decideUnder
  by_cases malformed : resource.repoId ≠ none ∧ (capability.scope ≠ .project ∨ capability.repoPermission = none)
  · simp only [if_pos malformed]
    refine iff_of_false Bool.false_ne_true ?_
    rintro ⟨formed, -⟩
    obtain ⟨inProject, hasPermission⟩ := formed malformed.1
    rcases malformed.2 with other | none
    · exact other inProject
    · exact hasPermission none
  · simp only [if_neg malformed]
    have formed : resource.repoId ≠ none → capability.scope = .project ∧ capability.repoPermission ≠ none := by
      intro named
      rw [not_and, not_or, not_not] at malformed
      exact malformed named
    rw [iff_true_intro formed, true_and]
    cases capability.scope with
    | system =>
      simp only
      split_ifs with granted
      · exact iff_of_true rfl granted
      · exact iff_of_false Bool.false_ne_true granted
    | project => rfl
    | self =>
      simp only
      cases isOwner : resource.ownerId with
      | none => simp [Decision.deny]
      | some owner =>
        simp only [Option.some.injEq]
        split_ifs with notGranted other
        · exact iff_of_false Bool.false_ne_true fun both => by rw [both.2] at notGranted; cases notGranted
        · exact iff_of_false Bool.false_ne_true fun both => other both.1
        · exact iff_of_true rfl ⟨not_not.mp other, Bool.eq_true_of_not_eq_false notGranted⟩

end Allowed

/-! ### What only narrows -/

/-- The same person with fewer project roles. -/
structure Principal.Narrower (after before : Principal) : Prop where
  user : after.userId = before.userId
  system : after.systemRole = before.systemRole
  roles : ∀ project, after.projectRoles project = none ∨ after.projectRoles project = before.projectRoles project

/-- The same resource in a state other than active, or with an override of what its ACL inherits. -/
structure Resource.Narrower (after before : Resource) : Prop where
  ids : after.projectId = before.projectId ∧ after.ownerId = before.ownerId ∧ after.repoId = before.repoId
  state : after.projectState = before.projectState ∨
    before.projectState = some .active ∧ ∃ state, after.projectState = some state
  acl : after.repoAcl = before.repoAcl ∨ ∃ acl, before.repoAcl = some { acl with allowed := none } ∧
    after.repoAcl = some acl

theorem decideUnder_narrowed {policy : Policy} {capability : Capability} {person before : Principal}
    {resource whole : Resource} (persons : person.Narrower before) (resources : resource.Narrower whole)
    (allowed : (decideUnder policy (some person) capability (some resource)).allowed = true) :
    (decideUnder policy (some before) capability (some whole)).allowed = true := by
  rw [decideUnder_allowed] at allowed ⊢
  obtain ⟨sameProject, sameOwner, sameRepo⟩ := resources.ids
  rw [sameRepo] at allowed
  refine ⟨allowed.1, ?_⟩
  have decided := allowed.2
  cases scope : capability.scope with
  | system =>
    rw [scope] at decided
    exact persons.system ▸ decided
  | self =>
    rw [scope] at decided
    exact ⟨by rw [← sameOwner, ← persons.user]; exact decided.1, persons.system ▸ decided.2⟩
  | project =>
    rw [scope] at decided
    simp only at decided ⊢
    rw [decideProject_allowed] at decided ⊢
    obtain ⟨projectId, state, isProject, isState, inState, resolved, granted, permits⟩ := decided
    have states : ∃ own, whole.projectState = some own ∧ own.allows capability = true := by
      rcases resources.state with same | ⟨active, -⟩
      · exact ⟨state, same ▸ isState, inState⟩
      · exact ⟨.active, active, rfl⟩
    obtain ⟨own, isOwn, allows⟩ := states
    refine ⟨projectId, own, sameProject ▸ isProject, isOwn, allows, ?_, ?_, ?_⟩
    · intro named
      obtain ⟨acl, isAcl, ofRepo, ofProject⟩ := resolved (sameRepo ▸ named)
      rcases resources.acl with same | ⟨override, inherits, isOverride⟩
      · exact ⟨acl, same ▸ isAcl, sameRepo ▸ ofRepo, ofProject⟩
      · rw [isOverride] at isAcl
        cases isAcl
        exact ⟨_, inherits, sameRepo ▸ ofRepo, ofProject⟩
    · rcases granted with bySystem | ⟨role, isRole, byRole⟩
      · exact Or.inl (persons.system ▸ bySystem)
      · rcases persons.roles projectId with lost | same
        · rw [lost] at isRole
          cases isRole
        · exact Or.inr ⟨role, same ▸ isRole, byRole⟩
    · intro acl isAcl
      rcases resources.acl with same | ⟨override, inherits, -⟩
      · exact permits acl (same ▸ isAcl)
      · rw [inherits] at isAcl
        cases isAcl
        rintro stored isStored
        cases isStored

/-! ### Agents -/

section Agents

variable {policy : Policy} {delegator : Option Principal} {grant : AgentGrant} {capability : Capability}
  {resource : Option Resource}

def AgentGrant.Reaches (grant : AgentGrant) (resource : Option Resource) : Prop :=
  ∀ projects, grant.projectIds = some projects →
    ∃ own, resource = some own ∧ ∃ project ∈ projects, own.projectId = some project

def AgentsPermitted (resource : Option Resource) : Prop :=
  ∀ own acl, resource = some own → own.repoAcl = some acl →
    ∀ allowed, acl.allowed = some allowed → RepoPermission.agent ∈ allowed

theorem decideAgent_allowed :
    (decideAgent policy delegator grant capability resource).allowed = true ↔
      (decideUnder policy delegator capability resource).allowed = true ∧ capability.delegable = true ∧
        capability ∈ grant.capabilities ∧ grant.Reaches resource ∧ AgentsPermitted resource := by
  unfold decideAgent
  by_cases refused : (decideUnder policy delegator capability resource).allowed = false
  · simp only [if_pos refused]
    exact iff_of_false (by simp [refused]) fun all => by rw [all.1] at refused; cases refused
  have granted := Bool.eq_true_of_not_eq_false refused
  simp only [if_neg refused]
  by_cases forbidden : capability.delegable = false
  · rw [if_pos forbidden]
    exact iff_of_false Bool.false_ne_true fun all => by rw [all.2.1] at forbidden; cases forbidden
  rw [if_neg forbidden]
  by_cases missing : capability ∉ grant.capabilities
  · rw [if_pos missing]
    exact iff_of_false Bool.false_ne_true fun all => missing all.2.2.1
  rw [if_neg missing]
  have reaches : (grant.projectIds.any fun projects =>
      !resource.any fun own => own.projectId.any fun project => decide (project ∈ projects)) = true ↔
      ¬ grant.Reaches resource := by
    unfold AgentGrant.Reaches
    cases grant.projectIds with
    | none => simp
    | some projects =>
      cases resource with
      | none => simp
      | some own => cases isProject : own.projectId <;> simp [isProject]
  by_cases outside : (grant.projectIds.any fun projects =>
      !resource.any fun own => own.projectId.any fun project => decide (project ∈ projects)) = true
  · rw [if_pos outside]
    exact iff_of_false Bool.false_ne_true fun all => reaches.mp outside all.2.2.2.1
  rw [if_neg outside]
  have permitted : ((resource.bind fun own => own.repoAcl.bind RepoAcl.allowed).any fun allowed =>
      decide (RepoPermission.agent ∉ allowed)) = true ↔ ¬ AgentsPermitted resource := by
    unfold AgentsPermitted
    cases resource with
    | none => simp
    | some own =>
      cases isAcl : own.repoAcl with
      | none => simp [isAcl]
      | some acl => cases isAllowed : acl.allowed <;> simp [isAcl, isAllowed]
  by_cases closed : ((resource.bind fun own => own.repoAcl.bind RepoAcl.allowed).any fun allowed =>
      decide (RepoPermission.agent ∉ allowed)) = true
  · rw [if_pos closed]
    exact iff_of_false Bool.false_ne_true fun all => permitted.mp closed all.2.2.2.2
  rw [if_neg closed]
  exact iff_of_true granted ⟨granted, Bool.eq_true_of_not_eq_false forbidden, not_not.mp missing,
    not_not.mp (fun notReaches => outside (reaches.mpr notReaches)),
    not_not.mp fun notPermitted => closed (permitted.mpr notPermitted)⟩

def Derives (parent child : AgentGrant) : Prop :=
  ∃ childAgentId capabilities projectIds, deriveChildGrant parent childAgentId capabilities projectIds = .ok child

theorem childCapabilities_subset {parent : AgentGrant} {capabilities : Option (List Capability)}
    {granted : List Capability} (made : childCapabilities parent capabilities = .ok granted) :
    granted ⊆ parent.capabilities := by
  cases capabilities with
  | none =>
    cases made
    exact List.filter_subset_self _
  | some asked =>
    unfold childCapabilities at made
    dsimp only at made
    split_ifs at made with within delegable
    cases made
    exact within

theorem childProjects_within {parent : AgentGrant} {projectIds : Option (Option (List Uuid))}
    {reach : Option (List Uuid)} (made : childProjects parent projectIds = .ok reach) :
    projectsWithin reach parent.projectIds = true := by
  cases projectIds with
  | none =>
    cases made
    unfold projectsWithin
    cases parent.projectIds <;> simp
  | some asked =>
    unfold childProjects at made
    dsimp only at made
    split_ifs at made with within
    cases made
    exact Bool.eq_true_of_not_eq_false within

theorem Derives.narrower {parent child : AgentGrant} (derived : Derives parent child) :
    child.capabilities ⊆ parent.capabilities ∧ ∀ resource, child.Reaches resource → parent.Reaches resource := by
  obtain ⟨childAgentId, capabilities, projectIds, made⟩ := derived
  simp only [deriveChildGrant, ↓check_eq_ok, bind_eq_ok, pure_eq_ok] at made
  obtain ⟨-, granted, isGranted, reach, isReach, rfl⟩ := made
  refine ⟨childCapabilities_subset isGranted, ?_⟩
  have within := childProjects_within isReach
  intro resource reaches projects isProjects
  rw [isProjects] at within
  cases reach with
  | none => cases within
  | some own =>
    obtain ⟨found, isFound, project, mem, isProject⟩ := reaches own rfl
    exact ⟨found, isFound, project, of_decide_eq_true within mem, isProject⟩

theorem decideAgent_derived {parent child : AgentGrant} (derived : Derives parent child)
    (allowed : (decideAgent policy delegator child capability resource).allowed = true) :
    (decideAgent policy delegator parent capability resource).allowed = true := by
  rw [decideAgent_allowed] at allowed ⊢
  obtain ⟨byUser, delegable, held, reaches, permitted⟩ := allowed
  obtain ⟨capabilities, projects⟩ := derived.narrower
  exact ⟨byUser, delegable, capabilities held, projects resource reaches, permitted⟩

theorem decideAgent_chain {first last : AgentGrant} (chain : Relation.ReflTransGen Derives first last)
    (allowed : (decideAgent policy delegator last capability resource).allowed = true) :
    (decideAgent policy delegator first capability resource).allowed = true := by
  induction chain with
  | refl => exact allowed
  | tail _ derived ih => exact ih (decideAgent_derived derived allowed)

end Agents

theorem decideAgent_narrowed {policy : Policy} {grant : AgentGrant} {capability : Capability} {person before : Principal}
    {resource whole : Resource} (persons : person.Narrower before) (resources : resource.Narrower whole)
    (allowed : (decideAgent policy (some person) grant capability (some resource)).allowed = true) :
    (decideAgent policy (some before) grant capability (some whole)).allowed = true := by
  rw [decideAgent_allowed] at allowed ⊢
  obtain ⟨byUser, delegable, held, reaches, permitted⟩ := allowed
  refine ⟨decideUnder_narrowed persons resources byUser, delegable, held, ?_, ?_⟩
  · intro projects isProjects
    obtain ⟨own, same, project, mem, isProject⟩ := reaches projects isProjects
    cases same
    exact ⟨whole, rfl, project, mem, resources.ids.1 ▸ isProject⟩
  · rintro own acl same isAcl stored isStored
    cases same
    rcases resources.acl with unchanged | ⟨override, inherits, -⟩
    · exact permitted resource acl rfl (unchanged ▸ isAcl) stored isStored
    · rw [inherits] at isAcl
      cases isAcl
      cases isStored

/-! ### Authority never widens -/

def defaultPolicy : Policy where
  systemGrants
    | .owner => userGrants ++ adminOnly ++ ownerOnly
    | .admin => userGrants ++ adminOnly
    | .user => userGrants
    | .system => []
  projectGrants
    | .manager => viewerGrants ++ contributorOnly ++ managerOnly
    | .contributor => viewerGrants ++ contributorOnly
    | .viewer => viewerGrants
  project_scoped role := by cases role <;> decide

/-- Delegation and narrowing never widen authority: what a grant of a chain allows, every grant before it allows and
the person may do; an ACL override, a state other than active and a lost role never turn a denial into a
permission; what is a person's own is allowed to them alone; and what cannot be delegated is allowed to no agent. -/
theorem authority_never_widens (policy : Policy) (capability : Capability) :
    (∀ first last, Relation.ReflTransGen Derives first last → ∀ delegator resource,
      (decideAgent policy delegator last capability resource).allowed = true →
        (decideAgent policy delegator first capability resource).allowed = true ∧
          (decideUnder policy delegator capability resource).allowed = true) ∧
    (∀ person before resource whole, person.Narrower before → resource.Narrower whole →
      ((decideUnder policy (some person) capability (some resource)).allowed = true →
        (decideUnder policy (some before) capability (some whole)).allowed = true) ∧
      ∀ grant, (decideAgent policy (some person) grant capability (some resource)).allowed = true →
        (decideAgent policy (some before) grant capability (some whole)).allowed = true) ∧
    (capability.scope = .self → ∀ principal resource,
      (decideUnder policy (some principal) capability (some resource)).allowed = true →
        resource.ownerId = some principal.userId) ∧
    (capability.delegable = false → ∀ delegator grant resource,
      (decideAgent policy delegator grant capability resource).allowed = false) := by
  refine ⟨?_, ?_, ?_, ?_⟩
  · intro first last chain delegator resource allowed
    exact ⟨decideAgent_chain chain allowed, ((decideAgent_allowed).mp allowed).1⟩
  · intro person before resource whole persons resources
    exact ⟨decideUnder_narrowed persons resources, fun grant => decideAgent_narrowed persons resources⟩
  · intro own principal resource allowed
    have decided := (decideUnder_allowed.mp allowed).2
    rw [own] at decided
    exact decided.1
  · intro forbidden delegator grant resource
    rw [Bool.eq_false_iff]
    intro allowed
    rw [((decideAgent_allowed).mp allowed).2.1] at forbidden
    cases forbidden

end PawBackend.Authz
