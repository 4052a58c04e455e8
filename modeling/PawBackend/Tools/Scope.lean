/-
**The task scope** (`tools/scope.py`: `ScopedRepository`, `TaskScope`, `classify_targets`).

A scope holds canonical values only: its paths and hosts are their own normal form, and a scope that is too large,
names a repository twice or excludes one of its own cannot be built.
-/

import PawBackend.Authz.Subjects
import PawBackend.Lib.Checks
import PawBackend.Tasks.Domain
import PawBackend.Tools.Credentials

namespace PawBackend.Tools

open Lib Lib.Text List
open Authz (ProjectState RepoAcl)
open Tasks (RepoRole)

variable (py : Stdlib)

/-! ### Canonical values -/

abbrev CanonicalPath := { path : Text // normalisePath py path none = .ok path ∧ path ≠ lit "/" }

abbrev CanonicalHost := { host : Text // normaliseHost py host = .ok host }

inductive ScopeError
  | target (error : TargetError)
  | invalid (message : String)
  /-- `ScopeEscalationError`. -/
  | escalation
  deriving DecidableEq, Repr

def canonicalPath (value : Text) (message : String) : Except ScopeError (CanonicalPath py) :=
  match accepted : normalisePath py value none with
  | .error error => .error (.target error)
  | .ok path =>
    if isRoot : path = lit "/" then .error (.invalid message)
    else .ok ⟨path, normalisePath_idem accepted, isRoot⟩

def canonicalHost (value : Text) : Except ScopeError (CanonicalHost py) :=
  match accepted : normaliseHost py value with
  | .error error => .error (.target error)
  | .ok host => .ok ⟨host, normaliseHost_idem accepted⟩

/-- Each value once, where it first appears. -/
def firsts {α : Type} [DecidableEq α] (values : List α) : List α := values.reverse.dedup.reverse

theorem firsts_of_nodup {α : Type} [DecidableEq α] {values : List α} (nodup : values.Nodup) :
    firsts values = values := by
  unfold firsts
  rw [(nodup_reverse.mpr nodup).dedup, reverse_reverse]

theorem nodup_firsts {α : Type} [DecidableEq α] (values : List α) : (firsts values).Nodup :=
  nodup_reverse.mpr (nodup_dedup _)

theorem mem_firsts {α : Type} [DecidableEq α] {values : List α} {a : α} : a ∈ firsts values ↔ a ∈ values := by
  unfold firsts
  rw [mem_reverse, mem_dedup, mem_reverse]

def canonicalPaths (values : List Text) (message : String) : Except ScopeError (List (CanonicalPath py)) :=
  (values.mapM fun value => canonicalPath py value message).map firsts

def canonicalHosts (values : List Text) : Except ScopeError (List (CanonicalHost py)) :=
  (values.mapM (canonicalHost py)).map firsts

variable {py}

theorem canonicalPath_val (path : CanonicalPath py) (message : String) :
    canonicalPath py path.val message = .ok path := by
  unfold canonicalPath
  split
  · rename_i error refused
    cases refused.symm.trans path.2.1
  · rename_i normal accepted
    cases accepted.symm.trans path.2.1
    rw [dif_neg path.2.2]

theorem canonicalHost_val (host : CanonicalHost py) : canonicalHost py host.val = .ok host := by
  unfold canonicalHost
  split
  · rename_i error refused
    cases refused.symm.trans host.2
  · rename_i normal accepted
    cases accepted.symm.trans host.2
    rfl

theorem mapM_map_val {ε α β : Type} {f : β → Except ε α} {g : α → β} {values : List α}
    (accepted : ∀ a ∈ values, f (g a) = .ok a) : (values.map g).mapM f = .ok values := by
  induction values with
  | nil => rfl
  | cons a rest ih =>
    rw [map_cons, mapM_cons, accepted a mem_cons_self,
      ih fun b mem => accepted b (mem_cons_of_mem _ mem)]
    rfl

theorem canonicalPaths_val {paths : List (CanonicalPath py)} (nodup : paths.Nodup) (message : String) :
    canonicalPaths py (paths.map Subtype.val) message = .ok paths := by
  unfold canonicalPaths
  rw [mapM_map_val fun path _ => canonicalPath_val path message]
  exact congrArg Except.ok (firsts_of_nodup nodup)

theorem canonicalHosts_val {hosts : List (CanonicalHost py)} (nodup : hosts.Nodup) :
    canonicalHosts py (hosts.map Subtype.val) = .ok hosts := by
  unfold canonicalHosts
  rw [mapM_map_val fun host _ => canonicalHost_val host]
  exact congrArg Except.ok (firsts_of_nodup nodup)

variable (py)

/-! ### Repositories and scopes -/

def maxRoots : ℕ := 32
def maxHosts : ℕ := 128
def maxRepositories : ℕ := 32
def maxProjects : ℕ := maxRepositories + 1
def maxRemotes : ℕ := 8
def maxCredentialHandles : ℕ := 64
def maxExcludedPaths : ℕ := maxRoots + 4 * maxRepositories
def maxPathRoots : ℕ := maxRoots + maxRepositories

/-- One repository of the working set, as the backend resolved it. -/
structure ScopedRepository where
  repoId : Uuid
  projectId : Uuid
  root : Option (CanonicalPath py)
  acl : Option RepoAcl
  remotes : List Text
  role : Option RepoRole
  acl_own : ∀ own, acl = some own → own.repoId = repoId ∧ own.projectId = projectId
  deriving DecidableEq

/-- The fields of a scope, in normal form. A set or mapping is the list of its members. -/
structure ScopeFields where
  pathRoots : List (CanonicalPath py)
  hosts : List (CanonicalHost py)
  projects : List (Uuid × ProjectState)
  credentialHandles : List (Text × List (CanonicalHost py))
  repositories : List (ScopedRepository py)
  excludedRepositories : List (ScopedRepository py)
  excludedPaths : List (CanonicalPath py)

/-- What `TaskScope.__post_init__` leaves: no duplicates, nothing of another project, and not too much. -/
@[mk_iff]
structure ScopeFields.Valid (fields : ScopeFields py) : Prop where
  pathRoots_nodup : fields.pathRoots.Nodup
  hosts_nodup : fields.hosts.Nodup
  projects_nodup : (fields.projects.map Prod.fst).Nodup
  handles_nodup : (fields.credentialHandles.map Prod.fst).Nodup
  handle_hosts_nodup : ∀ handle ∈ fields.credentialHandles, handle.2.Nodup
  handles_formed : ∀ handle ∈ fields.credentialHandles, isCredentialHandle handle.1 = true
  repositories_nodup : (fields.repositories.map ScopedRepository.repoId).Nodup
  repositories_own : ∀ repository ∈ fields.repositories,
    repository.projectId ∈ fields.projects.map Prod.fst
  excluded_nodup : (fields.excludedRepositories.map ScopedRepository.repoId).Nodup
  excluded_other : ∀ repository ∈ fields.excludedRepositories,
    repository.repoId ∉ fields.repositories.map ScopedRepository.repoId
  excludedPaths_nodup : fields.excludedPaths.Nodup
  few : fields.pathRoots.length ≤ maxPathRoots ∧ fields.excludedPaths.length ≤ maxExcludedPaths ∧
    fields.hosts.length ≤ maxHosts ∧ fields.projects.length ≤ maxProjects ∧
    fields.repositories.length ≤ maxRepositories ∧ fields.excludedRepositories.length ≤ maxRepositories ∧
    fields.credentialHandles.length ≤ maxCredentialHandles ∧
    ∀ handle ∈ fields.credentialHandles, handle.2.length ≤ maxHosts

instance (fields : ScopeFields py) : Decidable fields.Valid := decidable_of_iff' _ (ScopeFields.valid_iff py fields)

structure TaskScope extends ScopeFields py where
  valid : toScopeFields.Valid

structure ScopeArguments where
  pathRoots : List Text
  hosts : List Text
  projects : List (Uuid × ProjectState)
  credentialHandles : List (Text × List Text) := []
  repositories : List (ScopedRepository py) := []
  excludedRepositories : List (ScopedRepository py) := []
  excludedPaths : List Text := []

namespace ScopedRepository

/-- `ScopedRepository.__post_init__`. -/
def make (repoId projectId : Uuid) (root : Option Text) (acl : Option RepoAcl) (remotes : List Text)
    (role : Option RepoRole) : Except ScopeError (ScopedRepository py) := do
  let root ← root.mapM fun root => canonicalPath py root "a repository root cannot be the file system root"
  if own : ∀ a, acl = some a → a.repoId = repoId ∧ a.projectId = projectId then
    if maxRemotes < remotes.length then throw (.invalid "a repository has too many remotes")
    let remotes ← remotes.mapM fun remote =>
      match normaliseRemote py remote with
      | .error error => .error (.target error)
      | .ok canonical => .ok canonical
    return ⟨repoId, projectId, root, acl, firsts remotes, role, own⟩
  else throw (.invalid "the ACL belongs to another repository")

variable {py}

/-- `replace(repository, root=root)`. -/
def withRoot (repository : ScopedRepository py) (root : Text) : Except ScopeError (ScopedRepository py) :=
  make py repository.repoId repository.projectId (some root) repository.acl repository.remotes repository.role

end ScopedRepository

namespace TaskScope

def checkHandle (handle : Text × List Text) : Except ScopeError (Text × List (CanonicalHost py)) := do
  if !isCredentialHandle handle.1 then throw (.invalid "credential_handles must be opaque handles")
  let hosts ← canonicalHosts py handle.2
  return (handle.1, hosts)

/-- `TaskScope.__post_init__`. -/
def make (new : ScopeArguments py) : Except ScopeError (TaskScope py) := do
  let roots ← canonicalPaths py new.pathRoots "a task scope cannot contain the file system root"
  let hosts ← canonicalHosts py new.hosts
  let handles ← new.credentialHandles.mapM (checkHandle py)
  if ¬(new.repositories.map ScopedRepository.repoId).Nodup then throw (.invalid "a repository is listed twice")
  if ∃ repository ∈ new.repositories, repository.projectId ∉ new.projects.map Prod.fst then
    throw (.invalid "a repository belongs to a project outside the scope")
  if ¬(new.excludedRepositories.map ScopedRepository.repoId).Nodup then
    throw (.invalid "a repository is excluded twice")
  if ∃ repository ∈ new.excludedRepositories,
      repository.repoId ∈ new.repositories.map ScopedRepository.repoId then
    throw (.invalid "a repository is both in the working set and excluded")
  let excludedPaths ← canonicalPaths py new.excludedPaths "the file system root cannot be excluded"
  let fields : ScopeFields py :=
    { pathRoots := roots, hosts := hosts, projects := new.projects, credentialHandles := handles
      repositories := new.repositories, excludedRepositories := new.excludedRepositories
      excludedPaths := excludedPaths }
  if valid : fields.Valid then return ⟨fields, valid⟩ else throw (.invalid "the task scope is too large")

variable {py}

theorem make_eq_ok {new : ScopeArguments py} {scope : TaskScope py} (made : make py new = .ok scope) :
    canonicalPaths py new.pathRoots "a task scope cannot contain the file system root" = .ok scope.pathRoots ∧
      canonicalHosts py new.hosts = .ok scope.hosts ∧ scope.projects = new.projects ∧
      new.credentialHandles.mapM (checkHandle py) = .ok scope.credentialHandles ∧
      scope.repositories = new.repositories ∧ scope.excludedRepositories = new.excludedRepositories ∧
      canonicalPaths py new.excludedPaths "the file system root cannot be excluded" = .ok scope.excludedPaths := by
  simp only [make, ↓check_eq_ok, bind_eq_ok] at made
  obtain ⟨roots, isRoots, hosts, isHosts, handles, isHandles, -, -, -, -, excluded, isExcluded, built⟩ := made
  split_ifs at built with valid
  cases built
  exact ⟨isRoots, isHosts, rfl, isHandles, rfl, rfl, isExcluded⟩

variable (scope : TaskScope py)

def repository (repoId : Uuid) : Option (ScopedRepository py) :=
  scope.repositories.find? fun repository => decide (repository.repoId = repoId)

def project (projectId : Uuid) : Option ProjectState := scope.projects.lookup projectId

def hasHost (host : Text) : Bool := scope.hosts.any fun own => decide (own.val = host)

end TaskScope

/-! ### Classification -/

inductive TargetKind
  | path
  | host
  | project
  | credential
  | repository
  | url
  | workingSetRepository
  deriving DecidableEq, Repr

/-- One normalised thing a call touches. -/
structure Target where
  kind : TargetKind
  value : Text
  deriving DecidableEq, Repr

inductive ScopeStatus
  | inScope
  | hostOutOfScope
  | outOfScope
  deriving DecidableEq, Repr

structure Classification where
  status : ScopeStatus
  offending : Option TargetKind
  repositories : List Uuid
  deriving DecidableEq, Repr

/-- What the resolver made of the paths of a scope and of a call. -/
structure Resolved where
  roots : List Text
  repositoryRoots : List (Uuid × Text)
  excludedRoots : List Text
  excludedPaths : List (Text × List Text)
  paths : List Text
  deriving DecidableEq, Repr

structure Judged where
  outside : Option TargetKind := none
  touched : List Uuid := []
  deriving DecidableEq, Repr

variable {py}

def carved (roots : List Text) (excluded : Text) : List Text :=
  roots.filter fun root => decide (root ≠ excluded) && pathWithin root excluded

def rootsOf (repositories : List (ScopedRepository py)) : List (Uuid × Text) :=
  repositories.filterMap fun repository => repository.root.map fun root => (repository.repoId, root.val)

theorem mem_rootsOf {repositories : List (ScopedRepository py)} {own : Uuid × Text} :
    own ∈ rootsOf repositories ↔
      ∃ repository ∈ repositories, ∃ root, repository.root = some root ∧ (repository.repoId, root.val) = own := by
  unfold rootsOf
  simp only [mem_filterMap, Option.map_eq_some_iff]

namespace TaskScope

variable (scope : TaskScope py)

def resolve {m : Type → Type} [Monad m] (resolver : Text → m Text) (targets : List Target) : m Resolved := do
  let paths := targets.filter fun target => decide (target.kind = .path)
  if paths.isEmpty then return ⟨[], [], [], [], []⟩
  let roots ← scope.pathRoots.mapM fun root => resolver root.val
  let repositoryRoots ← (rootsOf scope.repositories).mapM fun own => do return (own.1, ← resolver own.2)
  let excludedRoots ← (rootsOf scope.excludedRepositories).mapM fun own => resolver own.2
  let excludedPaths ← scope.excludedPaths.mapM fun path => do
    let excluded ← resolver path.val
    return (excluded, carved roots excluded)
  let resolved ← paths.mapM fun target => resolver target.value
  return ⟨roots, repositoryRoots, excludedRoots, excludedPaths, resolved⟩

def judgePath (resolved : Resolved) (path : Text) : Judged where
  outside :=
    if !(resolved.roots.any fun root => pathWithin path root) ||
        (resolved.excludedRoots.any fun root => pathWithin path root) ||
        (resolved.excludedPaths.any fun excluded => pathWithin path excluded.1 &&
          !(excluded.2.any fun root => pathWithin path root)) then some .path
    else none
  touched := (resolved.repositoryRoots.filter fun own => pathWithin path own.2).map Prod.fst

theorem judgePath_outside {resolved : Resolved} {path : Text} :
    (judgePath resolved path).outside = none ↔
      (∃ root ∈ resolved.roots, pathWithin path root = true) ∧
        (∀ root ∈ resolved.excludedRoots, pathWithin path root = false) ∧
        ∀ excluded ∈ resolved.excludedPaths, pathWithin path excluded.1 = true →
          ∃ root ∈ excluded.2, pathWithin path root = true := by
  simp only [judgePath, ite_eq_right_iff, reduceCtorEq, imp_false, Bool.not_eq_true, Bool.or_eq_false_iff,
    any_eq_false, Bool.and_eq_true, Bool.not_eq_true', not_and, and_assoc]
  simp

theorem mem_judgePath_touched {resolved : Resolved} {path : Text} {id : Uuid} :
    id ∈ (judgePath resolved path).touched ↔ ∃ root, (id, root) ∈ resolved.repositoryRoots ∧
      pathWithin path root = true := by
  simp [judgePath]

def judgeTarget (hosts : List Text) (target : Target) : Except TargetError Judged :=
  match target.kind with
  | .project => (normaliseProject target.value).map fun id =>
      { outside := if (scope.project id).isNone then some .project else none }
  | .repository => (normaliseRepository target.value).map fun id =>
      if (scope.repository id).isNone then { outside := some .repository } else { touched := [id] }
  | .credential => .ok
      { outside :=
          if (scope.credentialHandles.lookup target.value).any fun valid =>
              hosts.all fun host => valid.any fun own => decide (own.val = host)
          then none else some .credential }
  | _ => .ok {}

def owners (url : Text) : List Uuid :=
  (scope.repositories.filter fun repository => repository.remotes.any (urlWithin url)).map ScopedRepository.repoId

/-- A URL of the call: it touches its owners. -/
def judgeUrl (url : Text) : Except TargetError Judged :=
  (normaliseUrl py url).map fun canonical =>
    { outside :=
        if scope.excludedRepositories.any fun repository => repository.remotes.any (urlWithin canonical.1)
        then some .url else none
      touched := scope.owners canonical.1 }

/-- The verdict on all of them. -/
def classifyJudged (targets : List Target) (judged urls : List Judged) : Classification :=
  let touched := (judged ++ urls).flatMap Judged.touched
  let repositories := (scope.repositories.map ScopedRepository.repoId).filter (· ∈ touched)
  match ((judged ++ urls).filterMap Judged.outside).head? with
  | some kind => ⟨.outOfScope, some kind, repositories⟩
  | none =>
    if targets.any fun target => decide (target.kind = .host) && !scope.hasHost target.value then
      ⟨.hostOutOfScope, some .host, repositories⟩
    else if (urls.any fun url => url.touched.isEmpty) && !touched.isEmpty then
      ⟨.outOfScope, some .url, repositories⟩
    else ⟨.inScope, none, repositories⟩

/-- The rest of `classify_targets`, once the paths are resolved. -/
def classifyResolved (targets : List Target) (urls : List Text) (resolved : Resolved) :
    Except TargetError Classification := do
  let hosts := (targets.filter fun target => decide (target.kind = .host)).map Target.value
  let judged ← targets.mapM (scope.judgeTarget hosts)
  let urls ← urls.mapM scope.judgeUrl
  return scope.classifyJudged targets (resolved.paths.map (judgePath resolved) ++ judged) urls

end TaskScope

inductive ClassifyError
  /-- `PathResolutionError`. -/
  | resolution
  | target (error : TargetError)
  deriving DecidableEq, Repr

variable (py) in
/-- `_resolve`: what a resolver answers, in normal form. -/
def resolvePath (answer : Option Text) : Option Text := answer.bind fun path => (normalisePath py path none).toOption

/-- `classify_targets`, with a resolver that answers or fails. -/
def classifyTargets (scope : TaskScope py) (resolver : Text → Option Text) (targets : List Target)
    (urls : List Text) : Except ClassifyError Classification :=
  match scope.resolve (fun path => resolvePath py (resolver path)) targets with
  | none => .error .resolution
  | some resolved => (scope.classifyResolved targets urls resolved).mapError .target

def TaskScope.resolvedBy (scope : TaskScope py) (resolver : Text → Text) (targets : List Target) : Resolved where
  roots := scope.pathRoots.map fun root => resolver root.val
  repositoryRoots := (rootsOf scope.repositories).map fun own => (own.1, resolver own.2)
  excludedRoots := (rootsOf scope.excludedRepositories).map fun own => resolver own.2
  excludedPaths := scope.excludedPaths.map fun path =>
    (resolver path.val, carved (scope.pathRoots.map fun root => resolver root.val) (resolver path.val))
  paths := (targets.filter fun target => decide (target.kind = .path)).map fun target => resolver target.value

theorem classifyTargets_eq {resolver : Text → Text}
    (canonical : ∀ path, normalisePath py (resolver path) none = .ok (resolver path)) (scope : TaskScope py)
    (targets : List Target) (urls : List Text) :
    classifyTargets scope (fun path => some (resolver path)) targets urls =
      (scope.classifyResolved targets urls (scope.resolvedBy resolver targets)).mapError .target := by
  have answers : ∀ path, resolvePath py (some (resolver path)) = some (resolver path) := by
    intro path
    unfold resolvePath
    rw [Option.bind_some, canonical]
    rfl
  unfold classifyTargets TaskScope.resolve
  simp only [answers]
  by_cases none : (targets.filter fun target => decide (target.kind = .path)).isEmpty = true
  · rw [if_pos none]
    show (scope.classifyResolved targets urls ⟨[], [], [], [], []⟩).mapError _ = _
    unfold TaskScope.classifyResolved TaskScope.resolvedBy
    rw [List.isEmpty_iff.mp none]
    rfl
  · rw [if_neg none]
    simp only [← Option.pure_def, pure_bind, mapM_pure]
    rfl

end PawBackend.Tools
