/-
**The scope of a sub-agent** (`orchestrator/scope.py`).

A child's scope is the parent's, narrowed to the repositories the node asked for; a repository that is left out is
excluded.
-/

import PawBackend.Tools.Scope

namespace PawBackend.Orchestrator

open Lib Tools
open Lib.Text (lit)

inductive NodeRole
  | planner
  | worker
  | researcher
  | reviewer
  deriving DecidableEq, Repr

/-- `ROLES_WITH_CREDENTIALS`. -/
def NodeRole.hasCredentials (role : NodeRole) : Bool := decide (role = .worker)

/-- The worktree one node works in, for one repository. -/
structure NodeWorktree where
  repoId : Uuid
  path : Text
  protectedPaths : List Text := []
  readOnly : Bool := false
  deriving DecidableEq, Repr

abbrev Worktrees := Keyed NodeWorktree.repoId

/-- `_checked_worktrees`: a reviewer reads, a writing role writes, the others have none. -/
def checkWorktrees (worktrees : Worktrees) (role : NodeRole) : Except ScopeError Unit :=
  if worktrees.rows = [] then .ok ()
  else if role = .reviewer then
    if worktrees.rows.all NodeWorktree.readOnly then .ok () else .error .escalation
  else if !role.hasCredentials || worktrees.rows.any NodeWorktree.readOnly then .error .escalation
  else .ok ()

variable {py : Stdlib}

def NodeWorktree.git (worktree : NodeWorktree) : Text := worktree.path ++ lit "/.git"

def movedIntoWorktrees (parent : TaskScope py) (worktrees : Worktrees) : List Text :=
  worktrees.rows.flatMap fun worktree =>
    match (parent.repository worktree.repoId).bind ScopedRepository.root with
    | none => []
    | some checkout => (parent.excludedPaths.filter fun path => pathWithin path.val checkout.val).map fun path =>
        worktree.path ++ path.val.drop checkout.val.length

def repositoryWithin (parent : TaskScope py) (worktrees : Worktrees) (repository : ScopedRepository py) : Bool :=
  match parent.repository repository.repoId with
  | none => false
  | some original =>
    decide (original = repository) ||
      match worktrees.get repository.repoId with
      | none => false
      | some worktree =>
        match original.withRoot worktree.path with
        | .ok moved => decide (moved = repository)
        | .error _ => false

def scopeWithin (child parent : TaskScope py) (worktrees : Worktrees) : Bool :=
  let allowed := worktrees.rows.map NodeWorktree.path
  let excluded := child.excludedPaths.map Subtype.val
  (child.pathRoots.all fun root => decide (root.val ∈ allowed) ||
      parent.pathRoots.any fun own => pathWithin root.val own.val) &&
    !(allowed.any fun root => (parent.excludedPaths.any fun path => pathWithin root path.val) ||
      (rootsOf parent.excludedRepositories).any fun own => pathWithin root own.2) &&
    (parent.excludedPaths.all fun path => decide (path ∈ child.excludedPaths)) &&
    ((movedIntoWorktrees parent worktrees).all fun path => decide (path ∈ excluded)) &&
    !(child.pathRoots.any fun root => decide (root ∉ parent.pathRoots) && decide (root.val ∉ allowed) &&
      excluded.any fun path => pathWithin root.val path && decide (root.val ≠ path)) &&
    (worktrees.rows.all fun worktree => decide (worktree.git ∈ excluded)) &&
    (child.hosts.all fun host => decide (host ∈ parent.hosts)) &&
    (child.projects.all fun project => decide (parent.project project.1 = some project.2)) &&
    (child.credentialHandles.all fun handle => (parent.credentialHandles.lookup handle.1).any fun own =>
      handle.2.all fun host => decide (host ∈ own)) &&
    (child.repositories.all (repositoryWithin parent worktrees)) &&
    parent.excludedRepositories.all fun repository => decide (repository ∈ child.excludedRepositories)

/-- The repositories of a child, and what it must not touch: those the parent excludes, and those that are
left out. -/
def chooseRepositories (parent : TaskScope py) :
    Option (List Uuid) → Except ScopeError (List (ScopedRepository py) × List (ScopedRepository py))
  | none => .ok (parent.repositories, parent.excludedRepositories)
  | some ids => do
    let chosen ← ids.mapM fun id => orThrow (parent.repository id) .escalation
    return (chosen, parent.excludedRepositories ++ parent.repositories.filter fun repository =>
      decide (repository.repoId ∉ chosen.map ScopedRepository.repoId))

def moveRepository (worktrees : Worktrees) (repository : ScopedRepository py) :
    Except ScopeError (ScopedRepository py) :=
  match worktrees.get repository.repoId with
  | none => .ok repository
  | some worktree => repository.withRoot worktree.path

def protectedBy (worktrees : Worktrees) (chosen : List (ScopedRepository py)) : List Text :=
  chosen.flatMap fun repository =>
    match worktrees.get repository.repoId with
    | none => []
    | some worktree => worktree.protectedPaths ++ [worktree.git]

def childArguments (parent : TaskScope py) (role : NodeRole) (worktrees : Worktrees)
    (chosen excluded : List (ScopedRepository py)) : ScopeArguments py where
  pathRoots := (chosen.filterMap fun repository => (worktrees.get repository.repoId).map NodeWorktree.path) ++
    parent.pathRoots.map Subtype.val
  hosts := parent.hosts.map Subtype.val
  projects := parent.projects
  credentialHandles :=
    if role.hasCredentials then parent.credentialHandles.map fun handle => (handle.1, handle.2.map Subtype.val)
    else []
  repositories := chosen
  excludedRepositories := excluded
  excludedPaths := parent.excludedPaths.map Subtype.val ++ movedIntoWorktrees parent worktrees ++
    protectedBy worktrees chosen

def deriveChildScope (parent : TaskScope py) (role : NodeRole) (repositories : Option (List Uuid))
    (worktrees : Worktrees) : Except ScopeError (TaskScope py) := do
  checkWorktrees worktrees role
  let (chosen, excluded) ← chooseRepositories parent repositories
  if ∃ worktree ∈ worktrees.rows, worktree.repoId ∉ chosen.map ScopedRepository.repoId then throw .escalation
  let chosen ← chosen.mapM (moveRepository worktrees)
  let child ← TaskScope.make py (childArguments parent role worktrees chosen excluded)
  if !scopeWithin child parent worktrees then throw .escalation
  return child

end PawBackend.Orchestrator
