/-
**The rows of a memory** (`memory/models.py`): versions, the relations between them and where their content
came from, with the unique constraints an insert can run into.

Who may read a version is its `Audience`: a scope and the one id the CHECK `scope_columns` asks for.
-/

import PawBackend.Authz.Policy
import PawBackend.Lib.Checks
import PawBackend.Lib.Reachability
import PawBackend.Tools.Targets
import Mathlib.Data.List.MinMax

namespace PawBackend.Memory

open Lib
open Tools (Uuid Instant)
open Authz (ProjectRole ProjectState Reason)

inductive MemoryScope
  | user
  | project
  | projectGroup
  | repo
  | shared
  deriving DecidableEq, Repr

inductive MemoryStatus
  | active
  | superseded
  | deprecated
  | history
  deriving DecidableEq, Repr

inductive ConfirmationState
  | observed
  | inferred
  | confirmed
  | rejected
  deriving DecidableEq, Repr

inductive FreshnessPolicy
  | permanent
  | revalidate
  | repoCommit
  | expiring
  | sessionOnly
  deriving DecidableEq, Repr

inductive ActorType
  | user
  | agent
  | system
  deriving DecidableEq, Repr

inductive RelationType
  | supersedes
  | extends
  | conflictsWith
  | confirmedFrom
  | revalidatedFrom
  | mergedFrom
  deriving DecidableEq, Repr

inductive SourceType
  | conversation
  | task
  | repoAnalysis
  | userConfirmation
  | projectDecision
  deriving DecidableEq, Repr

inductive RevalidateTrigger
  | relatedSettingChanged
  | memberChanged
  | modelChanged
  | externalServiceChanged
  | phaseChanged
  deriving DecidableEq, Repr

/-- Who may read a version: its scope, and the id that scope has. -/
inductive Audience
  | user (owner : Uuid)
  | project (projectId : Uuid)
  | projectGroup (groupId : Uuid)
  | repo (repoId : Uuid)
  | shared
  deriving DecidableEq, Repr

def Audience.scope : Audience → MemoryScope
  | .user _ => .user
  | .project _ => .project
  | .projectGroup _ => .projectGroup
  | .repo _ => .repo
  | .shared => .shared

structure Freshness where
  policy : FreshnessPolicy := .permanent
  verifiedAt : Option Instant := none
  revalidateAfter : Option ℤ := none
  triggers : List RevalidateTrigger := []
  expiresAt : Option Instant := none
  commitSha : Option Text := none
  branch : Option Text := none
  staleSince : Option Instant := none
  deriving DecidableEq

structure Version where
  id : Uuid
  memoryId : Uuid
  number : ℕ
  audience : Audience
  memoryType : Text
  title : Text
  content : Text
  importance : ℕ
  pinned : Bool
  status : MemoryStatus
  confirmation : ConfirmationState
  freshness : Freshness
  actorType : ActorType
  actorUserId : Option Uuid
  changeReason : Option Text
  createdAt : Instant
  deriving DecidableEq

structure MemoryRelation where
  newer : Uuid
  older : Uuid
  kind : RelationType
  reason : Option Text
  createdAt : Instant
  deriving DecidableEq

structure Source where
  versionId : Uuid
  sourceType : SourceType
  conversationId : Option Uuid
  messageId : Option Uuid
  sourceRef : Option Text
  sourceDeletedAt : Option Instant
  createdAt : Instant
  deriving DecidableEq

/-- The tables, and what is read of the projects: their state, where they are not deleted, and the role of
an active member. -/
structure MemoryDb where
  memories : List Uuid
  versions : List Version
  relations : List MemoryRelation
  sources : List Source
  projectState : Uuid → Option ProjectState
  memberRole : Uuid → Uuid → Option ProjectRole

inductive InputField
  | expectedVersion
  | sourceVersion
  | scope
  | freshness
  | expiresAt
  deriving DecidableEq, Repr

inductive InputProblem
  | outOfRange
  | notAllowed
  deriving DecidableEq, Repr

inductive StateProblem
  | notActive
  | alreadyActive
  | notRevalidatable
  | sameMemory
  | scopeMismatch
  | wouldCycle
  | alreadyRelated
  | unknownVersion
  deriving DecidableEq, Repr

inductive VersioningError
  | invalidInput (field : InputField) (problem : InputProblem)
  | permission (reason : Reason)
  | notFound
  | scopeNotSupported
  | state (problem : StateProblem)
  | versionConflict (expected current : ℕ)
  | database
  deriving DecidableEq, Repr

def maxVersionNumber : ℕ := 2147483647

namespace MemoryDb

variable (db : MemoryDb)

def versionsOf (memoryId : Uuid) : List Version := db.versions.filter fun version => decide (version.memoryId = memoryId)

def current (memoryId : Uuid) : Option Version := (db.versionsOf memoryId).argmax Version.number

/-- `INSERT INTO memory_versions`: the primary key, the two unique constraints and the range of the number. -/
def insertVersion (version : Version) : Except VersioningError MemoryDb := do
  if ∃ row ∈ db.versions, row.id = version.id then throw .database
  if version.memoryId ∉ db.memories then throw .database
  if maxVersionNumber < version.number then throw .database
  if ∃ row ∈ db.versions, row.memoryId = version.memoryId ∧ row.number = version.number then throw .database
  if version.status = .active ∧ ∃ row ∈ db.versions, row.memoryId = version.memoryId ∧ row.status = .active then
    throw .database
  return { db with versions := db.versions ++ [version] }

/-- `INSERT INTO memory_relations`: the foreign keys, no edge to itself, no edge twice, and at most one
version that supersedes another. -/
def insertRelation (relation : MemoryRelation) : Except VersioningError MemoryDb := do
  if ¬((∃ row ∈ db.versions, row.id = relation.newer) ∧ ∃ row ∈ db.versions, row.id = relation.older) then throw .database
  if relation.newer = relation.older then throw .database
  if ∃ row ∈ db.relations, row.newer = relation.newer ∧ row.older = relation.older ∧ row.kind = relation.kind then
    throw .database
  if relation.kind = .supersedes ∧ ∃ row ∈ db.relations, row.kind = .supersedes ∧ row.older = relation.older then
    throw .database
  return { db with relations := relation :: db.relations }

end MemoryDb

end PawBackend.Memory
