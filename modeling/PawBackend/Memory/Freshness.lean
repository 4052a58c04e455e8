/-
**The freshness of a version** (`memory/versioning/rules.py`, `memory/versioning/service.py`: the freshness
columns of a new version; `memory/versioning/freshness.py`: the jobs).

A job marks active versions stale or retires them, at most a batch of them at a time, those with the
smallest ids first.
-/

import PawBackend.Memory.Tables

namespace PawBackend.Memory

open Lib
open Tools (Uuid Instant)

/-- `FreshnessSpec`: the policy of a version, and the fields that policy needs. -/
structure FreshnessSpec where
  policy : FreshnessPolicy := .permanent
  revalidateAfter : Option ℤ := none
  triggers : List RevalidateTrigger := []
  expiresAt : Option Instant := none
  commitSha : Option Text := none
  branch : Option Text := none
  deriving DecidableEq

/-- `MAX_EXPIRES_IN`: 3650 days, in microseconds. -/
def maxExpiresIn : ℤ := 3650 * 24 * 3600 * 1000000

/-- Whether a time lies ahead, and not too far. -/
def expiresInTime (now : Instant) (expiresAt : Option Instant) : Bool :=
  expiresAt.any fun time => decide (now < time ∧ time ≤ now + maxExpiresIn)

def checkManualFreshness (spec : FreshnessSpec) (scope : MemoryScope) (now : Instant) : Except VersioningError Unit := do
  if spec.policy = .sessionOnly then throw (.invalidInput .freshness .notAllowed)
  if spec.policy = .repoCommit ∧ scope ≠ .repo then throw (.invalidInput .freshness .notAllowed)
  if spec.policy = .expiring ∧ expiresInTime now spec.expiresAt = false then throw (.invalidInput .expiresAt .outOfRange)

/-- `same_freshness`; the triggers of both sides are compared sorted, without their order. -/
def sameFreshness (version : Version) (spec : FreshnessSpec) : Bool :=
  decide (version.freshness.policy = spec.policy ∧ version.freshness.revalidateAfter = spec.revalidateAfter ∧
    version.freshness.triggers.Perm spec.triggers ∧ version.freshness.expiresAt = spec.expiresAt ∧
    version.freshness.commitSha = spec.commitSha ∧ version.freshness.branch = spec.branch)

def freshnessColumns (spec : FreshnessSpec) (now : Instant) : Freshness :=
  { policy := spec.policy, verifiedAt := if spec.policy = .revalidate then some now else none
    revalidateAfter := spec.revalidateAfter, triggers := spec.triggers, expiresAt := spec.expiresAt
    commitSha := spec.commitSha, branch := spec.branch, staleSince := none }

def keptFreshness (version : Version) (now : Instant) : Freshness :=
  { version.freshness with
    verifiedAt := if version.freshness.policy = .revalidate then some now else version.freshness.verifiedAt
    staleSince := none }

def carriedFreshness (version : Version) (now : Instant) : Except VersioningError Freshness := do
  if version.freshness.policy = .sessionOnly then throw (.invalidInput .freshness .notAllowed)
  if version.freshness.policy = .expiring ∧ ¬∃ time ∈ version.freshness.expiresAt, now < time then
    throw (.invalidInput .expiresAt .outOfRange)
  return keptFreshness version now

/-! ### The jobs -/

inductive TriggerTarget
  | user (userId : Uuid)
  | project (projectId : Uuid)
  | repo (repoId : Uuid)
  | workspace
  deriving DecidableEq, Repr

/-- The calls of `FreshnessMaintenance`. -/
inductive FreshnessJob
  | markRevalidationDue
  | markTriggered (trigger : RevalidateTrigger) (target : TriggerTarget)
  | markRepoHead (repoId : Uuid) (commitSha : Text) (branch : Option Text)
  | expireDue
  | endSession (conversationId : Uuid)
  | endTask (taskRef : Text)
  deriving DecidableEq

def TriggerTarget.concerns : TriggerTarget → Version → Bool
  | .user userId, version => decide (version.audience = .user userId)
  | .project projectId, version => decide (version.audience = .project projectId)
  | .repo repoId, version => decide (version.audience = .repo repoId)
  | .workspace, _ => true

/-- The condition of a job's statement, but for the status. -/
def FreshnessJob.concerns (sources : List Source) (now : Instant) : FreshnessJob → Version → Bool
  | .markRevalidationDue, version =>
    decide (version.freshness.policy = .revalidate ∧ version.freshness.staleSince = none ∧
      ∀ verified ∈ version.freshness.verifiedAt, ∀ after ∈ version.freshness.revalidateAfter, verified + after ≤ now)
  | .markTriggered trigger target, version =>
    decide (version.freshness.policy = .revalidate ∧ version.freshness.staleSince = none ∧
      trigger ∈ version.freshness.triggers ∧ target.concerns version = true)
  | .markRepoHead repoId commitSha branch, version =>
    decide (version.freshness.policy = .repoCommit ∧ version.freshness.staleSince = none ∧
      version.audience = .repo repoId ∧ version.freshness.commitSha ≠ some commitSha ∧
      (branch = none ∨ version.freshness.branch = none ∨ version.freshness.branch = branch))
  | .expireDue, version =>
    decide (version.freshness.policy = .expiring ∧ ∀ time ∈ version.freshness.expiresAt, time ≤ now)
  | .endSession conversationId, version =>
    decide (version.freshness.policy = .sessionOnly ∧
      ∃ source ∈ sources, source.versionId = version.id ∧ source.conversationId = some conversationId)
  | .endTask taskRef, version =>
    decide (version.freshness.policy = .sessionOnly ∧
      ∃ source ∈ sources, source.versionId = version.id ∧ source.sourceType = .task ∧ source.sourceRef = some taskRef)

def FreshnessJob.change (now : Instant) : FreshnessJob → Version → Version
  | .markRevalidationDue, version | .markTriggered _ _, version | .markRepoHead _ _ _, version =>
    { version with freshness := { version.freshness with staleSince := some now } }
  | .expireDue, version | .endSession _, version | .endTask _, version => { version with status := .deprecated }

/-- `FreshnessMaintenance._apply`; `locked` are the rows another transaction holds. -/
def MemoryDb.maintain (db : MemoryDb) (job : FreshnessJob) (batch : ℕ) (now : Instant) (locked : List Uuid) : MemoryDb :=
  let due := db.versions.filter fun version =>
    decide (version.status = .active ∧ job.concerns db.sources now version = true ∧ version.id ∉ locked)
  let chosen := ((due.map Version.id).insertionSort fun a b => a.toNat ≤ b.toNat).take batch
  { db with versions := db.versions.map fun version =>
      if version.id ∈ chosen ∧ version.status = .active then job.change now version else version }

end PawBackend.Memory
