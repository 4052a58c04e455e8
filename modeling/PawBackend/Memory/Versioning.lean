/-
**Manual versioning of a memory** (`memory/versioning/service.py`, `memory/versioning/rules.py`,
`memory/acl.py`: `readable_memory_versions`).

Every call is one transaction that locks its memories first, so a call is a function of the tables that may be
refused, and a refused call writes nothing (`MemoryDb.next`).
-/

import PawBackend.Memory.Freshness

namespace PawBackend.Memory

open Lib
open Tools (Uuid Instant uuidText)
open Authz (AuditSink Capability Decision Principal ProjectRole ProjectState Reason Resource SystemRole authorize)
open Lib.Text (lit)

/-- What a call brings along and meets: the actor, the clock, the ids the database gives to a new memory and
a new version, and whether the audit records a decision. -/
structure Call where
  actor : Principal
  now : Instant
  newMemory : Uuid
  newVersion : Uuid
  sink : AuditSink

/-- A decision that allowed something. -/
structure Grant where
  capability : Capability
  resource : Resource
  deriving DecidableEq

/-- A draft of `create_memory`: the scope `project` has an id, the scope `user` none. -/
structure MemoryDraft where
  projectId : Option Uuid
  memoryType : Text
  title : Text
  content : Text
  importance : ℕ := 50
  freshness : FreshnessSpec := {}
  reason : Option Text := none
  deriving DecidableEq

structure MemoryChanges where
  title : Option Text := none
  content : Option Text := none
  memoryType : Option Text := none
  importance : Option ℕ := none
  freshness : Option FreshnessSpec := none
  scope : Option MemoryScope := none
  reason : Option Text := none
  deriving DecidableEq

inductive ManualRelation
  | supersedes
  | extends
  | conflictsWith
  deriving DecidableEq, Repr

def ManualRelation.relationType : ManualRelation → RelationType
  | .supersedes => .supersedes
  | .extends => .extends
  | .conflictsWith => .conflictsWith

/-! ### The rules -/

inductive ChangedField
  | title
  | content
  | memoryType
  | importance
  | freshness
  | scope
  deriving DecidableEq, Repr

def ChangedField.name : ChangedField → Text
  | .title => lit "title"
  | .content => lit "content"
  | .memoryType => lit "memory_type"
  | .importance => lit "importance"
  | .freshness => lit "freshness"
  | .scope => lit "scope"

def differs {α : Type} [DecidableEq α] (given : Option α) (value : α) : Bool := given.any fun new => decide (new ≠ value)

def changedFields (current : Version) (changes : MemoryChanges) : List ChangedField :=
  (if differs changes.title current.title then [.title] else []) ++
  (if differs changes.content current.content then [.content] else []) ++
  (if differs changes.memoryType current.memoryType then [.memoryType] else []) ++
  (if differs changes.importance current.importance then [.importance] else []) ++
  (if changes.freshness.any fun spec => !sameFreshness current spec then [.freshness] else []) ++
  (if differs changes.scope current.audience.scope then [.scope] else [])

/-- `ACYCLIC_RELATIONS`. -/
def RelationType.isAcyclic : RelationType → Bool
  | .conflictsWith => false
  | _ => true

def checkExpected (current : Version) (expected : ℕ) : Except VersioningError Unit :=
  if current.number ≠ expected then throw (.versionConflict expected current.number) else pure ()

def checkActive (current : Version) : Except VersioningError Unit :=
  if current.status ≠ .active then throw (.state .notActive) else pure ()

/-- `check_narrowing`: from a project to its editor. -/
def checkNarrowing (current new : MemoryScope) : Except VersioningError Unit :=
  if current = .project ∧ new = .user then pure () else throw (.invalidInput .scope .notAllowed)

def checkRevalidatable (current : Version) : Except VersioningError Unit := do
  checkActive current
  if current.freshness.policy ≠ .revalidate then throw (.state .notRevalidatable)

def checkRestorable (current source : Version) : Except VersioningError Unit := do
  if current.status ≠ .active ∧ current.status ≠ .deprecated then throw (.state .notActive)
  if source.id = current.id ∧ current.status = .active then throw (.state .alreadyActive)

def checkRelatable (relation : ManualRelation) (newer older : Version) : Except VersioningError Unit := do
  if newer.memoryId = older.memoryId then throw (.state .sameMemory)
  checkActive newer
  checkActive older
  if relation = .supersedes ∧ newer.audience ≠ older.audience then throw (.state .scopeMismatch)

/-- `confirmation_after_edit`: what an edit records beside `supersedes`. -/
def confirmationAfterEdit (current : Version) : List RelationType :=
  if current.confirmation = .confirmed then [] else [.confirmedFrom]

def validateVersionNumber (field : InputField) (number : ℕ) : Except VersioningError Unit :=
  if 1 ≤ number ∧ number ≤ maxVersionNumber then pure () else throw (.invalidInput field .outOfRange)

/-- `_check_actor`: a person. -/
def checkActor (actor : Principal) : Except VersioningError Unit :=
  if actor.systemRole = .system then throw (.permission .capabilityNotGranted) else pure ()

/-! ### Who may read and change a version -/

/-- `_readable`: the condition of `memory/acl.py` for the audiences that were allowed. -/
def readable (actor : Principal) (allowed : List Audience) (version : Version) : Bool :=
  (match version.audience with
    | .user owner => decide (owner = actor.userId)
    | .project projectId => decide (Audience.project projectId ∈ allowed)
    | .projectGroup _ => false
    | .repo _ => false
    | .shared => true) &&
  decide (version.audience.scope ∈ allowed.map Audience.scope)

def projectCapability (write : Bool) : Capability := if write then .projectMemoryUse else .projectRead

/-- The denials that mean "not yours". -/
def isHidden (reason : Reason) : Bool := decide (reason = .notResourceOwner ∨ reason = .notProjectMember)

namespace MemoryDb

variable (db : MemoryDb)

def asMember (actor : Principal) (projectId : Uuid) : Principal :=
  { actor with projectRoles := fun id => if id = projectId then db.memberRole projectId actor.userId else none }

/-- `_project_member`: the actor as a member, and the state of the project. -/
def projectMember (actor : Principal) (projectId : Uuid) : Option (Principal × ProjectState) :=
  (db.projectState projectId).map fun state => (db.asMember actor projectId, state)

/-- `_authorize_version`: the decision that allows the actor to change (or to read) a version. -/
def authorizeVersion (call : Call) (memoryId : Uuid) (audience : Audience) (write : Bool) : Except VersioningError Grant := do
  match audience with
  | .shared => throw .scopeNotSupported
  | .projectGroup _ | .repo _ => throw .notFound
  | .user owner =>
    let resource := { Resource.ownedBy owner .memory with id := some memoryId }
    let decision := authorize call.sink call.actor .memoryUse resource
    if decision.allowed then return ⟨.memoryUse, resource⟩
    if isHidden decision.reason then throw .notFound
    throw (.permission decision.reason)
  | .project projectId =>
    let (principal, state) ← orThrow (db.projectMember call.actor projectId) .notFound
    let resource := Resource.project projectId state
    let decision := authorize call.sink principal (projectCapability write) resource
    if decision.allowed then return ⟨projectCapability write, resource⟩
    if isHidden decision.reason ∨ principal.projectRoles projectId = none then throw .notFound
    throw (.permission decision.reason)

/-- `_authorize_narrowing`: may the actor hold the memory as their own? -/
def authorizeNarrowing (call : Call) : Except VersioningError Grant :=
  let resource := Resource.ownedBy call.actor.userId .memory
  let decision := authorize call.sink call.actor .memoryUse resource
  if decision.allowed then pure ⟨.memoryUse, resource⟩ else throw (.permission decision.reason)

/-- `_load`: a version, read through the condition. -/
def load (actor : Principal) (allowed : Audience) (memoryId : Uuid) (number : ℕ) : Except VersioningError Version :=
  orThrow (db.versions.find? fun version =>
    decide (version.memoryId = memoryId ∧ version.number = number) && readable actor [allowed] version) .notFound

/-- `_current`: the current version, authorized and then read. -/
def currentFor (call : Call) (memoryId : Uuid) (write : Bool) : Except VersioningError (Version × Grant) := do
  let row ← orThrow (db.current memoryId) .notFound
  let grant ← db.authorizeVersion call memoryId row.audience write
  let version ← db.load call.actor row.audience memoryId row.number
  return (version, grant)

/-! ### Statements -/

/-- `_set_status`: one version, which still has the status it was read with. -/
def setStatus (version : Version) (new : MemoryStatus) : Except VersioningError MemoryDb :=
  if (db.versions.countP fun row => decide (row.id = version.id ∧ row.status = version.status)) ≠ 1 then
    throw (.versionConflict version.number version.number)
  else pure { db with versions := db.versions.map fun row =>
    if row.id = version.id ∧ row.status = version.status then { row with status := new } else row }

def supersedeIf (condition : Bool) (version : Version) : Except VersioningError MemoryDb :=
  if condition then db.setStatus version .superseded else pure db

/-- The row `_insert_version` starts from: the next version of a memory, with the scope of the one before. -/
def nextVersion (call : Call) (base : Version) : Version :=
  { base with
    id := call.newVersion, number := base.number + 1, status := .active, confirmation := .confirmed, actorType := .user
    actorUserId := some call.actor.userId, changeReason := none, createdAt := call.now }

def confirmationSourceRef (userId : Uuid) : Text := lit "memory_confirmed_by:" ++ uuidText userId

def Source.namesNothing (source : Source) : Bool :=
  decide (source.sourceType = .conversation ∧ source.conversationId = none ∧ source.messageId = none)

def carrySources (call : Call) (origin new : Uuid) : MemoryDb :=
  let copied := (db.sources.filter fun source => decide (source.versionId = origin) && !Source.namesNothing source).map
    fun source => { source with versionId := new }
  let reference := confirmationSourceRef call.actor.userId
  let carried := db.sources ++ copied
  if ∃ source ∈ carried, source.versionId = new ∧ source.sourceType = .userConfirmation ∧
      source.sourceRef = some reference then { db with sources := carried }
  else { db with sources := carried ++ [⟨new, .userConfirmation, none, none, some reference, none, call.now⟩] }

def relate (call : Call) (newer older : Uuid) (kind : RelationType) (reason : Option Text) : Except VersioningError MemoryDb :=
  db.insertRelation ⟨newer, older, kind, reason, call.now⟩

/-- The edges no cycle may run over. -/
def acyclicEdges : List (Uuid × Uuid) :=
  (db.relations.filter fun relation => relation.kind.isAcyclic).map fun relation => (relation.newer, relation.older)

def checkGraph (kind : RelationType) (newer older : Version) : Except VersioningError Unit := do
  if ∃ row ∈ db.relations, row.kind = kind ∧ (row.newer = newer.id ∧ (row.older = older.id ∨ row.older = newer.id) ∨
      kind = .conflictsWith ∧ row.newer = older.id ∧ (row.older = newer.id ∨ row.older = older.id)) then
    throw (.state .alreadyRelated)
  if kind.isAcyclic = true ∧ newer.id ∈ reach db.acyclicEdges older.id then throw (.state .wouldCycle)

end MemoryDb

/-! ### The calls -/

/-- What a call makes of the tables, the version it returns and the decisions that allowed it. -/
structure Reply where
  db : MemoryDb
  view : Option Version
  grants : List Grant

namespace MemoryDb

variable (db : MemoryDb)

def authorizeDraft (call : Call) (draft : MemoryDraft) : Except VersioningError Grant :=
  match draft.projectId with
  | none => authorizeNarrowing call
  | some projectId => do
    let (principal, state) ← orThrow (db.projectMember call.actor projectId) (.permission .notProjectMember)
    let resource := Resource.project projectId state
    let decision := authorize call.sink principal .projectMemoryUse resource
    if decision.allowed then return ⟨.projectMemoryUse, resource⟩
    throw (.permission decision.reason)

def firstVersion (call : Call) (draft : MemoryDraft) : Version :=
  { id := call.newVersion, memoryId := call.newMemory, number := 1
    audience := (draft.projectId.map Audience.project).getD (.user call.actor.userId), memoryType := draft.memoryType
    title := draft.title, content := draft.content, importance := draft.importance, pinned := false, status := .active
    confirmation := .confirmed, freshness := freshnessColumns draft.freshness call.now, actorType := .user
    actorUserId := some call.actor.userId, changeReason := draft.reason, createdAt := call.now }

def createMemory (call : Call) (draft : MemoryDraft) : Except VersioningError Reply := do
  checkActor call.actor
  checkManualFreshness draft.freshness (firstVersion call draft).audience.scope call.now
  let grant ← db.authorizeDraft call draft
  if call.newMemory ∈ db.memories then throw .database
  let db ← { db with memories := db.memories ++ [call.newMemory] }.insertVersion (firstVersion call draft)
  return ⟨db, some (firstVersion call draft), [grant]⟩

def narrowed (call : Call) (current : Version) (changes : MemoryChanges) : Except VersioningError (Audience × List Grant) := do
  match changes.scope with
  | none => return (current.audience, [])
  | some scope =>
    if scope = current.audience.scope then return (current.audience, [])
    checkNarrowing current.audience.scope scope
    let grant ← authorizeNarrowing call
    return (.user call.actor.userId, [grant])

def editedFreshness (call : Call) (current : Version) (changes : MemoryChanges) (scope : MemoryScope) :
    Except VersioningError Freshness := do
  match changes.freshness.filter fun spec => !sameFreshness current spec with
  | some spec =>
    checkManualFreshness spec scope call.now
    return freshnessColumns spec call.now
  | none => carriedFreshness current call.now

def editedVersion (call : Call) (current : Version) (changes : MemoryChanges) (audience : Audience) (freshness : Freshness) :
    Version :=
  { nextVersion call current with
    title := changes.title.getD current.title, content := changes.content.getD current.content
    memoryType := changes.memoryType.getD current.memoryType, importance := changes.importance.getD current.importance
    audience := audience, freshness := freshness, changeReason := changes.reason }

/-- `", ".join(changed)`. -/
def changedNames (changed : List ChangedField) : Text := (lit ", ").intercalate (changed.map ChangedField.name)

def editMemory (call : Call) (memoryId : Uuid) (expected : ℕ) (changes : MemoryChanges) : Except VersioningError Reply := do
  checkActor call.actor
  validateVersionNumber .expectedVersion expected
  let (current, grant) ← db.currentFor call memoryId true
  checkExpected current expected
  checkActive current
  let changed := changedFields current changes
  if changed = [] then return ⟨db, some current, [grant]⟩
  let (audience, narrowing) ← narrowed call current changes
  let freshness ← editedFreshness call current changes audience.scope
  let new := editedVersion call current changes audience freshness
  let db ← db.setStatus current .superseded
  let db ← db.insertVersion new
  let db := db.carrySources call current.id new.id
  let db ← db.relate call new.id current.id .supersedes (some (changedNames changed))
  let db ← (confirmationAfterEdit current).foldlM
    (fun db kind => db.relate call new.id current.id kind (some (changedNames changed))) db
  return ⟨db, some new, grant :: narrowing⟩

def restoredFreshness (call : Call) (current source : Version) (spec : Option FreshnessSpec) :
    Except VersioningError Freshness := do
  match spec with
  | some spec =>
    checkManualFreshness spec current.audience.scope call.now
    return freshnessColumns spec call.now
  | none => carriedFreshness source call.now

def restoredVersion (call : Call) (current source : Version) (freshness : Freshness) (reason : Option Text) : Version :=
  { nextVersion call current with
    memoryType := source.memoryType, title := source.title, content := source.content, importance := source.importance
    freshness := freshness, changeReason := reason }

def restoreVersion (call : Call) (memoryId : Uuid) (expected sourceNumber : ℕ) (spec : Option FreshnessSpec)
    (reason : Option Text) : Except VersioningError Reply := do
  checkActor call.actor
  validateVersionNumber .expectedVersion expected
  validateVersionNumber .sourceVersion sourceNumber
  let (current, grant) ← db.currentFor call memoryId true
  checkExpected current expected
  let row ← orThrow (db.versions.find? fun version => decide (version.memoryId = memoryId ∧ version.number = sourceNumber))
    (.state .unknownVersion)
  if row.audience ≠ current.audience then throw (.state .scopeMismatch)
  let source ← db.load call.actor row.audience memoryId sourceNumber
  checkRestorable current source
  let freshness ← restoredFreshness call current source spec
  let new := restoredVersion call current source freshness reason
  let db ← db.supersedeIf (decide (current.status = .active)) current
  let db ← db.insertVersion new
  let db := db.carrySources call source.id new.id
  let db ← db.relate call new.id current.id .supersedes (some (lit "restore"))
  return ⟨db, some new, [grant]⟩

def deprecateMemory (call : Call) (memoryId : Uuid) (expected : ℕ) : Except VersioningError Reply := do
  checkActor call.actor
  validateVersionNumber .expectedVersion expected
  let (current, grant) ← db.currentFor call memoryId true
  checkExpected current expected
  checkActive current
  let db ← db.setStatus current .deprecated
  return ⟨db, some { current with status := .deprecated }, [grant]⟩

def revalidatedVersion (call : Call) (current : Version) (reason : Option Text) : Version :=
  { nextVersion call current with freshness := keptFreshness current call.now, changeReason := reason }

def revalidateMemory (call : Call) (memoryId : Uuid) (expected : ℕ) (reason : Option Text) : Except VersioningError Reply := do
  checkActor call.actor
  validateVersionNumber .expectedVersion expected
  let (current, grant) ← db.currentFor call memoryId true
  checkExpected current expected
  checkRevalidatable current
  let new := revalidatedVersion call current reason
  let db ← db.setStatus current .superseded
  let db ← db.insertVersion new
  let db := db.carrySources call current.id new.id
  let db ← db.relate call new.id current.id .supersedes (some (lit "revalidate"))
  let db ← db.relate call new.id current.id .revalidatedFrom (some (lit "revalidate"))
  return ⟨db, some new, [grant]⟩

def relateMemories (call : Call) (relation : ManualRelation) (newerId : Uuid) (newerExpected : ℕ) (olderId : Uuid)
    (olderExpected : ℕ) (reason : Option Text) : Except VersioningError Reply := do
  checkActor call.actor
  validateVersionNumber .expectedVersion newerExpected
  validateVersionNumber .expectedVersion olderExpected
  if newerId = olderId then throw (.state .sameMemory)
  let newerRow ← orThrow (db.current newerId) .notFound
  let olderRow ← orThrow (db.current olderId) .notFound
  let newerGrant ← db.authorizeVersion call newerId newerRow.audience true
  let olderGrant ← db.authorizeVersion call olderId olderRow.audience true
  let newer ← db.load call.actor newerRow.audience newerId newerRow.number
  let older ← db.load call.actor olderRow.audience olderId olderRow.number
  checkExpected newer newerExpected
  checkExpected older olderExpected
  checkRelatable relation newer older
  db.checkGraph relation.relationType newer older
  let db ← db.supersedeIf (decide (relation = .supersedes)) older
  let db ← db.relate call newer.id older.id relation.relationType reason
  return ⟨db, none, [newerGrant, olderGrant]⟩

def readableAudiences (call : Call) (memoryId : Uuid) (current : Audience) : List (Audience × Grant) :=
  (((db.versionsOf memoryId).map Version.audience).dedup.filter fun audience => decide (audience ≠ current)).filterMap
    fun audience => (db.authorizeVersion call memoryId audience false).toOption.map fun grant => (audience, grant)

/-- `history`: the versions a reader of the current one is given, and the decisions that allowed it. -/
def history (call : Call) (memoryId : Uuid) : Except VersioningError (List Version × List Grant) := do
  checkActor call.actor
  let current ← orThrow (db.current memoryId) .notFound
  let grant ← db.authorizeVersion call memoryId current.audience false
  let others := db.readableAudiences call memoryId current.audience
  let rows := (db.versionsOf memoryId).filter (readable call.actor (current.audience :: others.map Prod.fst))
  return (rows.insertionSort fun a b => a.number ≤ b.number, grant :: others.map Prod.snd)

end MemoryDb

/-! ### Steps -/

/-- What may happen: a call of the service, a freshness job, or a change of the projects and their members. -/
inductive MemoryEvent
  | createMemory (call : Call) (draft : MemoryDraft)
  | editMemory (call : Call) (memoryId : Uuid) (expected : ℕ) (changes : MemoryChanges)
  | restoreVersion (call : Call) (memoryId : Uuid) (expected sourceNumber : ℕ) (spec : Option FreshnessSpec) (reason : Option Text)
  | deprecateMemory (call : Call) (memoryId : Uuid) (expected : ℕ)
  | revalidateMemory (call : Call) (memoryId : Uuid) (expected : ℕ) (reason : Option Text)
  | relateMemories (call : Call) (relation : ManualRelation) (newerId : Uuid) (newerExpected : ℕ) (olderId : Uuid)
    (olderExpected : ℕ) (reason : Option Text)
  | maintain (job : FreshnessJob) (batch : ℕ) (now : Instant) (locked : List Uuid)
  | projects (state : Uuid → Option ProjectState) (role : Uuid → Uuid → Option ProjectRole)

namespace MemoryDb

def perform (db : MemoryDb) : MemoryEvent → Except VersioningError Reply
  | .createMemory call draft => db.createMemory call draft
  | .editMemory call memoryId expected changes => db.editMemory call memoryId expected changes
  | .restoreVersion call memoryId expected sourceNumber spec reason =>
    db.restoreVersion call memoryId expected sourceNumber spec reason
  | .deprecateMemory call memoryId expected => db.deprecateMemory call memoryId expected
  | .revalidateMemory call memoryId expected reason => db.revalidateMemory call memoryId expected reason
  | .relateMemories call relation newerId newerExpected olderId olderExpected reason =>
    db.relateMemories call relation newerId newerExpected olderId olderExpected reason
  | .maintain job batch now locked => .ok ⟨db.maintain job batch now locked, none, []⟩
  | .projects state role => .ok ⟨{ db with projectState := state, memberRole := role }, none, []⟩

/-- A refused call is rolled back. -/
def next (db : MemoryDb) (event : MemoryEvent) : MemoryDb :=
  match db.perform event with
  | .ok reply => reply.db
  | .error _ => db

def run (db : MemoryDb) (events : List MemoryEvent) : MemoryDb := events.foldl next db

end MemoryDb

end PawBackend.Memory
