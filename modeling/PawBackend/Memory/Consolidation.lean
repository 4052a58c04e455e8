/-
**The consolidator** (`memory/journal/rules.py`, `memory/journal/applier.py`, `memory/journal/domain.py`).

`applyItems` turns a worker's output for one journal entry into versions.
-/

import PawBackend.Memory.Tables
import Mathlib.Data.List.Lex

namespace PawBackend.Memory

open Lib
open Tools (Uuid Instant uuidText)
open Lib.Text (lit)

/-! ### The rules -/

/-- Where an entry sits in time. -/
structure OrderKey where
  conversationId : Uuid
  eventSequence : ℕ
  recordedAt : Instant
  deriving DecidableEq, Repr

/-- `is_newer`: the sequence decides in one conversation, the time across them. -/
def isNewer (entry applied : OrderKey) : Bool :=
  if entry.conversationId = applied.conversationId then decide (applied.eventSequence < entry.eventSequence)
  else decide (applied.recordedAt < entry.recordedAt ∨ applied.recordedAt = entry.recordedAt ∧
    uuidText applied.conversationId < uuidText entry.conversationId)

inductive WorkerScope
  | user
  | project
  | repo
  | shared
  deriving DecidableEq, Repr

inductive WorkerState
  | confirmed
  | inferred
  deriving DecidableEq, Repr

structure WorkerMemory where
  key : Text
  scope : WorkerScope
  state : WorkerState
  supersedes : Option Text
  content : Option Text
  conflictsWith : List Text := []
  deriving DecidableEq

inductive ItemResult
  | created
  | updated
  | duplicate
  | stale
  | heldConfirmed
  | heldHighRisk
  | heldWidened
  | blocked
  | refusedShared
  | noContent
  | duplicateKey
  deriving DecidableEq, Repr

def ItemResult.wroteMemory (result : ItemResult) : Bool := decide (result = .created ∨ result = .updated)

def storedState : WorkerState → ConfirmationState
  | .inferred => .inferred
  | .confirmed => .observed

/-- What `unicodedata.normalize("NFKC", …)` and `str.lower` make of a text. -/
structure Folding where
  nfkc : Text → Text
  lower : Text → Text

def highRiskWords : List Text :=
  ["merge", "merges", "merged", "merging", "delete", "deletes", "deleted", "deleting", "deletion", "destroy", "destructive",
   "purge", "wipe", "force", "acl", "acls", "role", "roles", "permission", "permissions", "privilege", "privileges", "admin",
   "sudo", "credential", "credentials", "secret", "secrets", "password", "passwords", "token", "tokens", "apikey", "publish",
   "published", "publishing", "public", "visibility", "expose", "external", "externally", "upload", "send", "sends",
   "sending"].map lit

def highRiskPhrases : List Text :=
  ["マージ", "削除", "破壊", "強制", "権限", "認証", "秘密", "公開", "外部", "送信"].map lit

/-- A letter or a digit of `[a-z0-9]`. -/
def isWordChar (c : ℕ) : Bool := Text.isLower c || Text.isDigit c

/-- `_CAMEL_BOUNDARY.sub(" ", …)`: a blank before a capital letter that follows a small one or a digit. -/
def splitCamel : Text → Text
  | a :: b :: rest => if isWordChar a && Text.isUpper b then a :: 32 :: splitCamel (b :: rest) else a :: splitCamel (b :: rest)
  | short => short

/-- `_WORD.findall`. -/
def wordsOf (t : Text) : List Text := (t.splitOnP fun c => !isWordChar c).filter fun word => decide (word ≠ [])

def isHighRisk (fold : Folding) (texts : List Text) : Bool :=
  texts.any fun text =>
    let folded := fold.lower (splitCamel (fold.nfkc text))
    decide (text ≠ []) && ((wordsOf folded).any (fun word => decide (word ∈ highRiskWords)) ||
      highRiskPhrases.any fun phrase => decide (phrase <:+: folded))

/-- The latest version of the memory a key names, as far as a decision needs. -/
structure CurrentMemory where
  status : MemoryStatus
  confirmation : ConfirmationState
  content : Text
  widened : Bool := false
  deriving DecidableEq

namespace CurrentMemory

def isActiveConfirmed (memory : CurrentMemory) : Bool :=
  decide (memory.status = .active ∧ memory.confirmation = .confirmed)

def isActiveWidened (memory : CurrentMemory) : Bool := decide (memory.status = .active) && memory.widened

end CurrentMemory

/-- `text.strip()`. -/
def stripped (t : Text) : Text := (t.dropWhile Text.isSpace).rdropWhile Text.isSpace

section Order

variable (items : List WorkerMemory)

def firstOf (key : Text) : Option ℕ := items.findIdx? fun item => decide (item.key = key)

def liveItems : List ℕ :=
  (List.range items.length).filter fun index => decide (∃ item ∈ items[index]?, firstOf items item.key = some index)

def dependsOn (index : ℕ) : List ℕ :=
  match items[index]? with
  | none => []
  | some item => ((item.supersedes.toList ++ item.conflictsWith).filterMap (firstOf items)).filter fun other => decide (other ≠ index)

def inCycle (index : ℕ) : Bool :=
  let edges := (liveItems items).flatMap fun item => (dependsOn items item).map fun other => (item, other)
  (dependsOn items index).any fun other => decide (index ∈ reach edges other)

/-- The loop of `processing_order`. -/
def orderLoop : ℕ → List ℕ → List ℕ → List ℕ
  | 0, _, applied => applied
  | rounds + 1, remaining, applied =>
    let ready := remaining.find? fun index => decide (∀ other ∈ dependsOn items index, other ∈ applied)
    match ready.or (remaining.find? fun index => inCycle items index) with
    | none => applied
    | some chosen => orderLoop rounds (remaining.erase chosen) (applied ++ [chosen])

def processingOrder : List ℕ := orderLoop items (liveItems items).length (liveItems items) []

end Order

def supersedeTarget (entry : OrderKey) (target : Option CurrentMemory) (guard : Option OrderKey) : Option CurrentMemory :=
  if guard.any fun applied => isNewer applied entry then none else target

/-- What retiring the target would undo. -/
def holdForTarget (target : Option CurrentMemory) : Option ItemResult :=
  target.bind fun memory =>
    if memory.isActiveWidened then some .heldWidened else if memory.isActiveConfirmed then some .heldConfirmed else none

/-- The rules of `plan_item` for a key that has a memory already. -/
def planKnown (content : Text) (entry : OrderKey) (memory : CurrentMemory) (applied : Option OrderKey)
    (target : Option CurrentMemory) : ItemResult :=
  if (memory.status = .deprecated ∨ memory.status = .history) ∨ memory.confirmation = .rejected then .blocked
  else if applied.any fun order => !isNewer entry order then .stale
  else if memory.widened then (if stripped memory.content = stripped content then .duplicate else .heldWidened)
  else if memory.status = .active ∧ stripped memory.content = stripped content then .duplicate
  else if memory.status = .active ∧ memory.confirmation = .confirmed then .heldConfirmed
  else (holdForTarget target).getD .updated

def planItem (fold : Folding) (item : WorkerMemory) (entry : OrderKey) (current : Option CurrentMemory)
    (applied : Option OrderKey) (target : Option CurrentMemory) : ItemResult :=
  if item.scope = .shared then .refusedShared
  else
    match item.content with
    | none => .noContent
    | some content =>
      if isHighRisk fold [item.key, content] then .heldHighRisk
      else
        match current with
        | none => (holdForTarget target).getD .created
        | some memory => planKnown content entry memory applied target

/-! ### The tables -/

/-- A row of `memory_consolidation_keys`. -/
structure KeyRow where
  owner : Uuid
  key : Text
  memoryId : Uuid
  applied : OrderKey
  deriving DecidableEq

def KeyRow.name (row : KeyRow) : Uuid × Text := (row.owner, row.key)

/-- A version the consolidator wrote: for which key, from which entry, the key it was admitted to retire and whether that
key's latest version was active. -/
structure Applied where
  owner : Uuid
  key : Text
  order : OrderKey
  memoryId : Uuid
  versionId : Uuid
  target : Option Text
  targetActive : Bool
  deriving DecidableEq

structure JournalDb where
  memory : MemoryDb
  keys : Keyed KeyRow.name
  written : List Applied

/-- The locked journal entry an output is applied for. -/
structure EntryContext where
  order : OrderKey
  messageId : Uuid
  owner : Uuid

/-- What the database gives a transaction for an item: the ids of a new memory and of a new version, and its clock. -/
structure Given where
  newMemory : Uuid
  newVersion : Uuid
  now : Instant

/-- A lost update, or a violated constraint: the transaction is rolled back. -/
inductive ApplyError
  | conflict
  | database
  deriving DecidableEq, Repr

structure Registered where
  memoryId : Uuid
  applied : OrderKey
  deriving DecidableEq

structure LatestVersion where
  id : Uuid
  number : ℕ
  summary : CurrentMemory
  deriving DecidableEq

/-- `_load_registry`, of one key. -/
def registeredOf (keys : Keyed KeyRow.name) (owner : Uuid) (key : Text) : Option Registered :=
  (keys.get (owner, key)).map fun row => ⟨row.memoryId, row.applied⟩

def latestVersion (owner : Uuid) (version : Version) : LatestVersion :=
  ⟨version.id, version.number,
    ⟨version.status, version.confirmation, version.content, decide (version.audience ≠ .user owner)⟩⟩

/-- `_load_latest`, of one memory: it belongs to the owner when one of its versions is their private one. -/
def latestOf (db : MemoryDb) (owner memoryId : Uuid) : Option LatestVersion :=
  if ∃ version ∈ db.versionsOf memoryId, version.audience = .user owner then
    (db.current memoryId).map (latestVersion owner)
  else none

/-- What a transaction works on: the tables, and its copies of the registry and of the latest versions. -/
structure Work where
  db : MemoryDb
  keys : Keyed KeyRow.name
  written : List Applied
  registry : Text → Option Registered
  latest : Uuid → Option LatestVersion

def involvedKeys (items : List WorkerMemory) : List Text :=
  items.flatMap fun item => item.key :: (item.supersedes.toList ++ item.conflictsWith)

def JournalDb.begin (s : JournalDb) (owner : Uuid) (involved : List Text) : Work where
  db := s.memory
  keys := s.keys
  written := s.written
  registry := fun key => if key ∈ involved then registeredOf s.keys owner key else none
  latest := fun memoryId =>
    if ∃ key ∈ involved, (registeredOf s.keys owner key).any fun registered => decide (registered.memoryId = memoryId) then
      latestOf s.memory owner memoryId
    else none

/-! ### Writing -/

def MemoryDb.supersede (db : MemoryDb) (versionId : Uuid) : Except ApplyError MemoryDb :=
  if (db.versions.countP fun row => decide (row.id = versionId ∧ row.status = .active)) ≠ 1 then throw .conflict
  else pure { db with versions := db.versions.map fun row =>
    if row.id = versionId ∧ row.status = .active then { row with status := .superseded } else row }

/-- `_supersede` of the version that is to be retired, if there is one. -/
def MemoryDb.supersedeOld (db : MemoryDb) (old : Option LatestVersion) : Except ApplyError MemoryDb :=
  match old with
  | none => pure db
  | some version => db.supersede version.id

/-- `_relate`: `ON CONFLICT DO NOTHING`. -/
def MemoryDb.relateOnce (db : MemoryDb) (relation : MemoryRelation) : Except ApplyError MemoryDb :=
  if ∃ row ∈ db.relations, row.newer = relation.newer ∧ row.older = relation.older ∧ row.kind = relation.kind ∨
      relation.kind = .supersedes ∧ row.kind = .supersedes ∧ row.older = relation.older then pure db
  else
    match db.insertRelation relation with
    | .ok db => pure db
    | .error _ => throw .database

def MemoryDb.addVersion (db : MemoryDb) (version : Version) : Except ApplyError MemoryDb :=
  match db.insertVersion version with
  | .ok db => pure db
  | .error _ => throw .database

/-- `_advance`: the guard of a key moves to an entry. -/
def advance (keys : Keyed KeyRow.name) (owner : Uuid) (key : Text) (order : OrderKey) : Keyed KeyRow.name :=
  keys.update (fun row => decide (row.name = (owner, key))) (fun row => { row with applied := order }) fun _ _ => rfl

/-- The row `_write_version` inserts. -/
def candidateVersion (entry : EntryContext) (item : WorkerMemory) (content : Text) (given : Given) (memoryId : Uuid)
    (number : ℕ) : Version :=
  { id := given.newVersion, memoryId := memoryId, number := number, audience := .user entry.owner, memoryType := lit "worker_candidate"
    title := item.key, content := content, importance := 50, pinned := false, status := .active
    confirmation := storedState item.state, freshness := {}, actorType := .system, actorUserId := none
    changeReason := some (lit "background consolidation"), createdAt := given.now }

def LatestVersion.ifActive (version : LatestVersion) : Option LatestVersion :=
  if version.summary.status = .active then some version else none

def conflictingVersions (w : Work) (item : WorkerMemory) (retired : List Uuid) : List Uuid :=
  item.conflictsWith.filterMap fun other =>
    ((w.registry other).bind fun registered => w.latest registered.memoryId).bind fun version =>
      if other ≠ item.key ∧ version.summary.status = .active ∧ version.id ∉ retired then some version.id else none

def registerKey (keys : Keyed KeyRow.name) (registered : Option Registered) (owner : Uuid) (key : Text) (memoryId : Uuid)
    (order : OrderKey) : Except ApplyError (Keyed KeyRow.name) :=
  match registered with
  | some _ => pure (advance keys owner key order)
  | none =>
    if ∃ row ∈ keys.rows, row.memoryId = memoryId then throw .database
    else orThrow (keys.tryInsert ⟨owner, key, memoryId, order⟩) .database

def MemoryDb.memoryFor (db : MemoryDb) (registered : Option Registered) (fresh : Uuid) : Except ApplyError (MemoryDb × Uuid) :=
  match registered with
  | some registered => pure (db, registered.memoryId)
  | none => if fresh ∈ db.memories then throw .database else pure ({ db with memories := db.memories ++ [fresh] }, fresh)

/-- A function with one more value. -/
def assign {α β : Type} [DecidableEq α] (f : α → β) (a : α) (b : β) : α → β := fun x => if x = a then b else f x

theorem assign_self {α β : Type} [DecidableEq α] (f : α → β) (a : α) (b : β) : assign f a b a = b := if_pos rfl

theorem assign_of_ne {α β : Type} [DecidableEq α] (f : α → β) {a x : α} (b : β) (other : x ≠ a) : assign f a b x = f x := if_neg other

/-- The end of `_write_version`: the retired key's guard moves to this turn. -/
def Work.retireTarget (w : Work) (owner : Uuid) (order : OrderKey) (supersedes : Option Text)
    (replaced : Option (Uuid × LatestVersion)) : Work :=
  match supersedes, replaced with
  | some key, some (memoryId, version) =>
    { w with
      keys := advance w.keys owner key order
      registry := assign w.registry key (some ⟨memoryId, order⟩)
      latest := assign w.latest memoryId (some ⟨version.id, version.number,
        ⟨.superseded, version.summary.confirmation, version.summary.content, false⟩⟩) }
  | _, _ => w

/-- `_relate`, with each of some versions. -/
def MemoryDb.relateAll (db : MemoryDb) (newer : Uuid) (kind : RelationType) (reason : Text) (now : Instant) (older : List Uuid) :
    Except ApplyError MemoryDb :=
  older.foldlM (fun db id => db.relateOnce ⟨newer, id, kind, some reason, now⟩) db

def Work.writeVersion (w : Work) (entry : EntryContext) (item : WorkerMemory) (content : Text) (registered : Option Registered)
    (current : Option LatestVersion) (target : Option (Uuid × LatestVersion)) (given : Given) : Except ApplyError Work := do
  let previous := current.bind LatestVersion.ifActive
  let replaced := target.bind fun (memoryId, version) => version.ifActive.map fun active => (memoryId, active)
  let db ← w.db.supersedeOld previous
  let db ← db.supersedeOld (replaced.map Prod.snd)
  let (db, memoryId) ← db.memoryFor registered given.newMemory
  let number := (current.map fun version => version.number + 1).getD 1
  let version := candidateVersion entry item content given memoryId number
  let db ← db.addVersion version
  let old := previous.toList.map LatestVersion.id
  let other := replaced.toList.map fun pair => pair.2.id
  let db ← db.relateAll version.id .supersedes (lit "same key") given.now old
  let db ← db.relateAll version.id .supersedes (lit "supersedes key") given.now other
  let db ← db.relateAll version.id .conflictsWith (lit "worker") given.now (conflictingVersions w item (old ++ other))
  let source : Source := ⟨version.id, .conversation, some entry.order.conversationId, some entry.messageId, none, none, given.now⟩
  let keys ← registerKey w.keys registered entry.owner item.key memoryId entry.order
  let wrote : Work :=
    { db := { db with sources := db.sources ++ [source] }
      keys := keys
      written := w.written ++ [⟨entry.owner, item.key, entry.order, memoryId, version.id,
        if target.isSome then item.supersedes else none, replaced.isSome⟩]
      registry := assign w.registry item.key (some ⟨memoryId, entry.order⟩)
      latest := assign w.latest memoryId (some ⟨version.id, number, ⟨.active, storedState item.state, content, false⟩⟩) }
  return wrote.retireTarget entry.owner entry.order item.supersedes replaced

def Work.targetOf (w : Work) (order : OrderKey) (item : WorkerMemory) : Option (Uuid × LatestVersion) :=
  (item.supersedes.filter fun key => decide (key ≠ item.key)).bind fun key =>
    (w.registry key).bind fun registered =>
      (w.latest registered.memoryId).bind fun version =>
        (supersedeTarget order (some version.summary) (some registered.applied)).map fun _ => (registered.memoryId, version)

/-- One round of the loop of `apply_items`. -/
def Work.applyItem (fold : Folding) (entry : EntryContext) (given : Given) (w : Work) (item : WorkerMemory) :
    Except ApplyError (Work × ItemResult) := do
  let registered := w.registry item.key
  let current := registered.bind fun registered => w.latest registered.memoryId
  let target := w.targetOf entry.order item
  let result := planItem fold item entry.order (current.map LatestVersion.summary) (registered.map Registered.applied)
    (target.map fun pair => pair.2.summary)
  match result, item.content, registered with
  | .duplicate, _, some registered =>
    return ({ w with keys := advance w.keys entry.owner item.key entry.order
                     registry := assign w.registry item.key (some ⟨registered.memoryId, entry.order⟩) }, result)
  | .created, some content, _ | .updated, some content, _ =>
    let w ← w.writeVersion entry item content registered current target given
    return (w, result)
  | _, _, _ => return (w, result)

/-- `apply_items`: the tables after an output, and what became of each of its items. -/
def JournalDb.applyItems (fold : Folding) (s : JournalDb) (entry : EntryContext) (items : List WorkerMemory)
    (given : ℕ → Given) : Except ApplyError (JournalDb × (ℕ → ItemResult)) := do
  let (w, results) ← (processingOrder items).foldlM (fun (state : Work × (ℕ → ItemResult)) index =>
    match items[index]? with
    | none => pure state
    | some item => do
      let (w, result) ← state.1.applyItem fold entry (given index) item
      return (w, assign state.2 index result)) (s.begin entry.owner (involvedKeys items), fun _ => .duplicateKey)
  return (⟨w.db, w.keys, w.written⟩, results)

end PawBackend.Memory
