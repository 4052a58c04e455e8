/-
**Confirming a preference** (`memory/preferences/service.py`: `confirm`; `memory/preferences/records.py`;
`memory/preferences/interpretation.py`: `content`, `risk_level`).

A person confirms an unconfirmed memory of theirs, or an item the consolidator held for them, as it is or as the
structured preference of a free-text answer. What is stored is put together from several texts, so the gate for
high-risk preferences looks at each of them before anything is written.
-/

import PawBackend.Memory.History
import PawBackend.Memory.Interpretation
import PawBackend.Memory.JournalQueue

namespace PawBackend.Memory.Preferences

open Lib List
open Tools (Uuid Instant uuidText)
open Authz (Reason RepoAcl RepoPermission Resource authorize)
open Lib.Text (lit)

/-! ### The text and the risk of a preference -/

inductive RiskLevel
  | low
  | high
  deriving DecidableEq, Repr

def applyToLabel : Text := lit "適用対象:"

def exceptionLabel : Text := lit "例外:"

def requiredLine : Text := lit "強さ: 必須（Memory は実行や権限を強制しない）"

namespace StructuredPreference

variable (fold : Folding) (p : StructuredPreference)

/-- `target`: a project group is the person's own memory. -/
def target : TargetScope :=
  match p.scope with
  | .repo => .repo
  | .project => .project
  | .user | .projectGroup => .user

def lines : List Text :=
  p.rule :: ((p.applyTo.toList.map fun group => applyToLabel ++ 32 :: group) ++
    (p.exceptions.map fun exception => exceptionLabel ++ 32 :: exception) ++
    (if p.strength = .required then [requiredLine] else []))

def content : Text := Text.join 10 p.lines

def riskLevel (others : List Text) : RiskLevel :=
  if p.strength = .required ∨ isHighRisk fold (p.rule :: p.applyTo.toList ++ p.exceptions ++ others) then .high else .low

end StructuredPreference

/-! ### The records -/

inductive CandidateRef
  | memory (memoryId : Uuid) (expectedVersion : ℕ)
  | held (entryId : Uuid) (itemIndex : ℕ)
  deriving DecidableEq

/-- The person's answer: a button, or a structured preference. -/
structure Confirmation where
  scope : Option TargetScope := none
  projectId : Option Uuid := none
  repoId : Option Uuid := none
  preference : Option StructuredPreference := none
  acknowledgeHighRisk : Bool := false
  reason : Option Text := none
  oneOf : scope.isSome = !preference.isSome

namespace Confirmation

variable (c : Confirmation)

theorem scope_isSome {c : Confirmation} (isButton : c.preference = none) : c.scope.isSome = true := by
  rw [c.oneOf, isButton]
  rfl

def target : TargetScope :=
  match isAnswer : c.preference with
  | some p => p.target
  | none => c.scope.get (scope_isSome isAnswer)

def targetProjectId : Option Uuid :=
  match c.preference with
  | some p => p.projectId
  | none => c.projectId

def targetRepoId : Option Uuid :=
  match c.preference with
  | some p => p.repoId
  | none => c.repoId

def storedContent (own : Text) : Text :=
  match c.preference with
  | some p => p.content
  | none => own

end Confirmation

structure OutcomeItem where
  index : ℕ
  key : Text
  result : ItemResult
  content : Option Text
  deriving DecidableEq

structure ObservedEntry extends JournalEntry where
  items : List OutcomeItem
  distinct : (items.map OutcomeItem.index).Nodup

def ObservedEntry.key (entry : ObservedEntry) : Uuid := entry.id

inductive Resolution
  | confirmed
  | rejected
  deriving DecidableEq, Repr

/-- A row of `memory_preference_resolutions`. -/
structure ResolutionRow where
  entryId : Uuid
  itemIndex : ℕ
  owner : Uuid
  resolution : Resolution
  memoryId : Option Uuid
  resolvedAt : Instant
  deriving DecidableEq

/-- The tables; of a repository what is read is its project and its stored ACL. -/
structure PreferenceDb where
  memory : MemoryDb
  keys : Keyed KeyRow.name
  entries : Keyed ObservedEntry.key
  resolutions : List ResolutionRow
  repositories : Uuid → Option (Uuid × Option (Finset RepoPermission))

inductive PreferenceError
  | invalidInput (field : Field) (problem : InputProblem)
  | scopeNotAllowed
  | versioning (error : VersioningError)
  | candidateChanged
  | highRisk
  deriving DecidableEq, Repr

def versioned {α : Type} (call : Except VersioningError α) : Except PreferenceError α := call.mapError .versioning

/-! ### The candidates -/

def heldResults : List ItemResult := [.heldConfirmed, .heldHighRisk, .heldWidened]

/-- `_WRITTEN`. -/
def writtenResults : List ItemResult := [.created, .updated, .duplicate]

def answerable : List MemoryStatus := [.active, .deprecated]

def unconfirmed : List ConfirmationState := [.observed, .inferred]

structure Held where
  key : Text
  entryId : Uuid
  itemIndex : ℕ
  result : ItemResult
  content : Text
  messageId : Uuid
  order : OrderKey
  deriving DecidableEq

namespace PreferenceDb

variable (db : PreferenceDb)

def observed (owner : Uuid) : List (ObservedEntry × OutcomeItem) :=
  (db.entries.rows.filter fun entry => decide (entry.context.owner = owner ∧ entry.state = .consolidated)).flatMap
    fun entry => entry.items.map fun item => (entry, item)

/-- `_LIVE_HELD`: the unanswered held items of a key that no later written observation of it made outdated, the newest
first. -/
def liveRows (owner : Uuid) (key : Text) : List Held :=
  let rows := (db.observed owner).filterMap fun (entry, item) =>
    match item.content with
    | none => none
    | some content =>
      if item.key = key ∧ item.result ∈ heldResults ∧
          (¬ ∃ row ∈ db.resolutions, row.entryId = entry.id ∧ row.itemIndex = item.index) ∧
          ¬ ∃ later ∈ db.observed owner, later.2.key = item.key ∧ later.2.result ∈ writtenResults ∧
            isNewer later.1.context.order entry.context.order = true then
        some ⟨item.key, entry.id, item.index, item.result, content, entry.context.messageId, entry.context.order⟩
      else none
  rows.insertionSort fun a b => b.order.recordedAt ≤ a.order.recordedAt

/-- `_live_held` of one key: the latest item by the order of the journal. -/
def liveHeld (owner : Uuid) (key : Text) : Option Held :=
  (db.liveRows owner key).foldl (fun latest held =>
    match latest with
    | none => some held
    | some best => if isNewer held.order best.order then some held else some best) none

/-- `_held_ref`: the held item a reference names, if it is still its key's live question. -/
def heldRef (owner entryId : Uuid) (itemIndex : ℕ) : Except PreferenceError Held := do
  let named ← orThrow ((db.observed owner).find? fun row => decide (row.1.id = entryId ∧ row.2.index = itemIndex)) .candidateChanged
  let live ← orThrow (db.liveHeld owner named.2.key) .candidateChanged
  if (live.entryId, live.itemIndex) ≠ (entryId, itemIndex) then throw .candidateChanged else return live

/-- `_own_candidate`: the person's unconfirmed private memory, and the key it is registered for. -/
def ownCandidate (call : Call) (memoryId : Uuid) (expected : ℕ) : Except PreferenceError (Text × Version) := do
  match db.keys.rows.filter fun row => decide (row.owner = call.actor.userId ∧ row.memoryId = memoryId) with
  | [registered] =>
    let (current, _) ← versioned (db.memory.currentFor call memoryId true)
    versioned (checkExpected current expected)
    if current.audience = .user call.actor.userId ∧ current.status = .active ∧ current.confirmation ∈ unconfirmed then
      return (registered.key, current)
    else throw .candidateChanged
  | _ => throw .candidateChanged

/-! ### The gate and the audience -/

/-- `_authorize_own`, to use one's memory. -/
def authorizeOwn (call : Call) : Except PreferenceError Unit :=
  versioned ((MemoryDb.authorizeNarrowing call).map fun _ => ())

def repositoryAcl (projectId : Uuid) (repoId : Option Uuid) : Except PreferenceError RepoAcl := do
  let repoId ← orThrow repoId (.invalidInput .repoId .required)
  let row ← orThrow (db.repositories repoId) (.versioning (.permission .notProjectMember))
  if row.1 ≠ projectId then throw (.versioning (.permission .notProjectMember)) else return ⟨repoId, projectId, row.2⟩

/-- `_authorize_target`: where the person may write. -/
def authorizeTarget (call : Call) (target : TargetScope) (projectId repoId : Option Uuid) : Except PreferenceError Audience := do
  if target = .user then
    authorizeOwn call
    return .user call.actor.userId
  else
    let projectId ← orThrow projectId (.invalidInput .projectId .required)
    let acl ← if target = .repo then (db.repositoryAcl projectId repoId).map some else pure none
    let (principal, state) ← orThrow (db.memory.projectMember call.actor projectId) (.versioning (.permission .notProjectMember))
    let resource := match acl with
      | none => Resource.project projectId state
      | some acl => Resource.repository projectId state acl
    let decision := authorize call.sink principal .projectMemoryUse resource
    if decision.allowed = false then throw (.versioning (.permission decision.reason))
    else return match acl with
      | none => .project projectId
      | some acl => .repo acl.repoId

def ownOrTarget (call : Call) (c : Confirmation) : Except PreferenceError Audience :=
  if c.target = .user then return .user call.actor.userId
  else db.authorizeTarget call c.target c.targetProjectId c.targetRepoId

end PreferenceDb

def checkRisk (fold : Folding) (c : Confirmation) (held : Bool) (texts : List Text) : Except PreferenceError RiskLevel :=
  let risky := held || isHighRisk fold texts || c.preference.any fun p => decide (p.riskLevel fold texts = .high)
  if risky = true ∧ c.acknowledgeHighRisk = false then throw .highRisk else return if risky then .high else .low

/-- `_freshness`: a user preference is permanent, unless it expires. -/
def freshnessOf (c : Confirmation) (scope : MemoryScope) (now : Instant) : Except VersioningError Freshness :=
  let spec : FreshnessSpec :=
    match c.preference.bind StructuredPreference.expiresAt with
    | some (.aware time) => { policy := .expiring, expiresAt := some time }
    | _ => {}
  (checkManualFreshness spec scope now).map fun _ => freshnessColumns spec now

/-! ### Writing -/

def memoryType : Text := lit "preference"

def confirmReason : Text := lit "preference confirmation"

/-- `_next_version`. -/
def writeNext (db : MemoryDb) (call : Call) (current : Version) (audience : Audience) (content : Text) (freshness : Freshness)
    (reason : Option Text) : Except VersioningError (Version × MemoryDb) := do
  let new := { MemoryDb.nextVersion call current with
    audience := audience, memoryType := memoryType, content := content, freshness := freshness
    changeReason := some (reason.getD confirmReason) }
  let db ← db.setStatus current .superseded
  let db ← db.insertVersion new
  let db ← db.relate call new.id current.id .supersedes (some confirmReason)
  if new.confirmation = .confirmed ∧ current.confirmation ∈ unconfirmed then
    let db ← db.relate call new.id current.id .confirmedFrom (some confirmReason)
    return (new, db)
  else return (new, db)

def addSource (db : MemoryDb) (call : Call) (versionId : Uuid) (held : Held) : MemoryDb :=
  { db with sources := db.sources ++
    [⟨versionId, .conversation, some held.order.conversationId, some held.messageId, none, none, call.now⟩,
     ⟨versionId, .userConfirmation, none, none, some (MemoryDb.confirmationSourceRef call.actor.userId), none, call.now⟩] }

namespace PreferenceDb

variable (db : PreferenceDb)

def confirmMemory (fold : Folding) (call : Call) (memoryId : Uuid) (expected : ℕ) (c : Confirmation) :
    Except PreferenceError (Version × PreferenceDb) := do
  let (key, current) ← db.ownCandidate call memoryId expected
  let _ ← checkRisk fold c false [key, current.content]
  let audience ← db.ownOrTarget call c
  let freshness ← versioned (freshnessOf c audience.scope call.now)
  let (new, memory) ← versioned (writeNext db.memory call current audience (c.storedContent current.content) freshness c.reason)
  return (new, { db with memory := memory.carrySources call current.id new.id })

/-- The audience of a held candidate whose key has a memory: a memory that was widened stays there, or is narrowed. -/
def heldAudience (call : Call) (c : Confirmation) (current : Version) : Except PreferenceError Audience :=
  if current.audience = .user call.actor.userId then db.ownOrTarget call c
  else if c.target = .project ∧ c.targetProjectId.any fun id => decide (current.audience = .project id) then
    return current.audience
  else if c.target = .user then db.authorizeTarget call .user none none
  else throw .scopeNotAllowed

/-- `_confirm_held_on_memory`: the next version of the key's memory. The guard of the key moves to the held observation
if that is newer. -/
def confirmHeldOnMemory (call : Call) (held : Held) (registered : KeyRow) (c : Confirmation) (content : Text) :
    Except PreferenceError (Version × PreferenceDb) := do
  let (current, _) ← versioned (db.memory.currentFor call registered.memoryId true)
  if current.status ∉ answerable then throw (.versioning (.state .notActive))
  else do
    let audience ← db.heldAudience call c current
    let freshness ← versioned (freshnessOf c audience.scope call.now)
    let (new, memory) ← versioned (writeNext db.memory call current audience content freshness c.reason)
    let keys := if isNewer held.order registered.applied then advance db.keys call.actor.userId held.key held.order else db.keys
    return (new, { db with memory := addSource memory call new.id held, keys := keys })

def firstHeldVersion (call : Call) (held : Held) (c : Confirmation) (content : Text) (audience : Audience)
    (freshness : Freshness) : Version :=
  { id := call.newVersion, memoryId := call.newMemory, number := 1, audience := audience, memoryType := memoryType
    title := held.key.take 200, content := content, importance := 50, pinned := false, status := .active
    confirmation := .confirmed, freshness := freshness, actorType := .user, actorUserId := some call.actor.userId
    changeReason := some (c.reason.getD confirmReason), createdAt := call.now }

/-- `_confirm_held_as_new`: a new memory, registered for the key. -/
def confirmHeldAsNew (call : Call) (held : Held) (c : Confirmation) (content : Text)
    (unregistered : db.keys.get (call.actor.userId, held.key) = none) : Except PreferenceError (Version × PreferenceDb) := do
  let audience ← db.authorizeTarget call c.target c.targetProjectId c.targetRepoId
  if call.newMemory ∈ db.memory.memories then throw (.versioning .database)
  else do
    let freshness ← versioned (freshnessOf c audience.scope call.now)
    let new := firstHeldVersion call held c content audience freshness
    let memory ← versioned ({ db.memory with memories := db.memory.memories ++ [call.newMemory] }.insertVersion new)
    return (new, { db with
      memory := addSource memory call new.id held
      keys := db.keys.insert ⟨call.actor.userId, held.key, call.newMemory, held.order⟩ unregistered })

/-- `_RESOLVE`: every unanswered held item of a key is answered. -/
def resolve (call : Call) (key : Text) (resolution : Resolution) (memoryId : Option Uuid) : PreferenceDb :=
  let items := (db.observed call.actor.userId).filter fun (entry, item) =>
    decide (item.key = key ∧ item.result ∈ heldResults ∧
      ¬ ∃ row ∈ db.resolutions, row.entryId = entry.id ∧ row.itemIndex = item.index)
  { db with resolutions := db.resolutions ++ items.map fun (entry, item) =>
      ⟨entry.id, item.index, call.actor.userId, resolution, memoryId, call.now⟩ }

def writeHeld (call : Call) (held : Held) (c : Confirmation) (content : Text) : Except PreferenceError (Version × PreferenceDb) :=
  match registered : db.keys.get (call.actor.userId, held.key) with
  | some row => db.confirmHeldOnMemory call held row c content
  | none => db.confirmHeldAsNew call held c content registered

def confirmHeld (fold : Folding) (call : Call) (entryId : Uuid) (itemIndex : ℕ) (c : Confirmation) :
    Except PreferenceError (Version × PreferenceDb) := do
  let held ← db.heldRef call.actor.userId entryId itemIndex
  let _ ← checkRisk fold c (decide (held.result = .heldHighRisk)) [held.key, held.content]
  let (new, db) ← db.writeHeld call held c (c.storedContent held.content)
  return (new, db.resolve call held.key .confirmed (some new.memoryId))

def confirm (fold : Folding) (call : Call) (ref : CandidateRef) (c : Confirmation) : Except PreferenceError (Version × PreferenceDb) := do
  versioned (checkActor call.actor)
  match ref with
  | .memory memoryId expected => db.confirmMemory fold call memoryId expected c
  | .held entryId itemIndex => db.confirmHeld fold call entryId itemIndex c

/-- A refused confirmation is rolled back. -/
def afterConfirm (fold : Folding) (call : Call) (ref : CandidateRef) (c : Confirmation) : PreferenceDb :=
  match db.confirm fold call ref c with
  | .ok (_, db) => db
  | .error _ => db

end PreferenceDb

/-! ### What makes a text high risk -/

section Risk

/-- What `NFKC` and `str.lower` keep: a line feed and a blank take part in nothing, and the labels are in form. -/
structure Breaks (fold : Folding) : Prop where
  empty : fold.nfkc [] = [] ∧ fold.lower [] = []
  nfkc : ∀ c ∈ [10, 32], ∀ first rest, fold.nfkc (first ++ c :: rest) = fold.nfkc first ++ c :: fold.nfkc rest
  lower : ∀ c ∈ [10, 32], ∀ first rest, fold.lower (first ++ c :: rest) = fold.lower first ++ c :: fold.lower rest
  labels : ∀ label ∈ [applyToLabel, exceptionLabel], fold.nfkc label = label ∧ fold.lower label = label

variable {fold : Folding} {first rest t : Text} {c : ℕ}

theorem isHighRisk_iff {texts : List Text} : isHighRisk fold texts = true ↔ ∃ t ∈ texts, isHighRisk fold [t] = true := by
  simp [isHighRisk]

theorem breaks_apart (isBreak : c ∈ [10, 32]) : isWordChar c = false ∧ Text.isUpper c = false ∧ ∀ phrase ∈ highRiskPhrases, c ∉ phrase := by
  revert isBreak
  revert c
  decide

theorem splitCamel_append (isBreak : c ∈ [10, 32]) :
    splitCamel (first ++ c :: rest) = splitCamel first ++ c :: splitCamel rest := by
  obtain ⟨notWord, notUpper, -⟩ := breaks_apart isBreak
  have alone : splitCamel (c :: rest) = c :: splitCamel rest := by
    cases rest with
    | nil => rfl
    | cons d rest => rw [splitCamel, notWord, Bool.false_and, if_neg Bool.false_ne_true]
  induction first with
  | nil => rw [nil_append, alone]; rfl
  | cons a first ih =>
    cases first with
    | nil => rw [singleton_append, splitCamel, notUpper, Bool.and_false, if_neg Bool.false_ne_true, alone]; rfl
    | cons b first =>
      rw [cons_append, cons_append, splitCamel, ← cons_append, ih, splitCamel]
      split_ifs <;> rfl

theorem wordsOf_append (isBreak : c ∈ [10, 32]) : wordsOf (first ++ c :: rest) = wordsOf first ++ wordsOf rest := by
  obtain ⟨notWord, -, -⟩ := breaks_apart isBreak
  unfold wordsOf
  rw [splitOnP_append_cons _ _ (by rw [notWord]; rfl), filter_append]

def Touches (folded : Text) : Prop :=
  (∃ w ∈ wordsOf folded, w ∈ highRiskWords) ∨ ∃ phrase ∈ highRiskPhrases, phrase <:+: folded

instance (folded : Text) : Decidable (Touches folded) := inferInstanceAs (Decidable (_ ∨ _))

theorem touches_append (isBreak : c ∈ [10, 32]) (touches : Touches (first ++ c :: rest)) : Touches first ∨ Touches rest := by
  obtain ⟨-, -, apart⟩ := breaks_apart isBreak
  rcases touches with ⟨w, isWord, isRisky⟩ | ⟨phrase, isPhrase, isPart⟩
  · rw [wordsOf_append isBreak, mem_append] at isWord
    exact isWord.imp (fun isIn => .inl ⟨w, isIn, isRisky⟩) fun isIn => .inl ⟨w, isIn, isRisky⟩
  · exact (Text.infix_of_infix_cons (apart phrase isPhrase) isPart).imp (fun isIn => .inr ⟨phrase, isPhrase, isIn⟩)
      fun isIn => .inr ⟨phrase, isPhrase, isIn⟩

theorem not_touches_nil : ¬ Touches [] := by decide

theorem isHighRisk_singleton (breaks : Breaks fold) :
    isHighRisk fold [t] = true ↔ Touches (fold.lower (splitCamel (fold.nfkc t))) := by
  have nonempty : Touches (fold.lower (splitCamel (fold.nfkc t))) → t ≠ [] := by
    rintro touches rfl
    rw [breaks.empty.1, show splitCamel [] = [] from rfl, breaks.empty.2] at touches
    exact not_touches_nil touches
  unfold isHighRisk
  simp only [any_cons, any_nil, Bool.or_false, Bool.and_eq_true, decide_eq_true_eq, Bool.or_eq_true, any_eq_true]
  exact ⟨fun both => both.2, fun touches => ⟨nonempty touches, touches⟩⟩

theorem isHighRisk_append (breaks : Breaks fold) (isBreak : c ∈ [10, 32]) (risky : isHighRisk fold [first ++ c :: rest] = true) :
    isHighRisk fold [first] = true ∨ isHighRisk fold [rest] = true := by
  rw [isHighRisk_singleton breaks, breaks.nfkc c isBreak, splitCamel_append isBreak, breaks.lower c isBreak] at risky
  exact (touches_append isBreak risky).imp (isHighRisk_singleton breaks).mpr (isHighRisk_singleton breaks).mpr

theorem isHighRisk_join (breaks : Breaks fold) {lines : List Text} (risky : isHighRisk fold [Text.join 10 lines] = true) :
    ∃ line ∈ lines, isHighRisk fold [line] = true := by
  induction lines with
  | nil => simp [isHighRisk, Text.join] at risky
  | cons line lines ih =>
    by_cases last : lines = []
    · subst last
      rw [Text.join_singleton] at risky
      exact ⟨line, .head _, risky⟩
    · rw [Text.join_cons 10 line last] at risky
      rcases isHighRisk_append breaks (by decide) risky with here | later
      · exact ⟨line, .head _, here⟩
      · obtain ⟨other, isIn, isRisky⟩ := ih later
        exact ⟨other, .tail _ isIn, isRisky⟩

theorem labels_harmless : ∀ label ∈ [applyToLabel, exceptionLabel], splitCamel label = label ∧ ¬ Touches label := by
  decide

theorem isHighRisk_labelled (breaks : Breaks fold) {label : Text} (isLabel : label ∈ [applyToLabel, exceptionLabel])
    (risky : isHighRisk fold [label ++ 32 :: t] = true) : isHighRisk fold [t] = true := by
  refine (isHighRisk_append breaks (by decide) risky).resolve_left fun isRisky => ?_
  obtain ⟨sameNfkc, sameLower⟩ := breaks.labels label isLabel
  obtain ⟨sameCamel, harmless⟩ := labels_harmless label isLabel
  rw [isHighRisk_singleton breaks, sameNfkc, sameCamel, sameLower] at isRisky
  exact harmless isRisky

theorem isHighRisk_content (breaks : Breaks fold) {p : StructuredPreference} {others : List Text}
    (risky : isHighRisk fold [p.content] = true) : p.riskLevel fold others = .high := by
  unfold StructuredPreference.riskLevel
  rw [if_pos]
  rw [or_iff_not_imp_left]
  intro optional
  obtain ⟨line, isLine, isRisky⟩ := isHighRisk_join breaks risky
  unfold StructuredPreference.lines at isLine
  rw [if_neg optional, append_nil, mem_cons, mem_append] at isLine
  refine isHighRisk_iff.mpr ?_
  rcases isLine with rfl | isGroup | isException
  · exact ⟨_, mem_append_left _ (mem_append_left _ (.head _)), isRisky⟩
  · obtain ⟨group, isIn, rfl⟩ := mem_map.mp isGroup
    exact ⟨group, mem_append_left _ (mem_append_left _ (.tail _ isIn)),
      isHighRisk_labelled breaks (.head _) isRisky⟩
  · obtain ⟨exception, isIn, rfl⟩ := mem_map.mp isException
    exact ⟨exception, mem_append_left _ (mem_append_right _ isIn),
      isHighRisk_labelled breaks (.tail _ (.head _)) isRisky⟩

end Risk

/-! ### What a confirmation writes -/

section Writes

variable {fold : Folding} {db db' : PreferenceDb} {memory memory' : MemoryDb} {call : Call} {c : Confirmation} {content : Text}

theorem versioned_eq_ok {α : Type} {x : Except VersioningError α} {a : α} : versioned x = .ok a ↔ x = .ok a := by
  unfold versioned
  cases x with
  | error e => exact iff_of_false nofun nofun
  | ok b => exact ⟨fun same => congrArg _ (Except.ok.inj same), fun same => congrArg _ (Except.ok.inj same)⟩

def Adds (memory memory' : MemoryDb) (content : Text) : Prop :=
  ∀ version ∈ memory'.versions, (∃ old ∈ memory.versions, old.id = version.id) ∨ version.content = content

theorem Adds.of_versions_eq {later : MemoryDb} (same : later.versions = memory'.versions) (adds : Adds memory memory' content) :
    Adds memory later content := by
  intro version isRow
  exact adds version (same ▸ isRow)

variable {new current : Version} {reason : Option Text} {owner memoryId : Uuid} {held : Held}

theorem adds_insertVersion {between : MemoryDb}
    (kept : ∀ version ∈ between.versions, ∃ old ∈ memory.versions, old.id = version.id)
    (done : between.insertVersion new = .ok memory') : Adds memory memory' new.content := by
  simp only [MemoryDb.insertVersion, check_eq_ok, pure_eq_ok] at done
  obtain ⟨-, -, -, -, -, rfl⟩ := done
  intro version isRow
  rcases mem_append.mp isRow with isOld | isNew
  · exact .inl (kept version isOld)
  · exact .inr (mem_singleton.mp isNew ▸ rfl)

theorem relate_versions {newer older : Uuid} {kind : RelationType}
    (done : memory.relate call newer older kind reason = .ok memory') : memory'.versions = memory.versions := by
  simp only [MemoryDb.relate, MemoryDb.insertRelation, check_eq_ok, pure_eq_ok] at done
  obtain ⟨-, -, -, -, rfl⟩ := done
  rfl

theorem setStatus_ids {status : MemoryStatus} (done : memory.setStatus current status = .ok memory') :
    ∀ version ∈ memory'.versions, ∃ old ∈ memory.versions, old.id = version.id := by
  rw [MemoryDb.setStatus_eq_ok done]
  intro version isRow
  obtain ⟨old, isOld, rfl⟩ := mem_map.mp isRow
  refine ⟨old, isOld, ?_⟩
  split_ifs <;> rfl

theorem adds_writeNext {audience : Audience} {freshness : Freshness}
    (written : writeNext memory call current audience content freshness reason = .ok (new, memory')) :
    Adds memory memory' content := by
  simp only [writeNext, bind_eq_ok] at written
  obtain ⟨retired, retire, inserted, insert, related, relate, rest⟩ := written
  have adds : Adds memory inserted content := adds_insertVersion (setStatus_ids retire) insert
  have addsRelated := adds.of_versions_eq (relate_versions relate)
  split_ifs at rest
  · obtain ⟨confirmed, confirm, same⟩ := bind_eq_ok.mp rest
    cases pure_eq_ok.mp same
    exact addsRelated.of_versions_eq (relate_versions confirm)
  · cases pure_eq_ok.mp rest
    exact addsRelated

theorem carrySources_versions (origin new : Uuid) : (memory.carrySources call origin new).versions = memory.versions := by
  unfold MemoryDb.carrySources
  dsimp only
  split_ifs <;> rfl

theorem acknowledged_of_checkRisk (breaks : Breaks fold) {held : Bool} {key own : Text} {risk : RiskLevel}
    (passed : checkRisk fold c held [key, own] = .ok risk)
    (risky : held = true ∨ isHighRisk fold [key] = true ∨ isHighRisk fold [own] = true ∨
      isHighRisk fold [c.storedContent own] = true) : c.acknowledgeHighRisk = true := by
  have gate : (held || isHighRisk fold [key, own] || c.preference.any fun p => decide (p.riskLevel fold [key, own] = .high)) = true := by
    rw [Bool.or_eq_true, Bool.or_eq_true, or_assoc]
    rcases risky with isHeld | isKey | isOwn | isStored
    · exact .inl isHeld
    · exact .inr (.inl (isHighRisk_iff.mpr ⟨key, .head _, isKey⟩))
    · exact .inr (.inl (isHighRisk_iff.mpr ⟨own, .tail _ (.head _), isOwn⟩))
    · unfold Confirmation.storedContent at isStored
      cases isAnswer : c.preference with
      | none =>
        rw [isAnswer] at isStored
        exact .inr (.inl (isHighRisk_iff.mpr ⟨own, .tail _ (.head _), isStored⟩))
      | some p =>
        rw [isAnswer] at isStored
        exact .inr (.inr (decide_eq_true (isHighRisk_content breaks isStored)))
  unfold checkRisk at passed
  dsimp only at passed
  rw [throw_or_eq_ok, gate] at passed
  exact Bool.eq_true_of_not_eq_false fun unacknowledged => passed.1 ⟨rfl, unacknowledged⟩


/-! ### What a reference names -/

inductive CandidateText (db : PreferenceDb) (owner : Uuid) : CandidateRef → Text → Prop
  | memoryKey (row : KeyRow) (isRow : row ∈ db.keys.rows) (isTheirs : row.owner = owner) (expected : ℕ) :
    CandidateText db owner (.memory row.memoryId expected) row.key
  | memoryContent (version : Version) (isRow : version ∈ db.memory.versions) :
    CandidateText db owner (.memory version.memoryId version.number) version.content
  | heldKey (entry : ObservedEntry) (isEntry : entry ∈ db.entries.rows) (item : OutcomeItem) (isItem : item ∈ entry.items) :
    CandidateText db owner (.held entry.id item.index) item.key
  | heldContent (entry : ObservedEntry) (isEntry : entry ∈ db.entries.rows) (item : OutcomeItem) (isItem : item ∈ entry.items)
    (content : Text) (hasContent : item.content = some content) : CandidateText db owner (.held entry.id item.index) content

def NamesHighRisk (db : PreferenceDb) (ref : CandidateRef) : Prop :=
  ∃ entry ∈ db.entries.rows, ∃ item ∈ entry.items, ref = .held entry.id item.index ∧ item.result = .heldHighRisk

def NumberedOnce (memory : MemoryDb) : Prop :=
  ∀ a ∈ memory.versions, ∀ b ∈ memory.versions, a.memoryId = b.memoryId → a.number = b.number → a = b

theorem numberedOnce_of_sound (sound : memory.Sound) : NumberedOnce memory := by
  intro a isRow b isOther sameMemory sameNumber
  exact sound.eq_of_number isRow isOther sameMemory sameNumber

theorem mem_observed {row : ObservedEntry × OutcomeItem} (isRow : row ∈ db.observed owner) :
    row.1 ∈ db.entries.rows ∧ row.2 ∈ row.1.items := by
  obtain ⟨entry, isEntry, isIn⟩ := mem_flatMap.mp isRow
  obtain ⟨item, isItem, rfl⟩ := mem_map.mp isIn
  exact ⟨(mem_filter.mp isEntry).1, isItem⟩

theorem mem_of_foldl_latest {rows : List Held} {start : Option Held} {latest : Held}
    (isLatest : rows.foldl (fun latest held =>
      match latest with
      | none => some held
      | some best => if isNewer held.order best.order then some held else some best) start = some latest) :
    start = some latest ∨ latest ∈ rows := by
  induction rows generalizing start with
  | nil => exact .inl isLatest
  | cons held rows ih =>
    rcases ih isLatest with isNow | isLater
    · cases start with
      | none =>
        cases isNow
        exact .inr (.head _)
      | some best =>
        dsimp only at isNow
        split_ifs at isNow
        · cases isNow
          exact .inr (.head _)
        · exact .inl isNow
    · exact .inr (.tail _ isLater)

theorem mem_liveHeld {key : Text} (isLive : db.liveHeld owner key = some held) :
    ∃ entry ∈ db.entries.rows, ∃ item ∈ entry.items, held.entryId = entry.id ∧ held.itemIndex = item.index ∧
      held.key = item.key ∧ held.result = item.result ∧ item.content = some held.content := by
  have isRow := (mem_of_foldl_latest isLive).resolve_left nofun
  unfold PreferenceDb.liveRows at isRow
  obtain ⟨⟨entry, item⟩, isObserved, isHeld⟩ := mem_filterMap.mp (mem_insertionSort _ |>.mp isRow)
  obtain ⟨isEntry, isItem⟩ := mem_observed isObserved
  refine ⟨entry, isEntry, item, isItem, ?_⟩
  dsimp only at isHeld
  cases hasContent : item.content with
  | none => rw [hasContent] at isHeld; cases isHeld
  | some content =>
    rw [hasContent] at isHeld
    dsimp only at isHeld
    split_ifs at isHeld
    cases isHeld
    exact ⟨rfl, rfl, rfl, rfl, rfl⟩

theorem heldRef_eq_ok {entryId : Uuid} {itemIndex : ℕ} (found : db.heldRef owner entryId itemIndex = .ok held) :
    (∀ t, CandidateText db owner (.held entryId itemIndex) t → t = held.key ∨ t = held.content) ∧
      (NamesHighRisk db (.held entryId itemIndex) → held.result = .heldHighRisk) := by
  simp only [PreferenceDb.heldRef, bind_eq_ok, orThrow_eq_ok, throw_or_eq_ok, pure_eq_ok] at found
  obtain ⟨named, -, live, isLive, isIt, rfl⟩ := found
  rw [not_not, Prod.mk.injEq] at isIt
  obtain ⟨rfl, rfl⟩ := isIt
  obtain ⟨entry, isEntry, item, isItem, sameId, sameIndex, sameKey, sameResult, sameContent⟩ := mem_liveHeld isLive
  have only : ∀ other ∈ db.entries.rows, ∀ otherItem ∈ other.items, CandidateRef.held live.entryId live.itemIndex =
      .held other.id otherItem.index → otherItem = item := by
    intro other isOther otherItem isOtherItem named
    rw [CandidateRef.held.injEq] at named
    have sameEntry : other = entry := db.entries.eq_of_key_eq isOther isEntry (named.1.symm.trans sameId)
    subst sameEntry
    exact inj_on_of_nodup_map other.distinct isOtherItem isItem (named.2.symm.trans sameIndex)
  constructor
  · intro t isText
    generalize named : CandidateRef.held live.entryId live.itemIndex = ref at isText
    cases isText with
    | memoryKey | memoryContent => cases named
    | heldKey other isOther otherItem isOtherItem =>
      rw [only other isOther otherItem isOtherItem named]
      exact .inl sameKey.symm
    | heldContent other isOther otherItem isOtherItem content hasContent =>
      rw [only other isOther otherItem isOtherItem named, sameContent] at hasContent
      exact .inr (Option.some.inj hasContent).symm
  · rintro ⟨other, isOther, otherItem, isOtherItem, named, isRisky⟩
    rw [sameResult, ← only other isOther otherItem isOtherItem named]
    exact isRisky

theorem mem_of_currentFor {write : Bool} {version : Version} {grant : Grant}
    (isCurrent : memory.currentFor call memoryId write = .ok (version, grant)) :
    version ∈ memory.versions ∧ version.memoryId = memoryId := by
  simp only [MemoryDb.currentFor, MemoryDb.load, bind_eq_ok, orThrow_eq_ok, pure_eq_ok] at isCurrent
  obtain ⟨row, -, granted, -, loaded, found, same⟩ := isCurrent
  cases same
  have named := find?_some found
  rw [Bool.and_eq_true, decide_eq_true_eq] at named
  exact ⟨mem_of_find?_eq_some found, named.1.1⟩

theorem ownCandidate_eq_ok (once : NumberedOnce db.memory) {expected : ℕ} {key : Text}
    (found : db.ownCandidate call memoryId expected = .ok (key, current)) {t : Text}
    (isText : CandidateText db call.actor.userId (.memory memoryId expected) t) : t = key ∨ t = current.content := by
  unfold PreferenceDb.ownCandidate at found
  split at found
  next registered isOnly =>
    obtain ⟨⟨row, grant⟩, isCurrent, rest⟩ := bind_eq_ok.mp found
    obtain ⟨checked, isExpected, kept⟩ := bind_eq_ok.mp rest
    split_ifs at kept
    cases pure_eq_ok.mp kept
    have number := MemoryDb.checkExpected_eq_ok (versioned_eq_ok.mp isExpected)
    obtain ⟨isRow, isIts⟩ := mem_of_currentFor (versioned_eq_ok.mp isCurrent)
    generalize named : CandidateRef.memory memoryId expected = ref at isText
    cases isText with
    | memoryKey other isOther isTheirs _ =>
      cases named
      have isIn : other ∈ db.keys.rows.filter fun row => decide (row.owner = call.actor.userId ∧ row.memoryId = other.memoryId) :=
        mem_filter.mpr ⟨isOther, decide_eq_true ⟨isTheirs, rfl⟩⟩
      rw [isOnly, mem_singleton] at isIn
      exact .inl (congrArg KeyRow.key isIn)
    | memoryContent other isOther =>
      cases named
      exact .inr (congrArg Version.content (once other isOther current isRow isIts.symm number.symm))
    | heldKey | heldContent => cases named
  next => cases found

/-- What an accepted confirmation went through: the gate on the candidate's own texts, and a text that is one of them or
the answer's. -/
structure Gated (fold : Folding) (db db' : PreferenceDb) (owner : Uuid) (ref : CandidateRef) (c : Confirmation) (new : Version)
    (held : Bool) (key own : Text) : Prop where
  gate : ∃ risk, checkRisk fold c held [key, own] = .ok risk
  texts : ∀ t, CandidateText db owner ref t → t = key ∨ t = own
  named : NamesHighRisk db ref → held = true
  stored : new.content = c.storedContent own
  adds : Adds db.memory db'.memory (c.storedContent own)

theorem content_writeNext {audience : Audience} {freshness : Freshness}
    (written : writeNext memory call current audience content freshness reason = .ok (new, memory')) : new.content = content := by
  simp only [writeNext, bind_eq_ok] at written
  obtain ⟨retired, -, inserted, -, related, -, rest⟩ := written
  split_ifs at rest
  · obtain ⟨confirmed, -, same⟩ := bind_eq_ok.mp rest
    cases pure_eq_ok.mp same
    rfl
  · cases pure_eq_ok.mp rest
    rfl

theorem gated_of_confirmMemory (once : NumberedOnce db.memory) {expected : ℕ}
    (done : db.confirmMemory fold call memoryId expected c = .ok (new, db')) :
    ∃ key own, Gated fold db db' call.actor.userId (.memory memoryId expected) c new false key own := by
  unfold PreferenceDb.confirmMemory at done
  obtain ⟨⟨key, current⟩, found, afterFound⟩ := bind_eq_ok.mp done
  obtain ⟨risk, passed, afterGate⟩ := bind_eq_ok.mp afterFound
  obtain ⟨audience, -, afterAudience⟩ := bind_eq_ok.mp afterGate
  obtain ⟨freshness, -, afterFreshness⟩ := bind_eq_ok.mp afterAudience
  obtain ⟨⟨written, memory⟩, isWritten, same⟩ := bind_eq_ok.mp afterFreshness
  cases pure_eq_ok.mp same
  rw [versioned_eq_ok] at isWritten
  exact ⟨key, current.content, ⟨risk, passed⟩, fun t isText => ownCandidate_eq_ok once found isText,
    (by rintro ⟨entry, -, item, -, named, -⟩; cases named), content_writeNext isWritten,
    (adds_writeNext isWritten).of_versions_eq (carrySources_versions _ _)⟩

theorem adds_confirmHeldOnMemory {registered : KeyRow}
    (done : db.confirmHeldOnMemory call held registered c content = .ok (new, db')) :
    new.content = content ∧ Adds db.memory db'.memory content := by
  unfold PreferenceDb.confirmHeldOnMemory at done
  obtain ⟨⟨current, grant⟩, -, afterCurrent⟩ := bind_eq_ok.mp done
  rw [throw_or_eq_ok] at afterCurrent
  obtain ⟨audience, -, afterAudience⟩ := bind_eq_ok.mp afterCurrent.2
  obtain ⟨freshness, -, afterFreshness⟩ := bind_eq_ok.mp afterAudience
  obtain ⟨⟨written, memory⟩, isWritten, same⟩ := bind_eq_ok.mp afterFreshness
  cases pure_eq_ok.mp same
  rw [versioned_eq_ok] at isWritten
  exact ⟨content_writeNext isWritten, (adds_writeNext isWritten).of_versions_eq rfl⟩

theorem adds_confirmHeldAsNew {unregistered : db.keys.get (call.actor.userId, held.key) = none}
    (done : db.confirmHeldAsNew call held c content unregistered = .ok (new, db')) :
    new.content = content ∧ Adds db.memory db'.memory content := by
  unfold PreferenceDb.confirmHeldAsNew at done
  obtain ⟨audience, -, afterAudience⟩ := bind_eq_ok.mp done
  rw [throw_or_eq_ok] at afterAudience
  obtain ⟨freshness, -, afterFreshness⟩ := bind_eq_ok.mp afterAudience.2
  obtain ⟨memory, isWritten, same⟩ := bind_eq_ok.mp afterFreshness
  cases pure_eq_ok.mp same
  exact ⟨rfl, adds_insertVersion (fun version isRow => ⟨version, isRow, rfl⟩) (versioned_eq_ok.mp isWritten)⟩

theorem gated_of_confirmHeld {entryId : Uuid} {itemIndex : ℕ}
    (done : db.confirmHeld fold call entryId itemIndex c = .ok (new, db')) :
    ∃ held key own, Gated fold db db' call.actor.userId (.held entryId itemIndex) c new held key own := by
  unfold PreferenceDb.confirmHeld at done
  obtain ⟨held, found, afterFound⟩ := bind_eq_ok.mp done
  obtain ⟨risk, passed, afterGate⟩ := bind_eq_ok.mp afterFound
  obtain ⟨⟨written, between⟩, isWritten, same⟩ := bind_eq_ok.mp afterGate
  cases pure_eq_ok.mp same
  obtain ⟨texts, named⟩ := heldRef_eq_ok found
  have adds : new.content = c.storedContent held.content ∧ Adds db.memory between.memory (c.storedContent held.content) := by
    unfold PreferenceDb.writeHeld at isWritten
    split at isWritten
    · exact adds_confirmHeldOnMemory isWritten
    · exact adds_confirmHeldAsNew isWritten
  exact ⟨_, held.key, held.content, ⟨risk, passed⟩, texts, fun risky => decide_eq_true (named risky), adds.1, adds.2⟩

theorem gated_of_confirm (once : NumberedOnce db.memory) {ref : CandidateRef}
    (done : db.confirm fold call ref c = .ok (new, db')) :
    ∃ held key own, Gated fold db db' call.actor.userId ref c new held key own := by
  obtain ⟨-, -, confirmed⟩ := bind_eq_ok.mp done
  cases ref with
  | memory memoryId expected =>
    obtain ⟨key, own, gated⟩ := gated_of_confirmMemory once confirmed
    exact ⟨false, key, own, gated⟩
  | held entryId itemIndex => exact gated_of_confirmHeld confirmed

/-- **A confirmation that writes something high risk, or of a high-risk candidate, was acknowledged, and one that is
refused writes nothing.** -/
theorem confirm_acknowledged (breaks : Breaks fold) (once : NumberedOnce db.memory) (call : Call) (ref : CandidateRef)
    (c : Confirmation) :
    (∀ new db', db.confirm fold call ref c = .ok (new, db') →
      ((∃ t, CandidateText db call.actor.userId ref t ∧ isHighRisk fold [t] = true) ∨ NamesHighRisk db ref ∨
        isHighRisk fold [new.content] = true ∨
        ∃ version ∈ db'.memory.versions, (∀ old ∈ db.memory.versions, old.id ≠ version.id) ∧
          isHighRisk fold [version.content] = true) → c.acknowledgeHighRisk = true) ∧
    ∀ error, db.confirm fold call ref c = .error error → db.afterConfirm fold call ref c = db := by
  constructor
  · intro new db' confirmed risky
    obtain ⟨held, key, own, gated⟩ := gated_of_confirm once confirmed
    obtain ⟨risk, passed⟩ := gated.gate
    refine acknowledged_of_checkRisk breaks passed ?_
    rcases risky with ⟨t, isText, isRisky⟩ | isNamed | isRisky | ⟨version, isRow, isNew, isRisky⟩
    · rcases gated.texts t isText with rfl | rfl
      · exact .inr (.inl isRisky)
      · exact .inr (.inr (.inl isRisky))
    · exact .inl (gated.named isNamed)
    · exact .inr (.inr (.inr (gated.stored ▸ isRisky)))
    · rcases gated.adds version isRow with ⟨old, isOld, same⟩ | isStored
      · exact absurd same (isNew old isOld)
      · exact .inr (.inr (.inr (isStored ▸ isRisky)))
  · intro error refused
    unfold PreferenceDb.afterConfirm
    rw [refused]

end Writes

/-- A person answers a question about a rule that was held as high risk. -/
def sampleHeld : PreferenceDb :=
  { memory := .empty
    keys := .empty
    entries := ⟨[{ id := 1, state := .consolidated, context := ⟨⟨2, 1, 0⟩, 3, 7⟩,
                   items := [⟨0, lit "deploy", .heldHighRisk, some (lit "deploy without review")⟩],
                   distinct := nodup_singleton _ }], nodup_singleton _⟩
    resolutions := []
    repositories := fun _ => none }

def sampleAnswer (acknowledged : Bool) : Confirmation :=
  { scope := some .user, acknowledgeHighRisk := acknowledged, oneOf := rfl }

theorem breaks_unfolded : Breaks unfolded :=
  ⟨⟨rfl, rfl⟩, fun _ _ _ _ => rfl, fun _ _ _ _ => rfl, fun _ _ => ⟨rfl, rfl⟩⟩

theorem sampleHeld_acknowledged :
    (∃ reply, sampleHeld.confirm unfolded (sampleCall 9) (.held 1 0) (sampleAnswer true) = .ok reply ∧
      (sampleAnswer true).acknowledgeHighRisk = true) ∧
    sampleHeld.afterConfirm unfolded (sampleCall 9) (.held 1 0) (sampleAnswer false) = sampleHeld := by
  have once : NumberedOnce sampleHeld.memory := numberedOnce_of_sound MemoryDb.sound_empty
  constructor
  · have answered : (sampleHeld.confirm unfolded (sampleCall 9) (.held 1 0) (sampleAnswer true)).toBool = true := by
      decide
    cases done : sampleHeld.confirm unfolded (sampleCall 9) (.held 1 0) (sampleAnswer true) with
    | error e =>
      rw [done] at answered
      cases answered
    | ok reply =>
      have acknowledged := (confirm_acknowledged breaks_unfolded once (sampleCall 9) (.held 1 0) (sampleAnswer true)).1
        reply.1 reply.2 done
      exact ⟨reply, rfl, acknowledged (.inr (.inl
        ⟨_, mem_singleton_self _, _, mem_singleton_self _, rfl, rfl⟩))⟩
  · have refused : (sampleHeld.confirm unfolded (sampleCall 9) (.held 1 0) (sampleAnswer false)).toBool = false := by
      decide
    cases done : sampleHeld.confirm unfolded (sampleCall 9) (.held 1 0) (sampleAnswer false) with
    | ok reply =>
      rw [done] at refused
      cases refused
    | error e =>
      exact (confirm_acknowledged breaks_unfolded once (sampleCall 9) (.held 1 0) (sampleAnswer false)).2 e done

end PawBackend.Memory.Preferences
