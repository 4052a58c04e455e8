/-
**The rules of eligibility, in SQL and in Python** (`memory/retrieval/queries.py`: `_stale`, `_shared_rules`;
`memory/retrieval/ranking.py`: `freshness_of`; `memory/shared/service.py`: `_subjects_of`; `memory/shared/precedence.py`).

A statement leaves rows out before it is cut to its limit, by conditions in three-valued logic over JSONB; the services
judge the rows they read in Python. Times are microseconds since the epoch, intervals exact durations.
-/

import PawBackend.Lib.Regex
import PawBackend.Lib.Truth
import PawBackend.Memory.Grouping

namespace PawBackend.Memory.Retrieval

open Lib List
open Tools (Uuid Instant)
open Lib.Text (startsWith isLower isDigit lit)

/-! ### Stored versions -/

/-- A JSON value as `jsonb` keeps it: an object has each key once. -/
inductive Jsonb
  | null
  | bool (b : Bool)
  | number (literal : Text)
  | string (t : Text)
  | array (items : List Jsonb)
  | object (entries : List (Text × Jsonb))

/-- `datetime.min` and `datetime.max`, in UTC. -/
def minDatetime : Instant := -62135596800000000

def maxDatetime : Instant := 253402300799999999

/-- What `datetime` can hold. -/
def IsDatetime (t : Instant) : Prop := minDatetime ≤ t ∧ t ≤ maxDatetime

/-- The columns of a version that decide whether it is eligible, with the CHECK constraints on them. -/
structure StoredVersion where
  audience : Audience
  freshness : Memory.Freshness
  /-- `attributes`: `jsonb_typeof(attributes) = 'object'`. -/
  attributes : List (Text × Jsonb)
  attributes_once : (attributes.map Prod.fst).Nodup
  revalidateAfter_positive : ∀ interval ∈ freshness.revalidateAfter, 0 < interval
  verifiedAt_readable : ∀ t ∈ freshness.verifiedAt, IsDatetime t

/-- The column `repo_id`. -/
def repoIdOf : Audience → Option Uuid
  | .repo repoId => some repoId
  | _ => none

structure Clock where
  now : Instant
  isDatetime : IsDatetime now

/-- The heads of repositories a query names: a mapping. -/
abbrev RepoHeads := Keyed (Prod.fst : Uuid × Text → Uuid)

/-! ### Freshness -/

inductive StaleReason
  | revalidateDue
  | markedStale
  | repoCommitChanged
  deriving DecidableEq, Repr

/-- `datetime + timedelta`; `none` where it raises an `OverflowError`. -/
def addTime (t interval : ℤ) : Option Instant :=
  if minDatetime ≤ t + interval ∧ t + interval ≤ maxDatetime then some (t + interval) else none

def fresh : Freshness × Option StaleReason := (.fresh, none)

def staleFor (reason : StaleReason) : Freshness × Option StaleReason := (.stale, some reason)

/-- The rule for `repo_commit`, after the others. -/
def freshnessOfCommit (version : StoredVersion) (repoHeads : Option RepoHeads) : Freshness × Option StaleReason :=
  if version.freshness.policy = .repoCommit then
    match repoHeads.bind fun heads => (repoIdOf version.audience).bind heads.get with
    | none => fresh
    | some head => if version.freshness.commitSha ≠ some head.2 then staleFor .repoCommitChanged else fresh
  else fresh

def freshnessOf (version : StoredVersion) (now : Instant) (repoHeads : Option RepoHeads) :
    Option (Freshness × Option StaleReason) :=
  if version.freshness.staleSince.isSome then some (staleFor .markedStale)
  else if version.freshness.policy = .revalidate then
    match version.freshness.verifiedAt, version.freshness.revalidateAfter with
    | some verified, some interval => do
      let due ← addTime verified interval
      if due ≤ now then some (staleFor .revalidateDue) else some (freshnessOfCommit version repoHeads)
    | _, _ => some (staleFor .revalidateDue)
  else some (freshnessOfCommit version repoHeads)

def stale (version : StoredVersion) (now : Instant) (repoHeads : RepoHeads) : Truth :=
  Truth.any
    ([.ofBool version.freshness.staleSince.isSome,
      (Truth.ofBool (decide (version.freshness.policy = .revalidate))).both
        (Truth.any [.ofBool version.freshness.verifiedAt.isNone, .ofBool version.freshness.revalidateAfter.isNone,
          Truth.compare (fun verified interval => decide (verified + interval ≤ now)) version.freshness.verifiedAt
            version.freshness.revalidateAfter])] ++
      (sortedBy (fun head => head.1.toNat) repoHeads.rows).map fun head =>
        Truth.all [.ofBool (decide (version.freshness.policy = .repoCommit)),
          .ofBool (decide (repoIdOf version.audience = some head.1)),
          .ofBool (decide (version.freshness.commitSha ≠ some head.2))])

/-! ### Declared subjects -/

def maxPolicySubjects : ℕ := 20

def maxSubjectChars : ℕ := 100

/-- `[a-z][a-z0-9_]{0,31}`. -/
def segmentPattern : Regex :=
  .seq (.set isLower) (.many (fun c => isLower c || isDigit c || decide (c = 95)) 0 (some 31) true)

/-- `(?:\.…){0,n}`. -/
def segmentsPattern : ℕ → Regex
  | 0 => .empty
  | n + 1 => .optional (.seq (.set fun c => decide (c = 46)) (.seq segmentPattern (segmentsPattern n)))

/-- `_SUBJECT`; `SUBJECT_PATTERN` is the same between `^(?:` and `)$`. -/
def subjectPattern : Regex := .seq segmentPattern (segmentsPattern 4)

inductive SubjectProblem
  | required
  | wrongType
  | invalidFormat
  deriving DecidableEq, Repr

def validateSubject : Jsonb → Except SubjectProblem Text
  | .null => throw .required
  | .string t => if maxSubjectChars < t.length ∨ subjectPattern.fullmatch t = false then throw .invalidFormat else pure t
  | _ => throw .wrongType

/-- `attributes.get("policy_subjects", …)`. -/
def declaredSubjects (attributes : List (Text × Jsonb)) : Option Jsonb := attributes.lookup (lit "policy_subjects")

/-- `_subjects_of`; `none` where it raises a `SharedMemoryDataError`. -/
def subjectsOf (attributes : List (Text × Jsonb)) : Option (List Text) :=
  match (declaredSubjects attributes).getD (.array []) with
  | .array items =>
    if maxPolicySubjects < items.length then none
    else
      match items.mapM validateSubject with
      | .ok subjects => some (ordered subjects)
      | .error _ => none
  | _ => none

/-- A subject the System Policy governs: `validate_subject` accepts it. -/
structure PolicySubject where
  text : Text
  valid : validateSubject (.string text) = .ok text

structure SystemPolicyItem where
  policyId : Text
  subject : PolicySubject

/-- `subject_covers`, of valid subjects. -/
def subjectCovers (policySubject memorySubject : Text) : Bool :=
  if policySubject = memorySubject then true
  else if startsWith memorySubject (policySubject ++ [46]) then true
  else false

def overridingPolicyIds (memorySubjects : List Text) (policies : List SystemPolicyItem) : List Text :=
  ordered (memorySubjects.flatMap fun memorySubject =>
    (policies.filter fun policy => subjectCovers policy.subject.text memorySubject).map SystemPolicyItem.policyId)

def jsonbTypeof : Jsonb → String
  | .null => "null"
  | .bool _ => "boolean"
  | .number _ => "number"
  | .string _ => "string"
  | .array _ => "array"
  | .object _ => "object"

/-- The text of a value, `#>>` with an empty path. That of a container is left out: a container is malformed anyway. -/
def textOf : Jsonb → Option Text
  | .string t => some t
  | .number literal => some literal
  | .bool b => some (if b then lit "true" else lit "false")
  | _ => none

/-- `CASE WHEN jsonb_typeof(declared) = 'array' THEN declared ELSE '[]' END`, as its elements. -/
def arrayOf : Option Jsonb → List Jsonb
  | some (.array items) => items
  | _ => []

def sharedRules (version : StoredVersion) (policySubjects : List Text) : Truth :=
  let declared := declaredSubjects version.attributes
  let isArray := Truth.compare (fun kind wanted => decide (kind = wanted)) (declared.map jsonbTypeof) (some "array")
  let array := arrayOf declared
  let malformed := Truth.exist array fun element =>
    Truth.any [.ofBool (decide (jsonbTypeof element ≠ "string")),
      Truth.compare (fun t limit => decide (limit < List.length t)) (textOf element) (some maxSubjectChars),
      Truth.compare (fun t pattern => !Regex.fullmatch pattern t) (textOf element) (some subjectPattern)]
  let covered := Truth.exist (array.map textOf) fun subject =>
    Truth.exist policySubjects fun governed =>
      (Truth.compare (fun s g => decide (s = g)) subject (some governed)).either
        (Truth.compare startsWith subject (some (governed ++ [46])))
  Truth.any [.ofBool (decide (version.audience.scope ≠ .shared)), .ofBool declared.isNone,
    Truth.all ([isArray, .ofBool (decide (array.length ≤ maxPolicySubjects)), malformed.negate] ++
      if policySubjects = [] then [] else [covered.negate])]

/-! ### The conditions agree -/

theorem freshnessOfCommit_stale {version : StoredVersion} {heads : RepoHeads} :
    (∃ reason, freshnessOfCommit version (some heads) = (.stale, reason)) ↔ version.freshness.policy = .repoCommit ∧
      ∃ head ∈ heads.rows, repoIdOf version.audience = some head.1 ∧ version.freshness.commitSha ≠ some head.2 := by
  unfold freshnessOfCommit
  by_cases isCommit : version.freshness.policy = .repoCommit
  · rw [if_pos isCommit, Option.bind_some]
    cases isRepo : repoIdOf version.audience with
    | none => simp [fresh, isCommit]
    | some repoId =>
      rw [Option.bind_some]
      cases found : heads.get repoId with
      | none =>
        have absent : ∀ head ∈ heads.rows, head.1 ≠ repoId := by
          intro head isHead same
          have present := Keyed.get_eq_some.mpr ⟨isHead, same⟩
          rw [found] at present
          cases present
        refine iff_of_false (by rintro ⟨reason, same⟩; cases same) ?_
        rintro ⟨-, head, isHead, same, -⟩
        exact absent head isHead (Option.some.inj same).symm
      | some head =>
        obtain ⟨isHead, isRepoHead⟩ := Keyed.get_eq_some.mp found
        dsimp only
        split_ifs with differs
        · exact iff_of_true ⟨_, rfl⟩ ⟨isCommit, head, isHead, congrArg some isRepoHead.symm, differs⟩
        · refine iff_of_false (by rintro ⟨reason, same⟩; cases same) ?_
          rintro ⟨-, other, isOther, same, changed⟩
          have sameHead := heads.eq_of_key_eq isOther isHead ((Option.some.inj same).symm.trans isRepoHead.symm)
          exact differs (sameHead ▸ changed)
  · rw [if_neg isCommit]
    exact iff_of_false (by rintro ⟨reason, same⟩; cases same) fun both => isCommit both.1

theorem stale_holds {version : StoredVersion} {now : Instant} {heads : RepoHeads} : (stale version now heads).Holds ↔
    version.freshness.staleSince.isSome = true ∨
      (version.freshness.policy = .revalidate ∧ (version.freshness.verifiedAt = none ∨ version.freshness.revalidateAfter = none ∨
        ∃ verified ∈ version.freshness.verifiedAt, ∃ interval ∈ version.freshness.revalidateAfter, verified + interval ≤ now)) ∨
      ∃ head ∈ heads.rows, version.freshness.policy = .repoCommit ∧ repoIdOf version.audience = some head.1 ∧
        version.freshness.commitSha ≠ some head.2 := by
  unfold stale
  simp only [Truth.holds_any, mem_append, mem_cons, not_mem_nil, or_false, mem_map, mem_sortedBy, or_and_right,
    exists_or, exists_eq_left, exists_exists_and_eq_and, Truth.holds_both, Truth.holds_all, Truth.holds_ofBool, decide_eq_true_eq,
    Truth.holds_compare, Option.isNone_iff_eq_none, forall_eq_or_imp, forall_eq, or_assoc]

/-- **A version is left out as stale** exactly where `freshness_of` answers so. -/
theorem stale_iff (version : StoredVersion) (clock : Clock) (heads : RepoHeads) : (stale version clock.now heads).Holds ↔
    ∃ reason, freshnessOf version clock.now (some heads) = some (.stale, reason) := by
  rw [stale_holds]
  unfold freshnessOf
  by_cases marked : version.freshness.staleSince.isSome = true
  · rw [if_pos marked]
    exact iff_of_true (.inl marked) ⟨_, rfl⟩
  rw [if_neg marked, or_iff_right marked]
  by_cases isRevalidate : version.freshness.policy = .revalidate
  · rw [if_pos isRevalidate]
    have notCommit : ¬ ∃ head ∈ heads.rows, version.freshness.policy = .repoCommit ∧
        repoIdOf version.audience = some head.1 ∧ version.freshness.commitSha ≠ some head.2 := by
      rintro ⟨-, -, isCommit, -⟩
      rw [isRevalidate] at isCommit
      cases isCommit
    rw [or_iff_left notCommit, and_iff_right isRevalidate]
    cases isVerified : version.freshness.verifiedAt with
    | none => exact iff_of_true (.inl rfl) ⟨_, rfl⟩
    | some verified =>
      cases isInterval : version.freshness.revalidateAfter with
      | none => exact iff_of_true (.inr (.inl rfl)) ⟨_, rfl⟩
      | some interval =>
        have positive := version.revalidateAfter_positive interval isInterval
        have readable := version.verifiedAt_readable verified isVerified
        have isNow := clock.isDatetime
        unfold IsDatetime at readable isNow
        have due : addTime verified interval = if verified + interval ≤ maxDatetime then some (verified + interval) else none := by
          unfold addTime
          have above : minDatetime ≤ verified + interval := le_add_of_le_of_nonneg readable.1 positive.le
          simp only [above, true_and]
        simp only [Option.some_ne_none, Option.mem_some, exists_eq_left', false_or, due]
        by_cases inRange : verified + interval ≤ maxDatetime
        · rw [if_pos inRange]
          by_cases passed : verified + interval ≤ clock.now
          · exact iff_of_true passed ⟨some .revalidateDue, by simp [passed, staleFor]⟩
          · refine iff_of_false passed ?_
            rintro ⟨reason, same⟩
            simp [passed, freshnessOfCommit, isRevalidate, fresh] at same
        · rw [if_neg inRange]
          refine iff_of_false (not_le.mpr (lt_of_le_of_lt isNow.2 (not_le.mp inRange))) ?_
          rintro ⟨reason, same⟩
          cases same
  · rw [if_neg isRevalidate, or_iff_right fun both => isRevalidate both.1]
    simp only [Option.some.injEq, freshnessOfCommit_stale]
    constructor
    · rintro ⟨head, isHead, isCommit, rest⟩
      exact ⟨isCommit, head, isHead, rest⟩
    · rintro ⟨isCommit, head, isHead, rest⟩
      exact ⟨head, isHead, isCommit, rest⟩

/-! ### Shared rules -/

theorem validateSubject_eq_ok {value : Jsonb} {t : Text} : validateSubject value = .ok t ↔
    value = .string t ∧ t.length ≤ maxSubjectChars ∧ subjectPattern.fullmatch t = true := by
  cases value with
  | string u =>
    unfold validateSubject
    dsimp only
    by_cases bad : maxSubjectChars < u.length ∨ subjectPattern.fullmatch u = false
    · rw [if_pos bad]
      refine iff_of_false (fun accepted => by cases accepted) ?_
      rintro ⟨same, short, fits⟩
      obtain rfl := Jsonb.string.inj same
      rcases bad with long | unfit
      · exact absurd short (not_le.mpr long)
      · rw [fits] at unfit
        cases unfit
    · rw [if_neg bad]
      rw [not_or, not_lt, Bool.not_eq_false] at bad
      constructor
      · intro accepted
        obtain rfl := pure_eq_ok.mp accepted
        exact ⟨rfl, bad⟩
      · rintro ⟨same, -⟩
        exact congrArg Except.ok (Jsonb.string.inj same)
  | null | bool | number | array | object =>
    exact iff_of_false (fun accepted => by cases accepted) fun both => by cases both.1

/-- The condition `malformed` puts on an element. -/
def malformedElement (element : Jsonb) : Truth :=
  Truth.any [.ofBool (decide (jsonbTypeof element ≠ "string")),
    Truth.compare (fun t limit => decide (limit < List.length t)) (textOf element) (some maxSubjectChars),
    Truth.compare (fun t pattern => !Regex.fullmatch pattern t) (textOf element) (some subjectPattern)]

theorem malformed_of_kind {element : Jsonb} (other : jsonbTypeof element ≠ "string") : (malformedElement element).Holds :=
  Truth.holds_any.mpr ⟨_, .head _, Truth.holds_ofBool.mpr (decide_eq_true other)⟩

theorem not_malformed_iff (element : Jsonb) : ¬ (malformedElement element).Holds ↔ ∃ t, validateSubject element = .ok t := by
  have booleanKind : "boolean" ≠ "string" := by decide
  have numberKind : "number" ≠ "string" := by decide
  have arrayKind : "array" ≠ "string" := by decide
  have objectKind : "object" ≠ "string" := by decide
  cases element with
  | string t =>
    unfold malformedElement
    simp only [Truth.holds_any, mem_cons, not_mem_nil, or_false, exists_eq_or_imp, exists_eq_left, Truth.holds_ofBool,
      Truth.holds_compare, jsonbTypeof, textOf, Option.mem_some, exists_eq_left', decide_eq_true_eq, ne_eq, not_true_eq_false,
      false_or, not_or, not_lt, Bool.not_eq_true', Bool.not_eq_false, validateSubject_eq_ok, Jsonb.string.injEq, exists_eq_left']
  | null => exact iff_of_false (fun none => none (malformed_of_kind (by decide))) (by rintro ⟨_, accepted⟩; cases accepted)
  | bool b => exact iff_of_false (fun none => none (malformed_of_kind booleanKind)) (by rintro ⟨_, accepted⟩; cases accepted)
  | number literal => exact iff_of_false (fun none => none (malformed_of_kind numberKind)) (by rintro ⟨_, accepted⟩; cases accepted)
  | array items => exact iff_of_false (fun none => none (malformed_of_kind arrayKind)) (by rintro ⟨_, accepted⟩; cases accepted)
  | object entries => exact iff_of_false (fun none => none (malformed_of_kind objectKind)) (by rintro ⟨_, accepted⟩; cases accepted)

theorem covers_holds {subject governed : Text} : ((Truth.compare (fun s g => decide (s = g)) (some subject) (some governed)).either
    (Truth.compare startsWith (some subject) (some (governed ++ [46])))).Holds ↔ subjectCovers governed subject = true := by
  rw [Truth.holds_either]
  unfold subjectCovers
  simp only [Truth.holds_compare, Option.mem_some, exists_eq_left', decide_eq_true_eq]
  by_cases same : governed = subject
  · rw [if_pos same]
    exact iff_of_true (.inl same.symm) rfl
  · rw [if_neg same, or_iff_right (Ne.symm same)]
    by_cases below : startsWith subject (governed ++ [46]) = true
    · rw [if_pos below]
      exact iff_of_true below rfl
    · rw [if_neg below]
      exact iff_of_false below Bool.false_ne_true

theorem subjectsOf_array {attributes : List (Text × Jsonb)} {items : List Jsonb}
    (declared : declaredSubjects attributes = some (.array items)) {subjects : List Text} :
    subjectsOf attributes = some subjects ↔ items.length ≤ maxPolicySubjects ∧
      ∃ texts, items.mapM validateSubject = .ok texts ∧ ordered texts = subjects := by
  unfold subjectsOf
  rw [declared, Option.getD_some]
  dsimp only
  by_cases long : maxPolicySubjects < items.length
  · rw [if_pos long]
    exact iff_of_false (fun none => by cases none) fun both => absurd both.1 (not_le.mpr long)
  · rw [if_neg long, and_iff_right (not_lt.mp long)]
    cases items.mapM validateSubject with
    | error problem => exact iff_of_false (fun none => by cases none) fun ⟨_, accepted, _⟩ => by cases accepted
    | ok texts => simp

theorem judged_iff {items : List Jsonb} {policies : List Text} :
    (Truth.all ([Truth.compare (fun kind wanted => decide (kind = wanted)) (some "array") (some "array"),
      .ofBool (decide (items.length ≤ maxPolicySubjects)), (Truth.exist items malformedElement).negate] ++
      if policies = [] then [] else [(Truth.exist (items.map textOf) fun subject =>
        Truth.exist policies fun governed =>
          (Truth.compare (fun s g => decide (s = g)) subject (some governed)).either
            (Truth.compare startsWith subject (some (governed ++ [46])))).negate])).Holds ↔
      items.length ≤ maxPolicySubjects ∧ ∃ texts, items.mapM validateSubject = .ok texts ∧
        ∀ policy ∈ policies, ∀ s ∈ texts, subjectCovers policy s = false := by
  rw [Truth.holds_all, forall_mem_append]
  simp only [forall_mem_cons, not_mem_nil, IsEmpty.forall_iff, implies_true, and_true, Truth.holds_ofBool,
    Truth.holds_negate_exist, not_malformed_iff, decide_eq_true_eq]
  have isArray : (Truth.compare (fun kind wanted : String => decide (kind = wanted)) (some "array") (some "array")).Holds := by
    decide
  rw [and_iff_right isArray, and_assoc]
  refine and_congr_right fun _ => ?_
  constructor
  · rintro ⟨wellFormed, uncovered⟩
    obtain ⟨texts, accepted⟩ := exists_mapM_of_forall wellFormed
    refine ⟨texts, accepted, fun policy isPolicy s isText => ?_⟩
    rw [if_neg (ne_nil_of_mem isPolicy), forall_mem_singleton, Truth.holds_negate_exist] at uncovered
    obtain ⟨element, isElement, isIts⟩ := exists_of_mem_mapM accepted isText
    have apart := uncovered (some s) (mem_map.mpr ⟨element, isElement, by rw [(validateSubject_eq_ok.mp isIts).1]; rfl⟩)
    rw [Truth.exist_iff] at apart
    by_contra covered
    exact apart ⟨policy, isPolicy, covers_holds.mpr (Bool.not_eq_false _ ▸ covered)⟩
  · rintro ⟨texts, accepted, uncovered⟩
    refine ⟨fun element isElement => ?_, ?_⟩
    · obtain ⟨t, -, isIts⟩ := exists_mapM_of_mem accepted isElement
      exact ⟨t, isIts⟩
    · split_ifs with isEmpty
      · exact fun _ isIn => absurd isIn not_mem_nil
      · rw [forall_mem_singleton, Truth.holds_negate_exist]
        intro subject isSubject
        obtain ⟨element, isElement, rfl⟩ := mem_map.mp isSubject
        obtain ⟨t, isText, isIts⟩ := exists_mapM_of_mem accepted isElement
        rw [(validateSubject_eq_ok.mp isIts).1, Truth.exist_iff]
        rintro ⟨policy, isPolicy, covers⟩
        have covered := covers_holds.mp covers
        rw [uncovered policy isPolicy t isText] at covered
        cases covered

/-- **A shared version is kept** exactly where its subjects are accepted and none is covered. -/
theorem sharedRules_iff (version : StoredVersion) (policies : List Text) : (sharedRules version policies).Holds ↔
    version.audience.scope ≠ .shared ∨ ∃ subjects, subjectsOf version.attributes = some subjects ∧
      ∀ policy ∈ policies, ∀ s ∈ subjects, subjectCovers policy s = false := by
  have booleanKind : "boolean" ≠ "array" := by decide
  have numberKind : "number" ≠ "array" := by decide
  have stringKind : "string" ≠ "array" := by decide
  have objectKind : "object" ≠ "array" := by decide
  -- what is no array is not judged by SQL, and refused by Python
  have notArray : ∀ {value : Jsonb} {rest : List Truth}, declaredSubjects version.attributes = some value →
      jsonbTypeof value ≠ "array" → subjectsOf version.attributes = none →
      ((Truth.all (Truth.compare (fun kind wanted => decide (kind = wanted)) (some (jsonbTypeof value)) (some "array") :: rest)).Holds ↔
        ∃ subjects, subjectsOf version.attributes = some subjects ∧
          ∀ policy ∈ policies, ∀ s ∈ subjects, subjectCovers policy s = false) := by
    intro value rest _ other refused
    refine iff_of_false (fun all => ?_) ?_
    · obtain ⟨kind, isKind, wanted, isWanted, same⟩ := Truth.holds_compare.mp (Truth.holds_all.mp all _ (.head _))
      obtain rfl := Option.mem_some.mp isKind
      obtain rfl := Option.mem_some.mp isWanted
      exact other (of_decide_eq_true same)
    · rintro ⟨subjects, accepted, -⟩
      rw [refused] at accepted
      cases accepted
  unfold sharedRules
  dsimp only
  rw [Truth.holds_any]
  simp only [mem_cons, not_mem_nil, or_false, exists_eq_or_imp, exists_eq_left, Truth.holds_ofBool, decide_eq_true_eq]
  refine or_congr_right ?_
  cases declared : declaredSubjects version.attributes with
  | none =>
    refine iff_of_true (.inl rfl) ⟨[], ?_, fun _ _ s isIn => absurd isIn not_mem_nil⟩
    unfold subjectsOf
    rw [declared]
    rfl
  | some value =>
    rw [Option.isNone_some, or_iff_right Bool.false_ne_true]
    cases value with
    | array items =>
      refine Iff.trans (@judged_iff items policies) ?_
      simp only [subjectsOf_array declared]
      constructor
      · rintro ⟨short, texts, accepted, uncovered⟩
        exact ⟨ordered texts, ⟨short, texts, accepted, rfl⟩, fun policy isPolicy s isIn => uncovered policy isPolicy s (mem_ordered.mp isIn)⟩
      · rintro ⟨_, ⟨short, texts, accepted, rfl⟩, uncovered⟩
        exact ⟨short, texts, accepted, fun policy isPolicy s isIn => uncovered policy isPolicy s (mem_ordered.mpr isIn)⟩
    | null => exact notArray declared (by decide) (by unfold subjectsOf; rw [declared]; rfl)
    | bool b => exact notArray declared booleanKind (by unfold subjectsOf; rw [declared]; rfl)
    | number literal => exact notArray declared numberKind (by unfold subjectsOf; rw [declared]; rfl)
    | string t => exact notArray declared stringKind (by unfold subjectsOf; rw [declared]; rfl)
    | object entries => exact notArray declared objectKind (by unfold subjectsOf; rw [declared]; rfl)

theorem overridingPolicyIds_eq_nil {subjects : List Text} {policies : List SystemPolicyItem} :
    overridingPolicyIds subjects policies = [] ↔
      ∀ policy ∈ policies, ∀ s ∈ subjects, subjectCovers policy.subject.text s = false := by
  unfold overridingPolicyIds
  constructor
  · intro none policy isPolicy s isSubject
    by_contra covers
    have isIn : policy.policyId ∈ ordered (subjects.flatMap fun memorySubject =>
        (policies.filter fun policy => subjectCovers policy.subject.text memorySubject).map SystemPolicyItem.policyId) :=
      mem_ordered.mpr (mem_flatMap.mpr ⟨s, isSubject, mem_map_of_mem
        (mem_filter.mpr ⟨isPolicy, Bool.not_eq_false _ ▸ covers⟩)⟩)
    rw [none] at isIn
    exact absurd isIn not_mem_nil
  · intro uncovered
    rw [eq_nil_iff_forall_not_mem]
    intro policyId isIn
    obtain ⟨s, isSubject, isOne⟩ := mem_flatMap.mp (mem_ordered.mp isIn)
    obtain ⟨policy, isPolicy, -⟩ := mem_map.mp isOne
    obtain ⟨isPolicy, covers⟩ := mem_filter.mp isPolicy
    rw [uncovered policy isPolicy s isSubject] at covers
    cases covers

/-- **The SQL conditions agree with the Python rules**: staleness with `freshness_of`; the shared rules with `_subjects_of`
and `subject_covers`, and so with what the effective view keeps. -/
theorem eligibility_agrees (version : StoredVersion) (clock : Clock) (heads : RepoHeads) (policies : List SystemPolicyItem) :
    ((stale version clock.now heads).Holds ↔
      ∃ reason, freshnessOf version clock.now (some heads) = some (.stale, reason)) ∧
    ((sharedRules version (policies.map fun policy => policy.subject.text)).Holds ↔
      version.audience.scope ≠ .shared ∨ ∃ subjects, subjectsOf version.attributes = some subjects ∧
        ∀ policy ∈ policies, ∀ s ∈ subjects, subjectCovers policy.subject.text s = false) ∧
    ((sharedRules version (policies.map fun policy => policy.subject.text)).Holds ↔
      version.audience.scope ≠ .shared ∨ ∃ subjects, subjectsOf version.attributes = some subjects ∧
        overridingPolicyIds subjects policies = []) := by
  have shared : (sharedRules version (policies.map fun policy => policy.subject.text)).Holds ↔
      version.audience.scope ≠ .shared ∨ ∃ subjects, subjectsOf version.attributes = some subjects ∧
        ∀ policy ∈ policies, ∀ s ∈ subjects, subjectCovers policy.subject.text s = false := by
    rw [sharedRules_iff]
    simp only [forall_mem_map]
  refine ⟨stale_iff version clock heads, shared, shared.trans ?_⟩
  simp only [overridingPolicyIds_eq_nil]

end PawBackend.Memory.Retrieval
