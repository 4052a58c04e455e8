/-
**The result of a node** (`orchestrator/result.py`; `orchestrator/store.py`: `_node_record`).

A result is checked where it is built, and again whenever it is read from the column it was stored in. The column gives
back a float that `repr` writes with an exponent as an integer, which need not be its value, may be beyond 64 bits, and
takes more bytes than its text did.
-/

import PawBackend.Lib.Cuts
import PawBackend.Lib.StoredJson
import PawBackend.Orchestrator.JsonValue

namespace PawBackend.Orchestrator.Result

open Lib Lib.Json Orchestrator.JsonValue List
open Lib.Text (lit)

variable {R F : Type}

/-! ### The limits -/

def maxResultBytes : ℕ := 32 * 1024

def maxSummaryChars : ℕ := 2000

def maxListItems : ℕ := 50

def maxItemChars : ℕ := 1000

def maxChangedFiles : ℕ := 200

def maxPathChars : ℕ := 500

def maxCommitChars : ℕ := 64

def maxTestResultBytes : ℕ := 4 * 1024

def maxTestResultDepth : ℕ := 4

/-! ### The checks -/

inductive ResultReason
  | notAResult
  | unknownField
  | missingField
  | badType
  | badText
  | badNumber
  | tooManyItems
  | tooLarge
  deriving DecidableEq, Repr

/-- What building a result can raise: `InvalidNodeResultError`, or an error of the interpreter. -/
inductive ResultError
  | refused (reason : ResultReason)
  | valueError
  | overflowError
  deriving DecidableEq, Repr

def lineForbidden (c : ℕ) : Bool := decide (c ≤ 0x1F) || c == 0x7F

def textForbidden (c : ℕ) : Bool := decide (c ≤ 8) || decide (0xB ≤ c ∧ c ≤ 0x1F) || c == 0x7F

/-- `_text`. -/
def resultText (limit : ℕ) (multiline : Bool) : PyValue F → Except ResultError Text
  | .scalar (.text value) =>
    if limit * 4 < value.length then .error (.refused .badText)
    else if (value.any fun c => (if multiline then textForbidden c else lineForbidden c) || JsonValue.isSurrogate c) = true then
      .error (.refused .badText)
    else if trimBy Text.isSpace value = [] ∨ limit < (trimBy Text.isSpace value).length then .error (.refused .badText)
    else .ok (trimBy Text.isSpace value)
  | _ => .error (.refused .badType)

/-- What is given for a field of texts: a value, or another object that can be iterated over. -/
inductive Given (F : Type)
  | value (v : PyValue F)
  | iterable (items : List (PyValue F))

/-- What is iterated over; texts and mappings are refused. -/
def Given.items : Given F → Option (List (PyValue F))
  | .value (.list items) => some items
  | .value (.tuple items) => some items
  | .value _ => none
  | .iterable items => some items

/-- `_texts`. -/
def resultTexts (count limit : ℕ) (multiline : Bool) (given : Given F) : Except ResultError (List Text) := do
  let items ← orThrow given.items (.refused .badType)
  if count < items.length then throw (.refused .tooManyItems) else items.mapM (resultText limit multiline)

/-- A field that may be `None`. -/
def optional {α : Type} (check : PyValue F → Except ResultError α) (value : PyValue F) : Except ResultError (Option α) :=
  match value with
  | .scalar .none => .ok none
  | value => (check value).map some

/-- What is given as `test_result`: a proxy, or an object of the graph. -/
inductive TestObject (R F : Type)
  | proxy (entries : List (Scalar F × PyValue F))
  | object (ref : R)

variable (numbers : Numbers F) (limit : DigitLimit)

/-- The check of a plain `test_result`, which is then frozen. -/
def checkedObject {R : Type} (heap : Heap R F) (ref : R) : Except ResultError (PyValue F) :=
  match checkJsonObject numbers.toFloats limit heap ref maxTestResultBytes maxTestResultDepth with
  | .ok clean => .ok (freezeJson clean)
  | .error (.problem .size) => .error (.refused .tooLarge)
  | .error (.problem _) => .error (.refused .badType)
  | .error .valueError => .error .valueError

/-- The check of `test_result`; a proxy is thawed first. -/
def resultObject (heap : Heap R F) : TestObject R F → Except ResultError (Option (PyValue F))
  | .proxy entries => (checkedObject numbers limit itself (thawJson (.proxy entries))).map some
  | .object ref =>
    match heap ref with
    | .scalar .none => .ok none
    | .dict _ => (checkedObject numbers limit heap ref).map some
    | _ => .error (.refused .badType)

/-- The check of `confidence`; `math.isfinite` converts an integer. -/
def resultNumber : PyValue F → Except ResultError F
  | .scalar (.integer n) =>
    match numbers.ofInt n with
    | none => .error .overflowError
    | some x => if numbers.finite x = false ∨ ¬(0 ≤ n ∧ n ≤ 1) then .error (.refused .badNumber) else .ok x
  | .scalar (.float x) =>
    if numbers.finite x = false ∨ ¬(0 ≤ numbers.value x ∧ numbers.value x ≤ 1) then .error (.refused .badNumber) else .ok x
  | _ => .error (.refused .badNumber)

/-! ### The result -/

structure NodeResult (F : Type) where
  summary : Text
  changedFiles : List Text := []
  commit : Option Text := none
  testResult : Option (PyValue F) := none
  discoveredFacts : List Text := []
  dependencyNotes : List Text := []
  unresolvedQuestions : List Text := []
  confidence : Option F := none
  artifacts : List Text := []

namespace NodeResult

variable (r : NodeResult F)

def textJson (t : Text) : PyValue F := .scalar (.text t)

def textsJson (texts : List Text) : PyValue F := .list (texts.map textJson)

def optionJson {α : Type} (json : α → PyValue F) (value : Option α) : PyValue F := (value.map json).getD (.scalar .none)

/-- The fields of `to_json`. -/
def fields : List (Text × PyValue F) :=
  [(lit "summary", textJson r.summary), (lit "changed_files", textsJson r.changedFiles),
   (lit "commit", optionJson textJson r.commit), (lit "test_result", optionJson thawJson r.testResult),
   (lit "discovered_facts", textsJson r.discoveredFacts), (lit "dependency_notes", textsJson r.dependencyNotes),
   (lit "unresolved_questions", textsJson r.unresolvedQuestions),
   (lit "confidence", optionJson (fun x => .scalar (.float x)) r.confidence), (lit "artifacts", textsJson r.artifacts)]

def toJson : PyValue F := .dict (r.fields.map fun field => (.text field.1, field.2))

/-- `==` of results. -/
def equal (r r' : NodeResult F) : Bool :=
  decide (r.summary = r'.summary ∧ r.changedFiles = r'.changedFiles ∧ r.commit = r'.commit ∧
    r.discoveredFacts = r'.discoveredFacts ∧ r.dependencyNotes = r'.dependencyNotes ∧
    r.unresolvedQuestions = r'.unresolvedQuestions ∧ r.artifacts = r'.artifacts) &&
  (match r.testResult, r'.testResult with
    | none, none => true
    | some v, some w => v.equal numbers w
    | _, _ => false) &&
  (match r.confidence, r'.confidence with
    | none, none => true
    | some x, some y => decide (numbers.value x = numbers.value y)
    | _, _ => false)

end NodeResult

structure ResultArgs (R F : Type) where
  summary : PyValue F
  changedFiles : Given F
  commit : PyValue F
  testResult : TestObject R F
  discoveredFacts : Given F
  dependencyNotes : Given F
  unresolvedQuestions : Given F
  confidence : PyValue F
  artifacts : Given F

/-- The check of the whole: `MAX_RESULT_BYTES`. -/
def sizeChecked (r : NodeResult F) : Except ResultError (NodeResult F) :=
  match encodedSize numbers.toFloats limit r.toJson with
  | none => .error .valueError
  | some size => if maxResultBytes < size then .error (.refused .tooLarge) else .ok r

/-- `NodeResult(...)`. -/
def construct (heap : Heap R F) (args : ResultArgs R F) : Except ResultError (NodeResult F) := do
  let summary ← resultText maxSummaryChars true args.summary
  let changedFiles ← resultTexts maxChangedFiles maxPathChars false args.changedFiles
  let commit ← optional (resultText maxCommitChars false) args.commit
  let testResult ← resultObject numbers limit heap args.testResult
  let discoveredFacts ← resultTexts maxListItems maxItemChars true args.discoveredFacts
  let dependencyNotes ← resultTexts maxListItems maxItemChars true args.dependencyNotes
  let unresolvedQuestions ← resultTexts maxListItems maxItemChars true args.unresolvedQuestions
  let artifacts ← resultTexts maxListItems maxPathChars false args.artifacts
  let confidence ← optional (resultNumber numbers) args.confidence
  sizeChecked numbers limit
    { summary, changedFiles, commit, testResult, discoveredFacts, dependencyNotes, unresolvedQuestions, confidence, artifacts }

/-! ### Reading a result -/

def resultFields : List Text :=
  [lit "summary", lit "changed_files", lit "commit", lit "test_result", lit "discovered_facts", lit "dependency_notes",
   lit "unresolved_questions", lit "confidence", lit "artifacts"]

def isNamed (name : Text) : Scalar F → Bool
  | .text t => decide (t = name)
  | _ => false

def field (entries : List (Scalar F × PyValue F)) (name : Text) : Option (PyValue F) :=
  (entries.find? fun entry => isNamed name entry.1).map Prod.snd

/-- The field `test_result`, as an object. -/
def testObject : PyValue F → TestObject (PyValue F) F
  | .proxy entries => .proxy entries
  | value => .object value

/-- `dict(data)`, with the default values. -/
def argsOf (summary : PyValue F) (entries : List (Scalar F × PyValue F)) : ResultArgs (PyValue F) F :=
  let texts := fun name => Given.value ((field entries name).getD (.tuple []))
  let value := fun name => (field entries name).getD (.scalar .none)
  { summary := summary
    changedFiles := texts (lit "changed_files")
    commit := value (lit "commit")
    testResult := testObject (value (lit "test_result"))
    discoveredFacts := texts (lit "discovered_facts")
    dependencyNotes := texts (lit "dependency_notes")
    unresolvedQuestions := texts (lit "unresolved_questions")
    confidence := value (lit "confidence")
    artifacts := texts (lit "artifacts") }

def entriesOf : PyValue F → Option (List (Scalar F × PyValue F))
  | .dict entries => some entries
  | .proxy entries => some entries
  | _ => none

def fromJson (data : PyValue F) : Except ResultError (NodeResult F) := do
  let entries ← orThrow (entriesOf data) (.refused .notAResult)
  if (entries.any fun entry => !resultFields.any fun name => isNamed name entry.1) = true then throw (.refused .unknownField)
  else do
    let summary ← orThrow (field entries (lit "summary")) (.refused .missingField)
    construct numbers limit itself (argsOf summary entries)

/-! ### What a result holds -/

section Built

variable {numbers} {limit} {heap : Heap R F} {r : NodeResult F}

structure FitText (chars : ℕ) (multiline : Bool) (t : Text) : Prop where
  short : t.length ≤ chars
  characters : (t.any fun c => (if multiline then textForbidden c else lineForbidden c) || JsonValue.isSurrogate c) = false
  nonempty : t ≠ []
  stripped : trimBy Text.isSpace t = t

variable {chars : ℕ} {multiline : Bool}

theorem fitText_of_resultText {v : PyValue F} {t : Text}
    (checked : resultText chars multiline v = .ok t) : FitText chars multiline t := by
  unfold resultText at checked
  split at checked
  next value =>
    rw [refuse_eq_ok, refuse_eq_ok, refuse_eq_ok, not_or, Except.ok.injEq] at checked
    obtain ⟨-, wrong, blank, rfl⟩ := checked
    refine ⟨not_lt.mp blank.2, ?_, blank.1, trimBy_trimBy _ _⟩
    rw [Bool.not_eq_true, any_eq_false] at wrong
    exact any_eq_false.mpr fun c isIn => wrong c (mem_of_mem_trimBy isIn)
  next => cases checked

theorem resultText_of_fit {t : Text} (fit : FitText chars multiline t) :
    resultText chars multiline (NodeResult.textJson t : PyValue F) = .ok t := by
  unfold resultText NodeResult.textJson
  dsimp only
  rw [if_neg (by have short := fit.short; omega), fit.characters, if_neg Bool.false_ne_true, fit.stripped,
    if_neg (not_or.mpr ⟨fit.nonempty, not_lt.mpr fit.short⟩)]

theorem length_of_mapM {ε α β : Type} {f : α → Except ε β} {values : List α} {results : List β}
    (done : values.mapM f = .ok results) : results.length = values.length := by
  induction values generalizing results with
  | nil =>
    cases done
    rfl
  | cons a rest ih =>
    obtain ⟨b, others, -, isRest, rfl⟩ := mapM_cons_eq_ok.mp done
    rw [length_cons, length_cons, ih isRest]

structure FitTexts (count chars : ℕ) (multiline : Bool) (texts : List Text) : Prop where
  few : texts.length ≤ count
  each : ∀ t ∈ texts, FitText chars multiline t

theorem fitTexts_of_resultTexts {count : ℕ} {given : Given F} {texts : List Text}
    (checked : resultTexts count chars multiline given = .ok texts) : FitTexts count chars multiline texts := by
  unfold resultTexts at checked
  obtain ⟨items, -, rest⟩ := bind_eq_ok.mp checked
  rw [throw_or_eq_ok] at rest
  refine ⟨?_, fun t isText => ?_⟩
  · exact (length_of_mapM rest.2).le.trans (not_lt.mp rest.1)
  · obtain ⟨item, -, isChecked⟩ := exists_of_mem_mapM rest.2 isText
    exact fitText_of_resultText isChecked

theorem resultTexts_of_fit {count : ℕ} {texts : List Text} (fit : FitTexts count chars multiline texts) :
    resultTexts count chars multiline (.value (NodeResult.textsJson texts : PyValue F)) = .ok texts := by
  have checked : (texts.map (NodeResult.textJson (F := F))).mapM (resultText chars multiline) = .ok texts := by
    have each := fit.each
    clear fit
    induction texts with
    | nil => rfl
    | cons t rest ih =>
      rw [map_cons, mapM_cons_eq_ok]
      exact ⟨t, rest, resultText_of_fit (each t (.head _)), ih fun u isIn => each u (.tail _ isIn), rfl⟩
  unfold resultTexts
  refine bind_eq_ok.mpr ⟨_, rfl, ?_⟩
  rw [throw_or_eq_ok, length_map]
  exact ⟨not_lt.mpr fit.few, checked⟩

/-- An object that a result keeps frozen. -/
structure FitObject (numbers : Numbers F) (limit : DigitLimit) (v : PyValue F) : Prop where
  object : ∃ entries, v = .dict entries
  fit : v.all (fitScalar numbers.toFloats (-maxInt)) fitKey true = true
  nested : v.depth ≤ maxTestResultDepth
  spent : (tariff numbers.toFloats).charge v ≤ maxTestResultBytes
  small : encodedBytes numbers.toFloats limit v ≤ maxTestResultBytes

theorem checkedObject_eq_ok {ref : R} {w : PyValue F} : checkedObject numbers limit heap ref = .ok w ↔
    ∃ v, Holds heap ref v ∧ FitObject numbers limit v ∧ w = v.plain.frozen := by
  have accepted := @check_eq_ok _ _ numbers.toFloats limit heap ref maxTestResultBytes maxTestResultDepth
  unfold checkedObject
  constructor
  · intro checked
    cases isChecked : checkJsonObject numbers.toFloats limit heap ref maxTestResultBytes maxTestResultDepth with
    | error raised =>
      rw [isChecked] at checked
      cases raised with
      | problem kind => cases kind <;> cases checked
      | valueError => cases checked
    | ok clean =>
      rw [isChecked] at checked
      obtain ⟨v, holds, object, fit, nested, spent, small, rfl⟩ := (accepted.mp isChecked)
      cases checked
      exact ⟨v, holds, ⟨object, fit, by omega, by omega, by omega⟩, rfl⟩
  · rintro ⟨v, holds, fits, rfl⟩
    have nested := fits.nested
    have spent := fits.spent
    have small := fits.small
    rw [accepted.mpr ⟨v, holds, fits.object, fits.fit, by omega, by omega, by omega, rfl⟩]
    rfl

structure KeptObject (numbers : Numbers F) (v : PyValue F) : Prop where
  object : ∃ entries, v = .dict entries
  fit : v.all (fitScalar numbers.toFloats (-maxInt)) fitKey true = true
  nested : v.depth ≤ maxTestResultDepth
  distinct : v.Distinct
  copied : v.plain = v

theorem keptObject_of_checkedObject {ref : R} {w : PyValue F} (distinct : ∀ v, Holds heap ref v → v.Distinct)
    (checked : checkedObject numbers limit heap ref = .ok w) : ∃ v, KeptObject numbers v ∧ w = v.frozen := by
  obtain ⟨v, holds, fits, rfl⟩ := checkedObject_eq_ok.mp checked
  obtain ⟨entries, rfl⟩ := fits.object
  refine ⟨_, ⟨⟨_, PyValue.plain_dict entries⟩, all_plain fits.fit, ?_, (distinct _ holds).plain, PyValue.plain_plain _⟩, rfl⟩
  exact (PyValue.depth_plain _).le.trans fits.nested

/-- The mappings that are given have each of their keys once. -/
def ResultArgs.Distinct (heap : Heap R F) (args : ResultArgs R F) : Prop :=
  DistinctKeys heap ∧ ∀ entries, args.testResult = .proxy entries → (PyValue.proxy entries).Distinct

structure Built (numbers : Numbers F) (r : NodeResult F) : Prop where
  summary : FitText maxSummaryChars true r.summary
  changedFiles : FitTexts maxChangedFiles maxPathChars false r.changedFiles
  commit : ∀ t ∈ r.commit, FitText maxCommitChars false t
  testResult : ∀ w ∈ r.testResult, ∃ v, KeptObject numbers v ∧ w = v.frozen
  discoveredFacts : FitTexts maxListItems maxItemChars true r.discoveredFacts
  dependencyNotes : FitTexts maxListItems maxItemChars true r.dependencyNotes
  unresolvedQuestions : FitTexts maxListItems maxItemChars true r.unresolvedQuestions
  confidence : ∀ x ∈ r.confidence, numbers.finite x = true ∧ 0 ≤ numbers.value x ∧ numbers.value x ≤ 1
  artifacts : FitTexts maxListItems maxPathChars false r.artifacts

theorem optional_eq_ok {α : Type} {check : PyValue F → Except ResultError α} {v : PyValue F} {a : Option α}
    (checked : optional check v = .ok a) : ∀ b ∈ a, check v = .ok b := by
  unfold optional at checked
  split at checked
  · cases checked
    exact nofun
  · obtain ⟨b, isChecked, rfl⟩ := map_eq_ok.mp checked
    exact fun _ isIn => Option.mem_some.mp isIn ▸ isChecked

theorem resultNumber_eq_ok {v : PyValue F} {x : F} (checked : resultNumber numbers v = .ok x) :
    numbers.finite x = true ∧ 0 ≤ numbers.value x ∧ numbers.value x ≤ 1 := by
  unfold resultNumber at checked
  split at checked
  next n =>
    cases converted : numbers.ofInt n with
    | none =>
      rw [converted] at checked
      cases checked
    | some y =>
      rw [converted] at checked
      dsimp only at checked
      rw [refuse_eq_ok, Except.ok.injEq, not_or, Bool.not_eq_false, not_not] at checked
      obtain ⟨⟨finite, low, high⟩, rfl⟩ := checked
      obtain ⟨z, same, -, value⟩ := numbers.ofInt_unit n low high
      rw [converted, Option.some.injEq] at same
      subst same
      rw [value]
      exact ⟨finite, by exact_mod_cast low, by exact_mod_cast high⟩
  next y =>
    rw [refuse_eq_ok, Except.ok.injEq, not_or, Bool.not_eq_false, not_not] at checked
    obtain ⟨⟨finite, unit⟩, rfl⟩ := checked
    exact ⟨finite, unit⟩
  next => cases checked

theorem resultObject_eq_ok {given : TestObject R F} {w : Option (PyValue F)} (keys : DistinctKeys heap)
    (proxies : ∀ entries, given = .proxy entries → (PyValue.proxy entries).Distinct)
    (checked : resultObject numbers limit heap given = .ok w) : ∀ v ∈ w, ∃ u, KeptObject numbers u ∧ v = u.frozen := by
  cases given with
  | proxy entries =>
    obtain ⟨v, isChecked, rfl⟩ := map_eq_ok.mp checked
    intro u isIn
    obtain rfl := Option.mem_some.mp isIn
    refine keptObject_of_checkedObject (fun v holds => ?_) isChecked
    obtain rfl := (holds_itself (PyValue.plain_all (.proxy entries))).mp holds
    exact (proxies entries rfl).plain
  | object ref =>
    unfold resultObject at checked
    dsimp only at checked
    split at checked
    · cases checked
      exact nofun
    · obtain ⟨v, isChecked, rfl⟩ := map_eq_ok.mp checked
      intro u isIn
      obtain rfl := Option.mem_some.mp isIn
      exact keptObject_of_checkedObject (fun v holds => keys.holds holds) isChecked
    · cases checked

theorem built_of_construct {args : ResultArgs R F} (distinct : args.Distinct heap)
    (built : construct numbers limit heap args = .ok r) : Built numbers r := by
  unfold construct at built
  obtain ⟨summary, isSummary, built⟩ := bind_eq_ok.mp built
  obtain ⟨changedFiles, areFiles, built⟩ := bind_eq_ok.mp built
  obtain ⟨commit, isCommit, built⟩ := bind_eq_ok.mp built
  obtain ⟨testResult, isObject, built⟩ := bind_eq_ok.mp built
  obtain ⟨facts, areFacts, built⟩ := bind_eq_ok.mp built
  obtain ⟨notes, areNotes, built⟩ := bind_eq_ok.mp built
  obtain ⟨questions, areQuestions, built⟩ := bind_eq_ok.mp built
  obtain ⟨artifacts, areArtifacts, built⟩ := bind_eq_ok.mp built
  obtain ⟨confidence, isNumber, built⟩ := bind_eq_ok.mp built
  have same : r = ⟨summary, changedFiles, commit, testResult, facts, notes, questions, confidence, artifacts⟩ := by
    unfold sizeChecked at built
    split at built
    · cases built
    · rw [refuse_eq_ok, Except.ok.injEq] at built
      exact built.2.symm
  subst same
  exact ⟨fitText_of_resultText isSummary, fitTexts_of_resultTexts areFiles,
    fun t isIn => fitText_of_resultText (optional_eq_ok isCommit t isIn), resultObject_eq_ok distinct.1 distinct.2 isObject,
    fitTexts_of_resultTexts areFacts, fitTexts_of_resultTexts areNotes, fitTexts_of_resultTexts areQuestions,
    fun x isIn => resultNumber_eq_ok (optional_eq_ok isNumber x isIn), fitTexts_of_resultTexts areArtifacts⟩

end Built

/-! ### What comes back of a result -/

section Stored

variable {jsonb : Jsonb F} {limit} {r r' : NodeResult F}

/-- The result that is read: its numbers are the ones that came back. -/
def NodeResult.reread (jsonb : Jsonb F) (r : NodeResult F) : NodeResult F :=
  { r with
    testResult := r.testResult.map fun v => (jsonb.stored (thawJson v)).frozen
    confidence := r.confidence.map fun x => jsonb.read (jsonb.decimal x) }

def spelt (jsonb : Jsonb F) : Scalar F → Bool
  | .float x => decide ((jsonb.decimal x).scale ≠ 0) || (decide (jsonb.value x = (jsonb.decimal x).unscaled) &&
      decide (-maxInt ≤ (jsonb.decimal x).unscaled ∧ (jsonb.decimal x).unscaled ≤ maxInt))
  | _ => true

/-- What a result must meet to come back: its numbers are spelt exactly within 64 bits, and as they are spelt it is
within the limits. -/
structure Survives (jsonb : Jsonb F) (limit : DigitLimit) (r : NodeResult F) : Prop where
  numbers : ∀ v ∈ r.testResult, (thawJson v).all (spelt jsonb) (fun _ => true) true = true
  spent : ∀ v ∈ r.testResult, (tariff jsonb.toFloats).charge (jsonb.stored (thawJson v)) ≤ maxTestResultBytes
  small : ∀ v ∈ r.testResult, encodedBytes jsonb.toFloats limit (jsonb.stored (thawJson v)) ≤ maxTestResultBytes
  whole : ∃ size ∈ encodedSize jsonb.toFloats limit (r.reread jsonb).toJson, size ≤ maxResultBytes

variable {v : PyValue F}

theorem field_of_perm {entries : List (Scalar F × PyValue F)} {fields : List (Text × PyValue F)}
    (perm : entries.Perm (fields.map fun field => (.text field.1, field.2))) (names : (fields.map Prod.fst).Nodup)
    {name : Text} (isField : (name, v) ∈ fields) : field entries name = some v := by
  have isEntry : (Scalar.text name, v) ∈ entries := perm.mem_iff.mpr (mem_map.mpr ⟨_, isField, rfl⟩)
  unfold field
  cases found : entries.find? fun entry => isNamed name entry.1 with
  | none =>
    have isNot := find?_eq_none.mp found _ isEntry
    exact absurd (decide_eq_true rfl) isNot
  | some entry =>
    have isIts := find?_some found
    obtain ⟨other, isOther, rfl⟩ := mem_map.mp (perm.mem_iff.mp (mem_of_find?_eq_some found))
    have sameName : other.1 = name := of_decide_eq_true isIts
    have same := inj_on_of_nodup_map names isOther isField sameName
    rw [same]
    rfl

def NodeResult.storedFields (jsonb : Jsonb F) (r : NodeResult F) : List (Text × PyValue F) :=
  r.fields.map fun field => (field.1, jsonb.stored field.2)

theorem names_storedFields (r : NodeResult F) : (r.storedFields jsonb).map Prod.fst = resultFields := rfl

theorem nodup_resultFields : resultFields.Nodup := by decide

theorem stored_toJson (r : NodeResult F) : ∃ entries, jsonb.stored r.toJson = .dict entries ∧
    entries.Perm ((r.storedFields jsonb).map fun field => (.text field.1, field.2)) := by
  unfold NodeResult.toJson
  rw [Jsonb.stored_dict]
  refine ⟨_, rfl, (jsonb.perm _).trans (List.Perm.of_eq ?_)⟩
  unfold NodeResult.storedFields
  rw [map_map, map_map]
  rfl

theorem stored_textJson (t : Text) : jsonb.stored (NodeResult.textJson t) = NodeResult.textJson t := Jsonb.stored_scalar _ _

theorem stored_textsJson (texts : List Text) :
    jsonb.stored (NodeResult.textsJson texts) = NodeResult.textsJson texts := by
  unfold NodeResult.textsJson
  rw [Jsonb.stored_list, map_map]
  exact congrArg PyValue.list (map_congr_left fun t _ => stored_textJson t)

theorem stored_optionJson {α : Type} (json : α → PyValue F) (value : Option α) :
    jsonb.stored (NodeResult.optionJson json value) = NodeResult.optionJson (fun a => jsonb.stored (json a)) value := by
  cases value with
  | none => exact Jsonb.stored_scalar _ _
  | some a => rfl

def NodeResult.readArgs (jsonb : Jsonb F) (r : NodeResult F) : ResultArgs (PyValue F) F :=
  { summary := NodeResult.textJson r.summary
    changedFiles := .value (NodeResult.textsJson r.changedFiles)
    commit := NodeResult.optionJson NodeResult.textJson r.commit
    testResult := testObject (NodeResult.optionJson (fun v => jsonb.stored (thawJson v)) r.testResult)
    discoveredFacts := .value (NodeResult.textsJson r.discoveredFacts)
    dependencyNotes := .value (NodeResult.textsJson r.dependencyNotes)
    unresolvedQuestions := .value (NodeResult.textsJson r.unresolvedQuestions)
    confidence := NodeResult.optionJson (fun x => .scalar (jsonb.readBack (.float x))) r.confidence
    artifacts := .value (NodeResult.textsJson r.artifacts) }

theorem fromJson_stored (r : NodeResult F) : fromJson jsonb.toNumbers limit (jsonb.stored r.toJson) =
    construct jsonb.toNumbers limit itself (r.readArgs jsonb) := by
  obtain ⟨entries, same, perm⟩ := @stored_toJson _ jsonb r
  have names : ((r.storedFields jsonb).map Prod.fst).Nodup := @names_storedFields _ jsonb r ▸ nodup_resultFields
  have known : (entries.any fun entry => !resultFields.any fun name => isNamed name entry.1) = false := by
    rw [any_eq_false]
    intro entry isEntry
    obtain ⟨field, isField, rfl⟩ := mem_map.mp (perm.mem_iff.mp isEntry)
    have isName : field.1 ∈ resultFields := @names_storedFields _ jsonb r ▸ mem_map_of_mem isField
    rw [Bool.not_eq_true, Bool.not_eq_false', any_eq_true]
    exact ⟨field.1, isName, decide_eq_true rfl⟩
  have found : ∀ {name : Text} {v w : PyValue F}, (name, v) ∈ r.fields → jsonb.stored v = w → field entries name = some w := by
    rintro name v w isField rfl
    exact field_of_perm perm names (mem_map.mpr ⟨_, isField, rfl⟩)
  have summary : field entries (lit "summary") = some (NodeResult.textJson r.summary) :=
    found (by simp only [NodeResult.fields, mem_cons, true_or]) (stored_textJson _)
  have files : field entries (lit "changed_files") = some (NodeResult.textsJson r.changedFiles) :=
    found (by simp only [NodeResult.fields, mem_cons, true_or, or_true]) (stored_textsJson _)
  have commit : field entries (lit "commit") = some (NodeResult.optionJson NodeResult.textJson r.commit) :=
    found (by simp only [NodeResult.fields, mem_cons, true_or, or_true])
      ((stored_optionJson _ _).trans (congrArg (NodeResult.optionJson · r.commit) (funext stored_textJson)))
  have testResult : field entries (lit "test_result") =
      some (NodeResult.optionJson (fun v => jsonb.stored (thawJson v)) r.testResult) :=
    found (by simp only [NodeResult.fields, mem_cons, true_or, or_true]) (stored_optionJson _ _)
  have facts : field entries (lit "discovered_facts") = some (NodeResult.textsJson r.discoveredFacts) :=
    found (by simp only [NodeResult.fields, mem_cons, true_or, or_true]) (stored_textsJson _)
  have notes : field entries (lit "dependency_notes") = some (NodeResult.textsJson r.dependencyNotes) :=
    found (by simp only [NodeResult.fields, mem_cons, true_or, or_true]) (stored_textsJson _)
  have questions : field entries (lit "unresolved_questions") = some (NodeResult.textsJson r.unresolvedQuestions) :=
    found (by simp only [NodeResult.fields, mem_cons, true_or, or_true]) (stored_textsJson _)
  have confidence : field entries (lit "confidence") =
      some (NodeResult.optionJson (fun x => .scalar (jsonb.readBack (.float x))) r.confidence) :=
    found (by simp only [NodeResult.fields, mem_cons, true_or, or_true])
      ((stored_optionJson _ _).trans (congrArg (NodeResult.optionJson · r.confidence) (funext fun x => Jsonb.stored_scalar _ _)))
  have artifacts : field entries (lit "artifacts") = some (NodeResult.textsJson r.artifacts) :=
    found (by simp only [NodeResult.fields, mem_cons, true_or, or_true]) (stored_textsJson _)
  have args : argsOf (NodeResult.textJson r.summary) entries = r.readArgs jsonb := by
    unfold argsOf NodeResult.readArgs
    dsimp only
    rw [files, commit, testResult, facts, notes, questions, confidence, artifacts]
    rfl
  rw [same]
  unfold fromJson
  rw [entriesOf, orThrow]
  dsimp only [bind, Except.bind]
  rw [known, if_neg Bool.false_ne_true, summary, orThrow]
  dsimp only
  rw [args]

theorem optional_of_forall {α : Type} {check : PyValue F → Except ResultError α} {json : α → PyValue F} {value : Option α}
    (container : ∀ a, json a ≠ .scalar .none) (each : ∀ a ∈ value, check (json a) = .ok a) :
    optional check (NodeResult.optionJson json value) = .ok value := by
  cases value with
  | none => rfl
  | some a =>
    have checked := each a (Option.mem_some_self a)
    unfold optional NodeResult.optionJson
    rw [Option.map_some, Option.getD_some]
    split
    next isNone => exact absurd isNone (container a)
    next => rw [checked]; rfl

theorem resultNumber_readBack {x : F} (finite : jsonb.finite x = true) (low : 0 ≤ jsonb.value x) (high : jsonb.value x ≤ 1) :
    resultNumber jsonb.toNumbers (.scalar (jsonb.readBack (.float x))) = .ok (jsonb.read (jsonb.decimal x)) ∧
      jsonb.value (jsonb.read (jsonb.decimal x)) = jsonb.value x := by
  have scaled : (jsonb.decimal x).scale ≠ 0 := by
    refine jsonb.fraction x finite ?_
    rw [abs_of_nonneg low]
    exact high.trans_lt (by norm_num)
  have value := jsonb.value_read finite scaled
  refine ⟨?_, value⟩
  unfold Jsonb.readBack resultNumber
  dsimp only
  rw [if_neg scaled]
  dsimp only
  rw [if_neg]
  rw [jsonb.finite_read finite scaled, value]
  exact not_or.mpr ⟨Bool.noConfusion, not_not.mpr ⟨low, high⟩⟩

theorem thaw_frozen (copied : v.plain = v) : thawJson v.frozen = v := by
  have thawed := thaw_freeze v
  rw [copied] at thawed
  exact thawed

theorem checkedObject_stored (kept : KeptObject jsonb.toNumbers v) {w : PyValue F} :
    checkedObject jsonb.toNumbers limit itself (jsonb.stored v) = .ok w ↔
      ((jsonb.stored v).all (fitScalar jsonb.toFloats (-maxInt)) fitKey true = true ∧
        (tariff jsonb.toFloats).charge (jsonb.stored v) ≤ maxTestResultBytes ∧
        encodedBytes jsonb.toFloats limit (jsonb.stored v) ≤ maxTestResultBytes) ∧ w = (jsonb.stored v).frozen := by
  obtain ⟨entries, rfl⟩ := kept.object
  have json := @Jsonb.stored_all _ jsonb _ _ _ kept.fit
  have isPlain : (jsonb.stored (.dict entries)).plain = jsonb.stored (.dict entries) := PyValue.plain_eq_self json
  rw [checkedObject_eq_ok]
  constructor
  · rintro ⟨u, holds, fits, rfl⟩
    obtain rfl := (holds_itself json).mp holds
    exact ⟨⟨fits.fit, fits.spent, fits.small⟩, by rw [isPlain]⟩
  · rintro ⟨⟨fit, spent, small⟩, rfl⟩
    refine ⟨_, (holds_itself fit).mpr rfl, ⟨⟨_, Jsonb.stored_dict _ _⟩, fit, ?_, spent, small⟩, by rw [isPlain]⟩
    exact (Jsonb.depth_stored _).le.trans kept.nested

theorem resultObject_stored (built : Built jsonb.toNumbers r) {given : Option (PyValue F)} :
    resultObject jsonb.toNumbers limit itself
        (testObject (NodeResult.optionJson (fun v => jsonb.stored (thawJson v)) r.testResult)) = .ok given ↔
      (∀ v ∈ r.testResult, (jsonb.stored (thawJson v)).all (fitScalar jsonb.toFloats (-maxInt)) fitKey true = true ∧
        (tariff jsonb.toFloats).charge (jsonb.stored (thawJson v)) ≤ maxTestResultBytes ∧
        encodedBytes jsonb.toFloats limit (jsonb.stored (thawJson v)) ≤ maxTestResultBytes) ∧
      given = (r.reread jsonb).testResult := by
  have known := built.testResult
  unfold NodeResult.reread
  dsimp only
  cases isObject : r.testResult with
  | none =>
    refine Iff.trans ?_ (and_iff_right (fun v isIn => absurd isIn (Option.not_mem_none v))).symm
    exact ⟨fun same => (Except.ok.inj same).symm, fun same => congrArg Except.ok same.symm⟩
  | some w =>
    obtain ⟨v, kept, rfl⟩ := known w isObject
    obtain ⟨entries, isDict⟩ := kept.object
    have thawed : thawJson v.frozen = v := thaw_frozen kept.copied
    have object : resultObject jsonb.toNumbers limit itself
        (testObject (NodeResult.optionJson (fun v => jsonb.stored (thawJson v)) (some v.frozen))) =
        (checkedObject jsonb.toNumbers limit itself (jsonb.stored v)).map some := by
      show resultObject jsonb.toNumbers limit itself (testObject (jsonb.stored (thawJson v.frozen))) = _
      rw [thawed, isDict, Jsonb.stored_dict]
      rfl
    rw [object, map_eq_ok]
    simp only [Option.mem_some, forall_eq', thawed, Option.map_some]
    constructor
    · rintro ⟨u, isChecked, rfl⟩
      obtain ⟨fits, rfl⟩ := (checkedObject_stored kept).mp isChecked
      exact ⟨fits, rfl⟩
    · rintro ⟨fits, rfl⟩
      exact ⟨_, (checkedObject_stored kept).mpr ⟨fits, rfl⟩, rfl⟩

theorem construct_readArgs (built : Built jsonb.toNumbers r) :
    construct jsonb.toNumbers limit itself (r.readArgs jsonb) = .ok r' ↔
      ((∀ v ∈ r.testResult, (jsonb.stored (thawJson v)).all (fitScalar jsonb.toFloats (-maxInt)) fitKey true = true ∧
        (tariff jsonb.toFloats).charge (jsonb.stored (thawJson v)) ≤ maxTestResultBytes ∧
        encodedBytes jsonb.toFloats limit (jsonb.stored (thawJson v)) ≤ maxTestResultBytes) ∧
        ∃ size ∈ encodedSize jsonb.toFloats limit (r.reread jsonb).toJson, size ≤ maxResultBytes) ∧ r' = r.reread jsonb := by
  have summary := resultText_of_fit (F := F) built.summary
  have files := resultTexts_of_fit (F := F) built.changedFiles
  have commit : optional (resultText maxCommitChars false) (NodeResult.optionJson NodeResult.textJson r.commit : PyValue F) =
      .ok r.commit :=
    optional_of_forall (fun _ => nofun) fun t isIn => resultText_of_fit (built.commit t isIn)
  have facts := resultTexts_of_fit (F := F) built.discoveredFacts
  have notes := resultTexts_of_fit (F := F) built.dependencyNotes
  have questions := resultTexts_of_fit (F := F) built.unresolvedQuestions
  have artifacts := resultTexts_of_fit (F := F) built.artifacts
  have confidence : optional (resultNumber jsonb.toNumbers)
      (NodeResult.optionJson (fun x => .scalar (jsonb.readBack (.float x))) r.confidence) =
        .ok (r.confidence.map fun x => jsonb.read (jsonb.decimal x)) := by
    cases isNumber : r.confidence with
    | none => rfl
    | some x =>
      obtain ⟨finite, low, high⟩ := built.confidence x isNumber
      have read := (resultNumber_readBack finite low high).1
      unfold optional NodeResult.optionJson
      rw [Option.map_some, Option.getD_some]
      split
      next isNone =>
        rw [isNone] at read
        cases read
      next =>
        rw [read]
        rfl
  unfold construct NodeResult.readArgs
  dsimp only
  rw [summary, files, commit, facts, notes, questions, artifacts, confidence]
  dsimp only [bind, Except.bind]
  cases isObject : resultObject jsonb.toNumbers limit itself
      (testObject (NodeResult.optionJson (fun v => jsonb.stored (thawJson v)) r.testResult)) with
  | error e =>
    refine iff_of_false nofun ?_
    rintro ⟨⟨fits, -⟩, -⟩
    rw [(resultObject_stored built).mpr ⟨fits, rfl⟩] at isObject
    cases isObject
  | ok given =>
    obtain ⟨fits, rfl⟩ := (resultObject_stored built).mp isObject
    have same : sizeChecked jsonb.toNumbers limit (r.reread jsonb) = .ok r' ↔
        (∃ size ∈ encodedSize jsonb.toFloats limit (r.reread jsonb).toJson, size ≤ maxResultBytes) ∧ r' = r.reread jsonb := by
      unfold sizeChecked
      cases encodedSize jsonb.toFloats limit (r.reread jsonb).toJson with
      | none =>
        refine iff_of_false nofun ?_
        rintro ⟨⟨_, isIn, -⟩, -⟩
        exact absurd isIn (Option.not_mem_none _)
      | some size =>
        dsimp only
        rw [refuse_eq_ok, Except.ok.injEq, not_lt, eq_comm (a := r')]
        simp only [Option.mem_some, exists_eq_left']
    exact same.trans (and_congr_left fun _ => (and_iff_right fits).symm)

theorem spelt_iff (kept : KeptObject jsonb.toNumbers v) :
    v.all (spelt jsonb) (fun _ => true) true = true ↔ v.all jsonb.exact (fun _ => true) true = true ∧
      (jsonb.stored v).all (fitScalar jsonb.toFloats (-maxInt)) fitKey true = true := by
  rw [Jsonb.all_stored]
  constructor
  · intro all
    have both := PyValue.all_and all kept.fit
    refine ⟨PyValue.all_imp both (fun s holds => ?_) (fun _ _ => rfl) id, PyValue.all_imp both (fun s holds => ?_)
      (fun _ isKey => isKey) id⟩
    · obtain ⟨isSpelt, -⟩ := Bool.and_eq_true_iff.mp holds
      cases s with
      | float x =>
        rw [spelt, Bool.or_eq_true, Bool.and_eq_true] at isSpelt
        exact Bool.or_eq_true_iff.mpr (isSpelt.imp_right And.left)
      | _ => rfl
    · obtain ⟨isSpelt, isFit⟩ := Bool.and_eq_true_iff.mp holds
      cases s with
      | float x =>
        unfold Jsonb.readBack
        dsimp only
        by_cases whole : (jsonb.decimal x).scale = 0
        · rw [if_pos whole]
          rw [spelt, Bool.or_eq_true, Bool.and_eq_true, decide_eq_true_eq] at isSpelt
          exact (isSpelt.resolve_left (not_not.mpr whole)).2
        · rw [if_neg whole]
          exact jsonb.finite_read isFit whole
      | _ => exact isFit
  · rintro ⟨exact, fit⟩
    refine PyValue.all_imp (PyValue.all_and exact fit) (fun s holds => ?_) (fun _ _ => rfl) id
    obtain ⟨isExact, isFit⟩ := Bool.and_eq_true_iff.mp holds
    cases s with
    | float x =>
      rw [Jsonb.exact, Bool.or_eq_true, decide_eq_true_eq] at isExact
      rw [spelt, Bool.or_eq_true, Bool.and_eq_true, decide_eq_true_eq]
      unfold Jsonb.readBack at isFit
      dsimp only at isFit
      by_cases whole : (jsonb.decimal x).scale = 0
      · rw [if_pos whole] at isFit
        exact .inr ⟨isExact.resolve_left (not_not.mpr whole), isFit⟩
      · exact .inl whole
    | _ => rfl

theorem equal_reread_iff (built : Built jsonb.toNumbers r) : (r.reread jsonb).equal jsonb.toNumbers r = true ↔
    ∀ v ∈ r.testResult, (thawJson v).all jsonb.exact (fun _ => true) true = true := by
  have sameNumber : ∀ x ∈ r.confidence, jsonb.value (jsonb.read (jsonb.decimal x)) = jsonb.value x := by
    intro x isIn
    obtain ⟨finite, low, high⟩ := built.confidence x isIn
    exact (resultNumber_readBack finite low high).2
  have object : ∀ w ∈ r.testResult, (jsonb.stored (thawJson w)).frozen.equal jsonb.toNumbers w =
      (thawJson w).all jsonb.exact (fun _ => true) true := by
    intro w isIn
    obtain ⟨v, kept, rfl⟩ := built.testResult w isIn
    rw [thaw_frozen kept.copied]
    refine Jsonb.equal_frozen_stored kept.fit (fun s isFit => ⟨?_, ?_⟩) (fun s isKey => ?_) kept.distinct
    · rintro rfl
      cases isFit
    · rintro x rfl
      exact isFit
    · cases s with
      | text t => exact ⟨t, rfl⟩
      | _ => cases isKey
  unfold NodeResult.equal NodeResult.reread
  dsimp only
  rw [Bool.and_eq_true, Bool.and_eq_true, and_assoc, decide_eq_true_eq, and_iff_right ⟨rfl, rfl, rfl, rfl, rfl, rfl, rfl⟩,
    and_iff_left]
  · cases isObject : r.testResult with
    | none => exact iff_of_true rfl fun v isIn => absurd isIn (Option.not_mem_none v)
    | some w =>
      rw [Option.map_some]
      dsimp only
      rw [object w isObject]
      simp only [Option.mem_some, forall_eq']
  · cases isNumber : r.confidence with
    | none => rfl
    | some x => exact decide_eq_true (sameNumber x isNumber)

/-- **A result is read back equal** exactly where its numbers are spelt exactly within 64 bits, and as they are spelt
it is within the limits. -/
theorem fromJson_stored_iff {R : Type} (jsonb : Jsonb F) (limit : DigitLimit) (heap : Heap R F) {args : ResultArgs R F} (distinct : args.Distinct heap)
    (built : construct jsonb.toNumbers limit heap args = .ok r) :
    (∃ r', fromJson jsonb.toNumbers limit (jsonb.stored r.toJson) = .ok r' ∧ r'.equal jsonb.toNumbers r = true) ↔
      Survives jsonb limit r := by
  have holds := built_of_construct distinct built
  have read := fun r' => (@fromJson_stored _ limit jsonb r).symm ▸ @construct_readArgs _ limit jsonb r r' holds
  have comesBack : (r.reread jsonb).equal jsonb.toNumbers r = true ↔
      ∀ v ∈ r.testResult, (thawJson v).all jsonb.exact (fun _ => true) true = true := equal_reread_iff holds
  constructor
  · rintro ⟨r', isRead, isEqual⟩
    obtain ⟨⟨fits, whole⟩, rfl⟩ := (read r').mp isRead
    refine ⟨fun v isIn => ?_, fun v isIn => (fits v isIn).2.1, fun v isIn => (fits v isIn).2.2, whole⟩
    obtain ⟨u, kept, rfl⟩ := holds.testResult v isIn
    have exact := comesBack.mp isEqual _ isIn
    have fit := (fits _ isIn).1
    rw [thaw_frozen kept.copied] at exact fit ⊢
    exact (spelt_iff kept).mpr ⟨exact, fit⟩
  · intro survives
    have both : ∀ v ∈ r.testResult, (thawJson v).all jsonb.exact (fun _ => true) true = true ∧
        (jsonb.stored (thawJson v)).all (fitScalar jsonb.toFloats (-maxInt)) fitKey true = true := by
      intro v isIn
      obtain ⟨u, kept, rfl⟩ := holds.testResult v isIn
      have isSpelt := survives.numbers _ isIn
      rw [thaw_frozen kept.copied] at isSpelt ⊢
      exact (spelt_iff kept).mp isSpelt
    refine ⟨r.reread jsonb, (read _).mpr ⟨⟨fun v isIn => ?_, survives.whole⟩, rfl⟩, comesBack.mpr fun v isIn => (both v isIn).1⟩
    exact ⟨(both v isIn).2, survives.spent v isIn, survives.small v isIn⟩

end Stored

/-! ### A number that does not come back -/

/-- The floats `0.0`, `0.5`, `1.0` and `1e19`. -/
inductive SampleFloat
  | zero
  | half
  | one
  | large
  deriving DecidableEq

namespace SampleFloat

def text : SampleFloat → Text
  | zero => lit "0.0"
  | half => lit "0.5"
  | one => lit "1.0"
  | large => lit "1e+19"

def value : SampleFloat → ℚ
  | zero => 0
  | half => 1 / 2
  | one => 1
  | large => 10 ^ 19

def ofDecimal (d : Decimal) : SampleFloat :=
  if d.unscaled = 0 then zero else if d.unscaled = 5 then half else if d.unscaled = 10 then one else large

def ofInteger (n : ℤ) : Option SampleFloat := if n = 0 then some zero else if n = 1 then some one else some large

theorem ascii (x : SampleFloat) : ∀ c ∈ x.text, c < 0x80 := by cases x <;> decide

theorem written (x : SampleFloat) (_ : true = true) : x.text = x.text := rfl

theorem finite_zero : (fun _ : SampleFloat => true) zero = true := rfl

theorem value_zero : zero.value = 0 := rfl

theorem scaled_of_small (x : SampleFloat) (_ : true = true) (small : |x.value| < 10 ^ 16) : (Decimal.ofText x.text).scale ≠ 0 := by
  cases x with
  | large =>
    have large : ¬ |(10 : ℚ) ^ 19| < 10 ^ 16 := by norm_num
    exact absurd small large
  | _ => decide

theorem ofDecimal_text (x : SampleFloat) (_ : true = true) (scaled : (Decimal.ofText x.text).scale ≠ 0) :
    ofDecimal (Decimal.ofText x.text) = x ∨ x.value = 0 ∧ ofDecimal (Decimal.ofText x.text) = zero := by
  cases x with
  | large => exact absurd (by decide) scaled
  | _ => exact .inl (by decide)

theorem ofInteger_unit (n : ℤ) (low : 0 ≤ n) (high : n ≤ 1) : ∃ x, ofInteger n = some x ∧ true = true ∧ x.value = n := by
  obtain rfl | rfl : n = 0 ∨ n = 1 := by omega
  · exact ⟨zero, rfl, rfl, by simp [value]⟩
  · exact ⟨one, rfl, rfl, by simp [value]⟩

end SampleFloat

/-- A column that keeps the order of entries. -/
def sampleColumn : Jsonb SampleFloat where
  finite := fun _ => true
  repr := SampleFloat.text
  written := SampleFloat.text
  written_of_finite := SampleFloat.written
  ascii := SampleFloat.ascii
  value := SampleFloat.value
  zero := .zero
  read := SampleFloat.ofDecimal
  ofInt := SampleFloat.ofInteger
  zero_finite := SampleFloat.finite_zero
  zero_value := SampleFloat.value_zero
  fraction := SampleFloat.scaled_of_small
  reread := SampleFloat.ofDecimal_text
  ofInt_unit := SampleFloat.ofInteger_unit
  order := id
  perm := List.Perm.refl

/-- The graph of `{"x": x}`. -/
def sampleHeap (x : SampleFloat) : Heap Bool SampleFloat := fun ref =>
  if ref then .dict [(.text (lit "x"), false)] else .scalar (.float x)

/-- `NodeResult(summary="ok", test_result={"x": x}, confidence=0.5)`. -/
def sampleArgs : ResultArgs Bool SampleFloat :=
  { summary := .scalar (.text (lit "ok"))
    changedFiles := .value (.tuple [])
    commit := .scalar .none
    testResult := .object true
    discoveredFacts := .value (.tuple [])
    dependencyNotes := .value (.tuple [])
    unresolvedQuestions := .value (.tuple [])
    confidence := .scalar (.float .half)
    artifacts := .value (.tuple []) }

theorem sampleArgs_distinct (x : SampleFloat) : sampleArgs.Distinct (sampleHeap x) := by
  refine ⟨fun ref entries here => ?_, fun entries wrong => by cases wrong⟩
  cases ref with
  | true =>
    cases here
    exact nodup_singleton _
  | false => cases here

/-- What is built of them. -/
def sampleResult (x : SampleFloat) : NodeResult SampleFloat :=
  { summary := lit "ok", testResult := some (.proxy [(.text (lit "x"), .scalar (.float x))]), confidence := some .half }

set_option maxRecDepth 20000 in
theorem sampleResult_survives : Survives sampleColumn ⟨0, Or.inl rfl⟩ (sampleResult .half) :=
  (@fromJson_stored_iff _ (sampleResult .half) _ sampleColumn ⟨0, Or.inl rfl⟩ (sampleHeap .half) sampleArgs
    (sampleArgs_distinct .half) (by with_unfolding_all rfl)).mp
    ⟨sampleResult .half, by with_unfolding_all rfl, by decide +kernel⟩

set_option maxRecDepth 20000 in
/-- `1e19` is accepted, comes back as an integer beyond 64 bits, and is refused when it is read. -/
theorem large_unreadable :
    construct sampleColumn.toNumbers ⟨0, Or.inl rfl⟩ (sampleHeap .large) sampleArgs = .ok (sampleResult .large) ∧
    fromJson sampleColumn.toNumbers ⟨0, Or.inl rfl⟩ (sampleColumn.stored (sampleResult .large).toJson) =
      .error (.refused .badType) :=
  ⟨by with_unfolding_all rfl, by with_unfolding_all rfl⟩

end PawBackend.Orchestrator.Result
