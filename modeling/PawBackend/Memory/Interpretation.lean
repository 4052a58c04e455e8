/-
**What a free-text answer means** (`memory/preferences/interpretation.py`: `StructuredPreference`, `RuleInterpreter`).

The rule interpreter looks for a few phrases in the answer, in the normal form NFKC, and builds a preference from the
candidate's own text and from what the answer parts. A preference checks every one of its texts when it is built, by
rules that neither the journal nor the service asks of the texts they accept.
-/

import PawBackend.Lib.Cuts
import PawBackend.Memory.Consolidation

namespace PawBackend.Memory.Preferences

open Lib Lib.Regex List
open Tools (Uuid Instant)
open Lib.Text (lit)

/-! ### Checked texts -/

inductive InputProblem
  | required
  | blank
  | tooLong
  | tooMany
  | invalidCharacters
  | naiveDatetime
  | notAllowed
  deriving DecidableEq, Repr

inductive Field
  | text
  | rule
  | exceptions
  | applyTo
  | expiresAt
  | projectId
  | repoId
  deriving DecidableEq, Repr

def Field.name : Field → Text
  | .text => lit "text"
  | .rule => lit "rule"
  | .exceptions => lit "exceptions"
  | .applyTo => lit "apply_to"
  | .expiresAt => lit "expires_at"
  | .projectId => lit "project_id"
  | .repoId => lit "repo_id"

/-- `InvalidMemoryInputError`. -/
structure InvalidMemoryInput where
  field : Field
  problem : InputProblem
  deriving DecidableEq

/-- The general category Cc. -/
def isControl (c : ℕ) : Bool := decide (c < 32 ∨ (127 ≤ c ∧ c ≤ 159))

def isSurrogate (c : ℕ) : Bool := decide (0xD800 ≤ c ∧ c ≤ 0xDFFF)

def validateText (field : Field) (value : Option Text) (maxChars : ℕ) : Except InvalidMemoryInput Text :=
  match value with
  | none => .error ⟨field, .required⟩
  | some t =>
    if maxChars < t.length then .error ⟨field, .tooLong⟩
    else if 0 ∈ t ∨ t.any isSurrogate then .error ⟨field, .invalidCharacters⟩
    else if stripped t = [] then .error ⟨field, .blank⟩
    else .ok t

def clean (field : Field) (value : Option Text) (maxChars : ℕ) : Except InvalidMemoryInput Text := do
  let t ← validateText field value maxChars
  if stripped t = [] then .error ⟨field, .blank⟩
  else if t.any fun c => isControl c && decide (c ∉ lit "\n\t") then .error ⟨field, .invalidCharacters⟩
  else .ok (stripped t)

/-! ### The structure -/

inductive TargetScope
  | repo
  | project
  | user
  deriving DecidableEq, Repr

inductive InterpretedScope
  | repo
  | project
  | user
  | projectGroup
  deriving DecidableEq, Repr

/-- `InterpretedScope(recommended.value)`. -/
def TargetScope.interpreted : TargetScope → InterpretedScope
  | .repo => .repo
  | .project => .project
  | .user => .user

inductive Strength
  | default
  | required
  deriving DecidableEq, Repr

/-- A `datetime`: its time is known where it has an offset. -/
inductive Datetime
  | naive
  | aware (time : Instant)
  deriving DecidableEq

def maxFreeTextChars : ℕ := 2000

def maxRuleChars : ℕ := 2000

def maxExceptions : ℕ := 10

def maxExceptionChars : ℕ := 500

def maxApplyToChars : ℕ := 200

structure StructuredPreference where
  scope : InterpretedScope
  rule : Text
  exceptions : List Text := []
  applyTo : Option Text := none
  strength : Strength := .default
  expiresAt : Option Datetime := none
  projectId : Option Uuid := none
  repoId : Option Uuid := none
  deriving DecidableEq

namespace StructuredPreference

/-- `apply_to` is asked for by a project group, and by nothing else. -/
def checkApplyTo (p : StructuredPreference) : Except InvalidMemoryInput (Option Text) :=
  if p.scope = .projectGroup then (clean .applyTo p.applyTo maxApplyToChars).map some
  else if p.applyTo ≠ none then .error ⟨.applyTo, .notAllowed⟩
  else .ok none

def checkIds (p : StructuredPreference) : Except InvalidMemoryInput Unit :=
  if p.expiresAt = some .naive then .error ⟨.expiresAt, .naiveDatetime⟩
  else if p.projectId ≠ none ∧ ¬ (p.scope = .project ∨ p.scope = .repo) then .error ⟨.projectId, .notAllowed⟩
  else if p.repoId ≠ none ∧ p.scope ≠ .repo then .error ⟨.repoId, .notAllowed⟩
  else .ok ()

/-- `__post_init__`. -/
def construct (p : StructuredPreference) : Except InvalidMemoryInput StructuredPreference := do
  let rule ← clean .rule (some p.rule) maxRuleChars
  if maxExceptions < p.exceptions.length then .error ⟨.exceptions, .tooMany⟩
  else do
    let exceptions ← p.exceptions.mapM fun e => clean .exceptions (some e) maxExceptionChars
    let applyTo ← p.checkApplyTo
    p.checkIds
    .ok { p with rule := rule, exceptions := exceptions, applyTo := applyTo }

end StructuredPreference

/-! ### The rule interpreter -/

/-- A letter of a pattern, as `re.I` matches it. -/
def ignoringCase (letter c : ℕ) : Bool :=
  decide (c = letter ∨ (Text.isLower letter = true ∧ c + 32 = letter) ∨ (letter = 105 ∧ (c = 0x130 ∨ c = 0x131)) ∨
    (letter = 107 ∧ c = 0x212A) ∨ (letter = 115 ∧ c = 0x17F))

def word (t : String) : Regex := (lit t).foldr (fun c rest => .seq (.set (ignoringCase c)) rest) .empty

/-- `\s*`. -/
def blanks : Regex := .many Text.isSpace 0 none true

/-- `_REPO`. -/
def repoWords : Regex :=
  oneOf [sequence [word "この", blanks, oneOf [word "repo", word "repository", word "リポジトリ", word "レポジトリ"]],
    word "this repo"]

/-- `(project|プロジェクト)`. -/
def projectWord : Regex := oneOf [word "project", word "プロジェクト"]

/-- `_PROJECT`. -/
def projectWords : Regex := oneOf [sequence [word "この", blanks, projectWord], word "this project"]

/-- `_ALL`. -/
def allWords : Regex :=
  oneOf [sequence [oneOf [word "すべて", word "全て", word "全部", word "全"], .optional (word "の"), blanks, projectWord],
    word "どこでも", word "all projects", word "everywhere"]

/-- `_GROUP`. -/
def groupWords : Regex :=
  sequence [.many (fun c => !Text.isSpace c && decide (c ∉ lit "、。,.")) 1 (some 40) false,
    oneOf [word "系", word "関連"], .optional (word "の"), blanks, projectWord]

/-- `_EXCEPT`. -/
def exceptWords : Regex := oneOf [word "ただし", word "但し", word "ただ、", word "except", word "but "]

/-- `_REQUIRED`. -/
def requiredWords : Regex := oneOf [word "必ず", word "必須", word "絶対", word "must", word "required"]

def trim : Text := lit " \t\n、。,.!！"

def namedScope (main : Text) (recommended : TargetScope) : InterpretedScope × Option Text :=
  if repoWords.search main then (.repo, none)
  else if projectWords.search main then (.project, none)
  else if allWords.search main then (.user, none)
  else
    match groupWords.find main with
    | some (_, phrase, _) => (.projectGroup, some (phrase.strip trim))
    | none => (recommended.interpreted, none)

/-- The candidate's own text, or else what the answer parts. -/
def ruleText (candidate : Option Text) (main folded : Text) : Text :=
  let rule :=
    match candidate with
    | some own => if stripped own ≠ [] then own else main.strip trim
    | none => main.strip trim
  if rule = [] then folded.strip trim else rule

def interpretText (fold : Folding) (text : Text) (candidate : Option Text) (recommended : TargetScope) :
    Except InvalidMemoryInput StructuredPreference :=
  let folded := fold.nfkc text
  let (main, excepted) :=
    match exceptWords.find folded with
    | some (before, _, after) => (before, [after.strip trim])
    | none => (folded, [])
  let exceptions := (excepted.filter fun e => decide (e ≠ [])).map fun e => e.take maxExceptionChars
  let (scope, applyTo) := namedScope main recommended
  StructuredPreference.construct
    { scope := scope, rule := (ruleText candidate main folded).take maxRuleChars, exceptions := exceptions
      applyTo := applyTo, strength := if requiredWords.search main then .required else .default }

/-! ### What the journal stores -/

inductive OutputProblem
  | wrongType
  | invalidValue
  deriving DecidableEq, Repr

/-- `MAX_CONTENT_CHARS` of the journal. -/
def maxContentChars : ℕ := 8000

/-- `memory/journal/worker.py`: `_content`. -/
def workerContent (value : Option Text) : Except OutputProblem Text :=
  match value with
  | none => .error .wrongType
  | some t =>
    if t.all Text.isSpace ∨ maxContentChars < t.length ∨ 0 ∈ t ∨ t.any isSurrogate then .error .invalidValue else .ok t

/-! ### What a preference accepts -/

/-- A text shows something, and holds no control character but line feeds and tabs. -/
structure Readable (t : Text) : Prop where
  visible : ∃ c ∈ t, Text.isSpace c = false
  plain : ∀ c ∈ t, isControl c = true → c ∈ lit "\n\t"

variable {t : Text} {field : Field} {maxChars : ℕ}

theorem stripped_ne_nil : stripped t ≠ [] ↔ ∃ c ∈ t, Text.isSpace c = false := by
  rw [Ne, show stripped t = trimBy Text.isSpace t from rfl, trimBy_eq_nil]
  simp

theorem stripped_stripped (t : Text) : stripped (stripped t) = stripped t := trimBy_trimBy _ t

theorem Readable.stripped (readable : Readable t) : Readable (stripped t) := by
  obtain ⟨c, isIn, isVisible⟩ := readable.visible
  exact ⟨⟨c, mem_trimBy isIn isVisible, isVisible⟩, fun d isIn => readable.plain d (mem_of_mem_trimBy isIn)⟩

theorem isControl_zero : isControl 0 = true := by decide

theorem zero_not_allowed : 0 ∉ lit "\n\t" := by decide

theorem clean_eq_ok {t' : Text} : clean field (some t) maxChars = .ok t' ↔
    t.length ≤ maxChars ∧ (∀ c ∈ t, isSurrogate c = false) ∧ Readable t ∧ stripped t = t' := by
  have noSurrogate : ¬ (t.any isSurrogate = true) ↔ ∀ c ∈ t, isSurrogate c = false := by simp
  have plain : ¬ ((t.any fun c => isControl c && decide (c ∉ lit "\n\t")) = true) ↔
      ∀ c ∈ t, isControl c = true → c ∈ lit "\n\t" := by
    simp
  unfold clean validateText
  rw [bind_eq_ok]
  simp only [refuse_eq_ok, not_or, Nat.not_lt, noSurrogate, Except.ok.injEq, and_assoc]
  constructor
  · rintro ⟨_, short, -, encodes, -, rfl, shows, allowed, rfl⟩
    exact ⟨short, encodes, ⟨stripped_ne_nil.mp shows, plain.mp allowed⟩, rfl⟩
  · rintro ⟨short, encodes, readable, rfl⟩
    have shows := stripped_ne_nil.mpr readable.visible
    exact ⟨t, short, fun isNul => zero_not_allowed (readable.plain 0 isNul isControl_zero), encodes, shows, rfl, shows,
      plain.mpr readable.plain, rfl⟩

theorem exists_clean_iff : (∃ t', clean field (some t) maxChars = .ok t') ↔
    t.length ≤ maxChars ∧ (∀ c ∈ t, isSurrogate c = false) ∧ Readable t :=
  ⟨fun ⟨_, passed⟩ => ⟨((clean_eq_ok).mp passed).1, ((clean_eq_ok).mp passed).2.1, ((clean_eq_ok).mp passed).2.2.1⟩,
    fun ⟨short, encodes, readable⟩ => ⟨_, (clean_eq_ok).mpr ⟨short, encodes, readable, rfl⟩⟩⟩

theorem clean_of_clean {t' : Text} (passed : clean field (some t) maxChars = .ok t') :
    clean field (some t') maxChars = .ok t' := by
  obtain ⟨short, encodes, readable, rfl⟩ := (clean_eq_ok).mp passed
  exact (clean_eq_ok).mpr ⟨(length_trimBy_le _ t).trans short, fun c isIn => encodes c (mem_of_mem_trimBy isIn),
    readable.stripped, stripped_stripped t⟩

namespace StructuredPreference

variable {p q : StructuredPreference}

theorem construct_eq_ok : p.construct = .ok q ↔ ∃ rule exceptions applyTo,
    clean .rule (some p.rule) maxRuleChars = .ok rule ∧ p.exceptions.length ≤ maxExceptions ∧
    (p.exceptions.mapM fun e => clean .exceptions (some e) maxExceptionChars) = .ok exceptions ∧
    p.checkApplyTo = .ok applyTo ∧ p.checkIds = .ok () ∧
    { p with rule := rule, exceptions := exceptions, applyTo := applyTo } = q := by
  unfold construct
  simp only [bind_eq_ok, refuse_eq_ok, Nat.not_lt, Except.ok.injEq]
  constructor
  · rintro ⟨rule, isRule, few, exceptions, areExceptions, applyTo, isApplyTo, _, ids, isIts⟩
    exact ⟨rule, exceptions, applyTo, isRule, few, areExceptions, isApplyTo, ids, isIts⟩
  · rintro ⟨rule, exceptions, applyTo, isRule, few, areExceptions, isApplyTo, ids, isIts⟩
    exact ⟨rule, isRule, few, exceptions, areExceptions, applyTo, isApplyTo, (), ids, isIts⟩

theorem mapM_of_fixed {α ε : Type} {f : α → Except ε α} {values results : List α} (accepted : values.mapM f = .ok results)
    (fixed : ∀ {a b}, f a = .ok b → f b = .ok b) :
    results.mapM f = .ok results ∧ results.length = values.length := by
  induction values generalizing results with
  | nil =>
    cases pure_eq_ok.mp accepted
    exact ⟨rfl, rfl⟩
  | cons a values ih =>
    obtain ⟨b, rest, isFirst, others, rfl⟩ := mapM_cons_eq_ok.mp accepted
    obtain ⟨again, sameLength⟩ := ih others
    exact ⟨mapM_cons_eq_ok.mpr ⟨b, rest, fixed isFirst, again, rfl⟩, congrArg Nat.succ sameLength⟩

theorem construct_construct (built : p.construct = .ok q) : q.construct = .ok q := by
  obtain ⟨rule, exceptions, applyTo, isRule, few, areExceptions, isApplyTo, ids, rfl⟩ := construct_eq_ok.mp built
  obtain ⟨again, sameLength⟩ := mapM_of_fixed areExceptions clean_of_clean
  refine construct_eq_ok.mpr ⟨rule, exceptions, applyTo, clean_of_clean isRule, sameLength ▸ few, again, ?_, ids, rfl⟩
  unfold checkApplyTo at isApplyTo ⊢
  dsimp only
  split_ifs at isApplyTo with isGroup given
  · obtain ⟨named, isNamed, rfl⟩ := map_eq_ok.mp isApplyTo
    rw [if_pos isGroup]
    cases isAsked : p.applyTo with
    | none =>
      rw [isAsked] at isNamed
      cases isNamed
    | some phrase =>
      rw [isAsked] at isNamed
      rw [clean_of_clean isNamed]
      rfl
  · cases isApplyTo
    rw [if_neg isGroup, if_neg (not_not.mpr rfl)]

theorem exists_construct_iff {scope : InterpretedScope} {rule : Text} {exceptions : List Text} {applyTo : Option Text}
    {strength : Strength} :
    (∃ q, construct { scope := scope, rule := rule, exceptions := exceptions, applyTo := applyTo, strength := strength } = .ok q) ↔
      (∃ t, clean .rule (some rule) maxRuleChars = .ok t) ∧ exceptions.length ≤ maxExceptions ∧
      (∀ e ∈ exceptions, ∃ t, clean .exceptions (some e) maxExceptionChars = .ok t) ∧
      (scope = .projectGroup → ∃ t, clean .applyTo applyTo maxApplyToChars = .ok t) ∧
      (scope ≠ .projectGroup → applyTo = none) := by
  have checked : (∃ t, checkApplyTo { scope := scope, rule := rule, exceptions := exceptions, applyTo := applyTo, strength := strength } = .ok t) ↔
      (scope = .projectGroup → ∃ t, clean .applyTo applyTo maxApplyToChars = .ok t) ∧
      (scope ≠ .projectGroup → applyTo = none) := by
    unfold checkApplyTo
    dsimp only
    by_cases isGroup : scope = .projectGroup
    · rw [if_pos isGroup]
      simp [isGroup, map_eq_ok]
    · rw [if_neg isGroup]
      simp only [refuse_eq_ok, not_not, isGroup, false_implies, true_and, ne_eq, not_false_eq_true, true_implies]
      exact ⟨fun ⟨_, isNone, _⟩ => isNone, fun isNone => ⟨none, isNone, rfl⟩⟩
  rw [← checked]
  constructor
  · rintro ⟨q, built⟩
    obtain ⟨t, texts, named, isRule, few, areExceptions, isApplyTo, -, -⟩ := construct_eq_ok.mp built
    refine ⟨⟨t, isRule⟩, few, fun e isIn => ?_, named, isApplyTo⟩
    obtain ⟨t, -, isIts⟩ := exists_mapM_of_mem areExceptions isIn
    exact ⟨t, isIts⟩
  · rintro ⟨⟨t, isRule⟩, few, all, named, isApplyTo⟩
    obtain ⟨texts, areExceptions⟩ := exists_mapM_of_forall all
    exact ⟨_, construct_eq_ok.mpr ⟨t, texts, named, isRule, few, areExceptions, isApplyTo, rfl, rfl⟩⟩

end StructuredPreference

/-! ### When the interpreter answers -/

inductive Parts (folded : Text) : Text → Option Text → Prop
  | plain (unmarked : ∀ before mark after, ¬ exceptWords.FirstMatch folded before mark after) : Parts folded folded none
  | excepted {main mark after : Text} (cut : exceptWords.FirstMatch folded main mark after) : Parts folded main (some after)

structure Interpretable (folded content : Text) : Prop where
  rule : Readable (content.take maxRuleChars)
  exception : ∀ main after, Parts folded main (some after) → ∀ words, Trimmed (fun c => decide (c ∈ trim)) after words →
    words ≠ [] → Readable (words.take maxExceptionChars)
  group : ∀ main excepted, Parts folded main excepted → repoWords.search main = false → projectWords.search main = false →
    allWords.search main = false → ∀ before phrase after, groupWords.FirstMatch main before phrase after →
    ∀ named, Trimmed (fun c => decide (c ∈ trim)) phrase named → named.length ≤ maxApplyToChars ∧ Readable named

/-- The parts of an answer, as the interpreter cuts it. -/
def partsOf (folded : Text) : Text × Option Text :=
  match exceptWords.find folded with
  | some (before, _, after) => (before, some after)
  | none => (folded, none)

theorem parts_iff {folded main : Text} {excepted : Option Text} : Parts folded main excepted ↔ partsOf folded = (main, excepted) := by
  unfold partsOf
  constructor
  · rintro (unmarked | cut)
    · rw [find_eq_none_iff.mpr unmarked]
    · rw [find_eq_some_iff.mpr cut]
  · intro isCut
    cases found : exceptWords.find folded with
    | none =>
      rw [found] at isCut
      cases isCut
      exact .plain (find_eq_none_iff.mp found)
    | some cut =>
      obtain ⟨before, mark, after⟩ := cut
      rw [found] at isCut
      cases isCut
      exact .excepted (find_eq_some_iff.mp found)

def exceptionsOf (excepted : Option Text) : List Text :=
  ((excepted.toList.map fun after => after.strip trim).filter fun e => decide (e ≠ [])).map fun e => e.take maxExceptionChars

section Interpreter

variable {fold : Folding} {text content : Text} {recommended : TargetScope}

theorem interpretText_eq (fold : Folding) (text : Text) (candidate : Option Text) (recommended : TargetScope) :
    interpretText fold text candidate recommended =
      let folded := fold.nfkc text
      let main := (partsOf folded).1
      StructuredPreference.construct
        { scope := (namedScope main recommended).1, rule := (ruleText candidate main folded).take maxRuleChars
          exceptions := exceptionsOf (partsOf folded).2, applyTo := (namedScope main recommended).2
          strength := if requiredWords.search main then .required else .default } := by
  unfold interpretText partsOf
  dsimp only
  cases exceptWords.find (fold.nfkc text) with
  | none => rfl
  | some cut => rfl

variable {main : Text}

theorem ruleText_of_visible {folded : Text} (visible : ∃ c ∈ content, Text.isSpace c = false) :
    ruleText (some content) main folded = content := by
  have shows := stripped_ne_nil.mpr visible
  have notEmpty : content ≠ [] := by
    rintro rfl
    obtain ⟨c, isIn, -⟩ := visible
    cases isIn
  unfold ruleText
  simp only [if_pos shows, if_neg notEmpty]

theorem workerContent_eq_ok {t t' : Text} (stored : workerContent (some t) = .ok t') :
    (∃ c ∈ t, Text.isSpace c = false) ∧ ∀ c ∈ t, isSurrogate c = false := by
  unfold workerContent at stored
  dsimp only at stored
  rw [refuse_eq_ok, not_or, not_or, not_or] at stored
  obtain ⟨⟨visible, -, -, encodes⟩, -⟩ := stored
  exact ⟨by simpa using visible, by simpa using encodes⟩

theorem validateText_eq_ok {field : Field} {t t' : Text} {maxChars : ℕ} (accepted : validateText field (some t) maxChars = .ok t') :
    ∀ c ∈ t, isSurrogate c = false := by
  unfold validateText at accepted
  dsimp only at accepted
  rw [refuse_eq_ok, refuse_eq_ok, not_or] at accepted
  obtain ⟨-, ⟨-, encodes⟩, -⟩ := accepted
  simpa using encodes

theorem Parts.mem {folded : Text} {excepted : Option Text} {c : ℕ} (parts : Parts folded main excepted) :
    (c ∈ main → c ∈ folded) ∧ ∀ after ∈ excepted, c ∈ after → c ∈ folded := by
  cases parts with
  | plain => exact ⟨id, nofun⟩
  | excepted cut =>
    have whole : folded = main ++ (_ ++ _) := cut.whole
    refine ⟨fun isIn => whole ▸ mem_append_left _ isIn, fun after isAfter isIn => ?_⟩
    obtain rfl := Option.mem_some.mp isAfter
    exact whole ▸ mem_append_right _ (mem_append_right _ isIn)

theorem exceptions_iff {excepted : Option Text} (encodes : ∀ after ∈ excepted, ∀ c ∈ after, isSurrogate c = false) :
    (∀ e ∈ exceptionsOf excepted, ∃ t, clean .exceptions (some e) maxExceptionChars = .ok t) ↔
      ∀ after ∈ excepted, ∀ words, Trimmed (fun c => decide (c ∈ trim)) after words → words ≠ [] →
        Readable (words.take maxExceptionChars) := by
  unfold exceptionsOf
  cases excepted with
  | none => simp
  | some after =>
    have readable_iff : (∃ t, clean .exceptions (some ((after.strip trim).take maxExceptionChars)) maxExceptionChars = .ok t) ↔
        Readable ((after.strip trim).take maxExceptionChars) := by
      rw [exists_clean_iff, and_iff_right (length_take_le _ _), and_iff_right]
      exact fun c isIn => encodes after rfl c (mem_of_mem_trimBy (mem_of_mem_take isIn))
    simp only [Option.toList_some, map_cons, map_nil, mem_map, mem_filter, mem_singleton,
      decide_eq_true_eq, Option.mem_some_iff, forall_eq', forall_exists_index, and_imp, ← trimBy_eq_iff]
    constructor
    · intro all shows
      exact readable_iff.mp (all _ _ rfl shows rfl)
    · rintro all e _ rfl shows rfl
      exact readable_iff.mpr (all shows)

theorem namedScope_iff (encodes : ∀ c ∈ main, isSurrogate c = false) (recommended : TargetScope) :
    ((namedScope main recommended).1 = .projectGroup →
        ∃ t, clean .applyTo (namedScope main recommended).2 maxApplyToChars = .ok t) ∧
      ((namedScope main recommended).1 ≠ .projectGroup → (namedScope main recommended).2 = none) ↔
    (repoWords.search main = false → projectWords.search main = false → allWords.search main = false →
      ∀ before phrase after, groupWords.FirstMatch main before phrase after →
      ∀ named, Trimmed (fun c => decide (c ∈ trim)) phrase named → named.length ≤ maxApplyToChars ∧ Readable named) := by
  unfold namedScope
  cases repoWords.search main with
  | true => simp
  | false =>
    cases projectWords.search main with
    | true => simp
    | false =>
      cases allWords.search main with
      | true => simp
      | false =>
        simp only [Bool.false_eq_true, if_false, true_implies, ← find_eq_some_iff, ← trimBy_eq_iff]
        cases found : groupWords.find main with
        | none =>
          have notGroup : recommended.interpreted ≠ .projectGroup := by cases recommended <;> decide
          simp [notGroup]
        | some cut =>
          obtain ⟨before, phrase, after⟩ := cut
          have whole : main = before ++ (phrase ++ after) := (find_eq_some_iff.mp found).whole
          have phraseEncodes : ∀ c ∈ phrase.strip trim, isSurrogate c = false := fun c isIn =>
            encodes c (whole ▸ mem_append_right _ (mem_append_left _ (mem_of_mem_trimBy isIn)))
          simp only [true_implies, ne_eq, not_true_eq_false, false_implies, and_true, exists_clean_iff,
            and_iff_right phraseEncodes, Option.some_inj, Prod.mk.injEq, and_imp]
          constructor
          · rintro named _ _ _ rfl rfl rfl _ rfl
            exact named
          · intro all
            exact all _ _ _ rfl rfl rfl _ rfl

/-- The rule-based interpretation of an accepted answer to a stored candidate exists, and passes its own checks, exactly
where the texts it cuts out are readable. -/
theorem interpretText_answers_iff (encodes : ∀ t, (∀ c ∈ t, isSurrogate c = false) → ∀ c ∈ fold.nfkc t, isSurrogate c = false)
    (stored : workerContent (some content) = .ok content)
    (accepted : validateText .text (some text) maxFreeTextChars = .ok text) (recommended : TargetScope) :
    (∃ preference, interpretText fold text (some content) recommended = .ok preference ∧
      preference.construct = .ok preference) ↔ Interpretable (fold.nfkc text) content := by
  obtain ⟨visible, contentEncodes⟩ := workerContent_eq_ok stored
  have foldedEncodes := encodes text (validateText_eq_ok accepted)
  have answers : (∃ preference, interpretText fold text (some content) recommended = .ok preference ∧
      preference.construct = .ok preference) ↔ ∃ preference, interpretText fold text (some content) recommended = .ok preference := by
    refine ⟨fun ⟨q, built, _⟩ => ⟨q, built⟩, fun ⟨q, built⟩ => ⟨q, built, ?_⟩⟩
    rw [interpretText_eq] at built
    exact StructuredPreference.construct_construct built
  rw [answers, interpretText_eq]
  dsimp only
  rw [StructuredPreference.exists_construct_iff, ruleText_of_visible visible]
  have parts : Parts (fold.nfkc text) (partsOf (fold.nfkc text)).1 (partsOf (fold.nfkc text)).2 := parts_iff.mpr rfl
  have readable_iff : (∃ t, clean .rule (some (content.take maxRuleChars)) maxRuleChars = .ok t) ↔
      Readable (content.take maxRuleChars) := by
    rw [exists_clean_iff, and_iff_right (length_take_le _ _), and_iff_right]
    exact fun c isIn => contentEncodes c (mem_of_mem_take isIn)
  have few : (exceptionsOf (partsOf (fold.nfkc text)).2).length ≤ maxExceptions := by
    unfold exceptionsOf
    rw [length_map]
    refine (length_filter_le _ _).trans ?_
    rw [length_map]
    cases (partsOf (fold.nfkc text)).2 with
    | none => exact Nat.zero_le _
    | some after => exact (by decide : 1 ≤ maxExceptions)
  rw [readable_iff, and_iff_right few, exceptions_iff fun after isAfter c isIn => foldedEncodes c ((parts.mem).2 after isAfter isIn),
    namedScope_iff fun c isIn => foldedEncodes c (parts.mem.1 isIn)]
  constructor
  · rintro ⟨rule, exceptions, group⟩
    refine ⟨rule, fun main after isCut => ?_, fun main excepted isCut => ?_⟩
    · obtain ⟨rfl, isAfter⟩ := Prod.ext_iff.mp (parts_iff.mp isCut)
      exact exceptions after (isAfter ▸ rfl)
    · obtain ⟨rfl, -⟩ := Prod.ext_iff.mp (parts_iff.mp isCut)
      exact group
  · rintro ⟨rule, exceptions, group⟩
    refine ⟨rule, fun after isAfter => exceptions (partsOf (fold.nfkc text)).1 after ?_, group _ _ parts⟩
    rw [← Option.mem_def.mp isAfter]
    exact parts

end Interpreter

/-- Foldings that change nothing, as on lower-case ASCII texts. -/
def unfolded : Folding := ⟨id, id⟩

theorem tabs_interpretable : Interpretable (lit "that is fine, but not here") (lit "use tabs") :=
  (@interpretText_answers_iff unfolded _ _ (fun _ encodes => encodes) (by decide) (by decide) .repo).mp
    ⟨{ scope := .repo, rule := lit "use tabs", exceptions := [lit "not here"] }, by decide, by decide⟩

/-- A content with a carriage return is stored, and no answer to it can be interpreted. -/
theorem carriageReturn_refused :
    workerContent (some (lit "use tabs\r\nindent by four")) = .ok (lit "use tabs\r\nindent by four") ∧
    validateText .text (some (lit "that is fine")) maxFreeTextChars = .ok (lit "that is fine") ∧
    interpretText unfolded (lit "that is fine") (some (lit "use tabs\r\nindent by four")) .user =
      .error ⟨.rule, .invalidCharacters⟩ := by
  decide

end PawBackend.Memory.Preferences
