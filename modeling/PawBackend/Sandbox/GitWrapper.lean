/-
**What the SSH wrapper accepts of the sandbox's git** (`deploy/ssh-git-wrapper/paw_git_wrapper.py`: `check_read`).

The wrapper is a program of its own and repeats the grammar of a read: its tables are its own, and it takes
the words of a command apart again. `checkRead_eq_ok` is everything it accepts.
-/

import PawBackend.Sandbox.GitRead

namespace PawBackend.Sandbox

open Lib Lib.Text List
open Tools (Stdlib forbidden)

structure Rejected where
  code : String
  deriving DecidableEq, Repr

/-! ### The tables of the wrapper -/

def maxPathChars : ℕ := 1024

def readFixed : ReadSubcommand → List Text
  | .status => []
  | .diff => [lit "--no-color", lit "--no-ext-diff", lit "--no-textconv"]
  | .log => [lit "--no-color", lit "--no-ext-diff", lit "--no-textconv", lit "--no-decorate"]
  | .«show» => [lit "--no-color", lit "--no-ext-diff", lit "--no-textconv", lit "--no-decorate"]

def readDiffOutput : List Text :=
  [lit "--stat", lit "--numstat", lit "--shortstat", lit "--name-only", lit "--name-status", lit "--summary",
    lit "--patch", lit "--no-renames", lit "--find-renames", lit "--ignore-all-space",
    lit "--ignore-space-change", lit "--ignore-blank-lines", lit "--word-diff=plain", lit "--minimal",
    lit "--patience", lit "--histogram"]

def readOptions : ReadSubcommand → List Text
  | .status =>
    [lit "--short", lit "--branch", lit "--porcelain=v1", lit "--long", lit "-z", lit "--untracked-files=all",
      lit "--untracked-files=normal", lit "--untracked-files=no"]
  | .diff => readDiffOutput ++ [lit "--cached", lit "-R", lit "--exit-code", lit "--quiet", lit "-z"]
  | .log => readDiffOutput ++
    [lit "--no-patch", lit "--oneline", lit "--abbrev-commit", lit "--reverse", lit "--first-parent",
      lit "--no-merges", lit "--merges", lit "--graph"]
  | .«show» => readDiffOutput ++ [lit "--no-patch", lit "--oneline", lit "--abbrev-commit"]

def readFormats : List Text :=
  [lit "oneline", lit "short", lit "medium", lit "full", lit "fuller", lit "reference"]

def readNamesOnlyLog : List Text := [lit "--oneline", lit "--stat", lit "--name-only"]

def readNumbered : ReadSubcommand → List (Text × ℕ)
  | .log => [(lit "--max-count=", 100000), (lit "--skip=", 100000), (lit "--unified=", 1000)]
  | .diff => [(lit "--unified=", 1000)]
  | .«show» => [(lit "--unified=", 1000)]
  | .status => []

/-! ### Words -/

/-- `text.isprintable()`. -/
def isPrintable (py : Stdlib) (t : Text) : Bool := t.all fun c => !forbidden py c

/-- A numbered option: the first name that fits decides. -/
def readNumberedOption (word : Text) : List (Text × ℕ) → Option Bool
  | [] => none
  | (first, maximum) :: rest =>
    if word.startsWith first then
      some (numberText (word.drop first.length) && decide (toNat 10 (word.drop first.length) ≤ maximum))
    else readNumberedOption word rest

def readOption (sub : ReadSubcommand) (word : Text) : Bool :=
  if word ∈ readOptions sub then true
  else
    match readNumberedOption word (readNumbered sub) with
    | some answer => answer
    | none =>
      if (sub = .log ∨ sub = .«show») ∧ word.startsWith (lit "--format=") then decide (word.drop 9 ∈ readFormats)
      else false

inductive SpecKind
  | positive
  | exclude
  deriving DecidableEq, Repr

/-- A path that cannot leave the work tree. -/
def relativePath (py : Stdlib) (path : Text) : Bool :=
  decide (path ≠ []) && decide (path.length ≤ maxPathChars) && !path.startsWith (lit "/") && isPrintable py path &&
    (path.splitOn 47).all fun part => decide (part ∉ [[], lit ".", lit ".."])

def readPathspec (py : Stdlib) (word : Text) : Option SpecKind :=
  if word = lit "." then some .positive
  else if word.startsWith (lit ":(literal)") then
    if relativePath py (word.drop 10) then some .positive else none
  else if word.startsWith (lit ":(exclude,literal)") then
    if relativePath py (word.drop 18) then some .exclude else none
  else none

def readRevision (sub : ReadSubcommand) (word : Text) : Bool :=
  objectId word || decide (sub = .log) && word.startsWith (lit "^") && objectId (word.drop 1)

/-- One turn of the loop of `check_read`: the number of revisions so far. -/
def checkReadWord (sub : ReadSubcommand) (pinned : Bool) (revisions : ℕ) (word : Text) : Except Rejected ℕ := do
  if word.startsWith (lit "-") then
    if !readOption sub word then throw ⟨"bad_arguments"⟩
    if ¬ pinned ∧ sub = .log ∧ ¬(word ∈ readNamesOnlyLog ∨ word.startsWith (lit "--max-count=") = true) then
      throw ⟨"bad_arguments"⟩
    return revisions
  if !readRevision sub word then throw ⟨"bad_arguments"⟩
  return revisions + 1

def checkRead (py : Stdlib) (sub : ReadSubcommand) (args : List Text) (pinned : Bool) : Except Rejected Unit := do
  let fixed := readFixed sub
  if args.take fixed.length ≠ fixed ∨ lit "--" ∉ args then throw ⟨"bad_arguments"⟩
  let separator := args.idxOf (lit "--")
  let words := (args.take separator).drop fixed.length
  let specs := args.drop (separator + 1)
  if specs = [] ∨ some .positive ∉ specs.map (readPathspec py) then throw ⟨"bad_arguments"⟩
  if none ∈ specs.map (readPathspec py) then throw ⟨"bad_arguments"⟩
  let revisions ← words.foldlM (checkReadWord sub pinned) 0
  if sub = .status ∧ revisions ≠ 0 then throw ⟨"bad_arguments"⟩
  if ¬ pinned ∧ (sub = .«show» ∨ revisions ≠ 0) then throw ⟨"bad_arguments"⟩
  return ()

/-! ### Everything that is accepted -/

/-- A word before `--` that the wrapper accepts. -/
structure ReadWord (sub : ReadSubcommand) (pinned : Bool) (word : Text) : Prop where
  option : word.startsWith (lit "-") = true → readOption sub word = true ∧
    (pinned = true ∨ sub ≠ .log ∨ word ∈ readNamesOnlyLog ∨ word.startsWith (lit "--max-count=") = true)
  revision : word.startsWith (lit "-") = false → readRevision sub word = true

/-- The revision words, among the words before `--`. -/
def revisionCount (words : List Text) : ℕ := words.countP fun word => !word.startsWith (lit "-")

variable {sub : ReadSubcommand} {pinned : Bool}

theorem checkReadWord_eq_ok {word : Text} {before after : ℕ} :
    checkReadWord sub pinned before word = .ok after ↔
      ReadWord sub pinned word ∧ after = before + if word.startsWith (lit "-") then 0 else 1 := by
  unfold checkReadWord
  cases isOption : startsWith word (lit "-") with
  | true =>
    simp only [if_true, ↓check_eq_ok, pure_eq_ok, Bool.not_eq_true', Bool.not_eq_false, Nat.add_zero]
    constructor
    · rintro ⟨accepted, allowed, rfl⟩
      refine ⟨⟨fun _ => ⟨accepted, ?_⟩, fun notOption => ?_⟩, rfl⟩
      · tauto
      · rw [isOption] at notOption
        cases notOption
    · rintro ⟨accepted, rfl⟩
      obtain ⟨known, allowed⟩ := accepted.option isOption
      exact ⟨known, by tauto, rfl⟩
  | false =>
    simp only [Bool.false_eq_true, if_false, ↓check_eq_ok, pure_eq_ok, Bool.not_eq_true', Bool.not_eq_false]
    constructor
    · rintro ⟨accepted, rfl⟩
      refine ⟨⟨fun isOption' => ?_, fun _ => accepted⟩, rfl⟩
      rw [isOption] at isOption'
      cases isOption'
    · rintro ⟨accepted, rfl⟩
      exact ⟨accepted.revision isOption, rfl⟩

theorem checkReadWords_eq_ok {words : List Text} {before after : ℕ} :
    words.foldlM (checkReadWord sub pinned) before = .ok after ↔
      (∀ word ∈ words, ReadWord sub pinned word) ∧ after = before + revisionCount words := by
  induction words generalizing before with
  | nil =>
    simp only [foldlM_nil, pure_eq_ok, not_mem_nil, false_implies, implies_true, true_and]
    exact eq_comm
  | cons word rest ih =>
    simp only [foldlM_cons, bind_eq_ok, checkReadWord_eq_ok, ih, forall_mem_cons, revisionCount,
      countP_cons]
    constructor
    · rintro ⟨_, ⟨accepted, rfl⟩, all, rfl⟩
      refine ⟨⟨accepted, all⟩, ?_⟩
      cases startsWith word (lit "-") <;> simp <;> omega
    · rintro ⟨⟨accepted, all⟩, rfl⟩
      refine ⟨_, ⟨accepted, rfl⟩, all, ?_⟩
      cases startsWith word (lit "-") <;> simp <;> omega

theorem separator_not_option (sub : ReadSubcommand) : readOption sub (lit "--") = false := by
  cases sub <;> simp only [readOption, readOptions, readDiffOutput, readNumbered, readNumberedOption]
  all_goals
    repeat rw [Text.lit_ofList]
    decide

theorem separator_not_fixed (sub : ReadSubcommand) : lit "--" ∉ readFixed sub := by
  cases sub <;> decide

structure ReadShape (py : Stdlib) (sub : ReadSubcommand) (pinned : Bool) (words specs : List Text) : Prop where
  accepted : ∀ word ∈ words, ReadWord sub pinned word
  relative : ∀ spec ∈ specs, (readPathspec py spec).isSome = true
  positive : ∃ spec ∈ specs, readPathspec py spec = some .positive
  status : sub = .status → revisionCount words = 0
  unpinned : pinned = false → sub ≠ .«show» ∧ revisionCount words = 0

theorem ReadWord.ne_separator {word : Text} (accepted : ReadWord sub pinned word) :
    word ≠ lit "--" := by
  rintro rfl
  have known := (accepted.option rfl).1
  rw [separator_not_option] at known
  cases known

/-! The words and the pathspecs of a command, as they are taken apart. -/

section Apart

variable {fixed words specs : List Text} (notFixed : lit "--" ∉ fixed) (notWord : lit "--" ∉ words)
include notFixed notWord

theorem idxOf_separator : (fixed ++ words ++ lit "--" :: specs).idxOf (lit "--") = (fixed ++ words).length := by
  have absent : lit "--" ∉ fixed ++ words := by
    rw [mem_append]
    exact not_or.mpr ⟨notFixed, notWord⟩
  rw [idxOf_append_of_notMem absent, idxOf_cons_self, Nat.add_zero]

theorem words_of_command :
    ((fixed ++ words ++ lit "--" :: specs).take
      ((fixed ++ words ++ lit "--" :: specs).idxOf (lit "--"))).drop fixed.length = words := by
  rw [idxOf_separator notFixed notWord, take_left, drop_left]

theorem specs_of_command :
    (fixed ++ words ++ lit "--" :: specs).drop ((fixed ++ words ++ lit "--" :: specs).idxOf (lit "--") + 1) = specs := by
  rw [idxOf_separator notFixed notWord, ← drop_drop, drop_left]
  rfl

end Apart

theorem fixed_of_take {fixed before specs : List Text} (notFixed : lit "--" ∉ fixed)
    (starts : (before ++ lit "--" :: specs).take fixed.length = fixed) :
    ∃ words, before = fixed ++ words := by
  have whole : fixed <+: before ++ lit "--" :: specs := starts ▸ take_prefix _ _
  have toSeparator : before ++ [lit "--"] <+: before ++ lit "--" :: specs := ⟨specs, by simp⟩
  rcases prefix_or_prefix_of_prefix whole toSeparator with short | long
  · rcases prefix_concat_iff.mp short with rfl | ⟨words, isBefore⟩
    · exact absurd (by simp) notFixed
    · exact ⟨words, isBefore.symm⟩
  · exact absurd (long.subset (by simp)) notFixed

theorem checkRead_eq_ok {py : Stdlib} {args : List Text} :
    checkRead py sub args pinned = .ok () ↔
      ∃ words specs, args = readFixed sub ++ words ++ lit "--" :: specs ∧ ReadShape py sub pinned words specs := by
  simp only [checkRead, ↓check_eq_ok, bind_eq_ok, checkReadWords_eq_ok, pure_eq_ok, not_or, not_not, not_and]
  constructor
  · rintro ⟨⟨starts, separated⟩, ⟨-, positive⟩, relative, _, ⟨accepted, rfl⟩, status, unpinned, -⟩
    obtain ⟨before, specs, rfl, notBefore⟩ := eq_append_cons_of_mem separated
    obtain ⟨words, rfl⟩ := fixed_of_take (separator_not_fixed sub) starts
    have notWord : lit "--" ∉ words := fun mem => notBefore (mem_append_right _ mem)
    rw [words_of_command (separator_not_fixed sub) notWord] at accepted status unpinned
    rw [specs_of_command (separator_not_fixed sub) notWord] at positive relative
    rw [Nat.zero_add] at status unpinned
    refine ⟨words, specs, rfl, accepted, ?_, by simpa using positive, status, fun isUnpinned => ?_⟩
    · intro spec mem
      rw [Option.isSome_iff_ne_none]
      exact fun none => relative (mem_map.mpr ⟨spec, mem, none⟩)
    · exact unpinned (by rw [isUnpinned]; exact Bool.false_ne_true)
  · rintro ⟨words, specs, rfl, shape⟩
    have notWord : lit "--" ∉ words := fun mem => (shape.accepted _ mem).ne_separator rfl
    rw [words_of_command (separator_not_fixed sub) notWord, specs_of_command (separator_not_fixed sub) notWord]
    obtain ⟨spec, mem, isPositive⟩ := shape.positive
    refine ⟨⟨?_, by simp⟩, ⟨?_, mem_map.mpr ⟨spec, mem, isPositive⟩⟩, ?_, _, ⟨shape.accepted, rfl⟩, ?_, ?_, trivial⟩
    · rw [append_assoc, take_left]
    · rintro rfl
      cases mem
    · rintro none
      obtain ⟨other, inSpecs, isNone⟩ := mem_map.mp none
      have known := shape.relative other inSpecs
      rw [isNone] at known
      cases known
    · rw [Nat.zero_add]
      exact shape.status
    · rw [Nat.zero_add]
      exact fun isUnpinned => shape.unpinned (Bool.eq_false_iff.mpr isUnpinned)

end PawBackend.Sandbox
