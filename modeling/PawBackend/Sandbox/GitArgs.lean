/-
**What the sandbox's `git` may be asked** (`sandbox/gitargs.py`).

The words a model typed are turned into canonical ones or refused.
-/

import PawBackend.Tools.Arguments

namespace PawBackend.Sandbox

open Lib Lib.Text
open Tools (decimal firsts)

inductive GitRefusal
  | subcommand
  | option
  | revision
  | outOfRange
  | history
  | path
  | tooLong
  | unavailable
  deriving DecidableEq, Repr

/-- `READ_SUBCOMMANDS`. -/
inductive ReadSubcommand
  | status
  | diff
  | log
  | «show»
  deriving DecidableEq, Repr

def ReadSubcommand.name : ReadSubcommand → Text
  | .status => lit "status"
  | .diff => lit "diff"
  | .log => lit "log"
  | .«show» => lit "show"

def readSubcommands : List ReadSubcommand := [.status, .diff, .log, .«show»]

def ReadSubcommand.named (word : Text) : Option ReadSubcommand := readSubcommands.find? fun sub => sub.name = word

def maxWords : ℕ := 64
def maxWordChars : ℕ := 1024
def maxCount : ℕ := 100000
def maxContextLines : ℕ := 1000
def maxHeadDepth : ℕ := 10000

/-! ### The tables -/

def formats : List Text :=
  [lit "oneline", lit "short", lit "medium", lit "full", lit "fuller", lit "reference"]

/-- Options that are their own canonical spelling. -/
def plainly (words : List String) : List (Text × Text) := words.map fun word => (lit word, lit word)

def diffOutput : List (Text × Text) :=
  plainly ["--stat", "--numstat", "--shortstat", "--name-only", "--name-status", "--summary"] ++
  [(lit "-p", lit "--patch"), (lit "--patch", lit "--patch"), (lit "--no-renames", lit "--no-renames"),
    (lit "-M", lit "--find-renames"), (lit "--find-renames", lit "--find-renames"),
    (lit "-w", lit "--ignore-all-space")] ++
  plainly ["--ignore-all-space", "--ignore-space-change", "--ignore-blank-lines"] ++
  [(lit "--word-diff", lit "--word-diff=plain"), (lit "--word-diff=plain", lit "--word-diff=plain")] ++
  plainly ["--minimal", "--patience", "--histogram"]

def dropped : List Text :=
  [lit "--no-color", lit "--color=never", lit "--no-ext-diff", lit "--no-textconv"]

/-- `_OPTIONS`. -/
def optionTable : ReadSubcommand → List (Text × Text)
  | .status =>
    [(lit "-s", lit "--short"), (lit "--short", lit "--short"), (lit "-b", lit "--branch"),
      (lit "--branch", lit "--branch"), (lit "--porcelain", lit "--porcelain=v1"),
      (lit "--porcelain=v1", lit "--porcelain=v1"), (lit "--long", lit "--long"), (lit "-z", lit "-z"),
      (lit "-u", lit "--untracked-files=all"), (lit "-uall", lit "--untracked-files=all"),
      (lit "--untracked-files", lit "--untracked-files=all"),
      (lit "--untracked-files=all", lit "--untracked-files=all"),
      (lit "-unormal", lit "--untracked-files=normal"),
      (lit "--untracked-files=normal", lit "--untracked-files=normal"),
      (lit "-uno", lit "--untracked-files=no"), (lit "--untracked-files=no", lit "--untracked-files=no")]
  | .diff => diffOutput ++
    [(lit "-u", lit "--patch"), (lit "--cached", lit "--cached"), (lit "--staged", lit "--cached"),
      (lit "-b", lit "--ignore-space-change"), (lit "-R", lit "-R"), (lit "--exit-code", lit "--exit-code"),
      (lit "--quiet", lit "--quiet"), (lit "-z", lit "-z")]
  | .log => diffOutput ++ [(lit "-u", lit "--patch"), (lit "-s", lit "--no-patch")] ++
    plainly ["--no-patch", "--oneline", "--abbrev-commit", "--reverse", "--first-parent", "--no-merges",
      "--merges", "--graph"]
  | .«show» => diffOutput ++ [(lit "-s", lit "--no-patch")] ++
    plainly ["--no-patch", "--oneline", "--abbrev-commit"]

/-- `_COUNTED`, `_CONTEXT` and `_FORMATTED`. -/
def ReadSubcommand.counted (sub : ReadSubcommand) : Bool := sub = .log
def ReadSubcommand.context (sub : ReadSubcommand) : Bool := sub = .diff ∨ sub = .log ∨ sub = .«show»
def ReadSubcommand.formatted (sub : ReadSubcommand) : Bool := sub = .log ∨ sub = .«show»

def namesOnlyLog : List Text := [lit "--oneline", lit "--stat", lit "--name-only"]

def baseRefPrefix : Text := lit "refs/paw/base/"
def reviewBaseRefPrefix : Text := lit "refs/paw/review-base/"

theorem mem_of_lookup {κ β : Type} [BEq κ] [LawfulBEq κ] {table : List (κ × β)} {word : κ} {found : β}
    (isFound : table.lookup word = some found) : (word, found) ∈ table := by
  obtain ⟨before, after, rfl, -⟩ := List.lookup_eq_some_iff.mp isFound
  simp

/-! ### Words -/

/-- `part in text`. -/
def holds (t part : Text) : Bool := (partition part t).isSome

def isHex (c : ℕ) : Bool := isDigit c || decide (97 ≤ c ∧ c ≤ 102)

/-- `_OBJECT_ID.fullmatch`. -/
def objectId (t : Text) : Bool := t.all isHex && decide (t.length = 40 ∨ t.length = 64)

/-- `_NUMBER.fullmatch`. -/
def numberText (t : Text) : Bool := t.all isDigit && decide (1 ≤ t.length ∧ t.length ≤ 6)

def number (t : Text) (maximum : ℕ) : Except GitRefusal ℕ :=
  if numberText t ∧ toNat 10 t ≤ maximum then .ok (toNat 10 t) else .error .option

/-- A character of `_BRANCH`, the first one apart. -/
def branchChar (c : ℕ) : Bool := isDigit c || isLower c || isUpper c || decide (c = 46 ∨ c = 95 ∨ c = 47 ∨ c = 45)

/-- `_BRANCH.fullmatch`. -/
def branchText : Text → Bool
  | [] => false
  | c :: rest => (isDigit c || isLower c || isUpper c) && rest.all branchChar && decide (rest.length ≤ 199)

def validBranch (t : Text) : Bool :=
  branchText t && !holds t (lit "..") && !t.endsWith (lit "/") && !t.endsWith (lit ".") &&
    (t.splitOn 47).all fun part =>
      !part.isEmpty && !startsWith part (lit ".") && !endsWith part (lit ".lock")

/-- `_HEAD.fullmatch`, and how deep the match goes. -/
def headDepth (word : Text) : Option ℕ :=
  if word.startsWith (lit "HEAD") then
    match word.drop 4 with
    | [] => some 0
    | 126 :: digits =>
      if digits.all isDigit ∧ digits.length ≤ 5 then some (if digits = [] then 1 else toNat 10 digits) else none
    | carets => if carets.all (· = 94) ∧ carets.length ≤ 8 then some carets.length else none
  else none

/-- `HEAD`, or `HEAD~<n>`. -/
def headText (depth : ℕ) : Text := if depth = 0 then lit "HEAD" else lit "HEAD~" ++ decimal depth

/-- A base ref of a branch the backend makes. -/
def baseRefText (word : Text) : Bool :=
  [baseRefPrefix, reviewBaseRefPrefix].any fun first =>
    word.startsWith first && validBranch (word.drop first.length)

def canonicalRevision (word : Text) : Option Text :=
  if objectId word then some word
  else
    match headDepth word with
    | some depth => if depth ≤ maxHeadDepth then some (headText depth) else none
    | none => if baseRefText word then some word else none

/-- `[^/]*[~^][0-9]*`. -/
def ancestryText (word : Text) : Bool :=
  match (word.rdropWhile isDigit).reverse with
  | [] => false
  | c :: rest => decide (c = 126 ∨ c = 94) && decide (47 ∉ rest)

/-- `[0-9a-fA-F]{7,64}`. -/
def abbreviatedId (word : Text) : Bool :=
  (word.all fun c => isHex c || decide (65 ≤ c ∧ c ≤ 70)) && decide (7 ≤ word.length ∧ word.length ≤ 64)

def looksLikeRevision (word : Text) : Bool :=
  (canonicalRevision word).isSome || holds word (lit "..") || word.startsWith (lit "^") ||
    holds word (lit "@\x7b") || holds word (lit "^\x7b") ||
    (holds word (lit ":") && !word.startsWith (lit ":")) || ancestryText word || abbreviatedId word ||
    decide (word ∈ [lit "@", lit "HEAD", lit "FETCH_HEAD", lit "ORIG_HEAD", lit "MERGE_HEAD"])

structure Revision where
  text : Text
  negated : Bool := false
  deriving DecidableEq, Repr

/-- `word or "HEAD"`. -/
def orHead (word : Text) : Text := if word = [] then lit "HEAD" else word

/-- `_revisions`. -/
def revisionsOf (word : Text) (sub : ReadSubcommand) : Except GitRefusal (List Revision) :=
  if holds word (lit "...") then .error .revision
  else
    match partition (lit "..") word with
    | some (left, right) =>
      match canonicalRevision (orHead left), canonicalRevision (orHead right) with
      | some start, some stop =>
        if sub = .diff ∨ sub = .log then .ok [⟨start, true⟩, ⟨stop, false⟩] else .error .revision
      | _, _ => .error .revision
    | none =>
      if word.startsWith (lit "^") && !word.startsWith (lit "^\x7b") then
        match canonicalRevision (word.drop 1) with
        | some found => if sub = .log then .ok [⟨found, true⟩] else .error .revision
        | none => .error .revision
      else
        match canonicalRevision word with
        | some found => .ok [⟨found, false⟩]
        | none => .error .revision

/-! ### Options -/

def numbered (name : Text) (t : Text) (maximum : ℕ) : Except GitRefusal (Option Text × Bool) :=
  (number t maximum).map fun n => (some (name ++ decimal n), false)

/-- `--format=<name>`. -/
def namedFormat (name : Text) : Except GitRefusal (Option Text × Bool) :=
  if name ∈ formats then .ok (some (lit "--format=" ++ name), false) else .error .option

def formatOption (sub : ReadSubcommand) (word : Text) : Except GitRefusal (Option Text × Bool) :=
  if sub.formatted then
    if word = lit "--pretty" then .ok (some (lit "--format=medium"), false)
    else if word.startsWith (lit "--format=") then namedFormat (word.drop 9)
    else if word.startsWith (lit "--pretty=") then namedFormat (word.drop 9)
    else .error .option
  else .error .option

def contextOption (sub : ReadSubcommand) (word : Text) : Except GitRefusal (Option Text × Bool) :=
  if sub.context && word.startsWith (lit "--unified=") then
    numbered (lit "--unified=") (word.drop 10) maxContextLines
  else if sub.context && word.startsWith (lit "-U") && decide (2 < word.length) then
    numbered (lit "--unified=") (word.drop 2) maxContextLines
  else formatOption sub word

def countOption (sub : ReadSubcommand) (word : Text) (following : List Text) :
    Except GitRefusal (Option Text × Bool) :=
  if sub.counted then
    if word = lit "-n" ∨ word = lit "--max-count" then
      match following with
      | [] => .error .option
      | value :: _ => (number value maxCount).map fun n => (some (lit "--max-count=" ++ decimal n), true)
    else if word.startsWith (lit "--max-count=") then numbered (lit "--max-count=") (word.drop 12) maxCount
    else if word.startsWith (lit "-n") && decide (2 < word.length) then
      numbered (lit "--max-count=") (word.drop 2) maxCount
    else if numberText (word.drop 1) then numbered (lit "--max-count=") (word.drop 1) maxCount
    else if word.startsWith (lit "--skip=") then numbered (lit "--skip=") (word.drop 7) maxCount
    else contextOption sub word
  else contextOption sub word

/-- `_option`: the canonical spelling (`none`: dropped), and whether the word that follows was used. -/
def option (sub : ReadSubcommand) (word : Text) (following : List Text) :
    Except GitRefusal (Option Text × Bool) :=
  if word ∈ dropped ∧ sub ≠ .status then .ok (none, false)
  else
    match (optionTable sub).lookup word with
    | some canonical => .ok (some canonical, false)
    | none => countOption sub word following

/-! ### A call -/

structure GitReadArgs where
  subcommand : ReadSubcommand
  options : List Text
  revisions : List Revision
  paths : List Text
  deriving DecidableEq, Repr

def GitReadArgs.positive (args : GitReadArgs) : List Revision := args.revisions.filter fun r => !r.negated

def optionWord (word : Text) : Bool := word.startsWith (lit "-") && decide (word ≠ lit "-")

/-- The loop of `parse_git_read` over the words after the sub-command; `used` says that the next word is the
value of the option before it. -/
def parseWords (sub : ReadSubcommand) : Bool → List Text → GitReadArgs → Except GitRefusal GitReadArgs
  | _, [], args => .ok args
  | true, _ :: rest, args => parseWords sub false rest args
  | false, word :: rest, args =>
    if word = lit "--" then .ok { args with paths := args.paths ++ rest }
    else if optionWord word then
      match option sub word rest with
      | .error refusal => .error refusal
      | .ok (found, used) => parseWords sub used rest { args with options := args.options ++ found.toList }
    else if sub ≠ .status ∧ looksLikeRevision word then
      match revisionsOf word sub with
      | .error refusal => .error refusal
      | .ok found => parseWords sub false rest { args with revisions := args.revisions ++ found }
    else parseWords sub false rest { args with paths := args.paths ++ [word] }

theorem parseWords_nil (sub : ReadSubcommand) (args : GitReadArgs) : parseWords sub false [] args = .ok args := by
  rw [parseWords]

def fewRevisions (args : GitReadArgs) : Bool :=
  match args.subcommand with
  | .diff => decide (args.positive.length ≤ 2) &&
      decide ((args.revisions.filter Revision.negated).length ≤ 1)
  | .«show» => decide (args.revisions.length ≤ 4)
  | _ => true

/-- One word of the call, before anything is read from it. -/
def checkWord (word : Text) : Except GitRefusal Unit :=
  if 0 ∈ word then .error .option else if maxWordChars < word.length then .error .tooLong else .ok ()

/-- A global option that changes nothing here. -/
def pagerWord (word : Text) : Bool := decide (word = lit "--no-pager" ∨ word = lit "-P")

def parseGitRead (argv : List Text) : Except GitRefusal GitReadArgs := do
  if maxWords < argv.length then throw .tooLong
  argv.forM checkWord
  match argv.dropWhile pagerWord with
  | [] => throw .subcommand
  | first :: rest =>
    let sub ← orThrow (ReadSubcommand.named first) .subcommand
    let args ← parseWords sub false rest ⟨sub, [], [], []⟩
    if !fewRevisions args then throw .revision
    return { args with options := firsts args.options }

end PawBackend.Sandbox
