/-
**The read-only git of a sandbox, on the host** (`sandbox/gitread.py`; `integration/git.py`: `commit_of`, `pin`,
`current_branch`).

`locate` finds what a repository root is: a plain checkout, a worktree with its base, or a worktree without one.
-/

import PawBackend.Sandbox.GitArgs

namespace PawBackend.Sandbox

open Lib Lib.Text
open Tools (Stdlib TaskScope classifyTargets normalisePath pathWithin firsts)

/-! ### Running git -/

structure GitResult where
  returncode : ℤ
  stdout : Text
  deriving DecidableEq, Repr

inductive GitFailure
  | notInstalled
  | identityMismatch
  | timeout
  | outputTooLarge
  | nonzeroExit
  | unsafeOutput
  | unsafeConfiguration
  | sshUnavailable
  | sshKeyUnavailable
  deriving DecidableEq, Repr

/-- `GitReadRefused` and `GitCommandError`. -/
inductive GitReadError
  | refused (code : GitRefusal)
  | command (name : Text) (failure : GitFailure)
  deriving DecidableEq, Repr

/-- `GitRunner.run`, as one account: the directory and the words. -/
abbrev GitRunner := Text → List Text → Except GitReadError GitResult

structure PinnedWorktree where
  path : Text
  gitDir : Text
  deriving DecidableEq, Repr

/-- `Where`. -/
inductive Place
  | directory (path : Text)
  | worktree (pinned : PinnedWorktree)
  deriving DecidableEq, Repr

/-- `_run`, of the reader and of the worktrees. -/
def runAt (runner : GitRunner) (place : Place) (args : List Text) : Except GitReadError GitResult :=
  match place with
  | .directory path => runner path args
  | .worktree pinned =>
    runner pinned.path ([lit "--git-dir=" ++ pinned.gitDir, lit "--work-tree=" ++ pinned.path] ++ args)

/-- `text.strip()`. -/
def stripSpace (t : Text) : Text := (t.dropWhile isSpace).rdropWhile isSpace

/-! ### `WorktreeGit` -/

def commitOf (runner : GitRunner) (place : Place) (revision : Text) : Except GitReadError (Option Text) := do
  let result ← runAt runner place
    [lit "rev-parse", lit "--verify", lit "--quiet", revision ++ lit "^\x7bcommit\x7d"]
  if result.returncode = 1 then return none
  if result.returncode ≠ 0 then throw (.command (lit "rev-parse") .nonzeroExit)
  let commit := stripSpace result.stdout
  if !objectId commit then throw (.command (lit "rev-parse") .unsafeOutput)
  return some commit

def printedPath (stdout : Text) : Option Text :=
  match stdout.splitOn 10 with
  | [path, []] => if startsWith path (lit "/") then some path else none
  | _ => none

def absolutePath (runner : GitRunner) (place : Place) (args : List Text) : Except GitReadError (Option Text) := do
  let result ← runAt runner place args
  if result.returncode ≠ 0 then return none
  let path ← orThrow (printedPath result.stdout) (.command (lit "rev-parse") .unsafeOutput)
  return some path

def gitDirWords : List Text := [lit "rev-parse", lit "--path-format=absolute", lit "--git-dir"]
def commonDirWords : List Text := [lit "rev-parse", lit "--path-format=absolute", lit "--git-common-dir"]

def commonDir (runner : GitRunner) (checkout : Text) : Except GitReadError Text := do
  let found ← absolutePath runner (.directory checkout) commonDirWords
  orThrow found (.command (lit "rev-parse") .nonzeroExit)

def worktreeName (name : Text) : Bool := decide (name ≠ [] ∧ 47 ∉ name ∧ name ≠ lit "." ∧ name ≠ lit "..")

def pin (runner : GitRunner) (checkout path : Text) : Except GitReadError (Option PinnedWorktree) := do
  let common ← commonDir runner checkout
  let hint ← absolutePath runner (.directory path) gitDirWords
  match hint with
  | none => return none
  | some hint =>
    let first := common ++ lit "/worktrees/"
    if !hint.startsWith first then return none
    if !worktreeName (hint.drop first.length) then return none
    return some ⟨path, hint⟩

def currentBranch (runner : GitRunner) (place : Place) : Except GitReadError (Option Text) := do
  let result ← runAt runner place [lit "symbolic-ref", lit "--quiet", lit "HEAD"]
  if result.returncode ≠ 0 then return none
  let ref := stripSpace result.stdout
  if !ref.startsWith (lit "refs/heads/") then return none
  return some (ref.drop 11)

/-! ### `RepositoryGit` -/

structure RepositoryGit where
  root : Text
  gitDir : Text
  commonDir : Text
  pinned : Option PinnedWorktree := none
  branch : Option Text := none
  base : Option Text := none
  review : Bool := false
  deriving DecidableEq, Repr

namespace RepositoryGit

def hasHistory (repository : RepositoryGit) : Bool := repository.pinned.isSome && repository.base.isSome

def baseRef (repository : RepositoryGit) : Option Text :=
  repository.branch.map fun branch =>
    (if repository.review then reviewBaseRefPrefix else baseRefPrefix) ++ branch

/-- Where the commands of a read run. -/
def place (repository : RepositoryGit) : Place :=
  match repository.pinned with
  | some pinned => .worktree pinned
  | none => .directory repository.root

end RepositoryGit

def pathOf (runner : GitRunner) (root : Text) (args : List Text) : Except GitReadError Text := do
  let result ← runner root args
  if result.returncode ≠ 0 then throw (.refused .unavailable)
  orThrow (printedPath result.stdout) (.refused .unavailable)

/-- The end of `locate`: the base of the branch, or the review base, or none. -/
def locateBase (runner : GitRunner) (root gitDir common : Text) (pinned : PinnedWorktree) (branch : Text) :
    Except GitReadError RepositoryGit := do
  let base ← commitOf runner (.worktree pinned) (baseRefPrefix ++ branch)
  if base.isSome then return ⟨root, gitDir, common, some pinned, some branch, base, false⟩
  let reviewBase ← commitOf runner (.worktree pinned) (reviewBaseRefPrefix ++ branch)
  if reviewBase.isSome then return ⟨root, gitDir, common, some pinned, some branch, reviewBase, true⟩
  return ⟨root, gitDir, common, some pinned, some branch, none, false⟩

def locate (runner : GitRunner) (root : Text) (checkouts : List Text) : Except GitReadError RepositoryGit := do
  let gitDir ← pathOf runner root gitDirWords
  let common ← pathOf runner root commonDirWords
  if gitDir = root ++ lit "/.git" ∧ common = gitDir then return ⟨root, gitDir, common, none, none, none, false⟩
  if ¬(common.endsWith (lit "/.git") = true) then throw (.refused .unavailable)
  let checkout := common.take (common.length - 5)
  if checkout ∉ checkouts then throw (.refused .unavailable)
  if ¬(gitDir.startsWith (common ++ lit "/worktrees/") = true) then throw (.refused .unavailable)
  let pinned ← pin runner checkout root
  match pinned with
  | none => throw (.refused .unavailable)
  | some pinned =>
    if pinned.gitDir ≠ gitDir then throw (.refused .unavailable)
    let branch ← currentBranch runner (.worktree pinned)
    match branch with
    | none => throw (.refused .unavailable)
    | some branch =>
      if ¬(branch.startsWith (lit "paw/") = true) then throw (.refused .unavailable)
      locateBase runner root gitDir common pinned branch

/-! ### One read -/

/-- `_FIXED`. -/
def fixedWords : ReadSubcommand → List Text
  | .status => []
  | .diff => [lit "--no-color", lit "--no-ext-diff", lit "--no-textconv"]
  | .log => [lit "--no-color", lit "--no-ext-diff", lit "--no-textconv", lit "--no-decorate"]
  | .«show» => [lit "--no-color", lit "--no-ext-diff", lit "--no-textconv", lit "--no-decorate"]

def currentStateOnly (args : GitReadArgs) : Except GitReadError Unit :=
  match args.subcommand with
  | .«show» => .error (.refused .history)
  | .diff => if args.revisions ≠ [] then .error (.refused .history) else .ok ()
  | .log =>
    if args.revisions.any fun r => r.negated || decide (r.text ≠ lit "HEAD") then .error (.refused .history)
    else if args.options.any fun o => decide (o ∉ namesOnlyLog) && !startsWith o (lit "--max-count=") then
      .error (.refused .history)
    else .ok ()
  | .status => .ok ()

section Reading

variable (runner : GitRunner) (repository : RepositoryGit)

def commit (revision : Text) : Except GitReadError Text := do
  let found ← commitOf runner repository.place revision
  orThrow found (.refused .outOfRange)

def isAncestor (ancestor descendant : Text) : Except GitReadError Bool := do
  let result ← runAt runner repository.place [lit "merge-base", lit "--is-ancestor", ancestor, descendant]
  if result.returncode = 0 then return true
  if result.returncode = 1 then return false
  throw (.command (lit "merge-base") .nonzeroExit)

/-- `_resolve`; `base` is the repository's. -/
def resolve (base : Text) (revision : Revision) : Except GitReadError Text := do
  if objectId revision.text then
    let result ← runAt runner repository.place [lit "cat-file", lit "-t", revision.text]
    if result.returncode ≠ 0 then throw (.refused .outOfRange)
    if result.stdout ≠ lit "commit\n" then throw (.refused .revision)
    return revision.text
  if revision.text.startsWith baseRefPrefix || revision.text.startsWith reviewBaseRefPrefix then
    if some revision.text ≠ repository.baseRef then throw (.refused .outOfRange)
    return base
  commit runner repository revision.text

/-- Whether a commit is the base, or lies between the base and `HEAD`. -/
def inRange (base head found : Text) : Except GitReadError Bool := do
  if found = base then return true
  if ← isAncestor runner repository base found then isAncestor runner repository found head else return false

/-- One turn of the loop of `_revisions`: the word of one revision. -/
def revisionWord (base head : Text) (sub : ReadSubcommand) (revision : Revision) : Except GitReadError Text := do
  let found ← resolve runner repository base revision
  let within ← inRange runner repository base head found
  if !within then throw (.refused .outOfRange)
  return if revision.negated ∧ sub = .log then lit "^" ++ found else found

/-- `_revisions`. -/
def revisionWords (base : Text) (args : GitReadArgs) : Except GitReadError (List Text) := do
  let head ← commit runner repository (lit "HEAD")
  let words ← args.revisions.mapM (revisionWord runner repository base head args.subcommand)
  return if args.subcommand = .log then
    words ++ (if args.positive.isEmpty then [head] else []) ++ [lit "^" ++ base]
  else words

def readRevisions (args : GitReadArgs) : Except GitReadError (List Text) :=
  match repository.pinned, repository.base with
  | some _, some base => revisionWords runner repository base args
  | _, _ => (currentStateOnly args).map fun _ => []

/-- `GitReader.read`, up to the command that it runs. -/
def readCommand (args : GitReadArgs) (pathspecs : List Text) : Except GitReadError (List Text) := do
  if pathspecs = [] then throw (.refused .path)
  let revisions ← readRevisions runner repository args
  return args.subcommand.name :: fixedWords args.subcommand ++ args.options ++ revisions ++ [lit "--"] ++ pathspecs

def read (args : GitReadArgs) (pathspecs : List Text) : Except GitReadError GitResult := do
  let command ← readCommand runner repository args pathspecs
  let result ← runAt runner repository.place command
  if result.returncode = 125 ∨ result.returncode = 126 then
    throw (.command args.subcommand.name .nonzeroExit)
  return result

end Reading

/-! ### Pathspecs -/

section Pathspecs

variable {py : Stdlib}

def positiveSpec (scope : TaskScope py) (resolver : Text → Option Text) (workdir root : Text)
    (hidden : List Text) (raw : Text) : Except GitReadError Text := do
  let path ← orThrow (normalisePath py raw (some workdir)).toOption (.refused .path)
  if ¬(path = root ∨ pathWithin path root = true) then throw (.refused .path)
  if (hidden.any fun h => decide (path = h) || pathWithin path h) = true then throw (.refused .path)
  let classified ← orThrow (classifyTargets scope resolver [⟨.path, path⟩] []).toOption (.refused .path)
  if classified.status ≠ .inScope then throw (.refused .path)
  let relative := if path = root then [] else path.drop (root.length + 1)
  return if relative = [] then lit "." else lit ":(literal)" ++ relative

def excludedSpecs (root : Text) (hidden : List Text) : List Text :=
  (((firsts hidden).insertionSort (· ≤ ·)).filter fun h => pathWithin h root && decide (h ≠ root)).map fun h =>
    lit ":(exclude,literal)" ++ h.drop (root.length + 1)

def pathspecs (paths : List Text) (workdir root : Text) (scope : TaskScope py)
    (resolver : Text → Option Text) (hidden : List Text) : Except GitReadError (List Text) := do
  let positive ← paths.mapM (positiveSpec scope resolver workdir root hidden)
  return firsts (if positive = [] then [lit "."] else positive) ++ excludedSpecs root hidden

end Pathspecs

end PawBackend.Sandbox
