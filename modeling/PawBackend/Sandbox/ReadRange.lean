/-
**An agent reads no history below its base** (`sandbox/gitread.py`: `read`, `_revisions`, `_resolve`).

* `between_of_inRange`: a revision that is accepted is the base or lies between the base and `HEAD`;
* `shown_above_base`: whatever revisions are given to `log`, a commit that it can show is an ancestor of `HEAD`
  and not of the base.
-/

import PawBackend.Sandbox.GitRead

namespace PawBackend.Sandbox

open Lib Lib.Text List

structure CommitGraph where
  commits : List Text
  parents : List (Text × Text)

def CommitGraph.Ancestor (graph : CommitGraph) (ancestor descendant : Text) : Prop :=
  Relation.ReflTransGen (fun child parent => (child, parent) ∈ graph.parents) descendant ancestor

/-- Git answers truthfully about a graph: `commit_of`, `cat-file -t` and `merge-base --is-ancestor`. -/
structure Truthful (runner : GitRunner) (repository : RepositoryGit) (graph : CommitGraph) (head : Text) :
    Prop where
  base : ∀ base, repository.base = some base → base ∈ graph.commits
  commit : ∀ revision found, commitOf runner repository.place revision = .ok (some found) → found ∈ graph.commits
  head : ∀ found, commitOf runner repository.place (lit "HEAD") = .ok (some found) → found = head
  kind : ∀ id result, runAt runner repository.place [lit "cat-file", lit "-t", id] = .ok result →
    result.returncode = 0 → result.stdout = lit "commit\n" → id ∈ graph.commits
  yes : ∀ ancestor descendant result,
    runAt runner repository.place [lit "merge-base", lit "--is-ancestor", ancestor, descendant] = .ok result →
      result.returncode = 0 → graph.Ancestor ancestor descendant
  no : ∀ ancestor descendant result,
    runAt runner repository.place [lit "merge-base", lit "--is-ancestor", ancestor, descendant] = .ok result →
      result.returncode = 1 → ¬ graph.Ancestor ancestor descendant

def negatedWord (word : Text) : Bool := word.startsWith (lit "^")

/-- What `log` can show: what a positive word reaches and no negated one. -/
def CommitGraph.Shown (graph : CommitGraph) (words : List Text) (found : Text) : Prop :=
  (∃ word ∈ words, negatedWord word = false ∧ graph.Ancestor found word) ∧
    ∀ id, lit "^" ++ id ∈ words → ¬ graph.Ancestor found id

/-! ### What the questions to git answer -/

section Answers

variable {runner : GitRunner} {place : Place} {repository : RepositoryGit} {base head found : Text}

theorem commitOf_eq_some {revision : Text} (answered : commitOf runner place revision = .ok (some found)) :
    ∃ result, runAt runner place
        [lit "rev-parse", lit "--verify", lit "--quiet", revision ++ lit "^\x7bcommit\x7d"] = .ok result ∧
      result.returncode = 0 ∧ found = stripSpace result.stdout ∧ objectId found = true := by
  simp only [commitOf, bind_eq_ok] at answered
  obtain ⟨result, asked, answered⟩ := answered
  by_cases absent : result.returncode = 1
  · rw [if_pos absent] at answered
    cases answered
  · rw [if_neg absent] at answered
    simp only [↓check_eq_ok, pure_eq_ok, Bool.not_eq_true', Bool.not_eq_false, not_not] at answered
    obtain ⟨fine, formed, same⟩ := answered
    cases same
    exact ⟨result, asked, fine, rfl, formed⟩

theorem commitOf_objectId {revision : Text} (answered : commitOf runner place revision = .ok (some found)) :
    objectId found = true :=
  let ⟨_, _, _, _, formed⟩ := commitOf_eq_some answered
  formed

theorem commit_eq_ok {revision : Text} (answered : commit runner repository revision = .ok found) :
    commitOf runner repository.place revision = .ok (some found) := by
  simp only [commit, bind_eq_ok, orThrow_eq_ok] at answered
  obtain ⟨answer, asked, rfl⟩ := answered
  exact asked

theorem isAncestor_eq_true {ancestor descendant : Text}
    (answered : isAncestor runner repository ancestor descendant = .ok true) :
    ∃ result, runAt runner repository.place [lit "merge-base", lit "--is-ancestor", ancestor, descendant] =
      .ok result ∧ result.returncode = 0 := by
  simp only [isAncestor, bind_eq_ok] at answered
  obtain ⟨result, asked, answered⟩ := answered
  by_cases yes : result.returncode = 0
  · exact ⟨result, asked, yes⟩
  · rw [if_neg yes] at answered
    split_ifs at answered
    · cases answered

theorem inRange_eq_true (answered : inRange runner repository base head found = .ok true) :
    found = base ∨ isAncestor runner repository base found = .ok true ∧
      isAncestor runner repository found head = .ok true := by
  by_cases own : found = base
  · exact Or.inl own
  · simp only [inRange, if_neg own, bind_eq_ok] at answered
    obtain ⟨above, asked, answered⟩ := answered
    cases above with
    | false => cases answered
    | true => exact Or.inr ⟨asked, answered⟩

theorem resolve_eq_ok {revision : Revision} (answered : resolve runner repository base revision = .ok found) :
    (objectId found = true ∧ ∃ result, runAt runner repository.place [lit "cat-file", lit "-t", found] = .ok result ∧
        result.returncode = 0 ∧ result.stdout = lit "commit\n") ∨
      found = base ∨ commitOf runner repository.place revision.text = .ok (some found) := by
  unfold resolve at answered
  by_cases isId : objectId revision.text = true
  · rw [if_pos isId] at answered
    simp only [↓check_eq_ok, bind_eq_ok, pure_eq_ok, not_not] at answered
    obtain ⟨result, asked, fine, isCommit, rfl⟩ := answered
    exact Or.inl ⟨isId, result, asked, fine, isCommit⟩
  · rw [if_neg isId] at answered
    by_cases isRef : (revision.text.startsWith baseRefPrefix || revision.text.startsWith reviewBaseRefPrefix) = true
    · rw [if_pos isRef] at answered
      simp only [↓check_eq_ok, pure_eq_ok] at answered
      exact Or.inr (Or.inl answered.2.symm)
    · rw [if_neg isRef] at answered
      exact Or.inr (Or.inr (commit_eq_ok answered))

end Answers

/-! ### The words of the revisions -/

section Words

variable {runner : GitRunner} {repository : RepositoryGit} {graph : CommitGraph} {base head : Text}

/-- A commit that may be named: the base, or one between the base and `HEAD`. -/
def CommitGraph.Between (graph : CommitGraph) (base head found : Text) : Prop :=
  found = base ∨ graph.Ancestor base found ∧ graph.Ancestor found head

theorem revisionWord_eq_ok {sub : ReadSubcommand} {revision : Revision} {word : Text}
    (made : revisionWord runner repository base head sub revision = .ok word) :
    ∃ id, resolve runner repository base revision = .ok id ∧ inRange runner repository base head id = .ok true ∧
      word = if revision.negated ∧ sub = .log then lit "^" ++ id else id := by
  simp only [revisionWord, bind_eq_ok, ↓check_eq_ok, pure_eq_ok, Bool.not_eq_true', Bool.not_eq_false] at made
  obtain ⟨id, resolved, within, asked, rfl, rfl⟩ := made
  exact ⟨id, resolved, asked, rfl⟩

theorem resolve_objectId (based : objectId base = true) {revision : Revision} {id : Text}
    (resolved : resolve runner repository base revision = .ok id) : objectId id = true := by
  rcases resolve_eq_ok resolved with ⟨isId, -⟩ | rfl | answered
  · exact isId
  · exact based
  · exact commitOf_objectId answered

theorem resolve_known (truthful : Truthful runner repository graph head) (isBase : repository.base = some base)
    {revision : Revision} {id : Text} (resolved : resolve runner repository base revision = .ok id) :
    id ∈ graph.commits := by
  rcases resolve_eq_ok resolved with ⟨-, result, answered, fine, isCommit⟩ | rfl | answered
  · exact truthful.kind id result answered fine isCommit
  · exact truthful.base id isBase
  · exact truthful.commit _ id answered

theorem between_of_inRange (truthful : Truthful runner repository graph head) {id : Text}
    (asked : inRange runner repository base head id = .ok true) : graph.Between base head id := by
  rcases inRange_eq_true asked with own | ⟨above, below⟩
  · exact Or.inl own
  · obtain ⟨first, answeredFirst, yesFirst⟩ := isAncestor_eq_true above
    obtain ⟨second, answeredSecond, yesSecond⟩ := isAncestor_eq_true below
    exact Or.inr ⟨truthful.yes _ _ first answeredFirst yesFirst, truthful.yes _ _ second answeredSecond yesSecond⟩

theorem revisionWords_eq_ok {args : GitReadArgs} {words : List Text}
    (made : revisionWords runner repository base args = .ok words) :
    ∃ head given, commitOf runner repository.place (lit "HEAD") = .ok (some head) ∧
      args.revisions.mapM (revisionWord runner repository base head args.subcommand) = .ok given ∧
      words = if args.subcommand = .log then
        given ++ (if args.positive.isEmpty then [head] else []) ++ [lit "^" ++ base] else given := by
  simp only [revisionWords, bind_eq_ok, pure_eq_ok] at made
  obtain ⟨head, asked, given, isGiven, rfl⟩ := made
  exact ⟨head, given, commit_eq_ok asked, isGiven, rfl⟩

theorem mem_revisionWords {args : GitReadArgs} {words : List Text}
    (made : revisionWords runner repository base args = .ok words) {word : Text} (mem : word ∈ words) :
    ∃ id, (word = id ∨ args.subcommand = .log ∧ word = lit "^" ++ id) ∧
      ((∃ revision ∈ args.revisions, resolve runner repository base revision = .ok id) ∨
        commitOf runner repository.place (lit "HEAD") = .ok (some id) ∨ id = base) := by
  obtain ⟨head, given, asked, isGiven, rfl⟩ := revisionWords_eq_ok made
  have cases : word ∈ given ∨ args.subcommand = .log ∧ (word = head ∨ word = lit "^" ++ base) := by
    split_ifs at mem with isLog
    · simp only [mem_append, mem_singleton, or_assoc] at mem
      exact mem.imp_right fun rest => ⟨isLog, rest⟩
    · simp only [append_nil, mem_append, mem_singleton] at mem
      exact mem.imp_right fun rest => ⟨isLog, Or.inr rest⟩
    · exact Or.inl mem
  rcases cases with inGiven | ⟨isLog, rfl | rfl⟩
  · obtain ⟨revision, isRevision, isWord⟩ := exists_of_mem_mapM isGiven inGiven
    obtain ⟨id, resolved, -, rfl⟩ := revisionWord_eq_ok isWord
    refine ⟨id, ?_, Or.inl ⟨revision, isRevision, resolved⟩⟩
    split_ifs with negated
    · exact Or.inr ⟨negated.2, rfl⟩
    · exact Or.inl rfl
  · exact ⟨word, Or.inl rfl, Or.inr (Or.inl asked)⟩
  · exact ⟨base, Or.inr ⟨isLog, rfl⟩, Or.inr (Or.inr rfl)⟩

theorem shown_above_base {given : List Text} {found : Text} {more : List Text}
    (onlyHead : ∀ word ∈ more, word = head)
    (ranged : ∀ word ∈ given, negatedWord word = true ∨ graph.Between base head word)
    (shown : graph.Shown (given ++ more ++ [lit "^" ++ base]) found) :
    graph.Ancestor found head ∧ ¬ graph.Ancestor found base := by
  obtain ⟨⟨word, mem, positive, reached⟩, excluded⟩ := shown
  have below : ¬ graph.Ancestor found base := excluded base (by simp)
  refine ⟨?_, below⟩
  rcases mem_append.mp mem with mem | isBase
  · rcases mem_append.mp mem with inGiven | inMore
    · rcases ranged word inGiven with negated | rfl | ⟨-, onward⟩
      · rw [positive] at negated
        cases negated
      · exact absurd reached below
      · exact onward.trans reached
    · exact onlyHead word inMore ▸ reached
  · rw [mem_singleton.mp isBase] at positive
    cases positive

end Words

/-! ### A located repository -/

theorem locateBase_base {runner : GitRunner} {root gitDir common branch : Text} {pinned : PinnedWorktree}
    {repository : RepositoryGit} (located : locateBase runner root gitDir common pinned branch = .ok repository)
    {base : Text} (isBase : repository.base = some base) :
    objectId base = true ∧ repository.pinned = some pinned := by
  simp only [locateBase, bind_eq_ok] at located
  obtain ⟨answer, asked, located⟩ := located
  cases answer with
  | some found =>
    cases located
    cases isBase
    exact ⟨commitOf_objectId asked, rfl⟩
  | none =>
    rw [if_neg (by simp)] at located
    simp only [bind_eq_ok] at located
    obtain ⟨answer, askedAgain, located⟩ := located
    cases answer with
    | some found =>
      cases located
      cases isBase
      exact ⟨commitOf_objectId askedAgain, rfl⟩
    | none =>
      cases located
      cases isBase

theorem locate_base {runner : GitRunner} {root : Text} {checkouts : List Text} {repository : RepositoryGit}
    (located : locate runner root checkouts = .ok repository) {base : Text} (isBase : repository.base = some base) :
    objectId base = true ∧ repository.pinned.isSome = true := by
  simp only [locate, bind_eq_ok] at located
  obtain ⟨gitDir, -, common, -, located⟩ := located
  by_cases plain : gitDir = root ++ lit "/.git" ∧ common = gitDir
  · rw [if_pos plain] at located
    cases located
    cases isBase
  · rw [if_neg plain] at located
    simp only [↓check_eq_ok, bind_eq_ok] at located
    obtain ⟨-, -, -, answer, -, located⟩ := located
    cases answer with
    | none => cases located
    | some pinned =>
      simp only [↓check_eq_ok, bind_eq_ok] at located
      obtain ⟨-, answer, -, located⟩ := located
      cases answer with
      | none => cases located
      | some branch =>
        simp only [↓check_eq_ok] at located
        obtain ⟨formed, isPinned⟩ := locateBase_base located.2 isBase
        rw [isPinned]
        exact ⟨formed, rfl⟩

/-! ### A whole read -/

/-- The words that reach git: without a base no revision at all; with one, only ids of commits, where `log`
shows nothing at or below the base and `show` and `diff` name only the base and what lies above it. -/
theorem read_stays_above_base {earlier runner : GitRunner} {root : Text} {checkouts : List Text}
    {repository : RepositoryGit} (located : locate earlier root checkouts = .ok repository)
    {graph : CommitGraph} {head : Text} (truthful : Truthful runner repository graph head)
    {args : GitReadArgs} {specs command : List Text}
    (built : readCommand runner repository args specs = .ok command) :
    ∃ words, command = args.subcommand.name :: fixedWords args.subcommand ++ args.options ++ words ++ [lit "--"] ++ specs ∧
      (repository.base = none → words = []) ∧
      (∀ word ∈ words, ∃ id ∈ graph.commits, objectId id = true ∧
        (word = id ∨ args.subcommand = .log ∧ word = lit "^" ++ id)) ∧
      ∀ base, repository.base = some base →
        (args.subcommand = .log → ∀ found, graph.Shown words found →
          graph.Ancestor found head ∧ ¬ graph.Ancestor found base) ∧
        (args.subcommand = .diff ∨ args.subcommand = .«show» →
          ∀ word ∈ words, word = base ∨ graph.Ancestor base word ∧ graph.Ancestor word head) := by
  simp only [readCommand, ↓check_eq_ok, bind_eq_ok, pure_eq_ok] at built
  obtain ⟨-, words, made, rfl⟩ := built
  refine ⟨words, rfl, ?_⟩
  cases isBase : repository.base with
  | none =>
    have none : words = [] := by
      unfold readRevisions at made
      rw [isBase] at made
      cases pinned : repository.pinned <;> rw [pinned] at made <;>
        · obtain ⟨_, -, rfl⟩ := map_eq_ok.mp made
          rfl
    subst none
    exact ⟨fun _ => rfl, by simp, by simp⟩
  | some base =>
    obtain ⟨formed, pinned⟩ := locate_base located isBase
    obtain ⟨pinned, isPinned⟩ := Option.isSome_iff_exists.mp pinned
    unfold readRevisions at made
    rw [isBase, isPinned] at made
    refine ⟨by simp, ?_, ?_⟩
    · intro word member
      obtain ⟨id, isWord, origin⟩ := mem_revisionWords made member
      rcases origin with ⟨revision, -, resolved⟩ | answered | rfl
      · exact ⟨id, resolve_known truthful isBase resolved, resolve_objectId formed resolved, isWord⟩
      · exact ⟨id, truthful.commit _ id answered, commitOf_objectId answered, isWord⟩
      · exact ⟨id, truthful.base id isBase, formed, isWord⟩
    · rintro own same
      cases same
      obtain ⟨found, given, answered, isGiven, rfl⟩ := revisionWords_eq_ok made
      obtain rfl := truthful.head found answered
      have ranged : ∀ word ∈ given, args.subcommand = .log ∧ negatedWord word = true ∨ graph.Between base found word := by
        intro word member
        obtain ⟨revision, -, isWord⟩ := exists_of_mem_mapM isGiven member
        obtain ⟨id, -, asked, rfl⟩ := revisionWord_eq_ok isWord
        split_ifs with negated
        · exact Or.inl ⟨negated.2, rfl⟩
        · exact Or.inr (between_of_inRange truthful asked)
      constructor
      · intro isLog shown isShown
        rw [if_pos isLog] at isShown
        refine shown_above_base (fun word member => ?_) (fun word member => (ranged word member).imp_left And.right) isShown
        split_ifs at member
        · exact mem_singleton.mp member
        · cases member
      · rintro named word member
        have notLog : args.subcommand ≠ .log := by
          rcases named with named | named <;> rw [named] <;> decide
        rw [if_neg notLog] at member
        rcases ranged word member with ⟨isLog, -⟩ | between
        · exact absurd isLog notLog
        · exact between

/-! ### A worktree with one commit above its base -/

def sampleHead : Text := List.replicate 40 97
def sampleBase : Text := List.replicate 40 98
def sampleRoot : Text := lit "/w"
def samplePinned : PinnedWorktree := ⟨sampleRoot, lit "/c/.git/worktrees/w"⟩
def sampleGraph : CommitGraph := ⟨[sampleHead, sampleBase], [(sampleHead, sampleBase)]⟩

def sampleRepository : RepositoryGit :=
  ⟨sampleRoot, lit "/c/.git/worktrees/w", lit "/c/.git", some samplePinned, some (lit "paw/x"), some sampleBase, false⟩

/-- What git prints for a command of the sample: the last words, without the pinned directories. -/
def sampleAnswers : List (List Text × Text) :=
  [(gitDirWords, lit "/c/.git/worktrees/w\n"), (commonDirWords, lit "/c/.git\n"),
    ([lit "symbolic-ref", lit "--quiet", lit "HEAD"], lit "refs/heads/paw/x\n"),
    ([lit "rev-parse", lit "--verify", lit "--quiet", lit "refs/paw/base/paw/x^\x7bcommit\x7d"], sampleBase ++ [10]),
    ([lit "rev-parse", lit "--verify", lit "--quiet", lit "HEAD^\x7bcommit\x7d"], sampleHead ++ [10])]

/-- The words of a command without the two that pin a directory. -/
def unpinnedWords : List Text → List Text
  | first :: second :: rest =>
    if first.startsWith (lit "--git-dir=") && second.startsWith (lit "--work-tree=") then rest else first :: second :: rest
  | words => words

def sampleRunner : GitRunner := fun _ args =>
  match sampleAnswers.lookup (unpinnedWords args) with
  | some stdout => .ok ⟨0, stdout⟩
  | none => .ok ⟨128, []⟩

def sampleCommand : List Text :=
  [lit "log", lit "--no-color", lit "--no-ext-diff", lit "--no-textconv", lit "--no-decorate", sampleHead,
    lit "^" ++ sampleBase, lit "--", lit "."]

theorem sampleRunner_answer {args : List Text} {result : GitResult}
    (answered : runAt sampleRunner sampleRepository.place args = .ok result) (fine : result.returncode = 0) :
    (args, result.stdout) ∈ sampleAnswers := by
  have asked : sampleRunner sampleRoot ([lit "--git-dir=" ++ samplePinned.gitDir, lit "--work-tree=" ++ sampleRoot] ++ args) =
      .ok result := answered
  have words : unpinnedWords ([lit "--git-dir=" ++ samplePinned.gitDir, lit "--work-tree=" ++ sampleRoot] ++ args) = args :=
    rfl
  unfold sampleRunner at asked
  rw [words] at asked
  cases found : sampleAnswers.lookup args with
  | none =>
    rw [found] at asked
    cases asked
    cases fine
  | some stdout =>
    rw [found] at asked
    cases asked
    exact mem_of_lookup found

theorem sampleRunner_code {args : List Text} {result : GitResult}
    (answered : runAt sampleRunner sampleRepository.place args = .ok result) :
    result.returncode = 0 ∨ result.returncode = 128 := by
  have asked : sampleRunner sampleRoot ([lit "--git-dir=" ++ samplePinned.gitDir, lit "--work-tree=" ++ sampleRoot] ++ args) =
      .ok result := answered
  unfold sampleRunner at asked
  split at asked
  · cases asked
    exact Or.inl rfl
  · cases asked
    exact Or.inr rfl

theorem sample_truthful : Truthful sampleRunner sampleRepository sampleGraph sampleHead where
  base := by
    rintro base same
    cases same
    decide
  commit := by
    intro revision found answered
    obtain ⟨result, asked, fine, rfl, -⟩ := commitOf_eq_some answered
    have mem := sampleRunner_answer asked fine
    simp only [sampleAnswers, gitDirWords, commonDirWords, mem_cons, not_mem_nil, or_false,
      Prod.mk.injEq] at mem
    rcases mem with ⟨words, -⟩ | ⟨words, -⟩ | ⟨words, -⟩ | ⟨-, same⟩ | ⟨-, same⟩
    · simp [lit] at words
    · simp [lit] at words
    · simp [lit] at words
    · rw [same]
      decide
    · rw [same]
      decide
  head := by
    intro found answered
    have head : commitOf sampleRunner sampleRepository.place (lit "HEAD") = .ok (some sampleHead) := by decide
    rw [head] at answered
    cases answered
    rfl
  kind := by
    intro id result answered fine
    have mem := sampleRunner_answer answered fine
    simp [sampleAnswers, gitDirWords, commonDirWords, lit] at mem
  yes := by
    intro ancestor descendant result answered fine
    have mem := sampleRunner_answer answered fine
    simp [sampleAnswers, gitDirWords, commonDirWords, lit] at mem
  no := by
    intro ancestor descendant result answered refused
    rcases sampleRunner_code answered with fine | failed
    · rw [fine] at refused
      cases refused
    · rw [failed] at refused
      cases refused

theorem located_sample : locate sampleRunner sampleRoot [lit "/c"] = .ok sampleRepository := by decide

theorem built_sample :
    readCommand sampleRunner sampleRepository ⟨.log, [], [], []⟩ [lit "."] = .ok sampleCommand := by decide

/-- `git log` in the sample shows only what lies above its base. -/
theorem sampleLog_above_base :
    readCommand sampleRunner sampleRepository ⟨.log, [], [], []⟩ [lit "."] = .ok sampleCommand ∧
      ∀ found, sampleGraph.Shown [sampleHead, lit "^" ++ sampleBase] found →
        sampleGraph.Ancestor found sampleHead ∧ ¬ sampleGraph.Ancestor found sampleBase := by
  refine ⟨built_sample, ?_⟩
  obtain ⟨words, isCommand, -, -, above⟩ := read_stays_above_base located_sample sample_truthful built_sample
  have isWords : [sampleHead, lit "^" ++ sampleBase] = words := by
    have tails : [sampleHead, lit "^" ++ sampleBase] ++ [lit "--", lit "."] = words ++ [lit "--", lit "."] := by
      simpa [sampleCommand, fixedWords, ReadSubcommand.name] using isCommand
    exact append_cancel_right tails
  subst isWords
  exact (above sampleBase rfl).1 rfl

end PawBackend.Sandbox
