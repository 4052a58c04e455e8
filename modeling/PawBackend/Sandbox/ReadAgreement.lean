/-
**The backend's git and the wrapper agree** (`sandbox/gitargs.py`, `sandbox/gitread.py`;
`deploy/ssh-git-wrapper/paw_git_wrapper.py`).

* `CanonicalOption.readOption`: every option that the parser writes is one of the wrapper's tables;
* `readWord_of_revision`: every revision word of a read is one that the wrapper takes;
* `readPathspec_of_mem`: so is every pathspec that is built from paths within the wrapper's limits.
-/

import PawBackend.Sandbox.GitCanonical
import PawBackend.Sandbox.GitWrapper
import PawBackend.Sandbox.ReadRange

namespace PawBackend.Sandbox

open Lib Lib.Text List
open Tools (Stdlib TaskScope CanonicalPath CanonicalSegments absolute canonicalSegments_of_splitOn checkText
  checkText_eq_ok decimal firsts forbidden keptSegment maxPathLength mem_firsts normalisePath normaliseSegments
  parentSegment pathWithin pathWithin_iff splitOn_absolute normalisePath_eq_ok)

/-! ### Options -/

theorem table_readOption (sub : ReadSubcommand) : ∀ word ∈ (optionTable sub).map Prod.snd, word ∈ readOptions sub := by
  cases sub <;> simp only [optionTable, diffOutput, plainly, readOptions, readDiffOutput, map_cons, map_nil]
  all_goals
    repeat rw [Text.lit_ofList]
    decide

theorem readNumberedOption_decimal {name : Text} {n maximum : ℕ} (small : n ≤ maximum) (bounded : maximum < 10 ^ 6)
    (rest : List (Text × ℕ)) : readNumberedOption (name ++ decimal n) ((name, maximum) :: rest) = some true := by
  have read := number_decimal small bounded
  rw [readNumberedOption, if_pos (startsWith_append _ _), drop_left]
  unfold number at read
  split_ifs at read with fits
  rw [fits.1, decide_eq_true fits.2]
  rfl

variable {sub : ReadSubcommand} {word : Text}

theorem CanonicalOption.readOption (canonical : CanonicalOption sub word) :
    readOption sub word = true := by
  unfold Sandbox.readOption
  by_cases listed : word ∈ readOptions sub
  · rw [if_pos listed]
  · rw [if_neg listed]
    cases canonical with
    | table isCanonical => exact absurd (table_readOption sub word isCanonical) listed
    | @count n takes small =>
      obtain rfl : sub = .log := of_decide_eq_true takes
      have answered : readNumberedOption (lit "--max-count=" ++ decimal n) (readNumbered .log) = some true :=
        readNumberedOption_decimal (show n ≤ 100000 from small) (by decide) _
      rw [answered]
    | @skip n takes small =>
      obtain rfl : sub = .log := of_decide_eq_true takes
      have second : readNumberedOption (lit "--skip=" ++ decimal n) [(lit "--skip=", 100000), (lit "--unified=", 1000)] =
          some true := readNumberedOption_decimal (show n ≤ 100000 from small) (by decide) _
      have answered : readNumberedOption (lit "--skip=" ++ decimal n) (readNumbered .log) = some true := second
      rw [answered]
    | @context n takes small =>
      have answered : readNumberedOption (lit "--unified=" ++ decimal n) (readNumbered sub) = some true := by
        have last : readNumberedOption (lit "--unified=" ++ decimal n) [(lit "--unified=", 1000)] = some true :=
          readNumberedOption_decimal (show n ≤ 1000 from small) (by decide) []
        cases sub
        · cases takes
        · exact last
        · exact last
        · exact last
      rw [answered]
    | @format name takes known =>
      have other : readNumberedOption (lit "--format=" ++ name) (readNumbered sub) = none := by
        cases sub <;> rfl
      rw [other]
      show (if _ then _ else _) = true
      rw [if_pos ⟨of_decide_eq_true takes, startsWith_append _ _⟩]
      exact decide_eq_true (show name ∈ readFormats from known)

def TableOption (sub : ReadSubcommand) (word : Text) : Prop :=
  word ∈ readOptions sub ∨
    (∃ entry ∈ readNumbered sub, ∃ t, word = entry.1 ++ t ∧ numberText t = true ∧ toNat 10 t ≤ entry.2) ∨
    (sub = .log ∨ sub = .«show») ∧ ∃ name ∈ readFormats, word = lit "--format=" ++ name

theorem readNumberedOption_eq_some {entries : List (Text × ℕ)}
    (answered : readNumberedOption word entries = some true) :
    ∃ entry ∈ entries, ∃ t, word = entry.1 ++ t ∧ numberText t = true ∧ toNat 10 t ≤ entry.2 := by
  induction entries with
  | nil => cases answered
  | cons entry rest ih =>
    rw [readNumberedOption] at answered
    split_ifs at answered with starts
    · obtain ⟨t, rfl⟩ := isPrefixOf_iff_prefix.mp starts
      rw [drop_left, Option.some.injEq, Bool.and_eq_true, decide_eq_true_eq] at answered
      exact ⟨entry, mem_cons_self, t, rfl, answered.1, answered.2⟩
    · obtain ⟨other, mem, found⟩ := ih answered
      exact ⟨other, mem_cons_of_mem _ mem, found⟩

theorem tableOption_of_readOption (accepted : readOption sub word = true) :
    TableOption sub word := by
  unfold readOption at accepted
  by_cases listed : word ∈ readOptions sub
  · exact Or.inl listed
  · rw [if_neg listed] at accepted
    cases answered : readNumberedOption word (readNumbered sub) with
    | some answer =>
      rw [answered] at accepted
      cases accepted
      exact Or.inr (Or.inl (readNumberedOption_eq_some answered))
    | none =>
      simp only [answered] at accepted
      split_ifs at accepted with formats
      obtain ⟨name, rfl⟩ := isPrefixOf_iff_prefix.mp formats.2
      exact Or.inr (Or.inr ⟨formats.1, name, of_decide_eq_true accepted, rfl⟩)

/-! ### Revisions -/

theorem not_hyphen_of_objectId {id : Text} (isId : objectId id = true) : startsWith id (lit "-") = false := by
  obtain ⟨c, rest, rfl, plain⟩ := (revisionText_of_objectId isId).first
  rw [Bool.eq_false_iff]
  intro starts
  have same : 45 :: [] <+: c :: rest := isPrefixOf_iff_prefix.mp starts
  rw [← (cons_prefix_cons.mp same).1] at plain
  cases plain

theorem readWord_of_revision {pinned : Bool} {id : Text} (isId : objectId id = true)
    (isWord : word = id ∨ sub = .log ∧ word = lit "^" ++ id) :
    startsWith word (lit "-") = false ∧ ReadWord sub pinned word := by
  have plain : startsWith word (lit "-") = false := by
    rcases isWord with rfl | ⟨-, rfl⟩
    · exact not_hyphen_of_objectId isId
    · rfl
  refine ⟨plain, fun isOption => ?_, fun _ => ?_⟩
  · rw [plain] at isOption
    cases isOption
  · unfold readRevision
    rw [Bool.or_eq_true]
    rcases isWord with rfl | ⟨rfl, rfl⟩
    · exact Or.inl isId
    · refine Or.inr ?_
      show objectId ((lit "^" ++ id).drop 1) = true
      exact isId

/-! ### Pathspecs -/

section Pathspecs

variable {py : Stdlib} {root path tail : Text}

theorem normalisePath_segments {raw : Text} {base : Option Text} (normal : normalisePath py raw base = .ok path) :
    ∃ segments, CanonicalSegments segments ∧ path = absolute segments := by
  have bySegments : ∀ {t : Text}, normaliseSegments t = .ok path →
      ∃ segments, CanonicalSegments segments ∧ path = absolute segments := by
    intro t accepted
    unfold normaliseSegments at accepted
    dsimp only at accepted
    split_ifs at accepted with parents
    cases accepted
    exact ⟨_, canonicalSegments_of_splitOn rfl (Bool.eq_false_iff.mpr parents), rfl⟩
  unfold normalisePath at normal
  split at normal
  · cases normal
  · split_ifs at normal
    · exact bySegments normal
    · split at normal
      · split_ifs at normal
        exact bySegments normal
      · cases normal

theorem relativePath_below (canonical : ∃ segments, CanonicalSegments segments ∧ path = absolute segments)
    (rooted : root ≠ []) (isPath : path = root ++ 47 :: tail) (printable : isPrintable py path = true)
    (short : path.length ≤ root.length + 1 + maxPathChars) : relativePath py tail = true := by
  obtain ⟨segments, formed, isAbsolute⟩ := canonical
  have some : segments ≠ [] := by
    rintro rfl
    rw [isPath] at isAbsolute
    have length := congrArg List.length isAbsolute
    have : 0 < root.length := length_pos_iff.mpr rooted
    simp [absolute, join] at length
    omega
  have split : [] :: segments = root.splitOn 47 ++ tail.splitOn 47 := by
    rw [← splitOn_absolute formed some, ← isAbsolute, isPath, splitOn_append_cons_self]
  have parts : ∀ part ∈ tail.splitOn 47, keptSegment part = true ∧ parentSegment part = false := by
    intro part mem
    obtain ⟨first, more, isSplit⟩ := exists_cons_of_ne_nil (splitOn_ne_nil 47 root)
    rw [isSplit, cons_append, List.cons.injEq] at split
    have own := formed part (split.2 ▸ mem_append_right _ mem)
    exact ⟨own.1, own.2.1⟩
  have nonempty : tail ≠ [] := by
    rintro rfl
    exact Bool.false_ne_true (parts [] mem_cons_self).1
  unfold relativePath
  simp only [Bool.and_eq_true, decide_eq_true_eq, Bool.not_eq_true', all_eq_true]
  refine ⟨⟨⟨⟨nonempty, ?_⟩, ?_⟩, ?_⟩, ?_⟩
  · rw [isPath, length_append, length_cons] at short
    omega
  · rw [Bool.eq_false_iff]
    intro starts
    obtain ⟨rest, rfl⟩ := PawBackend.Tools.startsWith_slash.mp starts
    rw [splitOn_cons_eq_if_modifyHead, if_pos (by simp)] at parts
    exact Bool.false_ne_true (parts [] mem_cons_self).1
  · unfold isPrintable at printable ⊢
    rw [all_eq_true] at printable ⊢
    intro c mem
    exact printable c (isPath ▸ mem_append_right _ (mem_cons_of_mem _ mem))
  · intro part mem
    obtain ⟨kept, notParent⟩ := parts part mem
    simp only [mem_cons, not_mem_nil, or_false, not_or]
    refine ⟨?_, ?_, ?_⟩
    · rintro rfl
      cases kept
    · rintro rfl
      cases kept
    · rintro rfl
      cases notParent

theorem readPathspec_literal {path : Text} (relative : relativePath py path = true) :
    readPathspec py (lit ":(literal)" ++ path) = some .positive := by
  have fixed : readPathspec py (lit ":(literal)" ++ path) =
      if relativePath py path then some .positive else none := rfl
  rw [fixed, if_pos relative]

theorem readPathspec_exclude {path : Text} (relative : relativePath py path = true) :
    readPathspec py (lit ":(exclude,literal)" ++ path) = some .exclude := by
  have fixed : readPathspec py (lit ":(exclude,literal)" ++ path) =
      if relativePath py path then some .exclude else none := rfl
  rw [fixed, if_pos relative]

def WithinLimits (py : Stdlib) (root path : Text) : Prop :=
  isPrintable py path = true ∧ path.length ≤ root.length + 1 + maxPathChars

variable {hidden : List Text}

theorem readPathspec_positive {scope : TaskScope py} {resolver : Text → Option Text} {workdir raw spec : Text}
    (rooted : root ≠ [])
    (limits : ∀ path, normalisePath py raw (some workdir) = .ok path → WithinLimits py root path)
    (made : positiveSpec scope resolver workdir root hidden raw = .ok spec) :
    readPathspec py spec = some .positive := by
  simp only [positiveSpec, bind_eq_ok, ↓check_eq_ok, orThrow_eq_ok, pure_eq_ok, not_not] at made
  obtain ⟨path, normal, within, -, -, -, -, rfl⟩ := made
  rw [toOption_eq_some] at normal
  by_cases isRoot : path = root
  · rw [if_pos isRoot, if_pos rfl]
    rfl
  · rw [if_neg isRoot]
    have below : ∃ tail, path = root ++ 47 :: tail := by
      rcases within with isRoot' | within
      · exact absurd isRoot' isRoot
      · rcases (pathWithin_iff.mp within).2 with isRoot' | below
        · exact absurd isRoot' isRoot
        · exact below
    obtain ⟨tail, isPath⟩ := below
    have isTail : path.drop (root.length + 1) = tail := by
      rw [isPath, ← drop_drop, drop_left]
      rfl
    rw [isTail]
    split_ifs with empty
    · rfl
    · obtain ⟨printable, short⟩ := limits path normal
      exact readPathspec_literal (relativePath_below (normalisePath_segments normal) rooted isPath printable short)

theorem withinLimits_of_canonical (canonical : normalisePath py path none = .ok path) : WithinLimits py root path := by
  obtain ⟨checked, -⟩ := normalisePath_eq_ok.mp canonical
  obtain ⟨-, short, plain, -⟩ := checkText_eq_ok.mp checked
  refine ⟨all_eq_true.mpr fun c mem => by rw [plain c mem]; rfl, ?_⟩
  have : maxPathLength = maxPathChars := rfl
  omega

theorem readPathspec_excluded (rooted : root ≠ [])
    (canonical : ∀ h ∈ hidden, normalisePath py h none = .ok h) {spec : Text} (mem : spec ∈ excludedSpecs root hidden) :
    readPathspec py spec = some .exclude := by
  unfold excludedSpecs at mem
  obtain ⟨path, inHidden, rfl⟩ := mem_map.mp mem
  rw [mem_filter, mem_insertionSort, mem_firsts, Bool.and_eq_true, decide_eq_true_eq] at inHidden
  obtain ⟨isHidden, within, notRoot⟩ := inHidden
  obtain ⟨tail, isPath⟩ := (pathWithin_iff.mp within).2.resolve_left notRoot
  have isTail : path.drop (root.length + 1) = tail := by
    rw [isPath, ← drop_drop, drop_left]
    rfl
  have normal := canonical path isHidden
  obtain ⟨printable, short⟩ : WithinLimits py root path := withinLimits_of_canonical normal
  rw [isTail]
  exact readPathspec_exclude (relativePath_below (normalisePath_segments normal) rooted isPath printable short)

theorem readPathspec_of_pathspecs {scope : TaskScope py} {resolver : Text → Option Text} {workdir : Text}
    {paths specs : List Text} (rooted : root ≠ [])
    (canonical : ∀ h ∈ hidden, normalisePath py h none = .ok h)
    (limits : ∀ raw ∈ paths, ∀ path, normalisePath py raw (some workdir) = .ok path → WithinLimits py root path)
    (built : pathspecs paths workdir root scope resolver hidden = .ok specs) :
    (∀ spec ∈ specs, (readPathspec py spec).isSome = true) ∧ ∃ spec ∈ specs, readPathspec py spec = some .positive := by
  simp only [pathspecs, bind_eq_ok, pure_eq_ok] at built
  obtain ⟨positive, made, rfl⟩ := built
  have own : ∀ spec ∈ (if positive = [] then [lit "."] else positive), readPathspec py spec = some .positive := by
    intro spec mem
    split_ifs at mem with empty
    · rw [mem_singleton.mp mem]
      rfl
    · obtain ⟨raw, isPath, isSpec⟩ := exists_of_mem_mapM made mem
      exact readPathspec_positive rooted (limits raw isPath) isSpec
  constructor
  · intro spec mem
    rcases mem_append.mp mem with isPositive | isExcluded
    · rw [own spec (mem_firsts.mp isPositive)]
      rfl
    · rw [readPathspec_excluded rooted canonical isExcluded]
      rfl
  · have some : ∃ spec, spec ∈ (if positive = [] then [lit "."] else positive) := by
      split_ifs with empty
      · exact ⟨_, mem_singleton_self _⟩
      · exact exists_mem_of_ne_nil positive empty
    obtain ⟨spec, mem⟩ := some
    exact ⟨spec, mem_append_left _ (mem_firsts.mpr mem), own spec mem⟩

end Pathspecs

/-! ### A whole read -/

section Reads

variable {runner : GitRunner} {repository : RepositoryGit} {args : GitReadArgs} {words : List Text}

theorem mem_readRevisions {earlier : GitRunner} {root : Text} {checkouts : List Text}
    (located : locate earlier root checkouts = .ok repository) (made : readRevisions runner repository args = .ok words)
    {word : Text} (mem : word ∈ words) :
    ∃ id, objectId id = true ∧ (word = id ∨ args.subcommand = .log ∧ word = lit "^" ++ id) := by
  unfold readRevisions at made
  split at made
  · rename_i pinned base isPinned isBase
    have formed := (locate_base located isBase).1
    obtain ⟨id, isWord, origin⟩ := mem_revisionWords made mem
    refine ⟨id, ?_, isWord⟩
    rcases origin with ⟨revision, -, resolved⟩ | answered | rfl
    · exact resolve_objectId formed resolved
    · exact commitOf_objectId answered
    · exact formed
  · obtain ⟨_, -, rfl⟩ := map_eq_ok.mp made
    cases mem

theorem readRevisions_status (isStatus : args.subcommand = .status) (none : args.revisions = [])
    (made : readRevisions runner repository args = .ok words) : words = [] := by
  unfold readRevisions at made
  split at made
  · obtain ⟨head, given, -, isGiven, rfl⟩ := revisionWords_eq_ok made
    rw [none] at isGiven
    cases isGiven
    rw [if_neg (by rw [isStatus]; decide)]
    rfl
  · obtain ⟨_, -, rfl⟩ := map_eq_ok.mp made
    rfl

theorem readRevisions_unpinned (unpinned : repository.pinned = none)
    (made : readRevisions runner repository args = .ok words) :
    words = [] ∧ args.subcommand ≠ .«show» ∧ (args.subcommand = .log → ∀ option ∈ args.options,
      option ∈ namesOnlyLog ∨ startsWith option (lit "--max-count=") = true) := by
  unfold readRevisions at made
  rw [unpinned] at made
  obtain ⟨_, current, rfl⟩ := map_eq_ok.mp made
  refine ⟨rfl, ?_, ?_⟩
  · intro isShow
    unfold currentStateOnly at current
    rw [isShow] at current
    cases current
  · intro isLog option mem
    unfold currentStateOnly at current
    rw [isLog] at current
    dsimp only at current
    split_ifs at current with revisions options
    rw [any_eq_true] at options
    by_contra neither
    rw [not_or, Bool.not_eq_true] at neither
    refine options ⟨option, mem, ?_⟩
    rw [neither.2, Bool.not_false, Bool.and_true, decide_eq_true_eq]
    exact neither.1

theorem checkRead_of_readCommand {py : Stdlib} {argv : List Text} (accepted : parseGitRead argv = .ok args)
    {earlier : GitRunner} {root : Text} {checkouts : List Text}
    (located : locate earlier root checkouts = .ok repository) {specs : List Text}
    (relative : ∀ spec ∈ specs, (readPathspec py spec).isSome = true)
    (positive : ∃ spec ∈ specs, readPathspec py spec = some .positive) {command : List Text}
    (ran : readCommand runner repository args specs = .ok command) :
    ∃ rest, command = args.subcommand.name :: rest ∧
      checkRead py args.subcommand rest repository.pinned.isSome = .ok () := by
  obtain ⟨given, all, n, parsed, isOptions, -⟩ := parseGitRead_eq_ok accepted
  simp only [readCommand, ↓check_eq_ok, bind_eq_ok, pure_eq_ok] at ran
  obtain ⟨-, words, made, rfl⟩ := ran
  have fixed : fixedWords args.subcommand = readFixed args.subcommand := by
    cases args.subcommand <;> rfl
  have canonical : ∀ option ∈ args.options, CanonicalOption args.subcommand option := by
    intro option mem
    rw [isOptions, mem_firsts] at mem
    exact parsed.canonical option mem
  have hyphen : ∀ option ∈ args.options, startsWith option (lit "-") = true := by
    intro option mem
    have isOption := (canonical option mem).word.1
    unfold optionWord at isOption
    exact (Bool.and_eq_true _ _ ▸ isOption).1
  have noRevisions : words = [] → revisionCount (args.options ++ words) = 0 := by
    rintro rfl
    rw [append_nil]
    unfold revisionCount
    rw [countP_eq_zero]
    intro option mem
    simp [hyphen option mem]
  refine ⟨_, rfl, checkRead_eq_ok.mpr ⟨args.options ++ words, specs, ?_, ?_, relative, positive, ?_, ?_⟩⟩
  · rw [fixed]
    simp
  · intro word mem
    rcases mem_append.mp mem with isOption | isRevision
    · refine ⟨fun _ => ⟨(canonical word isOption).readOption, ?_⟩, fun notOption => ?_⟩
      · cases isPinned : repository.pinned with
        | some pinned => exact Or.inl rfl
        | none =>
          by_cases isLog : args.subcommand = .log
          · exact Or.inr (Or.inr ((readRevisions_unpinned isPinned made).2.2 isLog word isOption))
          · exact Or.inr (Or.inl isLog)
      · rw [hyphen word isOption] at notOption
        cases notOption
    · obtain ⟨id, isId, isWord⟩ := mem_readRevisions located made isRevision
      exact (readWord_of_revision isId isWord).2
  · intro isStatus
    exact noRevisions (readRevisions_status isStatus (parsed.status isStatus) made)
  · intro unpinned
    have none : repository.pinned = none := by
      rwa [Option.isSome_eq_false_iff, Option.isNone_iff_eq_none] at unpinned
    obtain ⟨noWords, notShow, -⟩ := readRevisions_unpinned none made
    exact ⟨notShow, noRevisions noWords⟩

end Reads

theorem readPathspec_eq_some {py : Stdlib} {spec : Text} {kind : SpecKind} (accepted : readPathspec py spec = some kind) :
    kind = .positive ∧ spec = lit "." ∨ ∃ path, relativePath py path = true ∧
      (kind = .positive ∧ spec = lit ":(literal)" ++ path ∨ kind = .exclude ∧ spec = lit ":(exclude,literal)" ++ path) := by
  unfold readPathspec at accepted
  split_ifs at accepted with dot literal relative exclude relative
  · cases accepted
    exact Or.inl ⟨rfl, dot⟩
  · cases accepted
    obtain ⟨path, rfl⟩ := isPrefixOf_iff_prefix.mp literal
    exact Or.inr ⟨path, relative, Or.inl ⟨rfl, rfl⟩⟩
  · cases accepted
    obtain ⟨path, rfl⟩ := isPrefixOf_iff_prefix.mp exclude
    exact Or.inr ⟨path, relative, Or.inr ⟨rfl, rfl⟩⟩

theorem ReadWord.shape {pinned : Bool} (accepted : ReadWord sub pinned word) :
    TableOption sub word ∨ objectId word = true ∨ sub = .log ∧ ∃ id, objectId id = true ∧ word = lit "^" ++ id := by
  cases isOption : startsWith word (lit "-") with
  | true => exact Or.inl (tableOption_of_readOption (accepted.option isOption).1)
  | false =>
    have isRevision := accepted.revision isOption
    unfold readRevision at isRevision
    simp only [Bool.or_eq_true, Bool.and_eq_true, decide_eq_true_eq] at isRevision
    rcases isRevision with isId | ⟨⟨isLog, caret⟩, isId⟩
    · exact Or.inr (Or.inl isId)
    · obtain ⟨id, rfl⟩ := isPrefixOf_iff_prefix.mp caret
      exact Or.inr (Or.inr ⟨isLog, id, isId, rfl⟩)

/-- The backend's read-only git and the wrapper agree: parsing is canonical, the wrapper accepts every command
that a read runs, and what it accepts are the fixed words, options of its tables, object ids and relative
literal pathspecs. -/
theorem git_reads_agree (py : Stdlib) :
    (∀ argv args, parseGitRead argv = .ok args → parseGitRead args.words = .ok args ∧
      ∀ (earlier runner : GitRunner) (root : CanonicalPath py) (checkouts : List Text) (repository : RepositoryGit),
        locate earlier root.val checkouts = .ok repository →
      ∀ (scope : TaskScope py) (resolver : Text → Option Text) (workdir : Text) (hidden : List (CanonicalPath py))
        (specs : List Text),
        pathspecs args.paths workdir root.val scope resolver (hidden.map Subtype.val) = .ok specs →
        (∀ raw ∈ args.paths, ∀ path, normalisePath py raw (some workdir) = .ok path → WithinLimits py root.val path) →
      ∀ command, readCommand runner repository args specs = .ok command →
        ∃ rest, command = args.subcommand.name :: rest ∧
          checkRead py args.subcommand rest repository.pinned.isSome = .ok ()) ∧
    ∀ sub args pinned, checkRead py sub args pinned = .ok () →
      ∃ words specs, args = readFixed sub ++ words ++ lit "--" :: specs ∧
        (∀ word ∈ words, TableOption sub word ∨ objectId word = true ∨
          sub = .log ∧ ∃ id, objectId id = true ∧ word = lit "^" ++ id) ∧
        (∀ spec ∈ specs, spec = lit "." ∨ ∃ path, relativePath py path = true ∧
          (spec = lit ":(literal)" ++ path ∨ spec = lit ":(exclude,literal)" ++ path)) ∧
        ∃ spec ∈ specs, spec = lit "." ∨ ∃ path, relativePath py path = true ∧ spec = lit ":(literal)" ++ path := by
  refine ⟨fun argv args accepted => ⟨parseGitRead_words accepted, ?_⟩, ?_⟩
  · intro earlier runner root checkouts repository located scope resolver workdir hidden specs built limits command ran
    have rooted : root.val ≠ [] := by
      intro empty
      have canonical := root.property.1
      rw [empty] at canonical
      cases canonical
    have canonical : ∀ h ∈ hidden.map Subtype.val, normalisePath py h none = .ok h := by
      intro h member
      obtain ⟨path, -, rfl⟩ := mem_map.mp member
      exact path.property.1
    obtain ⟨relative, positive⟩ := readPathspec_of_pathspecs rooted canonical limits built
    exact checkRead_of_readCommand accepted located relative positive ran
  · intro sub args pinned accepted
    obtain ⟨words, specs, rfl, shape⟩ := checkRead_eq_ok.mp accepted
    refine ⟨words, specs, rfl, fun word member => (shape.accepted word member).shape, ?_, ?_⟩
    · intro spec member
      obtain ⟨kind, isKind⟩ := Option.isSome_iff_exists.mp (shape.relative spec member)
      rcases readPathspec_eq_some isKind with ⟨-, dot⟩ | ⟨path, relative, ⟨-, literal⟩ | ⟨-, exclude⟩⟩
      · exact Or.inl dot
      · exact Or.inr ⟨path, relative, Or.inl literal⟩
      · exact Or.inr ⟨path, relative, Or.inr exclude⟩
    · obtain ⟨spec, member, isPositive⟩ := shape.positive
      refine ⟨spec, member, ?_⟩
      rcases readPathspec_eq_some isPositive with ⟨-, dot⟩ | ⟨path, relative, ⟨-, literal⟩ | ⟨excluded, -⟩⟩
      · exact Or.inl dot
      · exact Or.inr ⟨path, relative, literal⟩
      · cases excluded

def emptyFields : PawBackend.Tools.ScopeFields Stdlib.ascii := ⟨[], [], [], [], [], [], []⟩

theorem emptyFields_valid : emptyFields.Valid := by decide

def emptyScope : TaskScope Stdlib.ascii := ⟨emptyFields, emptyFields_valid⟩

/-- The `git log` of the sample passes the wrapper. -/
theorem sampleLog_accepted :
    parseGitRead [lit "log"] = .ok ⟨.log, [], [], []⟩ ∧ ∃ rest, sampleCommand = lit "log" :: rest ∧
      checkRead Stdlib.ascii .log rest true = .ok () := by
  have parsed : parseGitRead [lit "log"] = .ok ⟨.log, [], [], []⟩ := by decide
  refine ⟨parsed, ?_⟩
  exact ((git_reads_agree Stdlib.ascii).1 _ _ parsed).2 sampleRunner sampleRunner ⟨sampleRoot, by decide⟩
    [lit "/c"] sampleRepository located_sample emptyScope some sampleRoot [] [lit "."] rfl (by simp)
    sampleCommand built_sample

end PawBackend.Sandbox
