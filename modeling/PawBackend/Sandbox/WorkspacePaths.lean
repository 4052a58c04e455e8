/-
**Workspace paths** (`agents/toolkit.py`: `_Workspace`; `sandbox/plan.py`: `mount_target`; `sandbox/spec.py`: `to_host`).

A path of the model is resolved by its text. What it means to a command is read in the container, where the
repositories are mounted (`Names`).
-/

import PawBackend.Lib.Pages
import PawBackend.Tools.Targets

namespace PawBackend.Sandbox.WorkspacePaths

open Lib Tools List
open Lib.Text

/-! ### The workspace of a node -/

def workspace : Text := lit "/workspace"

/-- `_Repository`, as far as a path is resolved by it. -/
structure Repository where
  repoId : Uuid
  root : Text
  target : Text
  deriving DecidableEq

structure NodeRoots where
  roots : List (Uuid × Text)
  worktrees : List (Uuid × Text)
  distinct : (roots.map Prod.fst).Nodup ∧ (worktrees.map Prod.fst).Nodup

def NodeRoots.merged (a : NodeRoots) : List (Uuid × Text) :=
  a.roots.filter (fun entry => decide (entry.1 ∉ a.worktrees.map Prod.fst)) ++ a.worktrees

/-- `_Workspace.__init__`. The texts of ids are in the order of their numbers. -/
def NodeRoots.repositories (a : NodeRoots) : List Repository :=
  (sortedBy (fun entry => entry.1.toNat) a.merged).map fun entry =>
    ⟨entry.1, entry.2, if a.merged.length = 1 then workspace else workspace ++ 47 :: uuidText entry.1⟩

structure ToolError where
  message : String
  deriving DecidableEq, Repr

def outside : ToolError := ⟨"ValueError: path is outside /workspace"⟩

def editing : ToolError := ⟨"ValueError: editing .git is not allowed"⟩

/-- The loop of `posixpath.normpath`, after some leading slashes. -/
def normStep (slashes : ℕ) (kept : List Text) (part : Text) : List Text :=
  if keptSegment part = false then kept
  else if part ≠ lit ".." ∨ slashes = 0 ∧ kept = [] ∨ kept.getLast? = some (lit "..") then kept ++ [part]
  else kept.dropLast

/-- `posixpath.normpath`. -/
def normpath (path : Text) : Text :=
  let slashes := if startsWith path (lit "//") ∧ ¬startsWith path (lit "///") then 2
    else if startsWith path (lit "/") then 1 else 0
  let normal := List.replicate slashes 47 ++ join 47 ((path.splitOn 47).foldl (normStep slashes) [])
  if normal = [] then lit "." else normal

def locate (repositories : List Repository) (relative : Text) : Except ToolError (Repository × Text) :=
  match repositories with
  | [repository] => .ok (repository, relative)
  | _ =>
    let parts := (partition (lit "/") relative).getD (relative, [])
    match repositories.find? fun repository => decide (uuidText repository.repoId = parts.1) with
    | some repository => if parts.2 = [] then .error outside else .ok (repository, parts.2)
    | none => .error outside

/-- `resolve` once `/workspace` is taken off. -/
def resolveIn (repositories : List Repository) (path : Text) : Except ToolError (Repository × Text × Text) :=
  if lit ".." ∈ path.splitOn 47 then .error outside
  else
    let relative := if path = [] then [] else normpath path
    if relative = [] ∨ relative = lit "." then .error outside
    else match locate repositories relative with
      | .error error => .error error
      | .ok (repository, relative) =>
        if lit ".git" ∈ relative.splitOn 47 then .error editing
        else .ok (repository, repository.root ++ 47 :: relative, relative)

/-- `resolve`: the repository, the host path and the path relative to its root. -/
def resolve (repositories : List Repository) (path : Text) : Except ToolError (Repository × Text × Text) :=
  if path = [] ∨ 0 ∈ path then .error outside
  else if startsWith path workspace then
    resolveIn repositories ((path.drop workspace.length).dropWhile fun c => decide (c = 47))
  else if startsWith path (lit "/") then .error outside
  else resolveIn repositories path

/-! ### The sandbox -/

structure SandboxMount where
  source : Text
  target : Text

/-- `SandboxSpec.to_host`. -/
def toHost (mounts : List SandboxMount) (containerPath : Text) : Option Text :=
  mounts.findSome? fun mount =>
    if containerPath = mount.target then some mount.source
    else if startsWith containerPath (mount.target ++ lit "/") then
      some (mount.source ++ containerPath.drop mount.target.length)
    else none

/-- `mount_target`, by the repositories of the scope that have a root. -/
def mountTarget (rooted : List Uuid) (repoId : Uuid) : Text :=
  if rooted.length = 1 then workspace else workspace ++ 47 :: uuidText repoId

def NodeRoots.mounts (a : NodeRoots) (r : Repository) : List SandboxMount :=
  [⟨r.root, mountTarget (a.merged.map Prod.fst) r.repoId⟩]

/-- The components of a path, read in the container from `/workspace`. -/
def named (path : Text) : List Text :=
  (if startsWith path (lit "/") then [] else [lit "workspace"]) ++ segmentsOf path

/-- A path names something strictly inside a repository, without a parent or a `.git` component. -/
structure Names (a : NodeRoots) (path : Text) (r : Repository) (rest : List Text) : Prop where
  isOne : r ∈ a.repositories
  noNul : 0 ∉ path
  inside : named path = segmentsOf r.target ++ rest
  strict : rest ≠ []
  direct : lit ".." ∉ named path
  noGit : lit ".git" ∉ named path

/-- The tools and the sandbox mean the same by a path. -/
def Agrees (a : NodeRoots) (path : Text) : Prop :=
  ∀ r host relative, resolve a.repositories path = .ok (r, host, relative) ↔
    ∃ rest, Names a path r rest ∧ toHost (a.mounts r) (absolute (named path)) = some host ∧ relative = join 47 rest

/-- What follows the characters of `/workspace` without a slash names a file of a repository by itself. -/
def Glued (a : NodeRoots) (path : Text) : Prop :=
  ∃ c tail r rest, path = workspace ++ c :: tail ∧ c ≠ 47 ∧ Names a (c :: tail) r rest

/-- An absolute path that does not begin with `/workspace` names a file of a repository. -/
def Detour (a : NodeRoots) (path : Text) : Prop :=
  startsWith path (lit "/") = true ∧ startsWith path workspace = false ∧ ∃ r rest, Names a path r rest

variable {a : NodeRoots} {path host relative : Text} {r : Repository} {rest : List Text}

/-! ### Components -/

theorem mem_segmentsOf {part : Text} : part ∈ segmentsOf path ↔ part ∈ path.splitOn 47 ∧ keptSegment part = true :=
  mem_filter

theorem segmentsOf_slash (tail : Text) : segmentsOf (47 :: tail) = segmentsOf tail := by
  unfold segmentsOf
  rw [splitOn_cons_eq_if_modifyHead, if_pos (by simp), filter_cons_of_neg (by decide)]

theorem segmentsOf_dropWhile (tail : Text) : segmentsOf (tail.dropWhile fun c => decide (c = 47)) = segmentsOf tail := by
  induction tail with
  | nil => rfl
  | cons c tail ih =>
    by_cases slash : c = 47
    · rw [dropWhile_cons_of_pos (by simpa using slash), ih, slash, segmentsOf_slash]
    · rw [dropWhile_cons_of_neg (by simpa using slash)]

theorem splitOn_join_segments (filled : segmentsOf path ≠ []) : (join 47 (segmentsOf path)).splitOn 47 = segmentsOf path :=
  splitOn_intercalate 47 (fun part isPart => not_mem_of_mem_splitOn (mem_segmentsOf.mp isPart).1) filled

theorem segmentsOf_workspace (tail : Text) (slash : tail.head? = none ∨ tail.head? = some 47) :
    segmentsOf (workspace ++ tail) = lit "workspace" :: segmentsOf tail := by
  cases tail with
  | nil => rfl
  | cons c tail =>
    obtain rfl : c = 47 := by simpa using slash
    rw [segmentsOf_slash]
    unfold segmentsOf
    rw [splitOn_append_cons_self]
    exact filter_append _ _

theorem noSlash_dropWhile (tail : Text) : startsWith (tail.dropWhile fun c => decide (c = 47)) (lit "/") = false := by
  induction tail with
  | nil => rfl
  | cons c tail ih =>
    by_cases slash : c = 47
    · rw [dropWhile_cons_of_pos (by simpa using slash), ih]
    · rw [dropWhile_cons_of_neg (by simpa using slash)]
      simp [startsWith, lit, List.isPrefixOf, Ne.symm slash]

/-- A component that only begins like `workspace`. -/
theorem segmentsOf_glued {c : ℕ} (tail : Text) (noSlash : c ≠ 47) :
    ∃ first others, first ≠ lit "workspace" ∧ segmentsOf (workspace ++ c :: tail) = first :: others := by
  obtain ⟨first, others, isSplit⟩ := exists_cons_of_ne_nil (splitOn_ne_nil 47 tail)
  refine ⟨lit "workspace" ++ c :: first, others.filter keptSegment, by simp [lit], ?_⟩
  have split : (workspace ++ c :: tail).splitOn 47 = [] :: (lit "workspace" ++ c :: first) :: others := by
    simp [workspace, lit, splitOn_cons_eq_if_modifyHead, noSlash, isSplit]
  unfold segmentsOf
  rw [split, filter_cons_of_neg (by decide), filter_cons_of_pos]
  simp [keptSegment, lit]

/-- Without a leading slash and without a parent component, `normpath` keeps the components. -/
theorem normpath_eq (noSlash : startsWith path (lit "/") = false) (direct : lit ".." ∉ path.splitOn 47) :
    normpath path = if segmentsOf path = [] then lit "." else join 47 (segmentsOf path) := by
  have noSlashes : startsWith path (lit "//") = false := by
    refine Bool.eq_false_iff.mpr fun two => ?_
    obtain ⟨tail, isWhole⟩ := startsWith_iff.mp two
    exact Bool.eq_false_iff.mp noSlash (startsWith_iff.mpr ⟨47 :: tail, isWhole⟩)
  have kept : ∀ (parts before : List Text), lit ".." ∉ parts →
      parts.foldl (normStep 0) before = before ++ parts.filter keptSegment := by
    intro parts
    induction parts with
    | nil => simp
    | cons part parts ih =>
      intro before direct
      rw [mem_cons, not_or] at direct
      rw [foldl_cons, ih _ direct.2, normStep]
      cases keeps : keptSegment part with
      | false => simp [keeps]
      | true => simp [keeps, Ne.symm direct.1]
  have all : segmentsOf path = [] ↔ join 47 (segmentsOf path) = [] := by
    refine ⟨fun nothing => by rw [nothing]; rfl, fun nothing => by_contra fun filled => ?_⟩
    have first := splitOn_join_segments filled
    rw [nothing, splitOn_nil] at first
    have isPart : [] ∈ segmentsOf path := first ▸ mem_singleton_self _
    exact absurd (mem_segmentsOf.mp isPart).2 (by decide)
  unfold normpath
  rw [noSlash, noSlashes]
  simp only [Bool.false_eq_true, false_and, if_false, replicate_zero, nil_append]
  rw [kept _ [] direct, nil_append]
  exact if_congr all.symm rfl rfl

/-! ### The repositories -/

theorem merged_distinct (a : NodeRoots) : (a.merged.map Prod.fst).Nodup := by
  unfold NodeRoots.merged
  rw [map_append]
  refine nodup_append.mpr ⟨a.distinct.1.sublist (filter_sublist.map _), a.distinct.2, ?_⟩
  rintro id isOld other isNew rfl
  obtain ⟨entry, isEntry, rfl⟩ := mem_map.mp isOld
  exact of_decide_eq_true (mem_filter.mp isEntry).2 isNew

theorem length_repositories (a : NodeRoots) : a.repositories.length = a.merged.length := by
  unfold NodeRoots.repositories
  rw [length_map, (sortedBy_perm _ _).length_eq]

theorem target_of_mem (isOne : r ∈ a.repositories) : r.target = mountTarget (a.merged.map Prod.fst) r.repoId := by
  obtain ⟨entry, -, rfl⟩ := mem_map.mp isOne
  unfold mountTarget
  rw [length_map]

theorem eq_of_repoId {other : Repository} (isOne : r ∈ a.repositories) (isOther : other ∈ a.repositories)
    (same : r.repoId = other.repoId) : r = other := by
  obtain ⟨entry, isEntry, rfl⟩ := mem_map.mp isOne
  obtain ⟨entry', isEntry', rfl⟩ := mem_map.mp isOther
  rw [inj_on_of_nodup_map (merged_distinct a) (mem_sortedBy.mp isEntry) (mem_sortedBy.mp isEntry') same]

theorem segmentsOf_uuidText (id : Uuid) : segmentsOf (uuidText id) = [uuidText id] := by
  have plain : ∀ c ∈ uuidText id, decide (c = 47) = false := fun c isIn => by
    have := of_mem_uuidText isIn
    simp only [decide_eq_false_iff_not]
    omega
  have filled : uuidText id ≠ [] := fun nothing => by
    have digits := filter_uuidText id
    rw [nothing] at digits
    exact append_ne_nil_of_right_ne_nil _ (cons_ne_nil _ _) digits.symm
  have noDot : uuidText id ≠ lit "." := fun isDot => by
    have isIn : 46 ∈ uuidText id := by rw [isDot]; decide
    have := of_mem_uuidText isIn
    omega
  unfold segmentsOf List.splitOn
  rw [splitOnP_eq_singleton (by simpa using plain), filter_cons_of_pos (by simp [keptSegment, filled, noDot])]
  rfl

/-- The components of where a repository is mounted. -/
theorem segmentsOf_target (isOne : r ∈ a.repositories) : segmentsOf r.target =
    lit "workspace" :: if a.repositories.length = 1 then [] else [uuidText r.repoId] := by
  rw [target_of_mem isOne, mountTarget, length_map, length_repositories]
  split_ifs
  · rfl
  · rw [segmentsOf_workspace _ (.inr rfl), segmentsOf_slash, segmentsOf_uuidText]

theorem join_ne_nil {parts : List Text} (filled : parts ≠ []) (plain : ∀ part ∈ parts, part ≠ []) : join 47 parts ≠ [] := by
  obtain ⟨part, others, rfl⟩ := exists_cons_of_ne_nil filled
  by_cases last : others = []
  · rw [last, join_singleton]
    exact plain part mem_cons_self
  · rw [join_cons 47 part last]
    exact append_ne_nil_of_right_ne_nil _ (cons_ne_nil _ _)

/-- What a relative path is located by. -/
theorem locate_eq_ok {parts : List Text} (filled : parts ≠ []) (plain : ∀ part ∈ parts, part ≠ [] ∧ 47 ∉ part) :
    locate a.repositories (join 47 parts) = .ok (r, relative) ↔ ∃ rest, r ∈ a.repositories ∧
      parts = (segmentsOf r.target).tail ++ rest ∧ rest ≠ [] ∧ relative = join 47 rest := by
  by_cases single : a.repositories.length = 1
  · have isTail : ∀ {r}, r ∈ a.repositories → (segmentsOf r.target).tail = [] := fun isOne => by
      rw [segmentsOf_target isOne, if_pos single, tail_cons]
    obtain ⟨only, isOnly⟩ := length_eq_one_iff.mp single
    have located : locate a.repositories (join 47 parts) = .ok (only, join 47 parts) := by rw [isOnly]; rfl
    rw [located]
    constructor
    · intro isOk
      have both := Prod.mk.inj (Except.ok.inj isOk)
      have isOne : r ∈ a.repositories := by
        rw [isOnly, both.1]
        exact mem_singleton_self r
      exact ⟨parts, isOne, by rw [isTail isOne, nil_append], filled, both.2.symm⟩
    · rintro ⟨rest, isOne, isParts, -, rfl⟩
      rw [isTail isOne, nil_append] at isParts
      rw [isOnly, mem_singleton] at isOne
      rw [isOne, isParts]
  · have isTail : ∀ {r}, r ∈ a.repositories → (segmentsOf r.target).tail = [uuidText r.repoId] := fun isOne => by
      rw [segmentsOf_target isOne, if_neg single, tail_cons]
    obtain ⟨first, others, rfl⟩ := exists_cons_of_ne_nil filled
    rw [forall_mem_cons] at plain
    have cut : (partition (lit "/") (join 47 (first :: others))).getD (join 47 (first :: others), []) =
        (first, join 47 others) := by
      by_cases last : others = []
      · rw [last, join_singleton, show lit "/" = [47] from rfl, partition_eq_none plain.1.2]
        rfl
      · rw [join_cons 47 first last]
        exact congrArg (Option.getD · _) (partition_append [] plain.1.2 (join 47 others))
    have located : locate a.repositories (join 47 (first :: others)) =
        match a.repositories.find? fun repository => decide (uuidText repository.repoId = first) with
        | .some repository => if join 47 others = [] then .error outside else .ok (repository, join 47 others)
        | none => .error outside := by
      unfold locate
      split
      · rename_i only isOnly
        exact absurd (by rw [isOnly]; rfl) single
      · rw [cut]
    rw [located]
    constructor
    · intro isOk
      split at isOk
      · rename_i repository isFound
        have isOne := mem_of_find?_eq_some isFound
        have chosen := find?_some isFound
        have isFirst : uuidText repository.repoId = first := of_decide_eq_true chosen
        split_ifs at isOk with nothing
        obtain ⟨rfl, rfl⟩ := Prod.mk.inj (Except.ok.inj isOk)
        refine ⟨others, isOne, by rw [isTail isOne, isFirst]; rfl, fun last => nothing (by rw [last]; rfl), rfl⟩
      · cases isOk
    · rintro ⟨rest, isOne, isParts, strict, rfl⟩
      rw [isTail isOne, singleton_append] at isParts
      have isFirst := (List.cons.inj isParts).1
      have isRest := (List.cons.inj isParts).2
      cases isFound : a.repositories.find? fun repository => decide (uuidText repository.repoId = first) with
      | none => exact absurd (find?_eq_none.mp isFound r isOne) (by simp [isFirst])
      | some repository =>
        have chosen := find?_some isFound
        have same : uuidText repository.repoId = uuidText r.repoId := (of_decide_eq_true chosen).trans isFirst
        rw [eq_of_repoId (mem_of_find?_eq_some isFound) isOne (uuidText_injective same), ← isRest]
        exact if_neg (join_ne_nil (isRest ▸ strict) fun part isPart => (plain.2 part isPart).1)

/-! ### The result -/

theorem named_relative (noSlash : startsWith path (lit "/") = false) : named path = lit "workspace" :: segmentsOf path := by
  unfold named
  rw [if_neg (by simp [noSlash])]
  rfl

/-- A relative path is accepted exactly where it names something in a repository. -/
theorem resolveIn_eq_ok (noSlash : startsWith path (lit "/") = false) (noNul : 0 ∉ path) :
    resolveIn a.repositories path = .ok (r, host, relative) ↔
      ∃ rest, Names a path r rest ∧ host = r.root ++ 47 :: join 47 rest ∧ relative = join 47 rest := by
  have plain : ∀ part ∈ segmentsOf path, part ≠ [] ∧ 47 ∉ part := fun part isPart => by
    have kept := (mem_segmentsOf.mp isPart).2
    refine ⟨fun nothing => ?_, not_mem_of_mem_splitOn (mem_segmentsOf.mp isPart).1⟩
    rw [nothing] at kept
    cases kept
  have isTail : r ∈ a.repositories → segmentsOf r.target = lit "workspace" :: (segmentsOf r.target).tail ∧
      lit ".git" ∉ (segmentsOf r.target).tail := fun isOne => by
    rw [segmentsOf_target isOne]
    refine ⟨rfl, ?_⟩
    split_ifs
    · exact not_mem_nil
    · refine fun isGit => ?_
      have dot := @of_mem_uuidText r.repoId 46 (mem_singleton.mp isGit ▸ by decide)
      omega
  have names : ∀ {rest}, Names a path r rest ↔ r ∈ a.repositories ∧ lit ".." ∉ path.splitOn 47 ∧
      segmentsOf path = (segmentsOf r.target).tail ++ rest ∧ rest ≠ [] ∧ lit ".git" ∉ rest := fun {rest} => by
    have direct : lit ".." ∉ named path ↔ lit ".." ∉ path.splitOn 47 := by
      rw [named_relative noSlash, mem_cons, mem_segmentsOf]
      simp [lit, keptSegment]
    constructor
    · rintro ⟨isOne, -, inside, strict, isDirect, noGit⟩
      rw [named_relative noSlash, (isTail isOne).1, cons_append] at inside
      have isParts := (List.cons.inj inside).2
      rw [named_relative noSlash, isParts] at noGit
      exact ⟨isOne, direct.mp isDirect, isParts, strict, fun isGit =>
        noGit (mem_cons_of_mem _ (mem_append_right _ isGit))⟩
    · rintro ⟨isOne, isDirect, isParts, strict, noGit⟩
      refine ⟨isOne, noNul, ?_, strict, direct.mpr isDirect, ?_⟩
      · rw [named_relative noSlash, (isTail isOne).1, isParts, cons_append]
      · rw [named_relative noSlash, isParts, mem_cons, mem_append, not_or, not_or]
        exact ⟨by decide, (isTail isOne).2, noGit⟩
  unfold resolveIn
  by_cases parent : lit ".." ∈ path.splitOn 47
  · rw [if_pos parent]
    refine iff_of_false (fun wrong => by cases wrong) ?_
    rintro ⟨rest, isNamed, -⟩
    exact (names.mp isNamed).2.1 parent
  rw [if_neg parent]
  by_cases nothing : segmentsOf path = []
  · have normal : (if path = [] then [] else normpath path) = [] ∨
        (if path = [] then [] else normpath path) = lit "." := by
      rw [normpath_eq noSlash parent, if_pos nothing]
      split_ifs
      · exact .inl rfl
      · exact .inr rfl
    rw [if_pos normal]
    refine iff_of_false (fun wrong => by cases wrong) ?_
    rintro ⟨rest, isNamed, -⟩
    have isParts := (names.mp isNamed).2.2.1
    rw [nothing] at isParts
    exact isNamed.strict (append_eq_nil_iff.mp isParts.symm).2
  have filled : path ≠ [] := fun isNil => nothing (by rw [isNil]; rfl)
  have normal : (if path = [] then [] else normpath path) = join 47 (segmentsOf path) := by
    rw [if_neg filled, normpath_eq noSlash parent, if_neg nothing]
  have whole : ¬(join 47 (segmentsOf path) = [] ∨ join 47 (segmentsOf path) = lit ".") := by
    rintro (isNil | isDot)
    · exact join_ne_nil nothing (fun part isPart => (plain part isPart).1) isNil
    · have split := splitOn_join_segments nothing
      rw [isDot, show (lit ".").splitOn 47 = [lit "."] from rfl] at split
      have isPart : lit "." ∈ segmentsOf path := split ▸ mem_singleton_self _
      exact absurd (mem_segmentsOf.mp isPart).2 (by decide)
  dsimp only
  rw [normal, if_neg whole]
  have back : ∀ {rest}, segmentsOf path = (segmentsOf r.target).tail ++ rest → rest ≠ [] →
      (join 47 rest).splitOn 47 = rest := fun isParts strict =>
    splitOn_intercalate 47 (fun part isPart => (plain part (isParts ▸ mem_append_right _ isPart)).2) strict
  constructor
  · intro isOk
    split at isOk
    · cases isOk
    · rename_i repository relative' located
      split_ifs at isOk with isGit
      cases isOk
      obtain ⟨rest, isOne, isParts, strict, rfl⟩ := (locate_eq_ok nothing plain).mp located
      exact ⟨rest, names.mpr ⟨isOne, parent, isParts, strict, fun inRest => isGit (by rwa [back isParts strict])⟩, rfl, rfl⟩
  · rintro ⟨rest, isNamed, rfl, rfl⟩
    obtain ⟨isOne, -, isParts, strict, noGit⟩ := names.mp isNamed
    rw [(locate_eq_ok nothing plain).mpr ⟨rest, isOne, isParts, strict, rfl⟩]
    exact if_neg (by rwa [back isParts strict])

theorem Names.congr {q : Text} (names : Names a path r rest) (same : named path = named q) (noNul : 0 ∉ q) :
    Names a q r rest :=
  ⟨names.isOne, noNul, same ▸ names.inside, names.strict, same ▸ names.direct, same ▸ names.noGit⟩

theorem toHost_named (names : Names a path r rest) :
    toHost (a.mounts r) (absolute (named path)) = some (r.root ++ 47 :: join 47 rest) := by
  have isTarget : absolute (segmentsOf r.target) = r.target := by
    rw [segmentsOf_target names.isOne, target_of_mem names.isOne, mountTarget, length_map, length_repositories]
    split_ifs
    · rfl
    · rw [absolute, join_cons 47 _ (cons_ne_nil _ _), join_singleton]
      exact congrArg (· ++ 47 :: uuidText r.repoId) (show 47 :: lit "workspace" = workspace from rfl)
  have filled : segmentsOf r.target ≠ [] := by
    rw [segmentsOf_target names.isOne]
    exact cons_ne_nil _ _
  unfold toHost NodeRoots.mounts
  rw [names.inside, absolute_append filled names.strict, isTarget, ← target_of_mem names.isOne, findSome?_singleton]
  have longer : r.target ++ 47 :: join 47 rest ≠ r.target := fun same => by simpa using congrArg List.length same
  have starts : startsWith (r.target ++ 47 :: join 47 rest) (r.target ++ lit "/") = true :=
    startsWith_iff.mpr ⟨join 47 rest, (append_assoc _ [47] _).symm⟩
  rw [if_neg longer, if_pos starts, drop_left]

/-- Where the tools read a relative path, and the container the path itself, they agree. -/
theorem agrees_of_resolveIn {q : Text} (noSlash : startsWith q (lit "/") = false) (noNul : 0 ∉ q)
    (resolved : resolve a.repositories path = resolveIn a.repositories q)
    (same : ∀ r rest, Names a path r rest ↔ Names a q r rest) : Agrees a path := by
  intro r host relative
  rw [resolved, resolveIn_eq_ok noSlash noNul]
  refine exists_congr fun rest => ?_
  rw [← same r rest]
  refine and_congr_right fun names => and_congr_left fun _ => ?_
  rw [toHost_named names]
  exact ⟨fun isHost => isHost ▸ rfl, fun isHost => (Option.some.inj isHost).symm⟩

theorem agrees_of_refused (refused : ∀ found, resolve a.repositories path ≠ .ok found) :
    Agrees a path ↔ ∀ r rest, ¬Names a path r rest := by
  constructor
  · intro agrees r rest names
    exact refused _ ((agrees r _ _).mpr ⟨rest, names, toHost_named names, rfl⟩)
  · intro nothing r host relative
    exact iff_of_false (refused _) fun ⟨rest, names, _⟩ => nothing r rest names

/-- **The tools and the sandbox mean the same file** by a path, unless it is of one of the two kinds. -/
theorem agrees_iff (a : NodeRoots) (path : Text) : Agrees a path ↔ ¬Glued a path ∧ ¬Detour a path := by
  have glued_starts : Glued a path → startsWith path workspace = true := by
    rintro ⟨c, tail, -, -, rfl, -, -⟩
    exact startsWith_iff.mpr ⟨_, rfl⟩
  have starts_absolute : startsWith path workspace = true → startsWith path (lit "/") = true := fun starts => by
    obtain ⟨tail, rfl⟩ := startsWith_iff.mp starts
    exact startsWith_iff.mpr ⟨_, rfl⟩
  by_cases wrong : path = [] ∨ 0 ∈ path
  · have nothing : ∀ r rest, ¬Names a path r rest := fun r rest names => by
      rcases wrong with rfl | nul
      · have inside : [lit "workspace"] = _ := names.inside
        rw [segmentsOf_target names.isOne] at inside
        exact names.strict (append_eq_nil_iff.mp (List.cons.inj inside).2.symm).2
      · exact names.noNul nul
    have refused : ∀ found, resolve a.repositories path ≠ .ok found := fun found isOk => by
      rw [resolve, if_pos wrong] at isOk
      cases isOk
    refine iff_of_true ((agrees_of_refused refused).mpr nothing) ⟨?_, fun ⟨_, _, r, rest, names⟩ => nothing r rest names⟩
    rintro ⟨c, tail, r, rest, rfl, -, names⟩
    rcases wrong with wrong | nul
    · cases wrong
    · exact names.noNul ((mem_append.mp nul).resolve_left (by decide))
  by_cases starts : startsWith path workspace = true
  · obtain ⟨tail, rfl⟩ := startsWith_iff.mp starts
    have noNul : 0 ∉ tail.dropWhile fun c => decide (c = 47) := fun nul =>
      wrong (.inr (mem_append_right _ ((dropWhile_suffix _).subset nul)))
    have noSlash := noSlash_dropWhile tail
    have resolved : resolve a.repositories (workspace ++ tail) =
        resolveIn a.repositories (tail.dropWhile fun c => decide (c = 47)) := by
      rw [resolve, if_neg wrong, if_pos starts, drop_left]
    have isNamed : named (workspace ++ tail) = segmentsOf (workspace ++ tail) := by
      rw [named, if_pos (starts_absolute starts), nil_append]
    have noDetour : ¬Detour a (workspace ++ tail) := fun detour => Bool.false_ne_true (detour.2.1.symm.trans starts)
    by_cases slash : tail.head? = none ∨ tail.head? = some 47
    · have same : named (workspace ++ tail) = named (tail.dropWhile fun c => decide (c = 47)) := by
        rw [isNamed, segmentsOf_workspace tail slash, named_relative noSlash, segmentsOf_dropWhile]
      refine iff_of_true (agrees_of_resolveIn noSlash noNul resolved fun r rest =>
        ⟨fun names => names.congr same noNul, fun names => names.congr same.symm fun nul => wrong (.inr nul)⟩) ⟨?_, noDetour⟩
      rintro ⟨c, tail', r, rest, isPath, apart, -⟩
      rw [append_cancel_left isPath] at slash
      exact apart (by simpa using slash)
    · obtain ⟨c, tail, rfl⟩ := exists_cons_of_ne_nil (show tail ≠ [] from fun isNil => slash (.inl (by rw [isNil]; rfl)))
      have apart : c ≠ 47 := fun same => slash (.inr (congrArg some same))
      rw [dropWhile_cons_of_neg (by simpa using apart)] at noNul noSlash resolved
      have nothing : ∀ r rest, ¬Names a (workspace ++ c :: tail) r rest := fun r rest names => by
        obtain ⟨first, others, differs, isParts⟩ := segmentsOf_glued tail apart
        have inside := names.inside
        rw [isNamed, isParts, segmentsOf_target names.isOne] at inside
        exact differs (List.cons.inj inside).1
      constructor
      · refine fun agrees => ⟨?_, noDetour⟩
        rintro ⟨c', tail', r, rest, isPath, -, names⟩
        rw [← append_cancel_left isPath] at names
        have isOk := (resolveIn_eq_ok noSlash noNul).mpr ⟨rest, names, rfl, rfl⟩
        obtain ⟨rest', names', -⟩ := (agrees r _ _).mp (resolved.trans isOk)
        exact nothing r rest' names'
      · intro fits r host relative
        refine iff_of_false (fun isOk => ?_) fun ⟨rest, names, _⟩ => nothing r rest names
        obtain ⟨rest, names, -⟩ := (resolveIn_eq_ok noSlash noNul).mp (resolved.symm.trans isOk)
        exact fits.1 ⟨c, tail, r, rest, rfl, apart, names⟩
  have notGlued : ¬Glued a path := fun glued => starts (glued_starts glued)
  by_cases slash : startsWith path (lit "/") = true
  · have refused : ∀ found, resolve a.repositories path ≠ .ok found := fun found isOk => by
      rw [resolve, if_neg wrong, if_neg starts, if_pos slash] at isOk
      cases isOk
    rw [agrees_of_refused refused]
    exact ⟨fun nothing => ⟨notGlued, fun ⟨_, _, r, rest, names⟩ => nothing r rest names⟩,
      fun fits r rest names => fits.2 ⟨slash, Bool.eq_false_iff.mpr starts, r, rest, names⟩⟩
  · have resolved : resolve a.repositories path = resolveIn a.repositories path := by
      rw [resolve, if_neg wrong, if_neg starts, if_neg slash]
    refine iff_of_true (agrees_of_resolveIn (Bool.eq_false_iff.mpr slash) (fun nul => wrong (.inr nul)) resolved
      fun _ _ => Iff.rfl) ⟨notGlued, fun detour => slash detour.1⟩

/-- One repository. -/
def sampleRoots : NodeRoots := ⟨[(1, lit "/repo")], [], by decide⟩

theorem workspacefoo_resolved : ¬∀ a path, Agrees a path := by
  intro always
  have agrees := always sampleRoots (lit "/workspacefoo") ⟨1, lit "/repo", workspace⟩ (lit "/repo/foo") (lit "foo")
  obtain ⟨rest, names, -⟩ := agrees.mp (by decide)
  have inside : [lit "workspacefoo"] = lit "workspace" :: rest := names.inside
  cases inside

end PawBackend.Sandbox.WorkspacePaths
