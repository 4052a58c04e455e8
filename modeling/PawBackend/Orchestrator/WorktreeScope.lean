/-
**What a worktree adds to a scope** (`orchestrator/scope.py`: `derive_child_scope`, `scope_within`; `tools/scope.py`:
`classify_targets`).

An excluded path is out of scope, but for the path roots that lie strictly inside it. A worktree may be such a root, and
so may a root of the parent (`worktrees_only_widen`).
-/

import PawBackend.Orchestrator.Narrowing

namespace PawBackend.Orchestrator

open Lib Tools
open Lib.Text (lit)

variable {py : Stdlib} {parent child scope : TaskScope py} {worktrees : Worktrees} {resolver : Text → Text} {path : Text}

/-! ### Paths in scope -/

/-- No path is a symlink. -/
structure SymlinkFree (py : Stdlib) (resolver : Text → Text) : Prop where
  canonical : ∀ path, normalisePath py (resolver path) none = .ok (resolver path)
  same : ∀ path, normalisePath py path none = .ok path → resolver path = path

def PathInScope (scope : TaskScope py) (resolver : Text → Text) (path : Text) : Prop :=
  ∃ verdict, classifyTargets scope (fun path => some (resolver path)) [⟨.path, path⟩] [] = .ok verdict ∧
    verdict.status = .inScope

def rootTexts (scope : TaskScope py) : List Text := scope.pathRoots.map Subtype.val

def worktreePaths (worktrees : Worktrees) : List Text := worktrees.rows.map NodeWorktree.path

/-- One of the roots lies strictly inside the excluded path, with the place in it. -/
def CarvedOut (roots : List Text) (place excluded : Text) : Prop :=
  ∃ root ∈ roots, root ≠ excluded ∧ pathWithin root excluded = true ∧ pathWithin place root = true

theorem pathInScope_iff (free : SymlinkFree py resolver) :
    PathInScope scope resolver path ↔
      (∃ root ∈ rootTexts scope, pathWithin (resolver path) root = true) ∧
        (∀ own ∈ rootsOf scope.excludedRepositories, pathWithin (resolver path) own.2 = false) ∧
        ∀ excluded ∈ scope.excludedPaths, pathWithin (resolver path) excluded.val = true →
          CarvedOut (rootTexts scope) (resolver path) excluded.val := by
  let resolved := scope.resolvedBy resolver [⟨.path, path⟩]
  have roots : resolved.roots = rootTexts scope := List.map_congr_left fun root _ => free.same _ root.2.1
  have excludedRoots : resolved.excludedRoots = (rootsOf scope.excludedRepositories).map Prod.snd := by
    refine List.map_congr_left fun own isOwn => free.same _ ?_
    obtain ⟨repository, -, root, -, rfl⟩ := mem_rootsOf.mp isOwn
    exact root.2.1
  have excludedPaths : resolved.excludedPaths =
      scope.excludedPaths.map fun path => (path.val, carved (rootTexts scope) path.val) :=
    List.map_congr_left fun path _ => by rw [free.same _ path.2.1, ← roots]; rfl
  have judged : PathInScope scope resolver path ↔ (TaskScope.judgePath resolved (resolver path)).outside = none := by
    have classified : scope.classifyResolved [⟨.path, path⟩] [] resolved =
        .ok (scope.classifyJudged [⟨.path, path⟩] [TaskScope.judgePath resolved (resolver path), {}] []) := rfl
    unfold PathInScope
    rw [classifyTargets_eq free.canonical, classified]
    constructor
    · rintro ⟨verdict, isVerdict, inScope⟩
      have allowed : (scope.classifyJudged [⟨.path, path⟩] [TaskScope.judgePath resolved (resolver path), {}] []).status ≠
          .outOfScope := by
        rw [Except.ok.inj isVerdict, inScope]
        decide
      exact outside_of_classifyJudged allowed _ (.head _)
    · intro inside
      have all : ∀ one ∈ [TaskScope.judgePath resolved (resolver path), {}] ++ [], one.outside = none := by
        simp [inside]
      exact ⟨_, rfl, by rw [classifyJudged_of_inside all]; rfl⟩
  rw [judged, TaskScope.judgePath_outside, roots, excludedRoots, excludedPaths, List.forall_mem_map, List.forall_mem_map]
  simp only [CarvedOut, carved, List.mem_filter, Bool.and_eq_true, decide_eq_true_eq, and_assoc]

/-! ### What a derived scope keeps -/

theorem pathWithin_trans {path root above : Text} (inRoot : pathWithin path root = true)
    (inAbove : pathWithin root above = true) : pathWithin path above = true := by
  obtain ⟨-, rfl | ⟨tail, rfl⟩⟩ := pathWithin_iff.mp inRoot
  · exact inAbove
  · obtain ⟨notTop, rfl | ⟨rest, rfl⟩⟩ := pathWithin_iff.mp inAbove
    · exact inRoot
    · exact pathWithin_iff.mpr ⟨notTop, .inr ⟨rest ++ 47 :: tail, by simp⟩⟩

/-- `scope_within`, as far as paths are concerned. -/
structure Checked (child parent : TaskScope py) (worktrees : Worktrees) : Prop where
  roots : ∀ root ∈ child.pathRoots, root.val ∈ worktreePaths worktrees ∨
    ∃ own ∈ parent.pathRoots, pathWithin root.val own.val = true
  outside : ∀ root ∈ worktreePaths worktrees, ∀ excluded ∈ parent.excludedPaths, pathWithin root excluded.val ≠ true
  kept : ∀ excluded ∈ parent.excludedPaths, excluded ∈ child.excludedPaths
  moved : ∀ place ∈ movedIntoWorktrees parent worktrees, place ∈ child.excludedPaths.map Subtype.val
  carving : ∀ root ∈ child.pathRoots, ∀ excluded ∈ child.excludedPaths, root.val ≠ excluded.val →
    pathWithin root.val excluded.val = true → root.val ∈ worktreePaths worktrees ∨ root ∈ parent.pathRoots
  gits : ∀ worktree ∈ worktrees.rows, worktree.git ∈ child.excludedPaths.map Subtype.val
  excluded : ∀ repository ∈ parent.excludedRepositories, repository ∈ child.excludedRepositories

theorem checked_of_scopeWithin (within : scopeWithin child parent worktrees = true) : Checked child parent worktrees := by
  simp only [scopeWithin, Bool.and_eq_true, List.all_eq_true, Bool.or_eq_true, decide_eq_true_eq, Bool.not_eq_true',
    List.any_eq_false, List.any_eq_true] at within
  obtain ⟨⟨⟨⟨⟨⟨⟨⟨⟨⟨roots, outside⟩, kept⟩, moved⟩, carving⟩, gits⟩, -⟩, -⟩, -⟩, -⟩, excluded⟩ := within
  refine ⟨roots, fun root isRoot path isPath inPath => ?_, kept, moved, fun root isRoot path isPath strict inPath => ?_,
    gits, excluded⟩
  · exact outside root isRoot (.inl ⟨path, isPath, inPath⟩)
  · by_contra other
    rw [not_or] at other
    exact carving root isRoot ⟨⟨other.2, other.1⟩, path.val, List.mem_map_of_mem isPath, inPath, strict⟩

theorem moveRepository_repoId {repository moved : ScopedRepository py}
    (isMoved : moveRepository worktrees repository = .ok moved) : moved.repoId = repository.repoId := by
  unfold moveRepository at isMoved
  split at isMoved
  · cases isMoved
    rfl
  · simp only [ScopedRepository.withRoot, ScopedRepository.make, bind_eq_ok] at isMoved
    obtain ⟨root, -, isMoved⟩ := isMoved
    split at isMoved
    · simp only [↓check_eq_ok, bind_eq_ok, pure_eq_ok] at isMoved
      obtain ⟨-, remotes, -, rfl⟩ := isMoved
      rfl
    · cases isMoved

theorem protected_excluded {role : NodeRole} {ids : Option (List Uuid)}
    (derived : deriveChildScope parent role ids worktrees = .ok child) :
    Checked child parent worktrees ∧ ∀ worktree ∈ worktrees.rows, ∀ text ∈ worktree.protectedPaths, ∀ place,
      normalisePath py text none = .ok place → place ∈ child.excludedPaths.map Subtype.val := by
  simp only [deriveChildScope, ↓check_eq_ok, bind_eq_ok, pure_eq_ok] at derived
  obtain ⟨-, -, ⟨chosen, excluded⟩, -, known, moved, isMoved, scope, made, within, rfl⟩ := derived
  refine ⟨checked_of_scopeWithin (by simpa using within), fun worktree isWorktree text isText place isPlace => ?_⟩
  have isChosen : worktree.repoId ∈ chosen.map ScopedRepository.repoId :=
    not_not.mp fun other => known ⟨worktree, isWorktree, other⟩
  obtain ⟨repository, isRepository, sameId⟩ := List.mem_map.mp isChosen
  obtain ⟨here, isHere, isIts⟩ := exists_mapM_of_mem isMoved isRepository
  have listed : text ∈ (childArguments parent role worktrees moved excluded).excludedPaths := by
    refine List.mem_append_right _ (List.mem_flatMap.mpr ⟨here, isHere, ?_⟩)
    rw [moveRepository_repoId isIts, sameId, Keyed.get_self isWorktree]
    exact List.mem_append_left _ isText
  obtain ⟨-, -, -, -, -, -, excludedPaths⟩ := TaskScope.make_eq_ok made
  obtain ⟨canonical, areCanonical, isExcluded⟩ := map_eq_ok.mp excludedPaths
  obtain ⟨own, isOwn, isNormal⟩ := exists_mapM_of_mem areCanonical listed
  refine List.mem_map.mpr ⟨own, isExcluded ▸ mem_firsts.mpr isOwn, ?_⟩
  unfold canonicalPath at isNormal
  split at isNormal
  · cases isNormal
  · rename_i normal accepted
    split_ifs at isNormal
    rw [← Except.ok.inj isNormal]
    exact Except.ok.inj (accepted.symm.trans isPlace)

/-! ### A root inside the user's checkout -/

theorem symlinkFree_lexically : SymlinkFree .ascii (lexically .ascii) where
  canonical := normalisePath_lexically
  same path accepted := by
    unfold lexically
    rw [accepted]

def rootInCheckout : ScopeArguments .ascii where
  pathRoots := [lit "/a/docs"]
  hosts := []
  projects := [(1, .active)]
  repositories := [⟨7, 1, (canonicalPath .ascii (lit "/a") "").toOption, none, [], some .target, by rintro _ ⟨⟩⟩]

def ownWorktree : Worktrees := ⟨[{ repoId := 7, path := lit "/t", protectedPaths := [lit "/a"] }], by decide⟩

theorem rootInCheckout_derived : ∃ parent child : TaskScope .ascii,
    deriveChildScope parent .worker none ownWorktree = .ok child ∧
      PathInScope child (lexically .ascii) (lit "/a/docs/x") := by
  have built : (TaskScope.make .ascii rootInCheckout).toOption.any (fun parent =>
      (deriveChildScope parent .worker none ownWorktree).toOption.any fun child =>
        (classifyTargets child (fun path => some (lexically .ascii path)) [⟨.path, lit "/a/docs/x"⟩] []).toOption.any
          fun verdict => decide (verdict.status = .inScope)) = true := by
    decide
  obtain ⟨parent, -, holds⟩ := exists_of_toOption_any built
  obtain ⟨child, derived, holds⟩ := exists_of_toOption_any holds
  obtain ⟨verdict, classified, holds⟩ := exists_of_toOption_any holds
  exact ⟨parent, child, derived, verdict, classified, of_decide_eq_true holds⟩

/-- **A worktree is the only widening.** A path in scope for a child lies in a worktree, or is in scope for the parent. What
is excluded is out of scope but for the roots strictly inside it: those of the parent, and worktrees in what the parent does
not exclude. -/
theorem worktrees_only_widen {role : NodeRole} {ids : Option (List Uuid)} (free : SymlinkFree py resolver)
    (derived : deriveChildScope parent role ids worktrees = .ok child) (inScope : PathInScope child resolver path) :
    ((∃ root ∈ worktreePaths worktrees, pathWithin (resolver path) root = true) ∨ PathInScope parent resolver path) ∧
      (∀ own ∈ rootsOf parent.excludedRepositories, pathWithin (resolver path) own.2 = false) ∧
      (∀ excluded ∈ parent.excludedPaths, pathWithin (resolver path) excluded.val = true →
        CarvedOut (rootTexts parent) (resolver path) excluded.val) ∧
      ∀ place, place ∈ movedIntoWorktrees parent worktrees ∨ (∃ worktree ∈ worktrees.rows, place = worktree.git ∨
          ∃ text ∈ worktree.protectedPaths, normalisePath py text none = .ok place) →
        pathWithin (resolver path) place = true →
          CarvedOut (worktreePaths worktrees ++ rootTexts parent) (resolver path) place := by
  obtain ⟨checked, protectedPaths⟩ := protected_excluded derived
  obtain ⟨inRoot, notExcluded, carvedOut⟩ := (pathInScope_iff free).mp inScope
  have carving : ∀ place ∈ child.excludedPaths.map Subtype.val, pathWithin (resolver path) place = true →
      CarvedOut (worktreePaths worktrees ++ rootTexts parent) (resolver path) place := by
    intro place isPlace inPlace
    obtain ⟨excluded, isExcluded, rfl⟩ := List.mem_map.mp isPlace
    obtain ⟨root, isRoot, strict, inExcluded, inRoot⟩ := carvedOut excluded isExcluded inPlace
    obtain ⟨own, isOwn, rfl⟩ := List.mem_map.mp isRoot
    refine ⟨own.val, List.mem_append.mpr ?_, strict, inExcluded, inRoot⟩
    exact (checked.carving own isOwn excluded isExcluded strict inExcluded).imp_right List.mem_map_of_mem
  have ofParent : ∀ excluded ∈ parent.excludedPaths, pathWithin (resolver path) excluded.val = true →
      CarvedOut (rootTexts parent) (resolver path) excluded.val := by
    intro excluded isExcluded inExcluded
    obtain ⟨root, isRoot, strict, inside, inRoot⟩ :=
      carving excluded.val (List.mem_map_of_mem (checked.kept excluded isExcluded)) inExcluded
    refine ⟨root, (List.mem_append.mp isRoot).resolve_left fun isWorktree => ?_, strict, inside, inRoot⟩
    exact checked.outside root isWorktree excluded isExcluded inside
  have ofExcluded : ∀ own ∈ rootsOf parent.excludedRepositories, pathWithin (resolver path) own.2 = false := by
    intro own isOwn
    obtain ⟨repository, isExcluded, hasRoot⟩ := mem_rootsOf.mp isOwn
    exact notExcluded own (mem_rootsOf.mpr ⟨repository, checked.excluded repository isExcluded, hasRoot⟩)
  refine ⟨?_, ofExcluded, ofParent, fun place isPlace => carving place ?_⟩
  · obtain ⟨root, isRoot, inRoot⟩ := inRoot
    obtain ⟨own, isOwn, rfl⟩ := List.mem_map.mp isRoot
    refine (checked.roots own isOwn).imp (fun isWorktree => ⟨own.val, isWorktree, inRoot⟩) fun isParents => ?_
    obtain ⟨above, isAbove, inAbove⟩ := isParents
    exact (pathInScope_iff free).mpr ⟨⟨above.val, List.mem_map_of_mem isAbove, pathWithin_trans inRoot inAbove⟩, ofExcluded,
      ofParent⟩
  · rcases isPlace with isMoved | ⟨worktree, isWorktree, rfl | ⟨text, isText, isPlace⟩⟩
    · exact checked.moved place isMoved
    · exact checked.gits worktree isWorktree
    · exact protectedPaths worktree isWorktree text isText place isPlace

/-- The user's checkout is protected, but for the root of the parent in it. -/
theorem rootInCheckout_carved : ∃ parent child : TaskScope .ascii,
    deriveChildScope parent .worker none ownWorktree = .ok child ∧
      PathInScope child (lexically .ascii) (lit "/a/docs/x") ∧
      CarvedOut (worktreePaths ownWorktree ++ rootTexts parent) (lexically .ascii (lit "/a/docs/x")) (lit "/a") := by
  obtain ⟨parent, child, derived, inScope⟩ := rootInCheckout_derived
  obtain ⟨-, -, -, carved⟩ := worktrees_only_widen symlinkFree_lexically derived inScope
  refine ⟨parent, child, derived, inScope, carved (lit "/a") (.inr ⟨_, .head _, .inr ⟨lit "/a", .head _, ?_⟩⟩) ?_⟩
  · decide
  · decide

end PawBackend.Orchestrator
