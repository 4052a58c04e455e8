/-
**A sub-agent's scope is never wider than its parent's** (`orchestrator/scope.py`: `derive_child_scope`;
`tools/scope.py`: `classify_targets`).

A child without worktrees keeps the parent's roots, hosts and exclusions; each repository of the parent is one of the
child's or excluded by it.
-/

import PawBackend.Orchestrator.Scope

namespace PawBackend.Orchestrator

open Lib Tools List
open Lib.Text (lit)

variable {py : Stdlib} {parent child : TaskScope py}

/-! ### What a child keeps -/

structure Narrowed (child parent : TaskScope py) : Prop where
  pathRoots : child.pathRoots = parent.pathRoots
  hosts : child.hosts = parent.hosts
  projects : child.projects = parent.projects
  excludedPaths : child.excludedPaths = parent.excludedPaths
  handles : child.credentialHandles = parent.credentialHandles ∨ child.credentialHandles = []
  chosen : ∀ repository ∈ child.repositories, repository ∈ parent.repositories
  leftOut : ∀ repository ∈ parent.repositories,
    repository ∈ child.repositories ∨ repository ∈ child.excludedRepositories
  excluded : ∀ repository ∈ parent.excludedRepositories, repository ∈ child.excludedRepositories

variable {scope : TaskScope py} {targets : List Target} {id : Uuid} {urls : List Judged}

theorem mem_of_repository {repoId : Uuid} {repository : ScopedRepository py}
    (found : scope.repository repoId = some repository) :
    repository ∈ scope.repositories ∧ repository.repoId = repoId := by
  unfold TaskScope.repository at found
  refine ⟨mem_of_find?_eq_some found, ?_⟩
  simpa using find?_some found

theorem eq_of_repoId {first second : ScopedRepository py}
    (isFirst : first ∈ scope.repositories) (isSecond : second ∈ scope.repositories)
    (same : first.repoId = second.repoId) : first = second :=
  inj_on_of_nodup_map scope.valid.repositories_nodup isFirst isSecond same

theorem chooseRepositories_eq_ok {ids : Option (List Uuid)} {chosen excluded : List (ScopedRepository py)}
    (chose : chooseRepositories parent ids = .ok (chosen, excluded)) :
    (∀ repository ∈ chosen, repository ∈ parent.repositories) ∧
      (∀ repository ∈ parent.repositories, repository ∈ chosen ∨ repository ∈ excluded) ∧
      ∀ repository ∈ parent.excludedRepositories, repository ∈ excluded := by
  cases ids with
  | none =>
    cases chose
    exact ⟨fun _ mem => mem, fun _ mem => .inl mem, fun _ mem => mem⟩
  | some ids =>
    simp only [chooseRepositories, bind_eq_ok, pure_eq_ok, Prod.mk.injEq] at chose
    obtain ⟨chosen', found, isChosen, isExcluded⟩ := chose
    subst isChosen isExcluded
    have chosen_of : ∀ repository ∈ chosen', repository ∈ parent.repositories := by
      intro repository mem
      obtain ⟨id, -, isIts⟩ := exists_of_mem_mapM found mem
      exact (mem_of_repository (orThrow_eq_ok.mp isIts)).1
    refine ⟨chosen_of, fun repository mem => ?_, fun _ mem => mem_append_left _ mem⟩
    by_cases isChosen : repository.repoId ∈ chosen'.map ScopedRepository.repoId
    · obtain ⟨other, isOther, same⟩ := mem_map.mp isChosen
      exact .inl (eq_of_repoId (chosen_of other isOther) mem same ▸ isOther)
    · exact .inr (mem_append_right _ (mem_filter.mpr ⟨mem, decide_eq_true isChosen⟩))

theorem mapM_checkHandle (scope : TaskScope py) :
    (scope.credentialHandles.map fun handle => (handle.1, handle.2.map Subtype.val)).mapM
      (TaskScope.checkHandle py) = .ok scope.credentialHandles := by
  refine mapM_map_val fun handle mem => ?_
  unfold TaskScope.checkHandle
  rw [scope.valid.handles_formed handle mem, canonicalHosts_val (scope.valid.handle_hosts_nodup handle mem)]
  rfl

theorem narrowed_of_derived {role : NodeRole} {ids : Option (List Uuid)}
    (derived : deriveChildScope parent role ids .empty = .ok child) : Narrowed child parent := by
  simp only [deriveChildScope, ↓check_eq_ok, bind_eq_ok, pure_eq_ok] at derived
  obtain ⟨-, -, ⟨chosen, excluded⟩, chose, -, moved, isMoved, scope, made, -, rfl⟩ := derived
  have unmoved : moved = chosen := by
    have same : (chosen.map id).mapM (moveRepository Keyed.empty) = .ok chosen := mapM_map_val fun _ _ => rfl
    rw [map_id] at same
    exact (Except.ok.inj (same.symm.trans isMoved)).symm
  subst unmoved
  obtain ⟨roots, hosts, projects, handles, repositories, excludedRepositories, excludedPaths⟩ :=
    TaskScope.make_eq_ok made
  obtain ⟨isChosen, leftOut, isExcluded⟩ := chooseRepositories_eq_ok chose
  refine ⟨?_, ?_, projects, ?_, ?_, ?_, ?_, ?_⟩
  · have own : (childArguments parent role Keyed.empty moved excluded).pathRoots =
        parent.pathRoots.map Subtype.val := by simp [childArguments]
    rw [own, canonicalPaths_val parent.valid.pathRoots_nodup] at roots
    exact (Except.ok.inj roots).symm
  · rw [show (childArguments parent role Keyed.empty moved excluded).hosts = parent.hosts.map Subtype.val from rfl,
      canonicalHosts_val parent.valid.hosts_nodup] at hosts
    exact (Except.ok.inj hosts).symm
  · have own : (childArguments parent role Keyed.empty moved excluded).excludedPaths =
        parent.excludedPaths.map Subtype.val := by
      have none : protectedBy Keyed.empty moved = [] := flatMap_eq_nil_iff.mpr fun _ _ => rfl
      show _ ++ movedIntoWorktrees parent Keyed.empty ++ protectedBy Keyed.empty moved = _
      rw [none, append_nil]
      exact append_nil _
    rw [own, canonicalPaths_val parent.valid.excludedPaths_nodup] at excludedPaths
    exact (Except.ok.inj excludedPaths).symm
  · dsimp only [childArguments] at handles
    split_ifs at handles
    · rw [mapM_checkHandle] at handles
      exact .inl (Except.ok.inj handles).symm
    · exact .inr (pure_eq_ok.mp handles).symm
  · rw [repositories]
    exact isChosen
  · rw [repositories, excludedRepositories]
    exact leftOut
  · rw [excludedRepositories]
    exact isExcluded

/-! ### Every target is judged alike -/

/-- What a target that one scope does not refuse is to the other: not refused either, with the same
repositories touched. -/
def Alike (one other : Judged) : Prop :=
  other.outside = none ∧ ∀ id, id ∈ one.touched ↔ id ∈ other.touched

namespace Narrowed

variable (narrowed : Narrowed child parent)
include narrowed

theorem project_eq (id : Uuid) : child.project id = parent.project id := by
  unfold TaskScope.project
  rw [narrowed.projects]

theorem repository_isSome {id : Uuid} (found : (child.repository id).isSome = true) :
    (parent.repository id).isSome = true := by
  obtain ⟨repository, found⟩ := Option.isSome_iff_exists.mp found
  obtain ⟨mem, isId⟩ := mem_of_repository found
  unfold TaskScope.repository
  rw [find?_isSome]
  exact ⟨repository, narrowed.chosen repository mem, decide_eq_true isId⟩

theorem judgePath (resolver : Text → Text) (targets : List Target) {path : Text}
    (inside : (TaskScope.judgePath (child.resolvedBy resolver targets) path).outside = none) :
    Alike (TaskScope.judgePath (child.resolvedBy resolver targets) path)
      (TaskScope.judgePath (parent.resolvedBy resolver targets) path) := by
  obtain ⟨inRoot, notExcluded, carvedOut⟩ := TaskScope.judgePath_outside.mp inside
  refine ⟨TaskScope.judgePath_outside.mpr ⟨?_, ?_, ?_⟩, fun id => ?_⟩
  · simpa only [TaskScope.resolvedBy, narrowed.pathRoots] using inRoot
  · intro root mem
    obtain ⟨own, isOwn, rfl⟩ := mem_map.mp mem
    obtain ⟨repository, isExcluded, hasRoot⟩ := mem_rootsOf.mp isOwn
    exact notExcluded _ (mem_map.mpr ⟨own,
      mem_rootsOf.mpr ⟨repository, narrowed.excluded repository isExcluded, hasRoot⟩, rfl⟩)
  · simpa only [TaskScope.resolvedBy, narrowed.pathRoots, narrowed.excludedPaths] using carvedOut
  · rw [TaskScope.mem_judgePath_touched, TaskScope.mem_judgePath_touched]
    constructor
    · rintro ⟨root, mem, within⟩
      obtain ⟨own, isOwn, isRoot⟩ := mem_map.mp mem
      obtain ⟨repository, isChosen, hasRoot⟩ := mem_rootsOf.mp isOwn
      exact ⟨root, mem_map.mpr ⟨own,
        mem_rootsOf.mpr ⟨repository, narrowed.chosen repository isChosen, hasRoot⟩, isRoot⟩, within⟩
    · rintro ⟨root, mem, within⟩
      obtain ⟨own, isOwn, isRoot⟩ := mem_map.mp mem
      obtain ⟨repository, isParents, hasRoot⟩ := mem_rootsOf.mp isOwn
      rcases narrowed.leftOut repository isParents with isChosen | isExcluded
      · exact ⟨root, mem_map.mpr ⟨own, mem_rootsOf.mpr ⟨repository, isChosen, hasRoot⟩, isRoot⟩, within⟩
      · -- A path in a repository that was left out is refused.
        have outside := notExcluded _ (mem_map.mpr ⟨own,
          mem_rootsOf.mpr ⟨repository, isExcluded, hasRoot⟩, rfl⟩)
        rw [(Prod.mk.inj isRoot).2, within] at outside
        cases outside

theorem judgeTarget (hosts : List Text) {target : Target} {judged : Judged}
    (accepted : child.judgeTarget hosts target = .ok judged) (inside : judged.outside = none) :
    ∃ other, parent.judgeTarget hosts target = .ok other ∧ Alike judged other := by
  obtain ⟨kind, value⟩ := target
  cases kind with
  | project =>
    simp only [TaskScope.judgeTarget, map_eq_ok] at accepted ⊢
    obtain ⟨id, isId, rfl⟩ := accepted
    refine ⟨_, ⟨id, isId, rfl⟩, ?_, fun _ => Iff.rfl⟩
    dsimp only at inside ⊢
    rwa [narrowed.project_eq id] at inside
  | repository =>
    simp only [TaskScope.judgeTarget, map_eq_ok] at accepted ⊢
    obtain ⟨id, isId, rfl⟩ := accepted
    refine ⟨_, ⟨id, isId, rfl⟩, ?_⟩
    split_ifs at inside with unknown
    have known : ¬(parent.repository id).isNone = true := by
      rw [Bool.not_eq_true, Option.isNone_eq_false_iff] at unknown ⊢
      exact narrowed.repository_isSome unknown
    rw [if_neg known, if_neg unknown]
    exact ⟨rfl, fun _ => Iff.rfl⟩
  | credential =>
    cases accepted
    refine ⟨_, rfl, ?_, fun _ => Iff.rfl⟩
    rcases narrowed.handles with same | none
    · dsimp only at inside ⊢
      rwa [same] at inside
    · dsimp only at inside
      rw [none] at inside
      cases inside
  | path | host | url | workingSetRepository =>
    cases accepted
    exact ⟨_, rfl, rfl, fun _ => Iff.rfl⟩

theorem judgeUrl {url : Text} {judged : Judged} (accepted : child.judgeUrl url = .ok judged)
    (inside : judged.outside = none) : ∃ other, parent.judgeUrl url = .ok other ∧ Alike judged other := by
  simp only [TaskScope.judgeUrl, map_eq_ok] at accepted ⊢
  obtain ⟨canonical, isCanonical, rfl⟩ := accepted
  refine ⟨_, ⟨canonical, isCanonical, rfl⟩, ?_⟩
  dsimp only at inside
  split_ifs at inside with free
  rw [Bool.not_eq_true, any_eq_false] at free
  refine ⟨?_, fun id => ?_⟩
  · refine if_neg ?_
    rw [Bool.not_eq_true, any_eq_false]
    exact fun repository isExcluded => free repository (narrowed.excluded repository isExcluded)
  · simp only [TaskScope.owners, mem_map, mem_filter]
    constructor
    · rintro ⟨repository, ⟨isChosen, within⟩, isId⟩
      exact ⟨repository, ⟨narrowed.chosen repository isChosen, within⟩, isId⟩
    · rintro ⟨repository, ⟨isParents, within⟩, isId⟩
      rcases narrowed.leftOut repository isParents with isChosen | isExcluded
      · exact ⟨repository, ⟨isChosen, within⟩, isId⟩
      · exact absurd within (free repository isExcluded)

end Narrowed

/-! ### The whole call -/

theorem touched_judgePath {resolver : Text → Text} {path : Text}
    (touched : id ∈ (TaskScope.judgePath (scope.resolvedBy resolver targets) path).touched) :
    id ∈ scope.repositories.map ScopedRepository.repoId := by
  obtain ⟨root, mem, -⟩ := TaskScope.mem_judgePath_touched.mp touched
  obtain ⟨own, isOwn, isRoot⟩ := mem_map.mp mem
  obtain ⟨repository, isRepository, place, -, rfl⟩ := mem_rootsOf.mp isOwn
  exact mem_map.mpr ⟨repository, isRepository, (Prod.mk.inj isRoot).1⟩

theorem touched_judgeTarget {hosts : List Text} {target : Target} {judged : Judged}
    (accepted : scope.judgeTarget hosts target = .ok judged) (touched : id ∈ judged.touched) :
    id ∈ scope.repositories.map ScopedRepository.repoId := by
  obtain ⟨kind, value⟩ := target
  cases kind with
  | repository =>
    simp only [TaskScope.judgeTarget, map_eq_ok] at accepted
    obtain ⟨named, -, rfl⟩ := accepted
    split_ifs at touched with unknown
    · cases touched
    · rw [Bool.not_eq_true, Option.isNone_eq_false_iff, Option.isSome_iff_exists] at unknown
      obtain ⟨repository, found⟩ := unknown
      obtain ⟨isRepository, isNamed⟩ := mem_of_repository found
      exact mem_map.mpr ⟨repository, isRepository, isNamed.trans (mem_singleton.mp touched).symm⟩
  | project =>
    simp only [TaskScope.judgeTarget, map_eq_ok] at accepted
    obtain ⟨named, -, rfl⟩ := accepted
    cases touched
  | credential | path | host | url | workingSetRepository =>
    cases accepted
    cases touched

theorem touched_judgeUrl {url : Text} {judged : Judged}
    (accepted : scope.judgeUrl url = .ok judged) (touched : id ∈ judged.touched) :
    id ∈ scope.repositories.map ScopedRepository.repoId := by
  simp only [TaskScope.judgeUrl, map_eq_ok] at accepted
  obtain ⟨canonical, -, rfl⟩ := accepted
  obtain ⟨repository, mem, isId⟩ := mem_map.mp touched
  exact mem_map.mpr ⟨repository, (mem_filter.mp mem).1, isId⟩

theorem outside_of_classifyJudged {judged : List Judged}
    (inside : (scope.classifyJudged targets judged urls).status ≠ .outOfScope) :
    ∀ one ∈ judged ++ urls, one.outside = none := by
  intro one mem
  by_contra outside
  obtain ⟨kind, isKind⟩ := Option.ne_none_iff_exists'.mp outside
  refine inside ?_
  unfold TaskScope.classifyJudged
  cases first : ((judged ++ urls).filterMap Judged.outside).head? with
  | some kind => rfl
  | none =>
    rw [head?_eq_none_iff, filterMap_eq_nil_iff] at first
    cases (first one mem).symm.trans isKind

theorem classifyJudged_of_inside {judged : List Judged} (inside : ∀ one ∈ judged ++ urls, one.outside = none) :
    scope.classifyJudged targets judged urls =
      let touched := (judged ++ urls).flatMap Judged.touched
      let repositories := (scope.repositories.map ScopedRepository.repoId).filter (· ∈ touched)
      if targets.any fun target => decide (target.kind = .host) && !scope.hasHost target.value then
        ⟨.hostOutOfScope, some .host, repositories⟩
      else if (urls.any fun url => url.touched.isEmpty) && !touched.isEmpty then
        ⟨.outOfScope, some .url, repositories⟩
      else ⟨.inScope, none, repositories⟩ := by
  unfold TaskScope.classifyJudged
  rw [filterMap_eq_nil_iff.mpr inside]
  rfl

theorem isEmpty_eq_of_mem_iff {α : Type} {l l' : List α} (same : ∀ a, a ∈ l ↔ a ∈ l') : l.isEmpty = l'.isEmpty := by
  rw [Bool.eq_iff_iff, List.isEmpty_iff, List.isEmpty_iff, eq_nil_iff_forall_not_mem,
    eq_nil_iff_forall_not_mem]
  exact forall_congr' fun a => not_congr (same a)

section Lists

variable {judged judged' : List Judged}

theorem mem_touched_alike (alike : List.Forall₂ Alike judged judged') (id : Uuid) :
    id ∈ judged.flatMap Judged.touched ↔ id ∈ judged'.flatMap Judged.touched := by
  induction alike with
  | nil => rfl
  | cons first _ ih => rw [flatMap_cons, flatMap_cons, mem_append, mem_append, first.2 id, ih]

theorem outside_alike (alike : List.Forall₂ Alike judged judged') : ∀ one ∈ judged', one.outside = none := by
  induction alike with
  | nil => exact nofun
  | cons first _ ih =>
    intro one mem
    rcases mem_cons.mp mem with rfl | mem
    · exact first.1
    · exact ih one mem

theorem untouched_alike (alike : List.Forall₂ Alike judged judged') :
    (judged.any fun one => one.touched.isEmpty) = judged'.any fun one => one.touched.isEmpty := by
  induction alike with
  | nil => rfl
  | cons first _ ih => rw [any_cons, any_cons, isEmpty_eq_of_mem_iff first.2, ih]

end Lists

theorem classifyJudged_alike {judged judged' urls' : List Judged}
    (alike : List.Forall₂ Alike judged judged') (urlsAlike : List.Forall₂ Alike urls urls')
    (narrowed : Narrowed child parent)
    (own : ∀ one ∈ judged ++ urls, ∀ id ∈ one.touched, id ∈ child.repositories.map ScopedRepository.repoId)
    (inside : (child.classifyJudged targets judged urls).status ≠ .outOfScope) :
    (parent.classifyJudged targets judged' urls').status = (child.classifyJudged targets judged urls).status ∧
      (child.classifyJudged targets judged urls).repositories.Perm
        (parent.classifyJudged targets judged' urls').repositories := by
  have together : List.Forall₂ Alike (judged ++ urls) (judged' ++ urls') := rel_append alike urlsAlike
  have touched := mem_touched_alike together
  have hosts : ∀ host, child.hasHost host = parent.hasHost host := by
    intro host
    unfold TaskScope.hasHost
    rw [narrowed.hosts]
  have repositories : ((child.repositories.map ScopedRepository.repoId).filter
      (· ∈ (judged ++ urls).flatMap Judged.touched)).Perm
      ((parent.repositories.map ScopedRepository.repoId).filter
        (· ∈ (judged' ++ urls').flatMap Judged.touched)) := by
    refine (perm_ext_iff_of_nodup (child.valid.repositories_nodup.filter _)
      (parent.valid.repositories_nodup.filter _)).mpr fun id => ?_
    simp only [mem_filter, decide_eq_true_eq, ← touched id]
    refine and_congr_left fun isTouched => ⟨fun isOwn => ?_, fun _ => ?_⟩
    · obtain ⟨repository, isChosen, isId⟩ := mem_map.mp isOwn
      exact mem_map.mpr ⟨repository, narrowed.chosen repository isChosen, isId⟩
    · obtain ⟨one, mem, isIts⟩ := mem_flatMap.mp isTouched
      exact own one mem id isIts
  rw [classifyJudged_of_inside (outside_of_classifyJudged inside),
    classifyJudged_of_inside (outside_alike together)]
  simp only [hosts, untouched_alike urlsAlike, isEmpty_eq_of_mem_iff touched]
  split_ifs
  · exact ⟨rfl, repositories⟩
  · exact ⟨rfl, repositories⟩
  · exact ⟨rfl, repositories⟩

theorem Narrowed.classifyResolved (narrowed : Narrowed child parent) {resolver : Text → Text}
    {urls : List Text} {verdict : Classification}
    (classified : child.classifyResolved targets urls (child.resolvedBy resolver targets) = .ok verdict)
    (inside : verdict.status ≠ .outOfScope) :
    ∃ other, parent.classifyResolved targets urls (parent.resolvedBy resolver targets) = .ok other ∧
      other.status = verdict.status ∧ verdict.repositories.Perm other.repositories := by
  simp only [TaskScope.classifyResolved, bind_eq_ok, pure_eq_ok] at classified ⊢
  obtain ⟨judged, areJudged, judgedUrls, areUrls, rfl⟩ := classified
  have none := outside_of_classifyJudged inside
  obtain ⟨judged', areJudged', alike⟩ := mapM_of_mapM areJudged fun target _ one mem accepted =>
    narrowed.judgeTarget _ accepted (none one (mem_append_left _ (mem_append_right _ mem)))
  obtain ⟨urls', areUrls', urlsAlike⟩ := mapM_of_mapM areUrls fun url _ one mem accepted =>
    narrowed.judgeUrl accepted (none one (mem_append_right _ mem))
  have paths : List.Forall₂ Alike
      ((child.resolvedBy resolver targets).paths.map (TaskScope.judgePath (child.resolvedBy resolver targets)))
      ((parent.resolvedBy resolver targets).paths.map (TaskScope.judgePath (parent.resolvedBy resolver targets))) := by
    rw [forall₂_map_left_iff, forall₂_map_right_iff]
    refine forall₂_same.mpr fun path mem => narrowed.judgePath resolver targets ?_
    exact none _ (mem_append_left _ (mem_append_left _ (mem_map_of_mem mem)))
  have own : ∀ one ∈ (child.resolvedBy resolver targets).paths.map
      (TaskScope.judgePath (child.resolvedBy resolver targets)) ++ judged ++ judgedUrls, ∀ id ∈ one.touched,
      id ∈ child.repositories.map ScopedRepository.repoId := by
    intro one mem id touched
    rcases mem_append.mp mem with mem | mem
    · rcases mem_append.mp mem with mem | mem
      · obtain ⟨path, -, rfl⟩ := mem_map.mp mem
        exact touched_judgePath touched
      · obtain ⟨target, -, accepted⟩ := exists_of_mem_mapM areJudged mem
        exact touched_judgeTarget accepted touched
    · obtain ⟨url, -, accepted⟩ := exists_of_mem_mapM areUrls mem
      exact touched_judgeUrl accepted touched
  obtain ⟨status, repositories⟩ := classifyJudged_alike (rel_append paths alike) urlsAlike narrowed own inside
  exact ⟨_, ⟨judged', areJudged', urls', areUrls', rfl⟩, status, repositories⟩

/-- Whatever the resolver makes of the paths: what is in scope for the child is in scope for the parent,
with the same repositories touched, and what needs a human for its host is not refused by the parent. -/
theorem child_within_parent {role : NodeRole} {ids : Option (List Uuid)} {resolver : Text → Text}
    (canonical : ∀ path, normalisePath py (resolver path) none = .ok (resolver path))
    (derived : deriveChildScope parent role ids .empty = .ok child) (targets : List Target) (urls : List Text)
    {verdict : Classification}
    (classified : classifyTargets child (fun path => some (resolver path)) targets urls = .ok verdict) :
    (verdict.status = .inScope → ∃ other,
      classifyTargets parent (fun path => some (resolver path)) targets urls = .ok other ∧
        other.status = .inScope ∧ verdict.repositories.Perm other.repositories) ∧
      (verdict.status = .hostOutOfScope → ∃ other,
        classifyTargets parent (fun path => some (resolver path)) targets urls = .ok other ∧
          other.status ≠ .outOfScope) := by
  rw [classifyTargets_eq canonical] at classified ⊢
  have resolved : child.classifyResolved targets urls (child.resolvedBy resolver targets) = .ok verdict := by
    generalize child.classifyResolved targets urls (child.resolvedBy resolver targets) = answer at classified
    cases answer with
    | error error => cases classified
    | ok other => exact congrArg _ (Except.ok.inj classified)
  have narrowed := narrowed_of_derived derived
  refine ⟨fun isIn => ?_, fun isHost => ?_⟩
  · obtain ⟨other, accepted, status, repositories⟩ := narrowed.classifyResolved resolved (by rw [isIn]; decide)
    exact ⟨other, by rw [accepted]; rfl, status.trans isIn, repositories⟩
  · obtain ⟨other, accepted, status, -⟩ := narrowed.classifyResolved resolved (by rw [isHost]; decide)
    exact ⟨other, by rw [accepted]; rfl, by rw [status, isHost]; decide⟩

/-! ### A narrowed task -/

/-- No symlinks: a path that is accepted means itself. -/
def lexically (py : Stdlib) (path : Text) : Text :=
  match normalisePath py path none with
  | .ok normal => normal
  | .error _ => lit "/"

theorem normalisePath_lexically (path : Text) :
    normalisePath .ascii (lexically .ascii path) none = .ok (lexically .ascii path) := by
  unfold lexically
  split
  · rename_i normal accepted
    exact normalisePath_idem accepted
  · decide

def twoRepositories : ScopeArguments .ascii where
  pathRoots := [lit "/w"]
  hosts := [lit "example.com"]
  projects := [(1, .active)]
  repositories :=
    [⟨7, 1, (canonicalPath .ascii (lit "/w/a") "").toOption, none, [], some .target, by simp⟩,
      ⟨8, 1, (canonicalPath .ascii (lit "/w/b") "").toOption, none, [], some .working, by simp⟩]

/-- A node that asked for the first of them reads a file of it. -/
theorem twoRepositories_narrowed : ∃ parent child : TaskScope .ascii, ∃ verdict other : Classification,
    deriveChildScope parent .worker (some [7]) .empty = .ok child ∧
      classifyTargets child (fun path => some (lexically .ascii path)) [⟨.path, lit "/w/a/x"⟩] [] = .ok verdict ∧
      verdict.repositories = [7] ∧
      classifyTargets parent (fun path => some (lexically .ascii path)) [⟨.path, lit "/w/a/x"⟩] [] = .ok other ∧
      other.status = .inScope ∧ verdict.repositories.Perm other.repositories := by
  have built : (TaskScope.make .ascii twoRepositories).toOption.any (fun parent =>
      (deriveChildScope parent .worker (some [7]) .empty).toOption.any fun child =>
        (classifyTargets child (fun path => some (lexically .ascii path)) [⟨.path, lit "/w/a/x"⟩] []).toOption.any
          fun verdict => decide (verdict.status = .inScope ∧ verdict.repositories = [7])) = true := by
    decide
  obtain ⟨parent, -, holds⟩ := exists_of_toOption_any built
  obtain ⟨child, derived, holds⟩ := exists_of_toOption_any holds
  obtain ⟨verdict, classified, holds⟩ := exists_of_toOption_any holds
  obtain ⟨isIn, touched⟩ := of_decide_eq_true holds
  obtain ⟨within, -⟩ := child_within_parent normalisePath_lexically derived [⟨.path, lit "/w/a/x"⟩] [] classified
  obtain ⟨other, accepted, status, same⟩ := within isIn
  exact ⟨parent, child, verdict, other, derived, classified, touched, accepted, status, same⟩

end PawBackend.Orchestrator
