/-
**Releases and what they can run on** (`deploy/release/paw_release.py`: `Migration`, `Release`, `load_release`,
`steps_between`).

A release knows the migrations up to its schema head.
-/

import Mathlib.Data.List.Basic

namespace PawBackend.Deploy

/-! ### Manifests -/

inductive Compatibility
  | expand
  | contract
  | data
  deriving DecidableEq, Repr

structure Migration where
  revision : String
  downRevision : Option String
  compatibility : Option Compatibility
  deriving DecidableEq, Repr

/-- A built release. Its chain of migrations does not come back to itself, which Alembic refuses to load: a rank goes
down along it. -/
structure Release where
  version : String
  schemaHead : Option String
  migrations : List Migration
  rank : String → ℕ
  acyclic : ∀ migration ∈ migrations, ∀ down, migration.downRevision = some down → rank down < rank migration.revision

namespace Release

/-- `self.migrations[revision]`. -/
def migration (release : Release) (revision : String) : Option Migration :=
  release.migrations.find? (·.revision = revision)

/-- The loop of `path_between`. -/
def pathFrom (release : Release) (older : Option String) : ℕ → Option String → Option (List Migration)
  | 0, _ => none
  | rounds + 1, revision =>
    if revision = older then some []
    else match revision.bind release.migration with
      | none => none
      | some step => (release.pathFrom older rounds step.downRevision).map (step :: ·)

/-- `path_between`: the migrations from `older` up to `newer`, newest first. The rank bounds the rounds of its loop. -/
def pathBetween (release : Release) (newer : String) (older : Option String) : Option (List Migration) :=
  release.pathFrom older (release.rank newer + 2) (some newer)

inductive Leads (release : Release) : Option String → List Migration → Option String → Prop
  | here (revision : Option String) : Leads release revision [] revision
  | down {revision : String} {step : Migration} {steps : List Migration} {older : Option String}
      (found : release.migration revision = some step) (rest : Leads release step.downRevision steps older) :
      Leads release (some revision) (step :: steps) older

variable {release : Release} {revision newer : String} {step : Migration} {steps : List Migration}
  {start older : Option String} {rounds : ℕ}

theorem rank_down (found : release.migration revision = some step) {down : String} (isDown : step.downRevision = some down) :
    release.rank down < release.rank revision := by
  have named : step.revision = revision := by simpa using List.find?_some found
  exact named ▸ release.acyclic step (List.mem_of_find?_eq_some found) down isDown

theorem leads_of_pathFrom (found : release.pathFrom older rounds start = some steps) :
    release.Leads start steps older := by
  induction rounds generalizing start steps with
  | zero => cases found
  | succ rounds ih =>
    unfold pathFrom at found
    split_ifs at found with same
    · cases found
      exact same ▸ .here start
    · cases start with
      | none => cases found
      | some revision =>
        rw [Option.bind_some] at found
        cases isStep : release.migration revision with
        | none =>
          rw [isStep] at found
          cases found
        | some step =>
          rw [isStep] at found
          obtain ⟨rest, isRest, rfl⟩ := Option.map_eq_some_iff.mp found
          exact .down isStep (ih isRest)

theorem Leads.rank_lt (leads : release.Leads start steps older) {low : String} (isLow : older = some low) :
    ∃ high, start = some high ∧ (steps ≠ [] → release.rank low < release.rank high) := by
  induction leads with
  | here revision => exact ⟨low, isLow, fun some => absurd rfl some⟩
  | @down revision step steps older found rest ih =>
    obtain ⟨high, isHigh, below⟩ := ih isLow
    refine ⟨revision, rfl, fun _ => ?_⟩
    have first := rank_down found isHigh
    rcases steps.eq_nil_or_concat with rfl | ⟨before, last, rfl⟩
    · rcases hasHere : step.downRevision with _ | down
      · rw [hasHere] at isHigh
        cases isHigh
      · rw [hasHere] at rest
        cases rest
        exact Option.some.inj (isLow.symm.trans (hasHere.symm.trans isHigh)) ▸ first
    · exact Nat.lt_trans (below (by simp)) first

theorem pathFrom_of_leads (leads : release.Leads start steps older)
    (enough : ∀ revision, start = some revision → release.rank revision + 2 ≤ rounds) (one : 1 ≤ rounds) :
    release.pathFrom older rounds start = some steps := by
  induction leads generalizing rounds with
  | here revision =>
    obtain ⟨rounds, rfl⟩ := Nat.exists_eq_add_of_le' one
    exact if_pos rfl
  | @down revision step steps older found rest ih =>
    obtain ⟨rounds, rfl⟩ := Nat.exists_eq_add_of_le' one
    have bound := enough revision rfl
    have apart : some revision ≠ older := by
      intro same
      obtain ⟨high, isHigh, below⟩ := (Leads.down found rest).rank_lt same.symm
      exact absurd (below (List.cons_ne_nil _ _)) ((Option.some.inj isHigh) ▸ Nat.lt_irrefl _)
    show (if some revision = older then some [] else _) = _
    rw [if_neg apart, Option.bind_some, found]
    show (release.pathFrom older rounds step.downRevision).map (step :: ·) = _
    rw [ih (fun down isDown => ?_) (by omega)]
    · rfl
    · have := rank_down found isDown
      omega

theorem pathBetween_eq_some :
    release.pathBetween newer older = some steps ↔ release.Leads (some newer) steps older :=
  ⟨leads_of_pathFrom, fun leads => pathFrom_of_leads leads (by
    rintro revision same
    cases same
    exact Nat.le_refl _) (by omega)⟩

end Release

/-! ### The releases of a server -/

inductive CommandKey
  | precheck
  | recoveryBackup
  | stop
  | start
  | health
  | postRestore
  | notify
  deriving DecidableEq, Repr

structure Config where
  restorePointDir : String
  minFreeBytes : ℕ
  restorePointKeep : ℕ
  drainTimeoutSeconds : ℕ
  pgDump : String
  pgRestore : String
  commands : CommandKey → List (List String)

/-- What a run of the tool finds and does not change: its configuration, and the releases built so far by name. -/
structure Host where
  config : Config
  built : List Release

/-- `VERSION_PATTERN`. -/
def isVersion (version : String) : Bool :=
  match version.toList with
  | [] => false
  | first :: rest =>
    first.isAlphanum && rest.all (fun letter => letter.isAlphanum || letter ∈ ['.', '_', '-']) && rest.length ≤ 63

namespace Host

def release (host : Host) (version : String) : Option Release := host.built.find? (·.version = version)

/-- `steps_between`: read from `first`, else from any built release that knows `newer`. -/
def stepsBetween (host : Host) (newer : String) (older : Option String) (first : Release) : Option (List Migration) :=
  let candidates := first :: host.built.filter (·.version ≠ first.version)
  (candidates.find? fun release => (release.migration newer).isSome).bind (·.pathBetween newer older)

/-- There are steps, and all of them leave a schema that the release before them can run on. -/
def expandOnly (steps : Option (List Migration)) : Bool :=
  steps.any fun steps => steps ≠ [] && steps.all (·.compatibility = some .expand)

/-- A release runs on a database at its schema head, and on a newer one with only `expand` migrations in between. -/
def RunsOn (host : Host) (release : Release) (revision : Option String) : Prop :=
  revision = release.schemaHead ∨ ∃ newer, revision = some newer ∧ ∃ other ∈ host.built, ∃ steps, steps ≠ [] ∧
    other.Leads (some newer) steps release.schemaHead ∧ ∀ step ∈ steps, step.compatibility = some .expand

variable {host : Host} {version newer : String} {release first : Release}

theorem mem_of_release (found : host.release version = some release) : release ∈ host.built :=
  List.mem_of_find?_eq_some found

theorem version_of_release (found : host.release version = some release) : release.version = version := by
  simpa using List.find?_some found

theorem runsOn_of_expandOnly (isBuilt : first ∈ host.built)
    (compatible : expandOnly (host.stepsBetween newer release.schemaHead first) = true) :
    host.RunsOn release (some newer) := by
  obtain ⟨steps, isSteps, holds⟩ := (Option.any_eq_true _ _).mp compatible
  obtain ⟨other, isOther, isPath⟩ := Option.bind_eq_some_iff.mp isSteps
  rw [Bool.and_eq_true, List.all_eq_true] at holds
  refine .inr ⟨newer, rfl, other, ?_, steps, of_decide_eq_true holds.1, Release.pathBetween_eq_some.mp isPath,
    fun step mem => of_decide_eq_true (holds.2 step mem)⟩
  rcases List.mem_cons.mp (List.mem_of_find?_eq_some isOther) with rfl | mem
  · exact isBuilt
  · exact (List.mem_filter.mp mem).1

end Host

end PawBackend.Deploy
