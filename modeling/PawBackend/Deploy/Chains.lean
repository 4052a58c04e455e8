/-
**Chains of migrations** (`deploy/release/paw_release.py`: `read_migrations`, `schema_head`, `Release.chain`,
`Release.path_between`).

The loops follow `down_revision` and keep no set of what they visited. `schema_head` accepts one unreferenced head,
also above or beside a cycle.
-/

import Mathlib.Data.List.Perm.Subperm
import Mathlib.Data.List.Sort
import PawBackend.Deploy.Tool
import PawBackend.Lib.Checks
import PawBackend.Lib.Keyed

namespace PawBackend.Deploy

open Lib List

/-! ### The migration files -/

/-- A literal of a module-level assignment; `other` is no literal, or one of another kind. -/
inductive Literal
  | nothing
  | text (t : String)
  | other

structure VersionFile where
  name : String
  revision : Option Literal
  downRevision : Option Literal
  compatibility : Option Literal

/-- `None`, also where nothing is assigned, or a string. -/
def optionalText : Option Literal → Option (Option String)
  | none | some .nothing => some none
  | some (.text t) => some (some t)
  | some .other => none

/-- `COMPATIBILITIES`. -/
def compatibilityNamed : String → Option Compatibility
  | "expand" => some .expand
  | "contract" => some .contract
  | "data" => some .data
  | _ => none

def VersionFile.migration (file : VersionFile) : Literal → Option Migration
  | .text revision => do
    let down ← optionalText file.downRevision
    let named ← optionalText file.compatibility
    let compatibility ← match named with
      | none => some none
      | some name => (compatibilityNamed name).map some
    return ⟨revision, down, compatibility⟩
  | _ => none

/-- `dict[str, Migration]`. -/
abbrev Migrations := Keyed Migration.revision

def readMigrations (files : List VersionFile) : Except ReleaseError Migrations :=
  files.foldlM (fun migrations file =>
    match file.revision with
    | none => .ok migrations
    | some revision =>
      match file.migration revision with
      | none => .error (refusal ("migration " ++ file.name ++ ": revision / down_revision must be single strings and " ++
          "paw_compatibility one of ['contract', 'data', 'expand']"))
      | some migration =>
        match migrations.tryInsert migration with
        | none => .error (refusal ("migration " ++ migration.revision ++ " is defined twice"))
        | some added => .ok added) Keyed.empty

namespace Migrations

variable (migrations : Migrations)

def heads : List String :=
  ((migrations.rows.map Migration.revision).filter fun revision =>
    decide (some revision ∉ migrations.rows.map Migration.downRevision)).insertionSort (· ≤ ·)

def schemaHead : Except ReleaseError (Option String) :=
  if 1 < migrations.heads.length then
    .error (refusal ("the migrations have " ++ toString migrations.heads.length ++ " heads: [" ++
      ", ".intercalate (migrations.heads.map fun head => "'" ++ head ++ "'") ++ "]"))
  else
    match migrations.rows.find? fun migration => migration.downRevision.any fun down => (migrations.get down).isNone with
    | some migration => .error (refusal ("migration " ++ migration.revision ++ " revises an unknown revision"))
    | none => .ok migrations.heads.head?

end Migrations

/-- What `build` takes from the files. -/
def migrationsOf (files : List VersionFile) : Except ReleaseError (Migrations × Option String) := do
  let migrations ← readMigrations files
  return (migrations, ← migrations.schemaHead)

namespace Migrations

variable (migrations : Migrations)

/-! ### The loops -/

/-- The loop of `path_between` for some rounds: it goes on, or it has answered. -/
def pathFrom (older : Option String) : ℕ → Option String → Option (Option (List Migration))
  | 0, _ => none
  | rounds + 1, revision =>
    if revision = older then some (some [])
    else match revision.bind migrations.get with
      | none => some none
      | some step => (pathFrom older rounds step.downRevision).map (·.map (step :: ·))

/-- The loop of `chain` for some rounds; it answers `none` where a revision is not there (a `KeyError`). -/
def chainFrom : ℕ → Option String → Option (Option (List String))
  | 0, _ => none
  | _ + 1, none => some (some [])
  | rounds + 1, some revision =>
    match migrations.get revision with
    | none => some none
    | some step => (chainFrom rounds step.downRevision).map (·.map (revision :: ·))

/-- Following `down_revision` from one revision through some migrations leads to another. -/
inductive Leads : Option String → List Migration → Option String → Prop
  | here (revision : Option String) : Leads revision [] revision
  | down {revision : String} {step : Migration} {steps : List Migration} {older : Option String}
      (found : migrations.get revision = some step) (rest : Leads step.downRevision steps older) :
      Leads (some revision) (step :: steps) older

def Acyclic : Prop := ∀ revision steps, migrations.Leads (some revision) steps (some revision) → steps = []

/-- What the loops promise of an accepted set: every revision lies below the head; the chain ends at the base and lists
each revision once; a path is found where there is one, and it is the steps in between. -/
structure Linear (head : String) : Prop where
  below : ∀ migration ∈ migrations.rows, ∃ steps, migrations.Leads (some head) steps (some migration.revision)
  chain : ∃ rounds steps, migrations.chainFrom rounds (some head) = some (some (steps.map Migration.revision)) ∧
    migrations.Leads (some head) steps none ∧
    (steps.map Migration.revision).Perm (migrations.rows.map Migration.revision)
  path : ∀ newer older, ∃ rounds answer, migrations.pathFrom older rounds newer = some answer ∧
    ∀ steps, answer = some steps ↔ migrations.Leads newer steps older
  composes : ∀ newer between older rounds rounds' first rest, migrations.pathFrom between rounds newer = some (some first) →
    migrations.pathFrom older rounds' between = some (some rest) →
    ∃ rounds'', migrations.pathFrom older rounds'' newer = some (some (first ++ rest))

variable {migrations} {start between older : Option String} {steps first rest : List Migration} {rounds : ℕ}
  {head revision : String} {step : Migration}

/-! ### What leads where -/

theorem Leads.trans (first : migrations.Leads start steps between) (next : migrations.Leads between rest older) :
    migrations.Leads start (steps ++ rest) older := by
  induction first with
  | here => exact next
  | down found _ ih => exact .down found (ih next)

/-- On the way to the base everything else that is led to lies. -/
theorem Leads.split (whole : migrations.Leads start steps none) (part : migrations.Leads start first between) :
    ∃ rest, steps = first ++ rest ∧ migrations.Leads between rest none := by
  induction part generalizing steps with
  | here => exact ⟨steps, rfl, whole⟩
  | down found _ ih =>
    cases whole with
    | down found' whole =>
      obtain rfl := Option.some.inj (found.symm.trans found')
      obtain ⟨rest, rfl, leads⟩ := ih whole
      exact ⟨rest, rfl, leads⟩

theorem Leads.of_mem (leads : migrations.Leads start steps older) (isStep : step ∈ steps) :
    step ∈ migrations.rows ∧ ∃ before, migrations.Leads start before (some step.revision) := by
  induction leads with
  | here => cases isStep
  | @down revision first _ _ found _ ih =>
    obtain ⟨isRow, isKey⟩ := Keyed.get_eq_some.mp found
    rcases mem_cons.mp isStep with rfl | isLater
    · exact ⟨isRow, [], isKey ▸ .here _⟩
    · obtain ⟨isRow, before, leads⟩ := ih isLater
      exact ⟨isRow, first :: before, .down found leads⟩

/-- What ends does not come back. -/
theorem Leads.eq_nil (ends : migrations.Leads start rest none) (back : migrations.Leads start steps start) : steps = [] := by
  induction isLength : rest.length using Nat.strongRecOn generalizing rest with
  | _ n ih =>
    by_contra returns
    obtain ⟨later, rfl, ends'⟩ := ends.split back
    have shorter : later.length < n := by
      rw [← isLength, length_append]
      exact Nat.lt_add_of_pos_left (length_pos_iff.mpr returns)
    exact returns (ih later.length shorter ends' rfl)

section Acyclic

variable (acyclic : migrations.Acyclic)
include acyclic

theorem nodup_of_leads (leads : migrations.Leads start steps older) : (steps.map Migration.revision).Nodup := by
  induction leads with
  | here => exact nodup_nil
  | @down revision first _ _ found leads ih =>
    refine nodup_cons.mpr ⟨fun again => ?_, ih⟩
    obtain ⟨later, isLater, same⟩ := mem_map.mp again
    obtain ⟨-, before, returns⟩ := leads.of_mem isLater
    rw [same, Keyed.key_of_get found] at returns
    exact absurd (acyclic revision _ (.down found returns)) (cons_ne_nil _ _)

theorem length_le_of_leads (leads : migrations.Leads start steps older) : steps.length ≤ migrations.rows.length := by
  have within : steps.map Migration.revision ⊆ migrations.rows.map Migration.revision := by
    intro revision isIn
    obtain ⟨step, isStep, rfl⟩ := mem_map.mp isIn
    exact mem_map_of_mem (leads.of_mem isStep).1
  simpa using ((nodup_of_leads acyclic leads).subperm within).length_le

theorem leads_unique (one : migrations.Leads start steps older) (other : migrations.Leads start rest older) :
    steps = rest := by
  induction one generalizing rest with
  | here revision =>
    cases other with
    | here => rfl
    | down found leads => exact (acyclic _ _ (.down found leads)).symm
  | down found leads ih =>
    cases other with
    | here => exact acyclic _ _ (.down found leads)
    | down found' leads' =>
      obtain rfl := Option.some.inj (found.symm.trans found')
      rw [ih leads']

end Acyclic

/-! ### What the loops answer -/

theorem pathFrom_succ : migrations.pathFrom older (rounds + 1) start =
    if start = older then some (some [])
    else match start.bind migrations.get with
      | none => some none
      | some step => (migrations.pathFrom older rounds step.downRevision).map (·.map (step :: ·)) := rfl

theorem leads_of_pathFrom (answered : migrations.pathFrom older rounds start = some (some steps)) :
    migrations.Leads start steps older := by
  induction rounds generalizing start steps with
  | zero => cases answered
  | succ rounds ih =>
    rw [pathFrom_succ] at answered
    split_ifs at answered with same
    · cases answered
      exact same ▸ .here start
    · split at answered
      · cases answered
      · rename_i step isStep
        obtain ⟨revision, rfl, found⟩ := Option.bind_eq_some_iff.mp isStep
        obtain ⟨_, isRest, made⟩ := Option.map_eq_some_iff.mp answered
        obtain ⟨rest, rfl, rfl⟩ := Option.map_eq_some_iff.mp made
        exact .down found (ih isRest)

theorem not_leads_of_pathFrom (answered : migrations.pathFrom older rounds start = some none) :
    ¬migrations.Leads start steps older := by
  intro leads
  induction rounds generalizing start steps with
  | zero => cases answered
  | succ rounds ih =>
    rw [pathFrom_succ] at answered
    split_ifs at answered with same
    · cases Option.some.inj answered
    cases leads with
    | here => exact same rfl
    | down found leads =>
      rw [Option.bind_some, found] at answered
      obtain ⟨_, isRest, made⟩ := Option.map_eq_some_iff.mp answered
      obtain rfl := Option.map_eq_none_iff.mp made
      exact ih isRest leads

/-- While the loop goes on, each round is a step down. -/
theorem leads_of_running (runs : migrations.pathFrom older rounds start = none) :
    ∃ steps between, migrations.Leads start steps between ∧ steps.length = rounds := by
  induction rounds generalizing start with
  | zero => exact ⟨[], start, .here start, rfl⟩
  | succ rounds ih =>
    rw [pathFrom_succ] at runs
    split_ifs at runs with same
    split at runs
    · cases runs
    · rename_i step isStep
      obtain ⟨revision, rfl, found⟩ := Option.bind_eq_some_iff.mp isStep
      obtain ⟨steps, between, leads, isLength⟩ := ih (Option.map_eq_none_iff.mp runs)
      exact ⟨step :: steps, between, .down found leads, congrArg (· + 1) isLength⟩

theorem pathFrom_answers (acyclic : migrations.Acyclic) (start older : Option String) :
    ∃ answer, migrations.pathFrom older (migrations.rows.length + 1) start = some answer ∧
      ∀ steps, answer = some steps ↔ migrations.Leads start steps older := by
  cases answered : migrations.pathFrom older (migrations.rows.length + 1) start with
  | none =>
    obtain ⟨steps, between, leads, isLength⟩ := leads_of_running answered
    exact absurd (length_le_of_leads acyclic leads) (by omega)
  | some answer =>
    refine ⟨answer, rfl, fun steps => ?_⟩
    cases answer with
    | none => exact iff_of_false nofun (not_leads_of_pathFrom answered)
    | some found =>
      have leads := leads_of_pathFrom answered
      exact ⟨fun same => Option.some.inj same ▸ leads, fun other => congrArg some (leads_unique acyclic leads other)⟩

/-- The chain is the path to the base. -/
theorem chainFrom_eq (rounds : ℕ) (start : Option String) : migrations.chainFrom rounds start =
    (migrations.pathFrom none rounds start).map (·.map (·.map Migration.revision)) := by
  induction rounds generalizing start with
  | zero => rfl
  | succ rounds ih =>
    cases start with
    | none => rfl
    | some revision =>
      rw [chainFrom, pathFrom_succ, if_neg (Option.some_ne_none revision), Option.bind_some]
      cases found : migrations.get revision with
      | none => rfl
      | some step =>
        dsimp only
        rw [ih, Option.map_map, Option.map_map]
        congr 1
        funext answer
        simp [Function.comp_def, Option.map_map, Keyed.key_of_get found]

/-! ### Accepted sets -/

/-- What `schema_head` has checked: one head, and every reference is known. -/
structure Accepted (migrations : Migrations) (head : String) : Prop where
  isKnown : ∃ step, migrations.get head = some step
  only : ∀ migration ∈ migrations.rows, migration.revision ≠ head →
    ∃ above ∈ migrations.rows, above.downRevision = some migration.revision
  known : ∀ migration ∈ migrations.rows, ∀ down, migration.downRevision = some down → ∃ step, migrations.get down = some step

theorem accepted_of_schemaHead (accepted : migrations.schemaHead = .ok (some head)) : Accepted migrations head := by
  unfold schemaHead at accepted
  split_ifs at accepted with many
  split at accepted
  · cases accepted
  · rename_i noneUnknown
    have isHead := Except.ok.inj accepted
    have isHeads : migrations.heads = [head] := by
      cases others : migrations.heads with
      | nil => simp [others] at isHead
      | cons first rest =>
        rw [others] at isHead many
        obtain rfl := Option.some.inj isHead
        cases rest with
        | nil => rfl
        | cons _ _ => simp at many
    have mem_heads : ∀ revision, revision ∈ migrations.heads ↔ (∃ m ∈ migrations.rows, m.revision = revision) ∧
        ∀ m ∈ migrations.rows, m.downRevision ≠ some revision := by
      intro revision
      simp [heads]
    obtain ⟨⟨top, isTop, isRevision⟩, -⟩ := (mem_heads head).mp (isHeads ▸ mem_singleton_self head)
    refine ⟨⟨top, Keyed.get_eq_some.mpr ⟨isTop, isRevision⟩⟩, fun migration isRow other => ?_, fun migration isRow down isDown => ?_⟩
    · by_contra unreferenced
      push Not at unreferenced
      have isOther := (mem_heads migration.revision).mpr ⟨⟨migration, isRow, rfl⟩, unreferenced⟩
      rw [isHeads, mem_singleton] at isOther
      exact other isOther
    · have known := find?_eq_none.mp noneUnknown migration isRow
      rw [isDown] at known
      exact Option.ne_none_iff_exists'.mp (by simpa using known)

/-- Above a revision that is not below the head there is always another one. -/
theorem Accepted.climbs (accepted : Accepted migrations head) (isRow : step ∈ migrations.rows)
    (apart : ∀ steps, ¬migrations.Leads (some head) steps (some step.revision)) (n : ℕ) :
    ∃ above ∈ migrations.rows, (∀ steps, ¬migrations.Leads (some head) steps (some above.revision)) ∧
      ∃ steps, migrations.Leads (some above.revision) steps (some step.revision) ∧ steps.length = n := by
  induction n with
  | zero => exact ⟨step, isRow, apart, [], .here _, rfl⟩
  | succ n ih =>
    obtain ⟨low, isLow, notBelow, steps, leads, isLength⟩ := ih
    have notHead : low.revision ≠ head := fun same => notBelow [] (same ▸ .here _)
    obtain ⟨above, isAbove, isDown⟩ := accepted.only low isLow notHead
    have down : migrations.Leads (some above.revision) [above] (some low.revision) := by
      refine .down (Keyed.get_self isAbove) ?_
      rw [isDown]
      exact .here _
    exact ⟨above, isAbove, fun before toAbove => notBelow _ (toAbove.trans down), above :: steps, down.trans leads,
      congrArg (· + 1) isLength⟩

theorem Accepted.reaches_base (accepted : Accepted migrations head) (known : ∀ revision, start = some revision →
    ∃ step, migrations.get revision = some step) : migrations.pathFrom none rounds start ≠ some none := by
  induction rounds generalizing start with
  | zero => nofun
  | succ rounds ih =>
    cases start with
    | none => nofun
    | some revision =>
      obtain ⟨step, found⟩ := known revision rfl
      rw [pathFrom_succ, if_neg (Option.some_ne_none revision), Option.bind_some, found]
      intro answered
      obtain ⟨_, isRest, made⟩ := Option.map_eq_some_iff.mp answered
      obtain rfl := Option.map_eq_none_iff.mp made
      exact ih (accepted.known step (Keyed.mem_of_get found)) isRest

theorem Accepted.linear (accepted : Accepted migrations head) (acyclic : migrations.Acyclic) : migrations.Linear head := by
  have below : ∀ migration ∈ migrations.rows, ∃ steps, migrations.Leads (some head) steps (some migration.revision) := by
    intro migration isRow
    by_contra apart
    obtain ⟨_, _, _, steps, leads, isLength⟩ := accepted.climbs isRow (not_exists.mp apart) (migrations.rows.length + 1)
    exact absurd (length_le_of_leads acyclic leads) (by omega)
  refine ⟨below, ?_, fun newer older => ⟨_, pathFrom_answers acyclic newer older⟩, ?_⟩
  · obtain ⟨answer, answered, isPath⟩ := pathFrom_answers acyclic (some head) none
    cases answer with
    | none =>
      refine absurd answered (accepted.reaches_base fun revision same => ?_)
      exact Option.some.inj same ▸ accepted.isKnown
    | some steps =>
      have leads := (isPath steps).mp rfl
      refine ⟨_, steps, by rw [chainFrom_eq, answered]; rfl, leads, ?_⟩
      refine (perm_ext_iff_of_nodup (nodup_of_leads acyclic leads) migrations.distinct).mpr fun revision => ?_
      constructor
      · intro isIn
        obtain ⟨step, isStep, rfl⟩ := mem_map.mp isIn
        exact mem_map_of_mem (leads.of_mem isStep).1
      · intro isIn
        obtain ⟨migration, isRow, rfl⟩ := mem_map.mp isIn
        obtain ⟨before, toIt⟩ := below migration isRow
        obtain ⟨rest, rfl, fromIt⟩ := leads.split toIt
        cases fromIt with
        | @down _ first later _ found _ =>
          rw [← Keyed.key_of_get found]
          exact mem_map_of_mem (mem_append_right before (.head _))
  · intro newer between older rounds rounds' first rest one other
    obtain ⟨answer, answered, isPath⟩ := pathFrom_answers acyclic newer older
    exact ⟨_, answered.trans (congrArg some ((isPath _).mpr ((leads_of_pathFrom one).trans (leads_of_pathFrom other))))⟩

theorem Linear.acyclic (linear : migrations.Linear head) : migrations.Acyclic := by
  intro revision steps back
  cases back with
  | here => rfl
  | @down _ step _ _ found rest =>
    obtain ⟨isRow, isKey⟩ := Keyed.get_eq_some.mp found
    obtain ⟨_, all, _, ends, _⟩ := linear.chain
    obtain ⟨before, toIt⟩ := linear.below step isRow
    obtain ⟨_, _, fromIt⟩ := ends.split toIt
    exact fromIt.eq_nil (isKey.symm ▸ .down found rest)

end Migrations

open Migrations in
/-- **The loops keep their promise exactly on acyclic sets** of the files that are accepted. -/
theorem linear_iff_acyclic {files : List VersionFile} {migrations : Migrations} {head : String}
    (accepted : migrationsOf files = .ok (migrations, some head)) : migrations.Linear head ↔ migrations.Acyclic := by
  obtain ⟨read, -, accepted⟩ := bind_eq_ok.mp accepted
  obtain ⟨found, isHead, same⟩ := bind_eq_ok.mp accepted
  obtain ⟨rfl, rfl⟩ := Prod.mk.inj (Except.ok.inj same)
  exact ⟨Linear.acyclic, (accepted_of_schemaHead isHead).linear⟩

def sampleFiles : List VersionFile := [⟨"a.py", some (.text "a"), none, some (.text "expand")⟩, ⟨"env.py", none, none, none⟩]

theorem linear_iff_acyclic_sample :
    ∃ migrations : Migrations, migrationsOf sampleFiles = .ok (migrations, some "a") ∧ migrations.Linear "a" := by
  refine ⟨_, rfl, (linear_iff_acyclic (show migrationsOf sampleFiles = .ok (_, some "a") from rfl)).mpr ?_⟩
  intro revision steps back
  cases back with
  | here => rfl
  | @down _ step _ _ found rest =>
    obtain rfl : step = ⟨"a", none, some .expand⟩ := mem_singleton.mp (Keyed.mem_of_get found)
    cases rest

/-- The head revises a migration that revises itself. -/
def sampleCycle : List VersionFile :=
  [⟨"h.py", some (.text "h"), some (.text "x"), none⟩, ⟨"x.py", some (.text "x"), some (.text "x"), none⟩]

theorem cycle_accepted : ¬∀ files (migrations : Migrations) head, migrationsOf files = .ok (migrations, some head) →
    migrations.Linear head := by
  intro always
  have acyclic := (always sampleCycle _ "h" rfl).acyclic
  exact absurd (acyclic "x" _ (.down (show Keyed.get _ "x" = some ⟨"x", some "x", none⟩ from rfl) (.here _))) (cons_ne_nil _ _)

end PawBackend.Deploy
