/-
**Histories of runs on one server** (`main` of `deploy/release/paw_release.py`).

A history is any sequence of runs of the tool, each with the releases built by then and with whatever the commands
answer.
-/

import PawBackend.Deploy.Records

namespace PawBackend.Deploy

open Lib List

variable {ε : Type} {server : Server ε} {host : Host} {w w' : World ε}

/-! ### The other commands -/

/-- Neither the maintenance nor the restore points are touched. -/
def Untouched (asked : List (Asked ε)) : Prop :=
  ∀ a ∈ asked, a.question.maintenance = none ∧ a.question.deleted = none

theorem Untouched.row {asked : List (Asked ε)} {row : Bool} (untouched : Untouched asked) :
    maintenanceRow row asked = row :=
  maintenanceRow_of_none fun a mem => (untouched a mem).1

theorem Untouched.asked {fits : Question → Prop} (untouched : Untouched w.asked)
    (asks : Asks server fits w w')
    (kind : ∀ question, fits question → question.maintenance = none ∧ question.deleted = none) :
    Untouched w'.asked := by
  obtain ⟨more, isMore, all⟩ := asks.asked
  rw [isMore]
  intro a mem
  rcases mem_append.mp mem with mem | mem
  · exact untouched a mem
  · exact kind _ (all a mem)

theorem untouched_of_reads {asked : List (Asked ε)} (reads : ∀ a ∈ asked, a.question.Reads) : Untouched asked :=
  fun a mem => ⟨(reads a mem).quiet.2.2.2.1, (reads a mem).quiet.2.2.2.2.2.2⟩

theorem Question.Quiet.untouched {question : Question} (quiet : question.Quiet) :
    question.maintenance = none ∧ question.deleted = none :=
  ⟨quiet.2.2.2.1, quiet.2.2.2.2.2.2⟩

theorem Untouched.asking {question : Question} (untouched : Untouched w.asked)
    (kind : question.maintenance = none ∧ question.deleted = none) : Untouched (w.asking server question).asked := by
  intro a mem
  rcases mem_append.mp mem with mem | mem
  · exact untouched a mem
  · cases mem_singleton.mp mem
    exact kind

theorem ensures_healthyAfter {target : Release} {started : ℤ} (untouched : Untouched w.asked) :
    Ensures (healthyAfter server host target started) (fun _ w' => Untouched w'.asked) (fun _ _ => False) w := by
  unfold healthyAfter
  split_ifs with done
  · exact Ensures.mono ensures_healthy (fun _ _ ⟨asks, _⟩ => untouched.asked asks fun _ => Question.Quiet.untouched)
      fun _ _ wrong => wrong
  · exact ensures_pure.mpr untouched

theorem ensures_installed {version : String} {target : Release} (untouched : Untouched w.asked) :
    Ensures (installRelease server host version target) (fun _ w' => Untouched w'.asked) (fun _ _ => False) w := by
  refine ensures_bind.mpr (ensures_changeFiles.mpr (ensures_bind.mpr (ensures_ask.mpr ?_)))
  have upgraded : Untouched (w.asking server (.command (.backend target .upgradeHead))).asked :=
    untouched.asking ⟨rfl, rfl⟩
  split_ifs with failed
  · exact ensures_pure.mpr upgraded
  · refine ensures_bind.mpr (ensures_changeFiles.mpr (Ensures.bind ensures_firstFailure fun started w₁ ran => ?_))
    have starting : Untouched w₁.asked := by
      refine Untouched.asked ?_ ran.asks fun question ⟨command, mem, same⟩ => ?_
      · exact upgraded
      obtain ⟨argv, -, rfl⟩ := mem_map.mp mem
      subst same
      exact ⟨rfl, rfl⟩
    refine (ensures_healthyAfter starting).bind fun healthy w₂ checked => ?_
    cases healthy with
    | false => exact ensures_pure.mpr checked
    | true => exact ensures_bind.mpr (ensures_changeFiles.mpr (ensures_bind.mpr (ensures_changeFiles.mpr
        (ensures_pure.mpr checked))))

theorem leaves_install {version : String} {files : Files} {s : ε} : Ensures (install server host version)
    (fun code w' => Refuses files code w' ∨ Untouched w'.asked ∧ (files.current = none ∨
      ∃ record, files.inProgress = some record ∧ record.operation = some .install))
    (fun error w' => Refuses files error.code w') ⟨files, s, []⟩ := by
  have empty : Asks server Question.Reads ⟨files, s, []⟩ ⟨files, s, []⟩ := .refl _
  refine ensures_bind.mpr (ensures_readFiles.mpr (ensures_bind.mpr (ensures_refuseIf (fun free => ?_)
    fun _ => refuses_of_asks empty rfl)))
  have isFree : files.current = none ∨ ∃ record, files.inProgress = some record ∧ record.operation = some .install := by
    cases current : files.current with
    | none => exact .inl rfl
    | some name =>
      right
      have retries : files.retries version = true := by
        rw [current] at free
        simpa using free
      unfold Files.retries at retries
      rw [Bool.and_eq_true] at retries
      obtain ⟨record, isRecord, holds⟩ := (Option.any_eq_true _ _).mp retries.2
      exact ⟨record, isRecord, (of_decide_eq_true (Bool.and_eq_true _ _ ▸ holds).1)⟩
  refine Ensures.bindRaising ensures_loadRelease (fun _ _ ⟨asks, isCode⟩ =>
    refuses_of_asks asks isCode) fun target w₁ ⟨first, _⟩ => ?_
  have untouched : Untouched w₁.asked := untouched_of_reads (refuses_of_asks first (Eq.refl ExitCode.refused)).2.2
  refine (ensures_installed untouched).mono (fun _ _ untouched => .inr ⟨untouched, isFree⟩) fun _ _ wrong => wrong.elim

theorem leaves_endMaintenance {files : Files} {s : ε} : Ensures (endMaintenance server host)
    (fun code w' => (∀ a ∈ w'.asked, a.question.deleted = none) ∧
      (code = .ok ∧ w'.files = { files with inProgress := none } ∧ files.current.isSome ∧ Ended w'.asked ∨
        code = .maintenance ∧ w'.files = files ∧ ∀ row, maintenanceRow row w'.asked = row))
    (fun error w' => Refuses files error.code w') ⟨files, s, []⟩ := by
  have empty : Asks server Question.Reads ⟨files, s, []⟩ ⟨files, s, []⟩ := .refl _
  refine ensures_bind.mpr (ensures_readFiles.mpr (ensures_bind.mpr (ensures_orThrowAs (fun name isCurrent => ?_)
    fun _ => refuses_of_asks empty rfl)))
  refine Ensures.bindRaising ensures_loadRelease (fun _ _ ⟨asks, isCode⟩ =>
    refuses_of_asks asks isCode) fun current w₁ ⟨first, _⟩ => ?_
  have untouched : Untouched w₁.asked := untouched_of_reads (refuses_of_asks first (Eq.refl ExitCode.refused)).2.2
  have kept : ∀ a ∈ (w₁.asking server (.command (.backend current .maintenanceEnd))).asked,
      a.question.deleted = none := fun a mem => by
    rcases mem_append.mp mem with mem | mem
    · exact (untouched a mem).2
    · cases mem_singleton.mp mem
      rfl
  refine ensures_bind.mpr (ensures_ask.mpr ?_)
  split_ifs with failed
  · refine ensures_pure.mpr ⟨kept, .inr ⟨rfl, first.files, fun row => ?_⟩⟩
    refine maintenanceRow_append.trans ?_
    rw [untouched.row]
    exact if_neg fun done => failed (of_decide_eq_true done)
  · refine ensures_bind.mpr (ensures_changeFiles.mpr (ensures_pure.mpr ⟨kept, .inl ⟨rfl, ?_,
      Option.isSome_iff_exists.mpr ⟨_, isCurrent⟩, fun row => maintenanceRow_ended (decide_eq_true (not_not.mp failed)) rfl⟩⟩))
    show ({ w₁.files with inProgress := none } : Files) = _
    rw [first.files]

theorem leaves_prune {files : Files} {s : ε} : Ensures (prune server host)
    (fun code w' => code = .ok ∧ w'.files = files ∧ ∀ a ∈ w'.asked, a.question.maintenance = none ∧
      ∀ label, a.question.deleted = some label → some label ≠ files.inProgress.bind (·.restorePoint))
    (fun _ _ => False) ⟨files, s, []⟩ := by
  refine Ensures.bind ensures_pruneRestorePoints fun _ w' asks => ensures_pure.mpr ⟨rfl, asks.files, fun a mem => ?_⟩
  obtain ⟨more, isMore, all⟩ := asks.asked
  rw [isMore] at mem
  rcases all a mem with quiet | ⟨label, isDelete, notKept⟩
  · exact ⟨quiet.2.2.2.1, fun label wrong => absurd (quiet.2.2.2.2.2.2.symm.trans wrong) (Option.some_ne_none _).symm⟩
  · rw [isDelete]
    exact ⟨rfl, fun other same => Option.some.inj same ▸ notKept⟩

/-! ### Whole runs -/

/-- A server as the runs leave it: the tool's files, what answers its questions, the row of the maintenance, and the
restore points recorded while it is on. -/
structure Installation (ε : Type) where
  files : Files
  server : ε
  row : Bool
  held : List String

inductive Invocation
  | install (version : String)
  | update (version : String) (stopNow : Bool)
  | rollback (version restorePoint : Option String)
  | endMaintenance
  | prune
  deriving DecidableEq, Repr

/-- `main`. -/
def Invocation.run (server : Server ε) (host : Host) : Invocation → Tool ε ExitCode
  | .install version => Deploy.install server host version
  | .update version stopNow => Deploy.update server host version stopNow
  | .rollback version restorePoint => Deploy.rollback server host version restorePoint
  | .endMaintenance => Deploy.endMaintenance server host
  | .prune => Deploy.prune server host

def Installation.ran (server : Server ε) (s : Installation ε) (e : Host × Invocation) :
    Except ReleaseError ExitCode × World ε :=
  (e.2.run server e.1).execute ⟨s.files, s.server, []⟩

def Installation.after (s : Installation ε) (w : World ε) : Installation ε :=
  let row := maintenanceRow s.row w.asked
  ⟨w.files, w.server, row, if row then s.held ++ (w.files.inProgress.bind (·.restorePoint)).toList else []⟩

def histories (server : Server ε) : Machine (Installation ε) (Host × Invocation) where
  initial s := s.files = ⟨none, [], none⟩ ∧ s.row = false ∧ s.held = []
  step s e := some (s.after (s.ran server e).2)

def Drains (server : Server ε) (s : Installation ε) : Host × Invocation → Prop
  | (host, .rollback version restorePoint) =>
    let asked := (s.ran server (host, .rollback version restorePoint)).2.asked
    s.row = true → (statusRead asked).any (·.maintenance.isSome) = true → ¬Undrained asked
  | _ => True

def Names (s : Installation ε) : Host × Invocation → Prop
  | (_, .rollback _ restorePoint) =>
    s.row = true → ∀ label, s.files.inProgress.bind (·.restorePoint) = some label → restorePoint = some label
  | _ => True

/-- While the maintenance is on there is a record of an operation that holds it. -/
structure Recorded (s : Installation ε) : Prop where
  idle : s.files.inProgress = none → s.row = false
  bare : s.files.current = none → s.row = false
  installing : ∀ record, s.files.inProgress = some record → record.operation = some .install → s.row = false

/-- What a run comes to. -/
structure Kept (s : Installation ε) (code : ExitCode) (w : World ε) : Prop where
  recorded : Recorded (s.after w)
  aborted : code = .aborted → maintenanceRow s.row w.asked = false

theorem recorded_of_off {s : Installation ε} (off : s.row = false) : Recorded s :=
  ⟨fun _ => off, fun _ => off, fun _ _ _ => off⟩

variable {s : Installation ε} {code : ExitCode}

theorem Recorded.kept (recorded : Recorded s) (files : w.files = s.files) (row : maintenanceRow s.row w.asked = s.row)
    (notAborted : code ≠ .aborted) : Kept s code w where
  recorded :=
    ⟨fun idle => row.trans (recorded.idle (files ▸ idle)), fun bare => row.trans (recorded.bare (files ▸ bare)),
      fun record isRecord installing => row.trans (recorded.installing record (files ▸ isRecord) installing)⟩
  aborted wrong := absurd wrong notAborted

theorem Refuses.kept (recorded : Recorded s) (refuses : Refuses s.files code w) : Kept s code w :=
  recorded.kept refuses.2.1 (untouched_of_reads refuses.2.2).row (by rw [refuses.1]; decide)

theorem Leaves.kept {operation : OperationName} {point : Option String → Prop} (notInstall : operation ≠ .install)
    (leaves : Leaves operation point code w) : Kept s code w := by
  obtain ⟨current, -, ⟨idle, ended⟩ | ⟨notAborted, record, isRecord, named, -⟩⟩ := leaves
  · exact ⟨recorded_of_off (ended _), fun _ => ended _⟩
  · refine ⟨⟨fun wrong => ?_, fun wrong => ?_, fun other isOther installing => ?_⟩, fun wrong => absurd wrong notAborted⟩
    · exact absurd (isRecord.symm.trans wrong) (Option.some_ne_none _)
    · rw [show w.files.current = none from wrong] at current
      cases current
    · cases Option.some.inj (isRecord.symm.trans isOther)
      exact absurd (Option.some.inj (named.symm.trans installing)) notInstall

theorem Untouched.kept (untouched : Untouched w.asked) (off : s.row = false) : Kept s code w := by
  have row : maintenanceRow s.row w.asked = false := untouched.row.trans off
  exact ⟨recorded_of_off row, fun _ => row⟩

theorem ran_spec {x : Tool ε ExitCode} {P : ExitCode → World ε → Prop}
    (ensures : Ensures x P (fun error w' => P error.code w') w) : P (exitCode (x.execute w).1) (x.execute w).2 := by
  rcases ran : x.execute w with ⟨result, w'⟩
  cases result with
  | ok code => exact ensures.returned_of ran
  | error error => exact ensures.raised_of ran

theorem ran_of_leaves {x : Tool ε ExitCode} {files : Files} {P : ExitCode → World ε → Prop}
    (ensures : Ensures x (fun code w' => Refuses files code w' ∨ P code w') (fun error w' => Refuses files error.code w') w) :
    Refuses files (exitCode (x.execute w).1) (x.execute w).2 ∨ P (exitCode (x.execute w).1) (x.execute w).2 :=
  ran_spec (ensures.mono (fun _ _ held => held) fun _ _ refuses => .inl refuses)

theorem rollback_cases {version restorePoint : Option String}
    (drains : Drains server s (host, .rollback version restorePoint)) :
    let ran := s.ran server (host, .rollback version restorePoint)
    Refuses s.files (exitCode ran.1) ran.2 ∨ Leaves .rollback (· = restorePoint) (exitCode ran.1) ran.2 ∨
      s.row = false ∧ Stranded ran.2 := by
  rcases ran_of_leaves leaves_rollback with refuses | ⟨-, leaves | ⟨-, stranded⟩⟩
  · exact .inl refuses
  · exact .inr (.inl leaves)
  · refine .inr (.inr ⟨Bool.eq_false_iff.mpr fun row => ?_, stranded⟩)
    exact drains row stranded.joined stranded.undrained

theorem Recorded.off_of_idle (recorded : Recorded s)
    (free : s.files.current = none ∨ ∃ record, s.files.inProgress = some record ∧ record.operation = some .install) :
    s.row = false := by
  rcases free with bare | ⟨record, isRecord, installing⟩
  · exact recorded.bare bare
  · exact recorded.installing record isRecord installing

theorem kept_of_run {e : Host × Invocation} (recorded : Recorded s) (drains : Drains server s e) :
    Kept s (exitCode (s.ran server e).1) (s.ran server e).2 := by
  obtain ⟨host, invocation⟩ := e
  cases invocation with
  | install version =>
    rcases ran_of_leaves leaves_install with refuses | ⟨untouched, free⟩
    · exact refuses.kept recorded
    · exact untouched.kept (recorded.off_of_idle free)
  | update version stopNow =>
    rcases ran_of_leaves leaves_update with refuses | ⟨-, leaves⟩
    · exact refuses.kept recorded
    · exact leaves.kept (by decide)
  | rollback version restorePoint =>
    rcases rollback_cases drains with refuses | leaves | ⟨off, stranded⟩
    · exact refuses.kept recorded
    · exact leaves.kept (by decide)
    · have row := (stranded.untouched s.row).trans off
      exact ⟨recorded_of_off row, fun _ => row⟩
  | endMaintenance =>
    rcases ran_of_leaves (leaves_endMaintenance.mono (fun _ _ held => .inr held) fun _ _ refuses => refuses) with
      refuses | ⟨-, ⟨isCode, -, -, ended⟩ | ⟨isCode, files, same⟩⟩
    · exact refuses.kept recorded
    · exact ⟨recorded_of_off (ended _), fun _ => ended _⟩
    · exact recorded.kept files (same _) fun wrong => absurd (isCode.symm.trans wrong) (by decide)
  | prune =>
    obtain ⟨isCode, files, outside⟩ := ran_spec (leaves_prune.mono (fun _ _ held => held) fun _ _ wrong => wrong.elim)
    have row : maintenanceRow s.row (s.ran server (host, .prune)).2.asked = s.row :=
      maintenanceRow_of_none fun a mem => (outside a mem).1
    exact recorded.kept files row fun wrong => absurd (isCode.symm.trans wrong) (by decide)

/-! ### The restore points that are held -/

def HeldInRecord (s : Installation ε) : Prop :=
  ∀ label ∈ s.held, s.row = true ∧ s.files.inProgress.bind (·.restorePoint) = some label

/-- A run neither forgets nor deletes a held restore point before it ended the maintenance. -/
structure Holds (s : Installation ε) (w : World ε) : Prop where
  named : maintenanceRow s.row w.asked = true → ∀ label ∈ s.held,
    w.files.inProgress.bind (·.restorePoint) = some label
  spared : ∀ before a later label, w.asked = before ++ a :: later → a.question.deleted = some label →
    label ∈ s.held → maintenanceRow s.row before = false

theorem Holds.heldInRecord (holds : Holds s w) : HeldInRecord (s.after w) := by
  intro label mem
  unfold Installation.after at mem ⊢
  dsimp only at mem ⊢
  split_ifs at mem with row
  · refine ⟨row, ?_⟩
    rcases mem_append.mp mem with mem | mem
    · exact holds.named row label mem
    · exact Option.mem_toList.mp mem
  · exact absurd mem not_mem_nil

theorem holds_of_none (none : s.held = []) : Holds s w :=
  ⟨fun _ label mem => absurd (none ▸ mem) not_mem_nil,
    fun _ _ _ label _ _ mem => absurd (none ▸ mem) not_mem_nil⟩

theorem HeldInRecord.none_of_off (held : HeldInRecord s) (off : s.row = false) : s.held = [] :=
  eq_nil_iff_forall_not_mem.mpr fun label mem => Bool.noConfusion (off.symm.trans (held label mem).1)

theorem HeldInRecord.holds (held : HeldInRecord s) (files : w.files = s.files)
    (kept : ∀ a ∈ w.asked, ∀ label, a.question.deleted = some label →
      some label ≠ s.files.inProgress.bind (·.restorePoint)) : Holds s w where
  named _ label mem := files ▸ (held label mem).2
  spared before a later label split isDelete mem :=
    absurd (held label mem).2.symm (kept a (split ▸ mem_append_right _ (.head _)) label isDelete)

theorem Refuses.holds (held : HeldInRecord s) (refuses : Refuses s.files code w) : Holds s w :=
  held.holds refuses.2.1 fun a mem label isDelete =>
    absurd ((untouched_of_reads refuses.2.2 a mem).2.symm.trans isDelete) (Option.some_ne_none _).symm

theorem holds_of_run {e : Host × Invocation} (recorded : Recorded s) (held : HeldInRecord s)
    (drains : Drains server s e) (names : Names s e) : Holds s (s.ran server e).2 := by
  obtain ⟨host, invocation⟩ := e
  cases invocation with
  | install version =>
    rcases ran_of_leaves leaves_install with refuses | ⟨-, free⟩
    · exact refuses.holds held
    · exact holds_of_none (held.none_of_off (recorded.off_of_idle free))
  | update version stopNow =>
    rcases ran_of_leaves leaves_update with refuses | ⟨idle, -⟩
    · exact refuses.holds held
    · exact holds_of_none (held.none_of_off (recorded.idle idle))
  | rollback version restorePoint =>
    rcases rollback_cases drains with refuses | ⟨-, spares, ends⟩ | ⟨off, -⟩
    · exact refuses.holds held
    · refine ⟨fun row label mem => ?_, fun before a later label split isDelete mem =>
        spares before a later split (Option.isSome_iff_exists.mpr ⟨_, isDelete⟩) _⟩
      rcases ends with ⟨-, ended⟩ | ⟨-, record, isRecord, -, isPoint⟩
      · exact absurd ((ended _).symm.trans row) Bool.false_ne_true
      · obtain ⟨isOn, isHeld⟩ := held label mem
        rw [isRecord]
        exact isPoint.trans (names isOn label isHeld)
    · exact holds_of_none (held.none_of_off off)
  | endMaintenance =>
    rcases ran_of_leaves (leaves_endMaintenance.mono (fun _ _ held => .inr held) fun _ _ refuses => refuses) with
      refuses | ⟨kept, ends⟩
    · exact refuses.holds held
    · refine ⟨fun row label mem => ?_, fun before a later label split isDelete mem => ?_⟩
      · rcases ends with ⟨-, -, -, ended⟩ | ⟨-, files, -⟩
        · exact absurd ((ended _).symm.trans row) Bool.false_ne_true
        · exact files ▸ (held label mem).2
      · exact absurd ((kept a (split ▸ mem_append_right _ (.head _))).symm.trans isDelete)
          (Option.some_ne_none _).symm
  | prune =>
    obtain ⟨-, files, outside⟩ := ran_spec (leaves_prune.mono (fun _ _ held => held) fun _ _ wrong => wrong.elim)
    exact held.holds files fun a mem => (outside a mem).2

/-! ### The result -/

theorem recorded_of_reachable (reach : (histories server).ReachableBy (Drains server) s) : Recorded s := by
  refine Machine.ReachableBy.invariant (fun s init => ?_) (fun s e s' _ recorded drains taken => ?_) reach
  · exact recorded_of_off init.2.1
  cases taken
  exact (kept_of_run recorded drains).recorded

theorem held_of_reachable
    (reach : (histories server).ReachableBy (fun s e => Drains server s e ∧ Names s e) s) :
    Recorded s ∧ HeldInRecord s := by
  refine Machine.ReachableBy.invariant (P := fun s => Recorded s ∧ HeldInRecord s) (fun s init => ?_)
    (fun s e s' _ holds fits taken => ?_) reach
  · exact ⟨recorded_of_off init.2.1, fun _ mem => absurd (init.2.2 ▸ mem) not_mem_nil⟩
  · cases taken
    exact ⟨(kept_of_run holds.1 fits.1).recorded, (holds_of_run holds.1 holds.2 fits.1 fits.2).heldInRecord⟩

/-- The record is there as long as the maintenance is: without a record the row is off, an aborted run leaves it off,
and while it is on no update begins and no restore point is deleted that a run of the maintenance recorded. -/
theorem record_kept :
    (∀ s, (histories server).ReachableBy (Drains server) s → (s.files.inProgress = none → s.row = false) ∧
      (s.row = true → ∀ host version stopNow, Refuses s.files
        (exitCode (s.ran server (host, .update version stopNow)).1) (s.ran server (host, .update version stopNow)).2) ∧
      ∀ e, Drains server s e → exitCode (s.ran server e).1 = .aborted →
        maintenanceRow s.row (s.ran server e).2.asked = false) ∧
    ∀ s, (histories server).ReachableBy (fun s e => Drains server s e ∧ Names s e) s →
      ∀ e, Drains server s e → Names s e → ∀ before a later label,
        (s.ran server e).2.asked = before ++ a :: later → a.question.deleted = some label → label ∈ s.held →
          maintenanceRow s.row before = false := by
  refine ⟨fun s reach => ?_, fun s reach e drains names => ?_⟩
  · have recorded := recorded_of_reachable reach
    refine ⟨recorded.idle, fun row host version stopNow => ?_, fun e drains => (kept_of_run recorded drains).aborted⟩
    rcases ran_of_leaves leaves_update with refuses | ⟨idle, -⟩
    · exact refuses
    · exact absurd ((recorded.idle idle).symm.trans row) Bool.false_ne_true
  · obtain ⟨recorded, held⟩ := held_of_reachable reach
    exact (holds_of_run recorded held drains names).spared

/-! ### A rollback that is stranded -/

structure StubbornState where
  maintained : Bool
  drains : ℕ

/-- The second release neither starts nor stops, and only the first drain succeeds; every status is true. -/
def stubborn : Server StubbornState where
  reply s
    | .command (.backend _ (.maintenanceBegin _ _)) => ((0 : ℤ), { s with maintained := true })
    | .command (.backend _ .maintenanceEnd) => ((0 : ℤ), { s with maintained := false })
    | .command (.backend _ (.drain _)) => (if s.drains = 0 then (0 : ℤ) else 1, { s with drains := s.drains + 1 })
    | .command (.configured _ _ (some release) _) => (if release.version = "v2" then (1 : ℤ) else 0, s)
    | .command _ => ((0 : ℤ), s)
    | .unchanged _ => (true, s)
    | .freeBytes _ => ((0 : ℕ), s)
    | .precheck _ => (some ⟨[], some ⟨some "a", none⟩⟩, s)
    | .status _ => (some ⟨some "a", if s.maintained then some "update" else none⟩, s)
    | .rounds => ((0 : ℕ), s)
    | .stamp => ("20260101000000", s)
    | .now => ((0 : ℤ), s)
    | .restorePoint _ => (.error .notFound, s)
    | .restorePoints => ([], s)
    | .deletePoint _ => ((), s)

/-- A release without a migration of its own. -/
def patchRelease : Release := { firstRelease with version := "v2" }

def patchedHost : Host := { sampleHost with built := [firstRelease, patchRelease] }

def bareServer : Installation StubbornState := ⟨⟨none, [], none⟩, ⟨false, 0⟩, false, []⟩

def Installation.next (s : Installation StubbornState) (invocation : Invocation) : Installation StubbornState :=
  s.after (s.ran stubborn (patchedHost, invocation)).2

/-- The first release is installed, and an update to the second failed: it is left in maintenance. -/
def failedUpdate : Installation StubbornState := (bareServer.next (.install "v1")).next (.update "v2" false)

theorem failedUpdate_reachable :
    (histories stubborn).ReachableBy (fun s e => Drains stubborn s e ∧ Names s e) failedUpdate :=
  .next (.next (.start ⟨rfl, rfl, rfl⟩) (e := (patchedHost, .install "v1")) ⟨trivial, trivial⟩ rfl)
    (e := (patchedHost, .update "v2" false)) ⟨trivial, trivial⟩ rfl

theorem stranded_rollback :
    (histories stubborn).Reachable failedUpdate ∧
      exitCode (failedUpdate.ran stubborn (patchedHost, .rollback none none)).1 = .aborted ∧
      (failedUpdate.next (.rollback none none)).files.inProgress = none ∧
      (failedUpdate.next (.rollback none none)).row = true :=
  ⟨(failedUpdate_reachable).reachable, by decide, by decide, by decide⟩

theorem record_kept_sample :
    failedUpdate.row = true ∧ Refuses failedUpdate.files
      (exitCode (failedUpdate.ran stubborn (patchedHost, .update "v1" false)).1)
      (failedUpdate.ran stubborn (patchedHost, .update "v1" false)).2 := by
  have row : failedUpdate.row = true := by decide
  have drains : (histories stubborn).ReachableBy (Drains stubborn) failedUpdate :=
    .next (.next (.start ⟨rfl, rfl, rfl⟩) (e := (patchedHost, .install "v1")) trivial rfl)
      (e := (patchedHost, .update "v2" false)) trivial rfl
  exact ⟨row, (record_kept.1 failedUpdate drains).2.1 row patchedHost "v1" false⟩

end PawBackend.Deploy
