/-
**The record of an unfinished operation** (`state.json` of `deploy/release/paw_release.py`).

Every run leaves the record set, or has ended the maintenance: `Leaves` says so for an update and for a rollback, with
the one exception of a rollback that joined a maintenance and could not drain.
-/

import PawBackend.Deploy.Updates
import PawBackend.Lib.Machine

namespace PawBackend.Deploy

open Lib List

variable {ε : Type} {server : Server ε} {host : Host} {w w' : World ε} {question : Question} {release : Release}

/-! ### What every operation leaves -/

def Spares (asked : List (Asked ε)) : Prop := Guarded (fun before a => a.question.deleted.isSome → Ended before) asked

structure Standing (operation : OperationName) (point : Option String → Prop) (w : World ε) : Prop where
  current : w.files.current.isSome
  record : ∃ record, w.files.inProgress = some record ∧ record.operation = some operation ∧ point record.restorePoint
  kept : ∀ a ∈ w.asked, a.question.deleted = none

def Leaves (operation : OperationName) (point : Option String → Prop) (code : ExitCode) (w : World ε) : Prop :=
  w.files.current.isSome ∧ Spares w.asked ∧ (w.files.inProgress = none ∧ Ended w.asked ∨ code ≠ .aborted ∧
    ∃ record, w.files.inProgress = some record ∧ record.operation = some operation ∧ point record.restorePoint)

variable {operation : OperationName} {point : Option String → Prop} {reason name : String} {known : List String}

namespace Standing

theorem spares (standing : Standing operation point w) : Spares w.asked := by
  intro before a after split deletes
  have mem : a ∈ w.asked := split ▸ mem_append_right _ (.head _)
  rw [standing.kept a mem] at deletes
  cases deletes

theorem asking (standing : Standing operation point w) (kept : question.deleted = none) :
    Standing operation point (w.asking server question) where
  current := standing.current
  record := standing.record
  kept a mem := by
    rcases mem_append.mp mem with mem | mem
    · exact standing.kept a mem
    · cases mem_singleton.mp mem
      exact kept

theorem asked {fits : Question → Prop} (standing : Standing operation point w)
    (kept : ∀ question, fits question → question.deleted = none) (asks : Asks server fits w w') :
    Standing operation point w' :=
  asks.keeps (fun _ _ kind standing => standing.asking (kept _ kind)) standing

theorem ran {commands : List Command} {code : ℤ} (standing : Standing operation point w)
    (ran : RanAll server commands w code w') : Standing operation point w' :=
  standing.asked (fun _ ⟨_, _, same⟩ => same ▸ rfl) ran.asks

theorem staged (standing : Standing operation point w) (stage : String) : Standing operation point (w.staged stage) := by
  obtain ⟨record, isRecord, named, isPoint⟩ := standing.record
  refine ⟨standing.current, ⟨_, rfl, ?_⟩, standing.kept⟩
  show (w.files.inProgress.getD .empty).operation = _ ∧ point (w.files.inProgress.getD .empty).restorePoint
  rw [isRecord]
  exact ⟨named, isPoint⟩

theorem switched (standing : Standing operation point w) (version : String) :
    Standing operation point (w.withFiles { w.files with current := some version }) :=
  ⟨rfl, standing.record, standing.kept⟩

end Standing

theorem ensures_maintenance (standing : Standing operation point w) :
    Ensures (maintenanceMode server host name reason) (Leaves operation point) (fun _ _ => False) w := by
  refine Ensures.mono ensures_maintenanceMode (fun code w' ⟨isCode, asks, _⟩ => ?_) fun _ _ wrong => wrong
  have left := standing.asked (fun _ quiet => quiet.2.2.2.2.2.2) asks
  exact ⟨left.current, left.spares, .inr ⟨by rw [isCode]; decide, left.record⟩⟩

variable {rest : Bool → Tool ε ExitCode} {returned : ExitCode → World ε → Prop} {files : Files} {s : ε}
  {version : String} {label : Option String}

theorem Standing.stage {x : Tool ε ℤ} {stage : String}

    (ran : Ensures x (fun _ => Standing operation point) (fun _ _ => False) w)
    (next : ∀ done w', Standing operation point w' → Ensures (rest done) returned (fun _ _ => False) w') :
    Ensures (x >>= fun code => step stage code >>= rest) returned (fun _ _ => False) w :=
  ensures_stage ran (fun w' standing => next true _ (standing.staged _))
    fun _ w' _ standing => next false _ (standing.staged _)

theorem Standing.onlyStage {x : Tool ε ℤ} {stage : String} {condition : Bool} (standing : Standing operation point w)
    (ran : Ensures x (fun _ => Standing operation point) (fun _ _ => False) w)
    (next : ∀ done w', Standing operation point w' → Ensures (rest done) returned (fun _ _ => False) w') :
    Ensures (onlyIf condition (x >>= fun code => step stage code) >>= rest) returned (fun _ _ => False) w :=
  ensures_onlyStage (fun _ => ran) (fun _ w' standing => next true _ (standing.staged _))
    (fun _ _ w' _ standing => next false _ (standing.staged _)) fun _ => next true _ standing

theorem Standing.firstFailure {commands : List Command} (standing : Standing operation point w) :
    Ensures (firstFailure server commands) (fun _ => Standing operation point) (fun _ _ => False) w :=
  Ensures.mono ensures_firstFailure (fun _ _ ran => standing.ran ran) fun _ _ wrong => wrong

theorem Standing.backend {command : BackendCommand} (standing : Standing operation point w) :
    Ensures (backend server release command) (fun _ => Standing operation point) (fun _ _ => False) w :=
  standing.asking rfl

theorem Standing.healthy {revision : Option String} (standing : Standing operation point w)
    (next : ∀ done w', Standing operation point w' → Ensures (rest done) returned (fun _ _ => False) w') :
    Ensures (healthy server host release revision >>= rest) returned (fun _ _ => False) w :=
  Ensures.bind ensures_healthy fun done w' ⟨asks, _⟩ => next done w' (standing.asked (fun _ quiet => quiet.2.2.2.2.2.2) asks)

/-- What the end of the maintenance leaves. -/
structure Resumed (w : World ε) : Prop where
  current : w.files.current.isSome
  spares : Spares w.asked
  idle : w.files.inProgress = none
  ended : Ended w.asked

theorem Resumed.asking (resumed : Resumed w) (outside : question.maintenance = none) :
    Resumed (w.asking server question) where
  current := resumed.current
  spares := resumed.spares.concat fun _ => resumed.ended
  idle := resumed.idle
  ended row := maintenanceRow_append.trans ((rowAfter_of_none outside).trans (resumed.ended row))

theorem Resumed.pruned (resumed : Resumed w) :
    Ensures (pruneRestorePoints server host >>= fun _ => pure .ok) (Leaves operation point) (fun _ _ => False) w := by
  refine Ensures.bind ensures_pruneRestorePoints fun _ w' asks => ensures_pure.mpr ?_
  have after : Resumed w' := asks.keeps (fun _ _ prunes resumed => by
    rcases prunes with quiet | ⟨label, rfl, -⟩
    · exact resumed.asking quiet.2.2.2.1
    · exact resumed.asking rfl) resumed
  exact ⟨after.current, after.spares, .inl ⟨after.idle, after.ended⟩⟩

theorem Standing.resume {rest : Tool ε ExitCode} (standing : Standing operation point w)
    (next : ∀ w' : World ε, Resumed w' → Ensures rest (Leaves operation point) (fun _ _ => False) w') :
    Ensures (resume server host name release rest) (Leaves operation point) (fun _ _ => False) w := by
  refine ensures_stage ensures_backend (fun w' ⟨isNext, done⟩ => ?_) fun code w' _ ⟨isNext, _⟩ => ?_
  · subst isNext
    have asked : Standing operation point (w.asking server (.command (.backend release .maintenanceEnd))) :=
      standing.asking rfl
    exact ensures_bind.mpr (ensures_changeFiles.mpr (next _ ⟨asked.current, asked.spares, rfl, fun row =>
      maintenanceRow_ended (decide_eq_true done) rfl⟩))
  · subst isNext
    exact ensures_maintenance ((standing.asking rfl).staged _)

theorem Standing.resumeWith {code : ExitCode} (standing : Standing operation point w) :
    Ensures (Deploy.resume server host name release (pure code)) (Leaves operation point) (fun _ _ => False) w :=
  standing.resume fun _ resumed => ensures_pure.mpr
    ⟨resumed.current, resumed.spares, .inl ⟨resumed.idle, resumed.ended⟩⟩

/-! ### Update -/

namespace Update

variable {u : Update} {running migrated : Bool}

theorem leaves_abort (standing : Standing .update (fun _ => True) w) :
    Ensures (u.abort server host running) (Leaves .update fun _ => True) (fun _ _ => False) w :=
  standing.onlyStage standing.firstFailure fun restarted w' standing => by
    cases restarted with
    | false => exact ensures_maintenance standing
    | true => exact standing.resumeWith

theorem leaves_rollbackStart (standing : Standing .update (fun _ => True) w) :
    Ensures (u.rollbackStart server host) (Leaves .update fun _ => True) (fun _ _ => False) w :=
  Standing.stage standing.firstFailure fun started w' standing => by
    cases started with
    | false => exact ensures_maintenance standing
    | true =>
      refine standing.healthy fun isHealthy w'' standing => ?_
      cases isHealthy with
      | false => exact ensures_maintenance standing
      | true => exact standing.resumeWith

theorem leaves_rollback (standing : Standing .update (fun _ => True) w) :
    Ensures (u.rollback server host migrated) (Leaves .update fun _ => True) (fun _ _ => False) w := by
  refine Standing.stage standing.firstFailure fun stopped w₁ standing => ?_
  cases stopped with
  | false => exact ensures_maintenance standing
  | true =>
    refine standing.onlyStage standing.backend fun restored w₂ standing => ?_
    cases restored with
    | false => exact ensures_maintenance standing
    | true =>
      have switched := standing.switched u.current.version
      refine ensures_bind.mpr (ensures_changeFiles.mpr (switched.onlyStage switched.firstFailure
        fun erased w₃ standing => ?_))
      cases erased with
      | false => exact ensures_maintenance standing
      | true => exact leaves_rollbackStart standing

theorem leaves_switch (standing : Standing .update (fun _ => True) w) :
    Ensures (u.switch server host migrated) (Leaves .update fun _ => True) (fun _ _ => False) w := by
  refine ensures_bind.mpr (ensures_changeFiles.mpr (Standing.stage (standing.switched u.target.version).firstFailure
    fun started w₁ standing => ?_))
  cases started with
  | false => exact leaves_rollback standing
  | true =>
    refine standing.healthy fun isHealthy w₂ standing => ?_
    cases isHealthy with
    | false => exact leaves_rollback standing
    | true =>
      have marked : Standing .update (fun _ => True) (w₂.withFiles (w₂.files.markedKnownGood u.target.version)) :=
        ⟨standing.current, standing.record, standing.kept⟩
      exact ensures_bind.mpr (ensures_changeFiles.mpr (marked.resume fun _ resumed => resumed.pruned))

theorem leaves_migrate (standing : Standing .update (fun _ => True) w) :
    Ensures (u.migrate server host) (Leaves .update fun _ => True) (fun _ _ => False) w := by
  refine Standing.stage standing.backend fun created w₁ standing => ?_
  cases created with
  | false => exact leaves_abort standing
  | true =>
    refine Standing.stage standing.backend fun verified w₂ standing => ?_
    cases verified with
    | false => exact leaves_abort standing
    | true =>
      obtain ⟨record, isRecord, named, -⟩ := standing.record
      have noted : Standing .update (fun _ => True) (w₂.withFiles { w₂.files with
          inProgress := some { w₂.files.inProgress.getD .empty with restorePoint := some u.label } }) :=
        ⟨standing.current, ⟨_, rfl, by rw [isRecord]; exact named, trivial⟩, standing.kept⟩
      refine ensures_bind.mpr (ensures_changeFiles.mpr (Standing.stage noted.backend fun done w₃ standing => ?_))
      cases done with
      | false => exact leaves_rollback standing
      | true => exact leaves_switch standing

theorem leaves_stopAndSwitch (standing : Standing .update (fun _ => True) w) :
    Ensures (u.stopAndSwitch server host) (Leaves .update fun _ => True) (fun _ _ => False) w := by
  have backUp : Ensures (u.backUp server host) (fun _ => Standing .update fun _ => True) (fun _ _ => False) w :=
    Ensures.mono ensures_backUp (fun _ _ ⟨asks, _⟩ => standing.asked (fun _ quiet => quiet.2.2.2.2.2.2) asks)
      fun _ _ wrong => wrong
  refine Standing.stage backUp fun backedUp w₁ standing => ?_
  cases backedUp with
  | false => exact leaves_abort standing
  | true =>
    refine Standing.stage standing.firstFailure fun stopped w₂ standing => ?_
    cases stopped with
    | false => exact leaves_abort standing
    | true =>
      cases migration : u.plan.migration with
      | true => exact leaves_migrate standing
      | false => exact leaves_switch standing

theorem leaves_run (current : w.files.current.isSome) (kept : ∀ a ∈ w.asked, a.question.deleted = none) :
    Ensures (u.run server host) (Leaves .update fun _ => True) (fun _ _ => False) w := by
  have standing : Standing .update (fun _ => True) (w.withFiles { w.files with inProgress := some u.record }) :=
    ⟨current, ⟨_, rfl, rfl, trivial⟩, kept⟩
  refine ensures_bind.mpr (ensures_changeFiles.mpr (Standing.stage standing.backend fun began w₁ standing => ?_))
  cases began with
  | false => exact leaves_abort standing
  | true =>
    refine Standing.stage standing.backend fun drained w₂ standing => ?_
    cases drained with
    | true => exact leaves_stopAndSwitch standing
    | false =>
      cases stopNow : u.stopNow with
      | true => exact leaves_stopAndSwitch standing
      | false => exact leaves_abort standing

end Update

def Refuses (files : Files) (code : ExitCode) (w : World ε) : Prop :=
  code = .refused ∧ w.files = files ∧ ∀ a ∈ w.asked, a.question.Reads

theorem refuses_of_asks {code : ExitCode} (asks : Asks server Question.Reads ⟨files, s, []⟩ w)
    (isCode : code = .refused) : Refuses files code w := by
  obtain ⟨more, isMore, all⟩ := asks.asked
  rw [nil_append] at isMore
  exact ⟨isCode, asks.files, isMore ▸ all⟩

theorem leaves_update {stopNow : Bool} :
    Ensures (update server host version stopNow)
      (fun code w' => Refuses files code w' ∨ files.inProgress = none ∧ Leaves .update (fun _ => True) code w')
      (fun error w' => Refuses files error.code w') ⟨files, s, []⟩ := by
  refine ensures_update_of (fun w' asks => ⟨.inl (refuses_of_asks asks rfl), fun _ isCode => refuses_of_asks asks isCode⟩)
    fun u w' asks ok _ planned _ => ?_
  have reads := (refuses_of_asks asks (Eq.refl ExitCode.refused)).2.2
  refine (Update.leaves_run ?_ fun a mem => (reads a mem).quiet.2.2.2.2.2.2).mono
    (fun code w' leaves => .inr ⟨(planned.passed ok).1, leaves⟩) fun _ _ wrong => wrong.elim
  rw [asks.files]
  exact Option.isSome_iff_exists.mpr ⟨_, planned.isCurrent⟩

/-! ### Rollback -/

def Question.drains : Question → Bool
  | .command (.backend _ (.drain _)) => true
  | _ => false

def Undrained (asked : List (Asked ε)) : Prop := ∃ a ∈ asked, a.question.drains = true ∧ a.ok = false

def Asked.status (a : Asked ε) : Option Status :=
  match a with
  | ⟨_, .status _, answer⟩ => answer
  | _ => none

def statusRead (asked : List (Asked ε)) : Option Status := asked.findSome? Asked.status

/-- A rollback joined a maintenance it could not drain: the record is gone, and the row is as it was. -/
structure Stranded (w : World ε) : Prop where
  current : w.files.current.isSome
  spares : Spares w.asked
  idle : w.files.inProgress = none
  joined : (statusRead w.asked).any (·.maintenance.isSome) = true
  undrained : Undrained w.asked
  untouched : ∀ row, maintenanceRow row w.asked = row

namespace Rollback

variable {r : Rollback}

theorem leaves_switch (standing : Standing .rollback (· = r.restorePoint) w) :
    Ensures (r.switch server host) (Leaves .rollback (· = r.restorePoint)) (fun _ _ => False) w := by
  have switched := standing.switched r.target.version
  refine ensures_bind.mpr (ensures_changeFiles.mpr (switched.onlyStage switched.firstFailure
    fun erased w₁ standing => ?_))
  cases erased with
  | false => exact ensures_maintenance standing
  | true =>
    refine Standing.stage standing.firstFailure fun started w₂ standing => ?_
    cases started with
    | false => exact ensures_maintenance standing
    | true =>
      refine standing.healthy fun isHealthy w₃ standing => ?_
      cases isHealthy with
      | false => exact ensures_maintenance standing
      | true => exact standing.resume fun _ resumed => resumed.pruned

theorem leaves_restore (standing : Standing .rollback (· = r.restorePoint) w) :
    Ensures (r.restore server host) (Leaves .rollback (· = r.restorePoint)) (fun _ _ => False) w := by
  refine Standing.stage standing.firstFailure fun stopped w₁ standing => ?_
  cases stopped with
  | false => exact ensures_maintenance standing
  | true =>
    refine standing.onlyStage standing.backend fun restored w₂ standing => ?_
    cases restored with
    | false => exact ensures_maintenance standing
    | true => exact leaves_switch standing

theorem leaves_began (standing : Standing .rollback (· = r.restorePoint) w) :
    Ensures (r.stopAndSwitch server host true) (Leaves .rollback (· = r.restorePoint)) (fun _ _ => False) w := by
  refine Standing.stage standing.backend fun drained w₁ standing => ?_
  cases drained with
  | false => exact standing.resumeWith
  | true => exact leaves_restore standing

theorem statusRead_append {past more : List (Asked ε)} {status : Status} (read : statusRead past = some status) :
    statusRead (past ++ more) = some status := by
  unfold statusRead at read ⊢
  rw [findSome?_append, read]
  rfl

theorem leaves_joined (standing : Standing .rollback (· = r.restorePoint) w) (joined : r.status.maintenance.isSome)
    (read : statusRead w.asked = some r.status) (quiet : ∀ a ∈ w.asked, a.question.maintenance = none) :
    Ensures (r.stopAndSwitch server host false)
      (fun code w' => Leaves .rollback (· = r.restorePoint) code w' ∨ code = .aborted ∧ Stranded w')
      (fun _ _ => False) w := by
  refine ensures_stage ensures_backend (fun w₁ ⟨isNext, _⟩ => ?_) fun code w₁ bad ⟨isNext, isCode⟩ => ?_
  · subst isNext
    exact (leaves_restore ((standing.asking rfl).staged _)).mono (fun _ _ leaves => .inl leaves) fun _ _ wrong => wrong
  · subst isNext
    have asked : Standing .rollback (· = r.restorePoint)
        (w.asking server (.command (.backend r.tools (.drain host.config.drainTimeoutSeconds)))) := standing.asking rfl
    refine ensures_bind.mpr (ensures_changeFiles.mpr (ensures_pure.mpr (.inr ⟨rfl, asked.current, asked.spares, rfl,
      ?_, ⟨_, mem_append_right _ (mem_singleton_self _), rfl, decide_eq_false (isCode ▸ bad)⟩, fun row => ?_⟩)))
    · show (statusRead (w.asked ++ _)).any _ = true
      rw [statusRead_append read]
      exact joined
    · refine maintenanceRow_of_none fun a mem => ?_
      rcases mem_append.mp mem with mem | mem
      · exact quiet a mem
      · cases mem_singleton.mp mem
        rfl

theorem leaves_run (current : w.files.current.isSome) (reads : ∀ a ∈ w.asked, a.question.Reads)
    (read : statusRead w.asked = some r.status) : Ensures (r.run server host)
      (fun code w' => Leaves .rollback (· = r.restorePoint) code w' ∨ code = .aborted ∧ Stranded w')
      (fun _ _ => False) w := by
  have standing : Standing .rollback (· = r.restorePoint) (w.withFiles { w.files with inProgress := some r.record }) :=
    ⟨current, ⟨_, rfl, rfl, rfl⟩, fun a mem => (reads a mem).quiet.2.2.2.2.2.2⟩
  refine ensures_bind.mpr (ensures_changeFiles.mpr ?_)
  refine ensures_onlyStage (fun _ => standing.backend) (fun began w' standing => ?_) (fun _ code w' _ standing => ?_)
    fun joined => ?_
  · show Ensures (r.stopAndSwitch server host r.status.maintenance.isNone) _ _ _
    rw [began]
    exact (leaves_began (standing.staged _)).mono (fun _ _ leaves => .inl leaves) fun _ _ wrong => wrong
  · have aborts : Ensures (r.abort server host true) (Leaves .rollback (· = r.restorePoint)) (fun _ _ => False)
        (w'.staged "maintenance") := (standing.staged _).resumeWith
    exact aborts.mono (fun _ _ leaves => .inl leaves) fun _ _ wrong => wrong
  · show Ensures (r.stopAndSwitch server host r.status.maintenance.isNone) _ _ _
    rw [joined]
    exact leaves_joined standing (by simpa using joined) read fun a mem => (reads a mem).quiet.2.2.2.1

end Rollback

theorem ensures_readRestorePoint {label : String} : Ensures (readRestorePoint server label)
    (fun _ => Asks server Question.Reads w) (fun error w' => Asks server Question.Reads w w' ∧ error.code = .refused) w := by
  have asks : Asks server Question.Reads w (w.asking server (.restorePoint label)) := .one trivial
  refine ensures_bind.mpr (ensures_refuseIf (fun _ => ensures_bind.mpr (ensures_ask.mpr ?_)) fun _ => ⟨.refl w, rfl⟩)
  split
  · exact ensures_pure.mpr asks
  · exact ensures_throw.mpr ⟨asks, rfl⟩
  · exact ensures_throw.mpr ⟨asks, rfl⟩

theorem ensures_checkRollback {current target : Release} {revision : Option String} :
    Ensures (checkRollback server host current target label revision) (fun _ => Asks server Question.Reads w)
      (fun error w' => Asks server Question.Reads w w' ∧ error.code = .refused) w := by
  cases label with
  | some label =>
    refine Ensures.bind ensures_readRestorePoint fun found w' asks => ?_
    refine ensures_bind.mpr (ensures_refuseIf (fun _ => ensures_refuseIf (fun _ => asks) fun _ => ⟨asks, rfl⟩)
      fun _ => ⟨asks, rfl⟩)
  | none =>
    refine ensures_bind.mpr (ensures_orThrowAs (fun found _ => ensures_refuseIf (fun _ => .refl w)
      fun _ => ⟨.refl w, rfl⟩) fun _ => ⟨.refl w, rfl⟩)

theorem ensures_readStatus {current target : Release} {unchanged : Bool} (unread : ∀ a ∈ w.asked, a.status = none) :
    Ensures (readStatus server current target unchanged) (fun found w' => Asks server Question.Reads w w' ∧
      statusRead w'.asked = found) (fun error w' => Asks server Question.Reads w w' ∧ error.code = .refused) w := by
  have last : ∀ (w : World ε) (release : Release), (∀ a ∈ w.asked, a.status = none) →
      statusRead (w.asking server (.status release)).asked = (server.reply w.server (.status release)).1 := by
    intro w release unread
    show (w.asked ++ [_]).findSome? Asked.status = _
    rw [findSome?_append, findSome?_eq_none_iff.mpr unread, Option.none_or, findSome?_singleton]
    rfl
  cases unchanged with
  | false => exact ⟨.one trivial, last w target unread⟩
  | true =>
    refine ensures_bind.mpr (ensures_ask.mpr ?_)
    split
    · rename_i status isStatus
      exact ensures_pure.mpr ⟨.one trivial, (last w current unread).trans isStatus⟩
    · rename_i isStatus
      refine ⟨.ask (show Question.Reads (.status current) from trivial) (.one trivial), last _ target fun a mem => ?_⟩
      rcases mem_append.mp mem with mem | mem
      · exact unread a mem
      · cases mem_singleton.mp mem
        exact isStatus

theorem Asks.unread (asks : Asks server (· = .unchanged version) w w')
    (unread : ∀ a ∈ w.asked, a.status = none) : ∀ a ∈ w'.asked, a.status = none := by
  refine asks.keeps (P := fun w => ∀ a ∈ w.asked, a.status = none) (fun w question isQuestion unread a mem => ?_) unread
  subst isQuestion
  rcases mem_append.mp mem with mem | mem
  · exact unread a mem
  · cases mem_singleton.mp mem
    rfl

theorem Asks.compares (asks : Asks server (· = .unchanged version) w w') :
    Asks server Question.Reads w w' :=
  asks.mono fun _ same => same ▸ trivial

/-- A run of `rollback` refuses after reading, or comes to a rollback to a known-good release. -/
theorem ensures_rollback_of {version : Option String} {raised : ReleaseError → World ε → Prop}
    (refused : ∀ error w', Asks server Question.Reads ⟨files, s, []⟩ w' → error.code = .refused → raised error w')
    (runs : ∀ (r : Rollback) before name w', files.current = some before →
      rollbackTarget files.knownGood before version = some name → name ∈ files.knownGood → name ≠ before →
      r.current.version = before → r.target.version = name → r.restorePoint = label →
      Asks server Question.Reads ⟨files, s, []⟩ w' → statusRead w'.asked = some r.status →
        Ensures (r.run server host) returned raised w') :
    Ensures (rollback server host version label) returned raised ⟨files, s, []⟩ := by
  refine ensures_bind.mpr (ensures_readFiles.mpr (ensures_bind.mpr (ensures_orThrowAs (fun before isCurrent => ?_)
    fun _ => refused _ _ (.refl _) rfl)))
  refine ensures_bind.mpr (ensures_orThrowAs (fun name isName => ?_) fun _ => refused _ _ (.refl _) rfl)
  refine ensures_bind.mpr (ensures_refuseIf (fun known => ?_) fun _ => refused _ _ (.refl _) rfl)
  refine ensures_bind.mpr (ensures_refuseIf (fun differs => ?_) fun _ => refused _ _ (.refl _) rfl)
  refine Ensures.bindRaising ensures_comparing (fun _ _ ⟨asks, isCode⟩ =>
    refused _ _ asks.compares isCode) fun current w₁ ⟨first, isBefore⟩ => ?_
  refine Ensures.bindRaising ensures_comparing (fun _ _ ⟨asks, isCode⟩ =>
    refused _ _ (first.compares.trans asks.compares) isCode) fun target w₂ ⟨second, isTarget⟩ => ?_
  have third : Asks server (· = .unchanged before) w₂ (w₂.asking server (.unchanged before)) := .one rfl
  have unread := third.unread (second.unread (first.unread fun _ mem => absurd mem not_mem_nil))
  have asks := (first.compares.trans second.compares).trans third.compares
  refine ensures_bind.mpr (ensures_ask.mpr (Ensures.bindRaising (ensures_readStatus unread)
    (fun _ _ ⟨more, isCode⟩ => refused _ _ (asks.trans more) isCode) fun found w₃ ⟨fourth, read⟩ => ?_))
  refine ensures_bind.mpr (ensures_orThrowAs (fun status isStatus => ?_) fun _ => refused _ _ (asks.trans fourth) rfl)
  refine Ensures.bindRaising ensures_checkRollback (fun _ _ ⟨more, isCode⟩ =>
    refused _ _ ((asks.trans fourth).trans more) isCode) fun _ w₄ fifth => ?_
  obtain ⟨more, isMore, -⟩ := fifth.asked
  refine runs ⟨current, target, label, status, _⟩ before name w₄ isCurrent isName (by simpa using known)
    (of_decide_eq_false differs) (Host.version_of_release isBefore) (Host.version_of_release isTarget) rfl
    ((asks.trans fourth).trans fifth) ?_
  rw [isMore]
  exact Rollback.statusRead_append (read.trans isStatus)

theorem leaves_rollback {version : Option String} :
    Ensures (rollback server host version label)
      (fun code w' => Refuses files code w' ∨
        files.current.isSome ∧ (Leaves .rollback (· = label) code w' ∨ code = .aborted ∧ Stranded w'))
      (fun error w' => Refuses files error.code w') ⟨files, s, []⟩ := by
  refine ensures_rollback_of (fun _ _ => refuses_of_asks) fun r before name w' isCurrent _ _ _ _ _ isLabel asks read => ?_
  have isSome : files.current.isSome := Option.isSome_iff_exists.mpr ⟨_, isCurrent⟩
  cases isLabel
  refine (Rollback.leaves_run ?_ (refuses_of_asks asks (Eq.refl ExitCode.refused)).2.2 read).mono
    (fun _ _ leaves => .inr ⟨isSome, leaves⟩) fun _ _ wrong => wrong.elim
  rw [asks.files]
  exact isSome

end PawBackend.Deploy
