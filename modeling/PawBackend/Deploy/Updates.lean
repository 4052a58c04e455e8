/-
**What an update does to the database and says about it** (`_Update` of `deploy/release/paw_release.py`).

`Going` is what holds all along an update, whatever its commands answer: nothing was migrated before everything the
migration needs had succeeded, no release was started on a schema it does not run on, the record of the operation is
there.
-/

import PawBackend.Deploy.Steps

namespace PawBackend.Deploy

open Lib List

variable {ε : Type}

/-! ### The database behind the commands -/

structure Database (ε : Type) where
  revision : ε → Option String
  pointAt : ε → String → Option String

/-- The commands on the schema do what their success says, no other question changes it, and a report of
`deploy-precheck` gives its revision or has a failed check. -/
structure Honest (server : Server ε) (db : Database ε) : Prop where
  reported : ∀ {s release report revision}, (server.reply s (.precheck release)).1 = some report →
    reportRevision (some report) = some revision → db.revision s = some revision
  unknown : ∀ {s release report}, (server.reply s (.precheck release)).1 = some report →
    reportRevision (some report) = none → ∃ check ∈ report.checks, check.ok = false
  upgraded : ∀ {s release}, (server.reply s (.command (.backend release .upgradeHead))).1 = (0 : ℤ) →
    db.revision (server.reply s (.command (.backend release .upgradeHead))).2 = release.schemaHead
  restored : ∀ {s release point}, (server.reply s (.command (.backend release (.restorePointRestore point)))).1 = (0 : ℤ) →
    db.revision (server.reply s (.command (.backend release (.restorePointRestore point)))).2 = db.pointAt s point.label
  created : ∀ {s release point}, (server.reply s (.command (.backend release (.restorePointCreate point)))).1 = (0 : ℤ) →
    db.pointAt (server.reply s (.command (.backend release (.restorePointCreate point)))).2 point.label = db.revision s
  schema_same : ∀ {s question}, question.changesSchema = false →
    db.revision (server.reply s question).2 = db.revision s
  points_same : ∀ {s question} label, question.changesPoints = false →
    db.pointAt (server.reply s question).2 label = db.pointAt s label

/-! ### What an update promises -/

structure Ready (host : Host) (u : Update) (before : List (Asked ε)) : Prop where
  began : Succeeded before (.backend u.current (.maintenanceBegin u.current.version u.target.version))
  drained : u.stopNow = true ∨ Succeeded before (.backend u.current (.drain host.config.drainTimeoutSeconds))
  backedUp : if host.config.commands .recoveryBackup = [] then
      Succeeded before (.backend u.current .recoveryBackupRun)
    else ∀ command ∈ host.commandsOf .recoveryBackup (some u.current) "", Succeeded before command
  stopped : ∀ command ∈ host.commandsOf .stop (some u.current) "", Succeeded before command

/-- All that the migration of an update has to come after. -/
structure Prepared (host : Host) (u : Update) (before : List (Asked ε)) : Prop extends Ready host u before where
  created : Succeeded before (.backend u.current (.restorePointCreate (host.pointArguments u.label)))
  verified : Succeeded before (.backend u.current (.restorePointVerify (host.pointArguments u.label)))

theorem Ready.append {host : Host} {u : Update} {before more : List (Asked ε)} (ready : Ready host u before) :
    Ready host u (before ++ more) where
  began := ready.began.append
  drained := ready.drained.imp_right Succeeded.append
  backedUp := by
    have backedUp := ready.backedUp
    split_ifs at backedUp ⊢
    · exact backedUp.append
    · exact fun command mem => (backedUp command mem).append
  stopped command mem := (ready.stopped command mem).append

def Migrates (host : Host) (u : Update) (before : List (Asked ε)) (a : Asked ε) : Prop :=
  ∀ release, a.question.upgraded = some release → release = u.target ∧ Prepared host u before

def StartsFit (host : Host) (db : Database ε) (asked : List (Asked ε)) : Prop :=
  ∀ a ∈ asked, ∀ release, a.question.started = some release → host.RunsOn release (db.revision a.server)

def Ended (asked : List (Asked ε)) : Prop := ∀ row, maintenanceRow row asked = false

def Unended (asked : List (Asked ε)) : Prop := ∀ a ∈ asked, a.ok = true → a.question.maintenance ≠ some false

def Unmigrated (asked : List (Asked ε)) : Prop := ∀ a ∈ asked, a.question.upgraded = none

def Stamped (u : Update) (asked : List (Asked ε)) : Prop :=
  ∃ (server : ε) (stamp : String), ⟨server, .stamp, stamp⟩ ∈ asked ∧
    u.label = updateLabel u.current.version u.target.version stamp

theorem Stamped.append {u : Update} {asked more : List (Asked ε)} (stamped : Stamped u asked) :
    Stamped u (asked ++ more) := by
  obtain ⟨server, stamp, mem, label⟩ := stamped
  exact ⟨server, stamp, mem_append_left _ mem, label⟩

/-- The people were told: the first of the commands for it was run. -/
def Notified (host : Host) (asked : List (Asked ε)) : Prop :=
  ∃ reason, ∀ command ∈ (host.commandsOf .notify none (maintenanceMessage "update" reason)).head?,
    ∃ a ∈ asked, a.question = .command command

def Tells (host : Host) (db : Database ε) (u : Update) (known : List String) (revision : Option String) (w : World ε) :
    ExitCode → Prop
  | .ok => w.files = ⟨some u.target.version, known.filter (· ≠ u.target.version) ++ [u.target.version], none⟩ ∧
      Ended w.asked ∧ HealthyAt host w.asked u.target (db.revision w.server) ∧
      (db.revision w.server = u.target.schemaHead ∨ Unmigrated w.asked ∧ db.revision w.server = revision)
  | .aborted => w.files = ⟨some u.current.version, known, none⟩ ∧ Ended w.asked ∧ Unmigrated w.asked ∧
      db.revision w.server = revision ∧ ((∀ a ∈ w.asked, a.question.stops = false) ∨
        ∀ command ∈ host.commandsOf .start (some u.current) "", Succeeded w.asked command)
  | .rolledBack => w.files = ⟨some u.current.version, known, none⟩ ∧ Ended w.asked ∧
      HealthyAt host w.asked u.current revision ∧ db.revision w.server = revision
  | .maintenance => w.files.current.isSome ∧ (∃ record, w.files.inProgress = some record ∧
      record.operation = some .update) ∧ Unended w.asked ∧ Notified host w.asked
  | .refused | .environment => False

/-! ### What holds all along -/

/-- Where an update stands. -/
structure Stage where
  current : String
  knownGood : List String
  revision : Option String
  migrated : Bool
  stopped : Bool
  ended : Bool

/-- What holds all along an update of a database that was at a revision, up to the end of its maintenance and after. -/
structure Going (host : Host) (db : Database ε) (u : Update) (revision : Option String) (st : Stage) (w : World ε) :
    Prop where
  stamped : Stamped u w.asked
  guarded : Guarded (Migrates host u) w.asked
  fits : host.RunsOn u.current revision → StartsFit host db w.asked
  current : w.files.current = some st.current
  knownGood : w.files.knownGood = st.knownGood
  record : st.ended = false → ∃ record, w.files.inProgress = some record ∧ record.operation = some .update
  schema : db.revision w.server = st.revision
  point : st.migrated = true → st.ended = false → db.pointAt w.server u.label = revision
  unmigrated : st.migrated = false → Unmigrated w.asked
  running : st.stopped = false → ∀ a ∈ w.asked, a.question.stops = false
  unended : st.ended = false → Unended w.asked
  isEnded : st.ended = true → Ended w.asked

variable {server : Server ε} {host : Host} {db : Database ε} {u : Update} {revision : Option String} {st : Stage}
  {w w' : World ε} {question : Question} {release : Release} {command : BackendCommand} {code : ℤ}

namespace Going

theorem staged (going : Going host db u revision st w) (stage : String) :
    Going host db u revision st (w.staged stage) := by
  refine { going with record := fun unended => ⟨_, rfl, ?_⟩ }
  obtain ⟨record, isRecord, named⟩ := going.record unended
  show (w.files.inProgress.getD .empty).operation = _
  rw [isRecord]
  exact named

theorem stepped {after : Option String} {migrated : Bool} (going : Going host db u revision st w)
    (upgrades : ∀ release, question.upgraded = some release →
      release = u.target ∧ Prepared host u w.asked ∧ migrated = true)
    (kept : migrated = false → st.migrated = false)
    (starts : ∀ release, question.started = some release → host.RunsOn u.current revision →
      host.RunsOn release st.revision)
    (stops : question.stops = true → st.stopped = true)
    (ends : ∀ a : Asked ε, a = ⟨w.server, question, (server.reply w.server question).1⟩ → a.ok = true →
      question.maintenance ≠ some false)
    (late : st.ended = true → question.maintenance = none)
    (schema : db.revision (server.reply w.server question).2 = after)
    (point : migrated = true → st.ended = false → db.pointAt (server.reply w.server question).2 u.label = revision) :
    Going host db u revision ⟨st.current, st.knownGood, after, migrated, st.stopped, st.ended⟩
      (w.asking server question) where
  stamped := going.stamped.append
  guarded := going.guarded.concat fun release isUpgrade =>
    ⟨(upgrades release isUpgrade).1, (upgrades release isUpgrade).2.1⟩
  fits runs a mem release isStart := by
    rcases mem_append.mp mem with mem | mem
    · exact going.fits runs a mem release isStart
    · cases mem_singleton.mp mem
      exact going.schema ▸ starts release isStart runs
  current := going.current
  knownGood := going.knownGood
  record := going.record
  schema := schema
  point := point
  unmigrated unmigrated a mem := by
    rcases mem_append.mp mem with mem | mem
    · exact going.unmigrated (kept unmigrated) a mem
    · cases mem_singleton.mp mem
      exact Option.eq_none_iff_forall_ne_some.mpr fun release isUpgrade =>
        Bool.noConfusion ((upgrades release isUpgrade).2.2.symm.trans unmigrated)
  running running a mem := by
    rcases mem_append.mp mem with mem | mem
    · exact going.running running a mem
    · cases mem_singleton.mp mem
      exact Bool.eq_false_iff.mpr fun wrong => Bool.noConfusion ((stops wrong).symm.trans running)
  unended unended a mem isOk := by
    rcases mem_append.mp mem with mem | mem
    · exact going.unended unended a mem isOk
    · cases mem_singleton.mp mem
      exact ends _ rfl isOk
  isEnded ended row := maintenanceRow_append.trans ((rowAfter_of_none (late ended)).trans (going.isEnded ended row))

theorem asking (going : Going host db u revision st w) (honest : Honest server db)
    (schema : question.changesSchema = false) (points : st.ended = false → question.changesPoints = false)
    (starts : ∀ release, question.started = some release → host.RunsOn u.current revision →
      host.RunsOn release st.revision)
    (stops : question.stops = true → st.stopped = true)
    (ends : ∀ a : Asked ε, a = ⟨w.server, question, (server.reply w.server question).1⟩ → a.ok = true →
      question.maintenance ≠ some false)
    (late : st.ended = true → question.maintenance = none) :
    Going host db u revision st (w.asking server question) := by
  have notUpgrade : question.upgraded = none := by
    unfold Question.changesSchema at schema
    unfold Question.upgraded
    split at schema <;> simp_all
  exact going.stepped (fun _ wrong => absurd (notUpgrade.symm.trans wrong) (Option.some_ne_none _).symm) id starts stops
    ends late ((honest.schema_same schema).trans going.schema)
    fun migrated unended => (honest.points_same _ (points unended)).trans (going.point migrated unended)

theorem quietly (going : Going host db u revision st w) (honest : Honest server db)
    (asks : Asks server Question.Quiet w w') : Going host db u revision st w' :=
  asks.keeps (fun w question ⟨_, starts, stops, maintenance, schema, points, _⟩ going =>
    going.asking honest schema (fun _ => points)
      (fun release wrong => absurd (starts.symm.trans wrong) (Option.some_ne_none _).symm)
      (fun wrong => Bool.noConfusion (stops.symm.trans wrong))
      (fun _ _ _ wrong => absurd (maintenance.symm.trans wrong) (Option.some_ne_none _).symm)
      fun _ => maintenance) going

theorem pruned {keep : Option String} (going : Going host db u revision st w) (honest : Honest server db)
    (ended : st.ended = true) (asks : Asks server (Prunes keep) w w') : Going host db u revision st w' := by
  refine asks.keeps (fun w question prunes going => ?_) going
  rcases prunes with quiet | ⟨label, rfl, -⟩
  · exact going.quietly honest (.one quiet)
  · exact going.asking honest rfl (fun wrong => Bool.noConfusion (wrong.symm.trans ended))
      nofun nofun
      (fun _ _ _ => nofun) fun _ => rfl

theorem starting (going : Going host db u revision st w) (honest : Honest server db)
    (runs : host.RunsOn u.current revision → host.RunsOn release st.revision)
    (ran : RanAll server (host.commandsOf .start (some release) "") w code w') :
    Going host db u revision st w' := by
  refine ran.asks.keeps (fun w question ⟨command, mem, same⟩ going => ?_) going
  obtain ⟨argv, -, rfl⟩ := mem_map.mp mem
  subst same
  exact going.asking honest rfl (fun _ => rfl) (fun other isStart => Option.some.inj isStart ▸ runs)
    nofun (fun _ _ _ => nofun) fun _ => rfl

theorem stopping (going : Going host db u revision st w) (honest : Honest server db)
    (ran : RanAll server (host.commandsOf .stop (some release) "") w code w') :
    Going host db u revision { st with stopped := true } w' := by
  have stopped : Going host db u revision { st with stopped := true } w :=
    { going with running := nofun }
  refine ran.asks.keeps (fun w question ⟨command, mem, same⟩ going => ?_) stopped
  obtain ⟨argv, -, rfl⟩ := mem_map.mp mem
  subst same
  exact going.asking honest rfl (fun _ => rfl) nofun
    (fun _ => rfl) (fun _ _ _ => nofun) fun _ => rfl

theorem switched (going : Going host db u revision st w) (version : String) :
    Going host db u revision { st with current := version } (w.withFiles { w.files with current := some version }) :=
  { going with current := rfl }

end Going

/-! ### The ends of an update -/

theorem ensures_backend : Ensures (backend server release command)
    (fun code w' => w' = w.asking server (.command (.backend release command)) ∧
      (server.reply w.server (.command (.backend release command))).1 = code) (fun _ _ => False) w :=
  ⟨rfl, rfl⟩

variable {known : List String} {reason current : String} {after : Option String} {migrated stopped : Bool}

theorem Going.start (stamped : Stamped u w.asked) (quiet : ∀ a ∈ w.asked, a.question.Quiet) (isCurrent : w.files.current = some u.current.version)
    (isKnown : w.files.knownGood = known) (schema : db.revision w.server = revision) :
    Going host db u revision ⟨u.current.version, known, revision, false, false, false⟩
      (w.withFiles { w.files with inProgress := some u.record }) where
  stamped := stamped
  guarded before a later split release isUpgrade := by
    have mem : a ∈ w.asked := Eq.mpr (congrArg (a ∈ ·) split) (mem_append_right _ (.head _))
    exact absurd ((quiet a mem).1.symm.trans isUpgrade) (Option.some_ne_none _).symm
  fits _ a mem release isStart := absurd ((quiet a mem).2.1.symm.trans isStart) (Option.some_ne_none _).symm
  current := isCurrent
  knownGood := isKnown
  record _ := ⟨_, rfl, rfl⟩
  schema := schema
  point wrong := Bool.noConfusion wrong
  unmigrated _ a mem := (quiet a mem).1
  running _ a mem := (quiet a mem).2.2.1
  unended _ a mem _ wrong := absurd ((quiet a mem).2.2.2.1.symm.trans wrong) (Option.some_ne_none _).symm
  isEnded wrong := Bool.noConfusion wrong

theorem ensures_backUp : Ensures (u.backUp server host) (fun code w' => Asks server Question.Quiet w w' ∧
    (code = 0 → if host.config.commands .recoveryBackup = [] then
        Succeeded w'.asked (.backend u.current .recoveryBackupRun)
      else ∀ command ∈ host.commandsOf .recoveryBackup (some u.current) "", Succeeded w'.asked command))
    (fun _ _ => False) w := by
  unfold Update.backUp
  split_ifs with none
  · exact ⟨.one ⟨rfl, rfl, rfl, rfl, rfl, rfl, rfl⟩, succeeded_asking⟩
  · exact Ensures.mono ensures_firstFailure (fun code w' ran => ⟨ran.quiet (by decide) (by decide), ran.all_succeeded⟩)
      fun _ _ wrong => wrong

theorem Asks.schema (asks : Asks server Question.Quiet w w') (honest : Honest server db) :
    db.revision w'.server = db.revision w.server :=
  asks.keeps (P := fun other => db.revision other.server = db.revision w.server)
    (fun _ _ ⟨_, _, _, _, schema, _⟩ same => (honest.schema_same schema).trans same) rfl

theorem runsOn_of_schemaCheck {target current : Release} {found : String} (isBuilt : current ∈ host.built)
    (passed : ∀ check ∈ (schemaCheck host (some found) target current).2, check.ok = true)
    (stays : (schemaCheck host (some found) target current).1 = false) : host.RunsOn target (some found) := by
  unfold schemaCheck at passed stays
  dsimp only at passed stays
  split_ifs at passed stays with same below
  · exact .inl same
  · exact Host.runsOn_of_expandOnly isBuilt (passed _ (mem_singleton_self _))

theorem revision_of_report {report : Option Report} (honest : Honest server db)
    (asked : (server.reply w.server (.precheck release)).1 = report)
    (passed : ∀ check ∈ reportChecks report, check.ok = true) :
    ∃ found, reportRevision report = some found ∧ db.revision w.server = some found := by
  cases report with
  | none => exact absurd (passed _ (mem_singleton_self _)) Bool.false_ne_true
  | some report =>
    cases isFound : reportRevision (some report) with
    | some found => exact ⟨found, rfl, honest.reported asked isFound⟩
    | none =>
      obtain ⟨check, mem, failed⟩ := honest.unknown asked isFound
      exact absurd ((passed _ (mem_map_of_mem mem)).symm.trans failed) Bool.noConfusion

structure Planned (server : Server ε) (host : Host) (version : String) (w : World ε) (plan : Plan)
    (current target : Release) : Prop where
  isCurrent : w.files.current = some plan.current
  currentBuilt : host.release plan.current = some current
  targetBuilt : host.release version = some target
  named : plan.target = target.version
  passed : plan.ok = true → w.files.inProgress = none ∧ target.version ≠ plan.current
  schema : plan.ok = true → ∀ db : Database ε, Honest server db →
    plan.revision = db.revision w.server ∧ (plan.migration = false → host.RunsOn target plan.revision)

theorem ensures_plan {version : String} : Ensures (plan server host version)
    (fun plan w' => Asks server Question.Reads w w' ∧ ∃ current target, Planned server host version w plan current target)
    (fun error w' => Asks server Question.Reads w w' ∧ error.code = .refused) w := by
  refine ensures_bind.mpr (ensures_readFiles.mpr (ensures_bind.mpr (ensures_orThrowAs (fun name isCurrent => ?_)
    fun _ => ⟨.refl w, rfl⟩)))
  refine Ensures.bind ensures_loadRelease fun target w₁ ⟨first, isTarget⟩ => ?_
  refine ensures_bind.mpr (ensures_readFiles.mpr (Ensures.bindRaising ensures_loadRelease
    (fun error w₂ ⟨asks, refused⟩ => ⟨first.trans asks, refused⟩) fun current w₂ ⟨second, isBuilt⟩ => ?_))
  have asked : Asks server Question.Reads w (w₂.asking server (.freeBytes .root) |>.asking server
      (.freeBytes .restorePointDir)) :=
    (first.trans second).trans (.ask (show Question.Reads (.freeBytes .root) from trivial) (.one trivial))
  refine ensures_bind.mpr (ensures_ask.mpr (ensures_bind.mpr (ensures_ask.mpr (ensures_bind.mpr (ensures_ask.mpr ?_)))))
  refine Ensures.bindRaising ensures_firstFailure (fun _ _ wrong => wrong.elim)
    fun failed w₃ ran => ensures_pure.mpr ⟨asked.trans
      (.ask (show Question.Reads (.precheck current) from trivial) (ran.asks.mono fun question ⟨command, mem, same⟩ => by
        obtain ⟨argv, -, rfl⟩ := mem_map.mp mem
        exact same ▸ trivial)), current, target, isCurrent, isBuilt, isTarget, rfl, fun ok => ?_, fun ok db honest => ?_⟩
  · have passed := all_eq_true.mp ok
    have early : ∀ check : Check, check ∈ [⟨"target_release", true⟩, ⟨"target_differs", target.version ≠ name⟩,
        ⟨"no_operation_in_progress", w₁.files.inProgress.isNone⟩] → check.ok = true := fun check mem =>
      passed check (mem_append_left _ (mem_append_left _ (mem_append_left _
        (mem_append_left [_, _] mem))))
    exact ⟨first.files ▸ Option.isNone_iff_eq_none.mp (early _
        (.tail _ (.tail _ (.head _)))),
      of_decide_eq_true (early _ (.tail _ (.head _)))⟩
  · have passed := all_eq_true.mp ok
    have reported : ∀ check ∈ reportChecks (server.reply _ (.precheck current)).1, check.ok = true :=
      fun check mem => passed check (mem_append_left _ (mem_append_left _ (mem_append_right _ mem)))
    obtain ⟨found, isFound, isRevision⟩ := revision_of_report honest rfl reported
    refine ⟨isFound.trans (isRevision.symm.trans (asked.quiet.schema honest)), fun stays => ?_⟩
    refine isFound ▸ runsOn_of_schemaCheck (Host.mem_of_release isBuilt) (fun check mem => ?_) (isFound ▸ stays)
    exact passed check (mem_append_left _ (mem_append_right _ (isFound ▸ mem)))

/-! ### The result -/

/-- A run of `update` refuses after reading, or comes to an update that was planned. -/
theorem ensures_update_of {version : String} {stopNow : Bool} {files : Files} {s : ε}
    {returned : ExitCode → World ε → Prop} {raised : ReleaseError → World ε → Prop}
    (refused : ∀ w', Asks server Question.Reads ⟨files, s, []⟩ w' →
      returned .refused w' ∧ ∀ error : ReleaseError, error.code = .refused → raised error w')
    (runs : ∀ (u : Update) w', Asks server Question.Reads ⟨files, s, []⟩ w' → u.plan.ok = true → u.stopNow = stopNow →
      Planned server host version ⟨files, s, []⟩ u.plan u.current u.target → Stamped u w'.asked →
        Ensures (u.run server host) returned raised w') :
    Ensures (update server host version stopNow) returned raised ⟨files, s, []⟩ := by
  refine Ensures.bindRaising ensures_plan (fun error w₁ ⟨asks, isCode⟩ =>
    (refused _ asks).2 error isCode) fun plan w₁ ⟨first, current, target, planned⟩ => ?_
  cases ok : plan.ok with
  | false => exact ensures_pure.mpr (refused _ first).1
  | true =>
    refine Ensures.bindRaising ensures_loadRelease (fun error w₂ ⟨asks, isCode⟩ =>
      (refused _ (first.trans asks)).2 error isCode) fun current' w₂ ⟨second, isCurrent⟩ => ?_
    refine Ensures.bindRaising ensures_loadRelease (fun error w₃ ⟨asks, isCode⟩ =>
      (refused _ ((first.trans second).trans asks)).2 error isCode) fun target' w₃ ⟨third, isTarget⟩ => ?_
    cases Option.some.inj (planned.currentBuilt.symm.trans isCurrent)
    rw [planned.named, Host.version_of_release planned.targetBuilt] at isTarget
    cases Option.some.inj (planned.targetBuilt.symm.trans isTarget)
    have asks := ((first.trans second).trans third).trans (.one (show Question.Reads .stamp from trivial))
    exact ensures_bind.mpr (ensures_ask.mpr (runs ⟨current, target, plan, stopNow, _⟩ _ asks ok rfl planned
      ⟨_, _, mem_append_right _ (mem_singleton_self _), rfl⟩))

structure SampleDb where
  revision : Option String
  points : String → Option String

def willing : Server SampleDb where
  reply s
    | .command (.backend release .upgradeHead) => (0, { s with revision := release.schemaHead })
    | .command (.backend _ (.restorePointRestore point)) => (0, { s with revision := s.points point.label })
    | .command (.backend _ (.restorePointCreate point)) =>
      (0, { s with points := fun label => if label = point.label then s.revision else s.points label })
    | .command _ => ((0 : ℤ), s)
    | .unchanged _ => (true, s)
    | .freeBytes _ => ((0 : ℕ), s)
    | .precheck _ => (some ⟨[⟨"schema", s.revision.isSome⟩], some ⟨s.revision, none⟩⟩, s)
    | .status _ => (some ⟨s.revision, none⟩, s)
    | .rounds => ((0 : ℕ), s)
    | .stamp => ("20260101000000", s)
    | .now => ((0 : ℤ), s)
    | .restorePoint _ => (.error .notFound, s)
    | .restorePoints => ([], s)
    | .deletePoint _ => ((), s)

/-- The migration `b` on top of `a`, in the release after one that knows `a` only. -/
def sampleChain : List Migration := [⟨"b", some "a", none⟩, ⟨"a", none, none⟩]

def firstRelease : Release where
  version := "v1"
  schemaHead := some "a"
  migrations := [⟨"a", none, none⟩]
  rank _ := 0
  acyclic migration member down isDown := by
    cases mem_singleton.mp member
    cases isDown

theorem sampleChain_acyclic : ∀ migration ∈ sampleChain, ∀ down, migration.downRevision = some down →
    (if down = "b" then 1 else 0) < if migration.revision = "b" then 1 else 0 := by
  intro migration mem down isDown
  rcases mem_cons.mp mem with rfl | mem
  · cases isDown
    decide
  · cases mem_singleton.mp mem
    cases isDown

def secondRelease : Release where
  version := "v2"
  schemaHead := some "b"
  migrations := sampleChain
  rank revision := if revision = "b" then 1 else 0
  acyclic := sampleChain_acyclic

/-- One command to stop and one to start. -/
def sampleHost : Host where
  config :=
    { restorePointDir := "/points", minFreeBytes := 0, restorePointKeep := 0, drainTimeoutSeconds := 900,
      pgDump := "pg_dump", pgRestore := "pg_restore",
      commands := fun key => if key = .stop ∨ key = .start then [["systemctl"]] else [] }
  built := [firstRelease, secondRelease]

def installed : Files := ⟨some "v1", ["v1"], none⟩

def atFirst : SampleDb := ⟨some "a", fun _ => none⟩

end PawBackend.Deploy
