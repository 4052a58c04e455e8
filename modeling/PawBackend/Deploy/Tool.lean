/-
**`paw-release`: the tool and its operations** (`deploy/release/paw_release.py`).

The tool reads and writes its state file and the link `current`; whatever else it does is a question to the server: a
command of a release or of the configuration and its exit code, a report, a clock, the restore points.
-/

import Mathlib.Data.Int.Notation
import PawBackend.Deploy.Releases
import PawBackend.Lib.Effects

namespace PawBackend.Deploy

open Lib

/-! ### What the tool asks -/

structure PointArguments where
  dir : String
  label : String
  pgDump : String
  pgRestore : String
  deriving DecidableEq, Repr

/-- The commands of a release: those of its server-local CLI, and Alembic. -/
inductive BackendCommand
  | maintenanceBegin (fromRelease toRelease : String)
  | maintenanceEnd
  | drain (timeoutSeconds : ℕ)
  | recoveryBackupRun
  | restorePointCreate (point : PointArguments)
  | restorePointVerify (point : PointArguments)
  | restorePointRestore (point : PointArguments)
  | upgradeHead
  | postRestore (arguments : List String)
  deriving DecidableEq, Repr

inductive Command
  | backend (release : Release) (command : BackendCommand)
  | configured (key : CommandKey) (argv : List String) (release : Option Release) (message : String)

structure Check where
  name : String
  ok : Bool
  deriving DecidableEq, Repr

/-- What `deploy-status` prints. -/
structure Status where
  schemaRevision : Option String
  maintenance : Option String
  deriving DecidableEq, Repr

/-- What `deploy-precheck` prints. -/
structure Report where
  checks : List Check
  status : Option Status
  deriving DecidableEq, Repr

structure RestorePoint where
  verified : Bool
  revision : Option String
  deriving DecidableEq, Repr

inductive PointFault
  | notFound
  | notReadable
  deriving DecidableEq, Repr

inductive Place
  | root
  | restorePointDir
  deriving DecidableEq, Repr

/-- `rounds` is how often the health check is repeated before its deadline passes. -/
inductive Question
  | command (command : Command)
  | unchanged (version : String)
  | freeBytes (place : Place)
  | precheck (release : Release)
  | status (release : Release)
  | rounds
  | stamp
  | now
  | restorePoint (label : String)
  | restorePoints
  | deletePoint (label : String)

/-- The answers: of a command its exit code, of a report what could be read of it. -/
abbrev Question.Answer : Question → Type
  | .command _ => ℤ
  | .unchanged _ => Bool
  | .freeBytes _ => ℕ
  | .precheck _ => Option Report
  | .status _ => Option Status
  | .rounds => ℕ
  | .stamp => String
  | .now => ℤ
  | .restorePoint _ => Except PointFault RestorePoint
  | .restorePoints => List (String × ℤ)
  | .deletePoint _ => Unit

structure Server (ε : Type) where
  reply : ε → (question : Question) → question.Answer × ε

structure Asked (ε : Type) where
  server : ε
  question : Question
  answer : question.Answer

/-! ### What the tool keeps -/

inductive OperationName
  | update
  | rollback
  | install
  deriving DecidableEq, Repr

/-- `in_progress` of the state file. -/
structure InProgress where
  operation : Option OperationName
  fromRelease : Option String
  toRelease : Option String
  migration : Option Bool
  restorePoint : Option String
  stage : Option String
  deriving DecidableEq, Repr

/-- No key of the record is set. -/
def InProgress.empty : InProgress := ⟨none, none, none, none, none, none⟩

/-- The link `current` and the state file. -/
structure Files where
  current : Option String
  knownGood : List String
  inProgress : Option InProgress
  deriving DecidableEq, Repr

structure World (ε : Type) where
  files : Files
  server : ε
  asked : List (Asked ε)

/-- 0, 1, 2, 3, 4 and 5. -/
inductive ExitCode
  | ok
  | refused
  | environment
  | aborted
  | rolledBack
  | maintenance
  deriving DecidableEq, Repr

structure ReleaseError where
  message : String
  code : ExitCode
  deriving DecidableEq, Repr

def refusal (message : String) : ReleaseError := ⟨message, .refused⟩

/-- What `main` makes of an operation that returns or raises. -/
def exitCode : Except ReleaseError ExitCode → ExitCode
  | .ok code => code
  | .error error => error.code

abbrev Tool (ε α : Type) := Effect ReleaseError (World ε) α

variable {ε : Type} (server : Server ε) (host : Host)

def refuseIf (wrong : Bool) (message : String) : Tool ε Unit := if wrong then throw (refusal message) else pure ()

/-- Without its condition there is nothing that could fail. -/
def onlyIf (condition : Bool) (x : Tool ε Bool) : Tool ε Bool := if condition then x else pure true

def World.asking (w : World ε) (question : Question) : World ε :=
  let reply := server.reply w.server question
  ⟨w.files, reply.2, w.asked ++ [⟨w.server, question, reply.1⟩]⟩

def World.withFiles (w : World ε) (files : Files) : World ε := ⟨files, w.server, w.asked⟩

def ask (question : Question) : Tool ε question.Answer := do
  let w ← get
  modify fun w => w.asking server question
  pure (server.reply w.server question).1

def readFiles : Tool ε Files := do
  let w ← get
  pure w.files

def changeFiles (change : Files → Files) : Tool ε Unit := modify fun w => w.withFiles (change w.files)

/-- `state.update(in_progress=...)`. -/
def setInProgress (record : Option InProgress) : Tool ε Unit := changeFiles fun files => { files with inProgress := record }

def Files.markedKnownGood (files : Files) (version : String) : Files :=
  { files with knownGood := files.knownGood.filter (· ≠ version) ++ [version] }

def markKnownGood (version : String) : Tool ε Unit := changeFiles (·.markedKnownGood version)

def switchCurrent (version : String) : Tool ε Unit := changeFiles fun files => { files with current := some version }

/-! ### Commands -/

def backend (release : Release) (command : BackendCommand) : Tool ε ℤ := ask server (.command (.backend release command))

/-- Runs the commands in order up to the first that fails: its exit code, or 0. -/
def firstFailure : List Command → Tool ε ℤ
  | [] => pure 0
  | command :: rest => do
    let code ← ask server (.command command)
    if code = 0 then firstFailure rest else pure code

def Host.commandsOf (key : CommandKey) (release : Option Release) (message : String) : List Command :=
  (host.config.commands key).map fun argv => .configured key argv release message

def Host.postRestoreCommands (release : Release) : List Command :=
  (host.config.commands .postRestore).map fun arguments => .backend release (.postRestore arguments)

def configured (key : CommandKey) (release : Option Release) (message : String) : Tool ε ℤ :=
  firstFailure server (host.commandsOf key release message)

def postRestore (release : Release) : Tool ε ℤ := firstFailure server (host.postRestoreCommands release)

def Host.pointArguments (label : String) : PointArguments :=
  ⟨host.config.restorePointDir, label, host.config.pgDump, host.config.pgRestore⟩

def loadRelease (version : String) (verify : Bool) : Tool ε Release := do
  refuseIf (!isVersion version) "invalid release name"
  let release ← orThrowAs (host.release version) (refusal s!"release {version} not found")
  let unchanged ← onlyIf verify (ask server (.unchanged version))
  refuseIf (!unchanged) s!"release {version}: its files differ from when it was built"
  pure release

/-! ### The check before an update -/

structure Plan where
  current : String
  target : String
  revision : Option String
  migration : Bool
  checks : List Check
  deriving DecidableEq, Repr

def Plan.ok (plan : Plan) : Bool := plan.checks.all (·.ok)

/-- The check `schema`, and whether the update needs a migration. -/
def schemaCheck (revision : Option String) (target current : Release) : Bool × List Check :=
  match revision with
  | none => (false, [])
  | some revision =>
    if some revision = target.schemaHead then (false, [⟨"schema", true⟩])
    else if target.schemaHead.any fun head => (target.pathBetween head (some revision)).any (· ≠ []) then
      (true, [⟨"schema", true⟩])
    else (false, [⟨"schema", Host.expandOnly (host.stepsBetween revision target.schemaHead current)⟩])

/-- The checks on a report of `deploy-precheck`. -/
def reportChecks : Option Report → List Check
  | none => [⟨"database_precheck", false⟩]
  | some report => report.checks.map fun check => ⟨"db:" ++ check.name, check.ok⟩

def reportRevision (report : Option Report) : Option String :=
  report.bind fun report => report.status.bind (·.schemaRevision)

def plan (version : String) : Tool ε Plan := do
  let files ← readFiles
  let currentName ← orThrowAs files.current (refusal "no current release: use install for the first one")
  let target ← loadRelease server host version true
  let files ← readFiles
  let current ← loadRelease server host currentName true
  let freeReleases ← ask server (.freeBytes .root)
  let freePoints ← ask server (.freeBytes .restorePointDir)
  let report ← ask server (.precheck current)
  let revision := reportRevision report
  let schema := schemaCheck host revision target current
  let failed ← configured server host .precheck (some target) ""
  let checks := [⟨"target_release", true⟩, ⟨"target_differs", target.version ≠ currentName⟩,
    ⟨"no_operation_in_progress", files.inProgress.isNone⟩,
    ⟨"disk_free_releases", host.config.minFreeBytes ≤ freeReleases⟩,
    ⟨"disk_free_restore_points", host.config.minFreeBytes ≤ freePoints⟩]
  pure ⟨currentName, target.version, revision, schema.1,
    checks ++ reportChecks report ++ schema.2 ++ [⟨"configured_checks", failed = 0⟩]⟩

/-! ### Steps shared by the operations -/

/-- `step`: records the stage, and says whether its command succeeded. -/
def step (stage : String) (code : ℤ) : Tool ε Bool := do
  changeFiles fun files =>
    { files with inProgress := some { files.inProgress.getD .empty with stage := some stage } }
  pure (code = 0)

def maintenanceMessage (name reason : String) : String :=
  s!"Personal AI Workspace: {name} FAILED ({reason}); the system is in maintenance. See paw-release status and " ++
    "history.jsonl."

/-- `maintenance_mode`: leaves everything stopped and in maintenance, and tells the people. -/
def maintenanceMode (name reason : String) : Tool ε ExitCode := do
  let _ ← configured server host .notify none (maintenanceMessage name reason)
  pure .maintenance

def resume (name : String) (release : Release) (rest : Tool ε ExitCode) : Tool ε ExitCode := do
  let resumed ← step "resume" (← backend server release .maintenanceEnd)
  if !resumed then maintenanceMode server host name "the tasks could not be resumed" else do
    setInProgress none
    rest

def healthyOnce (release : Release) (revision : Option String) : Tool ε Bool := do
  let status ← ask server (.status release)
  if status.any fun status => status.schemaRevision = revision then do
    let code ← configured server host .health (some release) ""
    pure (code = 0)
  else pure false

def healthyWithin (release : Release) (revision : Option String) : ℕ → Tool ε Bool
  | 0 => healthyOnce server host release revision
  | rounds + 1 => do
    let healthy ← healthyOnce server host release revision
    if healthy then pure true else healthyWithin release revision rounds

def healthy (release : Release) (revision : Option String) : Tool ε Bool := do
  let rounds ← ask server .rounds
  healthyWithin server host release revision rounds

def deleteExpired (keep : Option String) (cutoff : ℤ) : List (String × ℤ) → Tool ε Unit
  | [] => pure ()
  | (label, created) :: rest =>
    if some label ≠ keep ∧ created < cutoff then do
      let _ ← ask server (.deletePoint label)
      deleteExpired keep cutoff rest
    else deleteExpired keep cutoff rest

def pruneRestorePoints : Tool ε Unit := do
  let files ← readFiles
  let now ← ask server .now
  let points ← ask server .restorePoints
  deleteExpired server (files.inProgress.bind (·.restorePoint)) (now - host.config.restorePointKeep) points

/-! ### Update -/

structure Update where
  current : Release
  target : Release
  plan : Plan
  stopNow : Bool
  label : String

namespace Update

variable (u : Update)

/-- `abort`: nothing was switched, the current release runs on. -/
def abort (running : Bool) : Tool ε ExitCode := do
  let restarted ← onlyIf (!running) do step "restart" (← configured server host .start (some u.current) "")
  if !restarted then maintenanceMode server host "update" "the current release did not start again"
  else resume server host "update" u.current (pure .aborted)

/-- The end of `rollback`: the known-good release is started and checked. -/
def rollbackStart : Tool ε ExitCode := do
  let started ← step "rollback_start" (← configured server host .start (some u.current) "")
  if !started then maintenanceMode server host "update" "the known-good release did not start" else do
    let isHealthy ← healthy server host u.current u.plan.revision
    if !isHealthy then maintenanceMode server host "update" "the known-good release is not healthy"
    else resume server host "update" u.current (pure .rolledBack)

/-- `rollback` once the schema is as it was: the known-good release is switched to. -/
def rollbackSwitch (migrated : Bool) : Tool ε ExitCode := do
  switchCurrent u.current.version
  let erased ← onlyIf migrated do step "post_restore" (← postRestore server host u.current)
  if !erased then maintenanceMode server host "update" "the post-restore commands failed"
  else rollbackStart server host u

/-- `rollback`: after the migration or the switch, back to the known-good release. -/
def rollback (migrated : Bool) : Tool ε ExitCode := do
  let stopped ← step "rollback_stop" (← configured server host .stop (some u.target) "")
  if !stopped then
    maintenanceMode server host "update" s!"{u.target.version} could not be stopped"
  else do
    let restored ← onlyIf migrated do
      step "rollback_restore" (← backend server u.current (.restorePointRestore (host.pointArguments u.label)))
    if !restored then maintenanceMode server host "update" "the restore point could not be restored"
    else rollbackSwitch server host u migrated

def expected : Option String := if u.plan.migration then u.target.schemaHead else u.plan.revision

/-- Step 6 of `run`: the new release is switched to, started and checked. -/
def switch (migrated : Bool) : Tool ε ExitCode := do
  switchCurrent u.target.version
  let started ← step "start" (← configured server host .start (some u.target) "")
  if !started then rollback server host u migrated else do
    let isHealthy ← healthy server host u.target u.expected
    if !isHealthy then rollback server host u migrated else do
      markKnownGood u.target.version
      resume server host "update" u.target do
        pruneRestorePoints server host
        pure .ok

/-- Step 5 of `run`: the migration; from here on a failure restores the point. -/
def upgrade : Tool ε ExitCode := do
  let migrated ← step "migrate" (← backend server u.target .upgradeHead)
  if !migrated then rollback server host u true else switch server host u true

/-- Step 4 of `run`: before the migration a verified restore point. -/
def migrate : Tool ε ExitCode := do
  let point := host.pointArguments u.label
  let created ← step "restore_point" (← backend server u.current (.restorePointCreate point))
  if !created then abort server host u false else do
    let verified ← step "restore_point_verify" (← backend server u.current (.restorePointVerify point))
    if !verified then abort server host u false else do
      changeFiles fun files =>
        { files with inProgress := some { files.inProgress.getD .empty with restorePoint := some u.label } }
      upgrade server host u

/-- Step 2 of `run`: by the configured commands, else by the command of the release. -/
def backUp : Tool ε ℤ :=
  if host.config.commands .recoveryBackup = [] then backend server u.current .recoveryBackupRun
  else configured server host .recoveryBackup (some u.current) ""

/-- `run` from step 2 on: the backup, the stop of every writer, then the migration and the switch. -/
def stopAndSwitch : Tool ε ExitCode := do
  let backedUp ← step "recovery_backup" (← backUp server host u)
  if !backedUp then abort server host u true else do
    let stopped ← step "stop" (← configured server host .stop (some u.current) "")
    if !stopped then abort server host u false
    else if u.plan.migration then migrate server host u
    else switch server host u false

def record : InProgress :=
  ⟨some .update, some u.current.version, some u.target.version, some u.plan.migration, none, none⟩

def run : Tool ε ExitCode := do
  setInProgress (some u.record)
  let began ← step "maintenance" (← backend server u.current (.maintenanceBegin u.current.version u.target.version))
  if !began then abort server host u true else do
    let drained ← step "drain" (← backend server u.current (.drain host.config.drainTimeoutSeconds))
    if !drained && !u.stopNow then abort server host u true else stopAndSwitch server host u

end Update

def updateLabel (current target stamp : String) : String :=
  String.ofList ((current ++ "-to-" ++ target ++ "-" ++ stamp).toList.take 64)

def update (version : String) (stopNow : Bool) : Tool ε ExitCode := do
  let plan ← plan server host version
  if !plan.ok then pure .refused else do
    let current ← loadRelease server host plan.current false
    let target ← loadRelease server host plan.target false
    let stamp ← ask server .stamp
    (⟨current, target, plan, stopNow, updateLabel current.version target.version stamp⟩ : Update).run server host

/-! ### Rollback -/

/-- `_Rollback`: `tools` is the release whose commands run before the switch. -/
structure Rollback where
  current : Release
  target : Release
  restorePoint : Option String
  status : Status
  tools : Release

namespace Rollback

variable (r : Rollback)

def abort (endMaintenance : Bool) : Tool ε ExitCode := do
  if endMaintenance then resume server host "rollback" r.tools (pure .aborted)
  else do
    setInProgress none
    pure .aborted

/-- The end of `run`: the target is switched to, started and checked. -/
def switch : Tool ε ExitCode := do
  let expected := if r.restorePoint.isSome then r.target.schemaHead else r.status.schemaRevision
  switchCurrent r.target.version
  let erased ← onlyIf r.restorePoint.isSome do step "post_restore" (← postRestore server host r.target)
  if !erased then maintenanceMode server host "rollback" "the post-restore commands failed" else do
    let started ← step "start" (← configured server host .start (some r.target) "")
    if !started then maintenanceMode server host "rollback" s!"{r.target.version} did not start" else do
      let isHealthy ← healthy server host r.target expected
      if !isHealthy then maintenanceMode server host "rollback" s!"{r.target.version} is not healthy"
      else resume server host "rollback" r.target do
        pruneRestorePoints server host
        pure .ok

/-- `run` once the work has drained: stop, restore, switch. -/
def restore : Tool ε ExitCode := do
  let stopped ← step "stop" (← configured server host .stop (some r.current) "")
  if !stopped then maintenanceMode server host "rollback" s!"{r.current.version} could not be stopped" else do
    let restored ← onlyIf r.restorePoint.isSome do
      step "restore"
        (← backend server r.target (.restorePointRestore (host.pointArguments (r.restorePoint.getD ""))))
    if !restored then maintenanceMode server host "rollback" "the restore point could not be restored"
    else switch server host r

/-- `run` once the maintenance is on. -/
def stopAndSwitch (began : Bool) : Tool ε ExitCode := do
  let drained ← step "drain" (← backend server r.tools (.drain host.config.drainTimeoutSeconds))
  if !drained then abort server host r began else restore server host r

def record : InProgress :=
  ⟨some .rollback, some r.current.version, some r.target.version, none, r.restorePoint, none⟩

def run : Tool ε ExitCode := do
  setInProgress (some r.record)
  let began := r.status.maintenance.isNone
  let begun ← onlyIf began do
    step "maintenance" (← backend server r.tools (.maintenanceBegin r.current.version r.target.version))
  if !begun then abort server host r true else stopAndSwitch server host r began

end Rollback

/-- The release to go back to: the one that became known-good just before the current one. -/
def rollbackTarget (knownGood : List String) (current : String) (version : Option String) : Option String :=
  match version with
  | some version => some version
  | none => (if current ∈ knownGood then knownGood.take (knownGood.idxOf current) else knownGood).getLast?

/-- `_restore_point`. -/
def readRestorePoint (label : String) : Tool ε RestorePoint := do
  refuseIf (!isVersion label) "invalid restore point label"
  let found ← ask server (.restorePoint label)
  match found with
  | .ok point => pure point
  | .error .notFound => throw (refusal s!"restore point {label} not found")
  | .error .notReadable => throw (refusal s!"restore point {label} is not readable")

def readStatus (current target : Release) (unchanged : Bool) : Tool ε (Option Status) :=
  if unchanged then do
    let first ← ask server (.status current)
    match first with
    | some status => pure (some status)
    | none => ask server (.status target)
  else ask server (.status target)

def checkRollback (current target : Release) (restorePoint : Option String) (revision : Option String) : Tool ε Unit :=
  match restorePoint with
  | some label => do
    let point ← readRestorePoint server label
    refuseIf (!point.verified) s!"restore point {label} is not verified"
    refuseIf (point.revision ≠ target.schemaHead)
      s!"restore point {label} is at another revision than {target.version} needs"
  | none => do
    let revision ← orThrowAs revision (refusal "the schema revision is unknown: give --restore-point")
    refuseIf (some revision ≠ target.schemaHead &&
        !Host.expandOnly (host.stepsBetween revision target.schemaHead current))
      s!"the database ({revision}) is not backward compatible with {target.version}: give --restore-point"

def rollback (version : Option String) (restorePoint : Option String) : Tool ε ExitCode := do
  let files ← readFiles
  let currentName ← orThrowAs files.current (refusal "no current release")
  let name ← orThrowAs (rollbackTarget files.knownGood currentName version)
    (refusal "no earlier known-good release to roll back to")
  refuseIf (name ∉ files.knownGood) s!"{name} is not a known-good release (it never passed an update)"
  refuseIf (name = currentName) s!"{name} is already current"
  let current ← loadRelease server host currentName false
  let target ← loadRelease server host name true
  let unchanged ← ask server (.unchanged currentName)
  let found ← readStatus server current target unchanged
  let status ← orThrowAs found (refusal "the database status cannot be read (deploy-status failed)")
  checkRollback server host current target restorePoint status.schemaRevision
  (⟨current, target, restorePoint, status, if unchanged then current else target⟩ : Rollback).run server host

/-! ### Install and the end of the maintenance -/

def Files.retries (files : Files) (version : String) : Bool :=
  files.current = some version && files.inProgress.any fun record =>
    record.operation = some .install && record.toRelease = some version

def healthyAfter (target : Release) (started : ℤ) : Tool ε Bool :=
  if started = 0 then healthy server host target target.schemaHead else pure false

/-- `install` once the release may be installed. -/
def installRelease (version : String) (target : Release) : Tool ε ExitCode := do
  setInProgress (some ⟨some .install, none, some version, none, none, none⟩)
  let code ← backend server target .upgradeHead
  if code ≠ 0 then pure .aborted else do
    switchCurrent version
    let started ← configured server host .start (some target) ""
    let isHealthy ← healthyAfter server host target started
    if !isHealthy then pure .maintenance else do
      markKnownGood version
      setInProgress none
      pure .ok

def install (version : String) : Tool ε ExitCode := do
  let files ← readFiles
  refuseIf (files.current.isSome && !files.retries version) "a release is installed already: use update"
  let target ← loadRelease server host version true
  installRelease server host version target

def endMaintenance : Tool ε ExitCode := do
  let files ← readFiles
  let currentName ← orThrowAs files.current (refusal "no current release")
  let current ← loadRelease server host currentName true
  let code ← backend server current .maintenanceEnd
  if code ≠ 0 then pure .maintenance else do
    setInProgress none
    pure .ok

/-- `prune-restore-points`. -/
def prune : Tool ε ExitCode := do
  pruneRestorePoints server host
  pure .ok

end PawBackend.Deploy
