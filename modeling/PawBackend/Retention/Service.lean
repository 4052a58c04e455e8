/-
**The partitions and their rows** (`authz/retention/service.py`, revision 0086 of the migrations).

A window of the bookkeeping table stands for its partition as well: both are written in the same transaction. A row
lies in the partition it was put into; a partition that is dropped takes its rows with it.
-/

import PawBackend.Retention.Rules

namespace PawBackend.Retention

open Lib
open Tools (Instant)

/-! ### The tables -/

/-- A row of `audit_events`: when it was recorded, what it says, and the partition it lies in. -/
structure AuditRow where
  recordedAt : Instant
  reason : Text
  partition : Text
  deriving DecidableEq

structure RetentionDb where
  windows : Keyed PartitionWindow.name
  rows : List AuditRow

/-- `_SAFE_PARTITION_NAME.match`. -/
def isSafePartitionName (name : Text) : Bool :=
  let rest := name.drop 14
  let rest := if rest.getLast? = some 10 then rest.dropLast else rest
  decide (name.take 14 = Text.lit "audit_events_p") &&
    (decide (rest = Text.lit "_legacy") ||
      decide (rest.length = 7) && (rest.take 4).all Text.isDigit && decide (rest[4]? = some 95) &&
        (rest.drop 5).all Text.isDigit)

def quoted (name : Text) : Except RetentionError Text :=
  if isSafePartitionName name then .ok name else .error .value

section Statements

variable (db : RetentionDb) (now started : Instant)

/-- An `INSERT` into `audit_events`: the row goes to the live partition of the moment it is recorded at. -/
def RetentionDb.insertRow (reason : Text) : Except RetentionError RetentionDb :=
  match db.windows.rows.find? fun window => decide (window.status = .live ∧ window.Contains started) with
  | none => .error .noPartition
  | some window => .ok { db with rows := db.rows ++ [⟨started, reason, window.name⟩] }

def RetentionDb.setStatus (name : Text) (status : PartitionStatus) : RetentionDb :=
  let windows := db.windows.update (fun window => decide (window.name = name))
    (fun window => { window with status := status }) fun _ _ => rfl
  { db with windows := windows }

def RetentionDb.existingPartitions : List PartitionWindow := oldestFirst db.windows.rows

def RetentionDb.createPartition (window : PartitionWindow) : Except RetentionError RetentionDb := do
  let _ ← quoted window.name
  let windows ← orThrow (db.windows.tryInsert window) (.alreadyExists window.name)
  { db with windows := windows }.insertRow started window.name

def RetentionDb.archivePartition (window : PartitionWindow) : Except RetentionError RetentionDb := do
  if ¬(db.windows.get window.name).any (fun record => decide (record.status = .live)) then
    throw (.notLive window.name)
  let _ ← quoted window.name
  (db.setStatus window.name .archived).insertRow started window.name

/-- `_purge_partition`: the audit row comes first. -/
def RetentionDb.purgePartition (window : PartitionWindow) : Except RetentionError RetentionDb := do
  if ¬(db.windows.get window.name).any (fun record => decide (record.status = .archived)) then
    throw (.notArchived window.name)
  let _ ← quoted window.name
  let db ← db.insertRow started window.name
  .ok { db.setStatus window.name .purged with rows := db.rows.filter fun row => decide (row.partition ≠ window.name) }

/-! ### The steps -/

variable (policy : RetentionPolicy)

def RetentionDb.ensurePartitions : Except RetentionError (RetentionDb × List PartitionWindow) := do
  let missing ← planMissingPartitions now db.existingPartitions policy
  let after ← missing.foldlM (fun db window => db.createPartition started window) db
  .ok (after, missing)

/-- `_protected_partition_name`, at the wall clock of the process. -/
def protectedPartitionName (wallClock : Instant) : Except RetentionError Text := partitionName (monthStart wallClock)

variable (wallClock : Instant)

def RetentionDb.archiveDuePartitions : Except RetentionError (RetentionDb × List PartitionWindow) := do
  let spared ← protectedPartitionName wallClock
  let due ← partitionsDueForArchive now db.existingPartitions policy
  let due := due.filter fun window => decide (window.name ≠ spared)
  let after ← due.foldlM (fun db window => db.archivePartition started window) db
  .ok (after, due.map fun window => { window with status := .archived })

def RetentionDb.purgeDuePartitions : Except RetentionError (RetentionDb × List PartitionWindow) := do
  let spared ← protectedPartitionName wallClock
  let due ← partitionsDueForPurge now db.existingPartitions policy
  let due := due.filter fun window => decide (window.name ≠ spared)
  let after ← due.foldlM (fun db window => db.purgePartition started window) db
  .ok (after, due.map fun window => { window with status := .purged })

end Statements

/-- The bookkeeping rows revision 0086 makes: up to the cutover, and from it to the next month. -/
def upgraded (cutover : Instant) : Keyed PartitionWindow.name :=
  (Keyed.empty.put ⟨legacyPartitionName, none, cutover, .live⟩).put
    ⟨monthName (monthNumber cutover), some cutover, monthInstant (monthNumber cutover + 1), .live⟩

/-! ### Runs -/

inductive MaintenanceStep
  | ensurePartitions
  | archive
  | purge
  deriving DecidableEq, Repr

/-- A step of `run_maintenance`. -/
def MaintenanceStep.perform (db : RetentionDb) (policy : RetentionPolicy) (now wallClock started : Instant) :
    MaintenanceStep → Except RetentionError (RetentionDb × List PartitionWindow)
  | .ensurePartitions => db.ensurePartitions now started policy
  | .archive => db.archiveDuePartitions now started policy wallClock
  | .purge => db.purgeDuePartitions now started policy wallClock

structure RetentionWorld where
  db : RetentionDb
  clock : Instant

/-- An audit row of a transaction that began some time ago, a step of a maintenance run, or one that failed. -/
inductive RetentionEvent
  | record (now began : Instant) (reason : Text)
  | perform (step : MaintenanceStep) (policy : RetentionPolicy) (now wallClock started : Instant)
  | failed (now : Instant)

/-- What a transaction did, or nothing where it was rolled back. -/
def RetentionWorld.after (w : RetentionWorld) (clock : Instant) (done : Except RetentionError RetentionDb) :
    RetentionWorld :=
  match done with
  | .ok db => ⟨db, clock⟩
  | .error _ => { w with clock := clock }

def RetentionWorld.step (w : RetentionWorld) : RetentionEvent → Option RetentionWorld
  | .record now began reason =>
    if w.clock ≤ now ∧ began ≤ now then some (w.after now (w.db.insertRow began reason)) else none
  | .perform step policy now wallClock started =>
    if w.clock ≤ now ∧ now ≤ wallClock ∧ wallClock ≤ started then
      some (w.after started ((step.perform w.db policy now wallClock started).map Prod.fst))
    else none
  | .failed now => if w.clock ≤ now then some { w with clock := now } else none

/-- What revision 0086 leaves at its cutover, which is a `datetime`: two windows, and the rows recorded before it. -/
def Migrated (cutover : Instant) (w : RetentionWorld) : Prop :=
  dayLength ≤ cutover ∧ w.clock = cutover ∧ w.db.windows = upgraded cutover ∧
    ∀ row ∈ w.db.rows, row.recordedAt < cutover ∧ row.partition = legacyPartitionName

def retentionMachine (cutover : Instant) : Machine RetentionWorld RetentionEvent where
  initial := Migrated cutover
  step := RetentionWorld.step

end PawBackend.Retention
