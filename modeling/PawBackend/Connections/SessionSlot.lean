/-
**The session slot as its holders use it** (`connections/session_slot.py`).

A slot runs in up to three coroutines: the session that acquired it and calls `bind`, `confirm`, `record_version` and
`release` one after the other, the heartbeat (`_beat`), and, once a slot was kept, the loop that holds it (`_hold`,
`_keep_bound`).
-/

import PawBackend.Connections.SessionLease
import PawBackend.Lib.Machine

namespace PawBackend.Connections

open Lib
open Tools (Instant Uuid)

/-- `_FIRST_RETRY_SECONDS`, in microseconds. -/
def firstRetry : ℤ := 250000

/-- `_MAX_RETRY_SECONDS`, in microseconds. -/
def maxRetry : ℤ := 2000000

/-- What `check_slot_timing` lets through. -/
structure SlotTiming where
  ttl : ℤ
  heartbeat : ℤ
  margin : ℤ
  positive : 0 < ttl ∧ 0 < heartbeat ∧ 0 < margin
  early : heartbeat < ttl - margin

/-- How far the session that uses a slot has come with it. -/
inductive Stage
  | fresh
  /-- `acquire`: asleep until an instant, or its statement is on its way. -/
  | acquiring (deadline delay : ℤ) (pause : Option ℤ)
  | refused
  | held
  | released
  deriving DecidableEq, Repr

inductive Beat
  | off
  | asleep (deadline wake : ℤ)
  | renewing
  | gone
  deriving DecidableEq, Repr

/-- `_hold` and, for a slot bound to a session, `_keep_bound`. -/
inductive Hold
  | off
  | marking
  | renewing
  | acquiring
  | paused (wake : ℤ)
  | keeping (pause : Option ℤ)
  | gone
  deriving DecidableEq, Repr

/-- What a slot is made with, and how far its clock is ahead of the database's. -/
structure SlotSetup where
  holder : Uuid
  kind : ConnectionKind
  timing : SlotTiming
  offset : ℤ

/-- A `SessionSlot`; `calling` while a call of its session waits for an answer. -/
structure Slot extends SlotSetup where
  stage : Stage := .fresh
  calling : Bool := false
  confirmed : ℤ := 0
  beat : Beat := .off
  hold : Hold := .off
  lost : Bool := false
  fenced : Bool := false
  keep : Bool := false
  session : Option Uuid := none
  keptSession : Option Uuid := none
  marked : Bool := false
  givenBack : Bool := false

/-- A slot that the collection loop took over, or tries to. -/
structure Keeper where
  holder : Uuid
  kind : ConnectionKind
  kept : Bool := false
  deriving DecidableEq, Repr

/-- Who waits for the answer to a statement. -/
inductive Errand
  | acquire
  | bind (session : Uuid)
  | confirm
  | recordVersion
  | mark
  | release
  | beat
  | hold
  | collect
  | takeOver
  deriving DecidableEq, Repr

structure Flight where
  statement : LeaseStatement
  errand : Option Errand
  sent : ℤ
  reply : Option LeaseReply := none
  deriving DecidableEq, Repr

structure SlotWorld where
  tables : LeaseTables
  now : Instant
  slots : Keyed fun slot : Slot => slot.holder
  keepers : Keyed Keeper.holder
  flights : List Flight

/-! ### What the coroutines of a slot do -/

abbrev Sends := Option (Errand × LeaseOrder)

section Coroutines

variable (slot : Slot) (clock : ℤ)

/-- The head of the loop of `_beat`: asleep until the next heartbeat, or the deadline when that comes first. -/
def Slot.nextBeat : Slot :=
  let deadline := slot.confirmed + slot.timing.ttl - slot.timing.margin
  { slot with beat := .asleep deadline (clock + max 0 (min slot.timing.heartbeat (deadline - clock))) }

/-- `_beat` after its sleep. -/
def Slot.beatAwake : Option (Slot × Sends) :=
  match slot.beat with
  | .asleep deadline wake =>
    if clock < wake then none
    else if deadline ≤ clock then some ({ slot with lost := true, beat := .gone }, none)
    else some ({ slot with beat := .renewing }, some (.beat, .renew slot.timing.ttl))
  | _ => none

def Slot.stopHeartbeat : Slot := { slot with beat := .off }

/-- The head of the loop of `_hold`: the missing mark first; a bound slot is only renewed. -/
def Slot.startHold : Slot × Sends :=
  if slot.session.isSome ∧ ¬slot.marked then ({ slot with hold := .marking }, some (.hold, .keep))
  else if slot.session.isSome then ({ slot with hold := .keeping none }, some (.hold, .renew slot.timing.ttl))
  else ({ slot with hold := .renewing }, some (.hold, .renew slot.timing.ttl))

/-- `_hold` and the renewals of `_keep_bound` after their sleep. -/
def Slot.holdAwake : Option (Slot × Sends) :=
  match slot.hold with
  | .paused wake => if clock < wake then none else some slot.startHold
  | .keeping (some wake) =>
    if clock < wake then none
    else some ({ slot with hold := .keeping none }, some (.hold, .renew slot.timing.ttl))
  | _ => none

/-- `release`: what it does before its first await. -/
def Slot.release : Slot × Sends :=
  let ended := { slot with stage := .released }
  if slot.fenced then (ended.stopHeartbeat, none)
  else if slot.keep then
    if slot.session.isSome then ({ ended with calling := true }, some (.mark, .keep))
    else ended.stopHeartbeat.startHold
  else ({ ended.stopHeartbeat with calling := true }, some (.release, .release))

/-- What the coroutine that waits for an answer makes of it. -/
def Slot.answered (errand : Errand) (sent : ℤ) (reply : LeaseReply) : Slot × Sends :=
  match errand with
  | .acquire =>
    match slot.stage with
    | .acquiring deadline delay none =>
      if reply.found then ({ slot with confirmed := sent, stage := .held }.nextBeat clock, none)
      else if deadline - clock ≤ 0 then ({ slot with stage := .refused }, none)
      else
        ({ slot with
            stage := .acquiring deadline (min (delay * 2) maxRetry) (some (clock + min delay (deadline - clock))) },
          none)
    | _ => (slot, none)
  | .bind session =>
    if reply.found then ({ slot with calling := false, confirmed := sent, session := some session }, none)
    else ({ slot with calling := false }, none)
  | .confirm =>
    if reply.found then ({ slot with calling := false, confirmed := max slot.confirmed sent }, none)
    else ({ slot with calling := false, fenced := true }, none)
  | .recordVersion => ({ slot with calling := false }, none)
  | .mark =>
    ({ slot with calling := false, keptSession := reply.session, marked := true }.stopHeartbeat).startHold
  | .release => ({ slot with calling := false, givenBack := reply.found }, none)
  | .beat =>
    match slot.beat with
    | .renewing =>
      if reply.found then ({ slot with confirmed := sent }.nextBeat clock, none)
      else ({ slot with lost := true, beat := .gone }, none)
    | _ => (slot, none)
  | .hold =>
    match slot.hold with
    | .marking =>
      if reply.session.isSome then { slot with marked := true }.startHold
      else ({ slot with marked := true, hold := .gone }, none)
    | .renewing =>
      if reply.found then ({ slot with hold := .paused (clock + slot.timing.heartbeat) }, none)
      else ({ slot with hold := .acquiring }, some (.hold, .acquire slot.timing.ttl))
    | .acquiring => ({ slot with hold := .paused (clock + slot.timing.heartbeat) }, none)
    | .keeping none =>
      if reply.found then ({ slot with hold := .keeping (some (clock + slot.timing.heartbeat)) }, none)
      else ({ slot with hold := .gone }, none)
    | _ => (slot, none)
  | .collect | .takeOver => (slot, none)

/-- What the coroutine makes of an exception; a cancellation passes through it. -/
def Slot.failed (errand : Errand) (cancelled : Bool) : Slot × Sends :=
  match errand with
  | .acquire =>
    match slot.stage with
    | .acquiring _ _ none => ({ slot with stage := .refused }, none)
    | _ => (slot, none)
  | .confirm => ({ slot with calling := false, fenced := slot.fenced || !cancelled }, none)
  | .mark =>
    if cancelled then ({ slot with calling := false }, none)
    else ({ slot with calling := false, keptSession := slot.session }.stopHeartbeat).startHold
  | .bind _ | .recordVersion | .release => ({ slot with calling := false }, none)
  | .beat =>
    match slot.beat with
    | .renewing => if cancelled then (slot.stopHeartbeat, none) else (slot.nextBeat clock, none)
    | _ => (slot, none)
  | .hold =>
    match slot.hold with
    | .marking | .renewing | .acquiring =>
      if cancelled then ({ slot with hold := .gone }, none)
      else ({ slot with hold := .paused (clock + slot.timing.heartbeat) }, none)
    | .keeping none =>
      if cancelled then ({ slot with hold := .gone }, none)
      else ({ slot with hold := .keeping (some (clock + slot.timing.heartbeat)) }, none)
    | _ => (slot, none)
  | .collect | .takeOver => (slot, none)

/-- What `confirm` knows without asking the database: it refused before, or the lease's own deadline has come. -/
def Slot.Refuses : Prop := slot.fenced = true ∨ slot.confirmed + slot.timing.ttl ≤ clock

instance : Decidable (slot.Refuses clock) := inferInstanceAs (Decidable (_ ∨ _))

/-- `confirm` up to its statement. -/
def Slot.confirm : Slot × Sends :=
  if slot.Refuses clock then ({ slot with fenced := true }, none)
  else ({ slot with calling := true }, some (.confirm, .renew slot.timing.ttl))

/-- `record_version` up to its statement. -/
def Slot.recordVersion (version : ℤ) : Slot × Sends :=
  if slot.session.isSome then ({ slot with calling := true }, some (.recordVersion, .recordVersion version))
  else (slot, none)

end Coroutines

/-! ### The steps -/

def SlotWorld.clock (w : SlotWorld) (setup : SlotSetup) : ℤ := w.now + setup.offset

def SlotWorld.ran (w : SlotWorld) (result : Slot × Sends) : SlotWorld :=
  { w with
    slots := w.slots.put result.1
    flights := w.flights ++ (result.2.map fun (errand, order) =>
      (⟨⟨result.1.kind, result.1.holder, order⟩, some errand, w.clock result.1.toSlotSetup, none⟩ : Flight)).toList }

inductive SlotEvent
  | tick (elapsed : ℕ)
  | new (holder : Uuid) (kind : ConnectionKind) (timing : SlotTiming) (offset : ℤ)
  | acquire (holder : Uuid) (wait : ℤ)
  | acquireAgain (holder : Uuid)
  | beat (holder : Uuid)
  | bind (holder session handle : Uuid) (version : ℤ)
  | confirm (holder : Uuid)
  | recordVersion (holder : Uuid) (version : ℤ)
  | keep (holder : Uuid)
  | release (holder : Uuid)
  | hold (holder : Uuid)
  | collect (holder : Uuid) (order : LeaseOrder)
  | collected (holder : Uuid)
  | takeOver (holder : Uuid) (kind : ConnectionKind) (previous : Uuid) (ttl : ℤ)
  | keeperSends (holder : Uuid) (order : LeaseOrder)
  | execute (flight : ℕ)
  | answer (flight : ℕ)
  | fail (flight : ℕ) (cancelled : Bool)

/-- What a collector sends for the holder of a bound slot. -/
def LeaseOrder.collects : LeaseOrder → Bool
  | .renew _ | .recordResult _ | .finish _ => true
  | _ => false

def Slot.idle (slot : Slot) : Bool := decide (slot.stage = .held) && !slot.calling

def Slot.collectable (slot : Slot) : Bool :=
  match slot.hold with
  | .keeping _ | .gone => true
  | _ => false

namespace SlotWorld

variable (w : SlotWorld)

def run (holder : Uuid) (go : Slot → Option (Slot × Sends)) : Option SlotWorld :=
  (w.slots.get holder).bind fun slot => (go slot).map w.ran

def call (holder : Uuid) (go : Slot → Slot × Sends) : Option SlotWorld :=
  w.run holder fun slot => if slot.idle then some (go slot) else none

def send (statement : LeaseStatement) (errand : Errand) : SlotWorld :=
  { w with flights := w.flights ++ [⟨statement, some errand, w.now, none⟩] }

/-- No slot and no keeper has the holder: `uuid4` gives each of them one of its own. -/
def isFresh (holder : Uuid) : Bool := (w.slots.get holder).isNone && (w.keepers.get holder).isNone

/-- The answer of a statement reaches who waits for it. -/
def deliver (flight : Flight) (errand : Errand) (reply : LeaseReply) : SlotWorld :=
  match w.slots.get flight.statement.holder with
  | some slot => w.ran (slot.answered (w.clock slot.toSlotSetup) errand flight.sent reply)
  | none =>
    match w.keepers.get flight.statement.holder with
    | some keeper =>
      if errand = .takeOver ∧ reply.found then { w with keepers := w.keepers.put { keeper with kept := true } }
      else w
    | none => w

def step : SlotEvent → Option SlotWorld
  | .tick elapsed => some { w with now := w.now + elapsed }
  | .new holder kind timing offset =>
    if w.isFresh holder then
      some { w with slots := w.slots.put { holder := holder, kind := kind, timing := timing, offset := offset } }
    else none
  | .acquire holder wait =>
    w.run holder fun slot =>
      if slot.stage = .fresh then
        some ({ slot with stage := .acquiring (w.clock slot.toSlotSetup + wait) firstRetry none },
          some (.acquire, .acquire slot.timing.ttl))
      else none
  | .acquireAgain holder =>
    w.run holder fun slot =>
      match slot.stage with
      | .acquiring deadline delay (some wake) =>
        if w.clock slot.toSlotSetup < wake then none
        else some ({ slot with stage := .acquiring deadline delay none },
          some (.acquire, .acquire slot.timing.ttl))
      | _ => none
  | .beat holder => w.run holder fun slot => slot.beatAwake (w.clock slot.toSlotSetup)
  | .bind holder session handle version =>
    w.call holder fun slot =>
      ({ slot with calling := true }, some (.bind session, .bind session handle version slot.timing.ttl))
  | .confirm holder => w.call holder fun slot => slot.confirm (w.clock slot.toSlotSetup)
  | .recordVersion holder version => w.call holder fun slot => slot.recordVersion version
  | .keep holder => w.run holder fun slot => if slot.stage = .held then some ({ slot with keep := true }, none) else none
  | .release holder => w.call holder fun slot => slot.release
  | .hold holder => w.run holder fun slot => slot.holdAwake (w.clock slot.toSlotSetup)
  | .collect holder order =>
    w.run holder fun slot =>
      if slot.collectable && order.collects then some (slot, some (.collect, order)) else none
  | .collected holder =>
    w.run holder fun slot => if slot.collectable then some ({ slot with hold := .gone }, none) else none
  | .takeOver holder kind previous ttl =>
    if w.isFresh holder then
      some ({ w with keepers := w.keepers.put { holder := holder, kind := kind } }.send
        ⟨kind, holder, .takeOver previous ttl⟩ .takeOver)
    else none
  | .keeperSends holder order =>
    (w.keepers.get holder).bind fun keeper =>
      if keeper.kept && order.collects then some (w.send ⟨keeper.kind, holder, order⟩ .collect) else none
  | .execute i =>
    w.flights[i]?.bind fun flight =>
      if flight.reply.isNone then
        let result := flight.statement.execute w.now w.tables
        some { w with tables := result.1, flights := w.flights.set i { flight with reply := some result.2 } }
      else none
  | .answer i =>
    w.flights[i]?.bind fun flight =>
      match flight.errand, flight.reply with
      | some errand, some reply => some ({ w with flights := w.flights.eraseIdx i }.deliver flight errand reply)
      | _, _ => none
  | .fail i cancelled =>
    w.flights[i]?.bind fun flight =>
      flight.errand.map fun errand =>
        let left := { w with flights := w.flights.set i { flight with errand := none } }
        match w.slots.get flight.statement.holder with
        | some slot => left.ran (slot.failed (w.clock slot.toSlotSetup) errand cancelled)
        | none => left

end SlotWorld

/-- The runs of the sessions and collection loops of any number of processes, from an empty table of slots. -/
def slotMachine : Machine SlotWorld SlotEvent where
  initial w := w.tables.leases.rows = [] ∧ w.slots.rows = [] ∧ w.keepers.rows = [] ∧ w.flights = []
  step := SlotWorld.step

end PawBackend.Connections
