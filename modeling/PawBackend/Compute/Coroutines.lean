/-
**The scheduler's coroutines** (`compute/scheduler.py`: `refresh`, `_sample`, `_perform_sampling`,
`acquire`, `_acquire_exclusive`).

Everything happens on one event loop, so a run is a sequence of synchronous sections: the start of a
call, or what a suspended coroutine does when what it awaits has come (`resume`). A `Pc` says where a
coroutine is suspended, with the local variables it still needs; `turn` is one section of it.

* `_sample` is a coroutine of its own inside its callers (`Sampling`, `sampleTurn`). The awaits of
  `_inspect` and `_observe_unit` for one model are one.
* `_perform` under `_perform_sampling` is a task of its own, which its parent never outlives, not even
  when it is cancelled: it is a component of the parent's `Pc` (`Child`).
* A coroutine holds the control lock exactly in the `Pc`s of `holdsLock`. A request of it always suspends here.
-/

import PawBackend.Compute.Residency
import PawBackend.Lib.Machine

namespace PawBackend.Compute

open Lib

abbrev TaskId := ℕ

/-- What a model said about its processes and its KV use. -/
abbrev Inspection := Option (Finset ℕ) × Option ℚ

/-- `_inspect`'s checks of the two answers. -/
def inspection (pids : Option (Finset ℕ)) (observed : Option ℚ) : Inspection :=
  (pids.filter fun pids => decide (∀ pid ∈ pids, 0 < pid),
    observed.filter fun observed => decide (0 ≤ observed ∧ observed ≤ 1))

/-- A reading that is not published yet; `carried` is `_pending_release` when it started. -/
structure Reading where
  carried : ℤ
  device : GpuDevice
  processes : List GpuProcess
  sampledAt : Time

/-- Where `_sample` is suspended: at the probe, or at the questions about one model. -/
inductive Sampling
  | probe (carried : ℤ)
  | inspect (reading : Reading) (current : String) (rest : List String)
      (inspected : List (String × Inspection))

def Sampling.carried : Sampling → ℤ
  | .probe carried => carried
  | .inspect reading _ _ _ => reading.carried

/-- What an awaited thing comes to. -/
inductive Answer
  | proceed
  | timer
  | probed (sample : Option GpuSample)
  | inspected (pids : Option (Finset ℕ)) (observed : Option ℚ)
  | pids (pids : Option (Finset ℕ))
  | started
  | acted (ok : Bool)
  | actionCancelled
  | cancelled

/-- The task of a model action: not started, running, or ended. -/
inductive Child
  | unstarted
  | running
  | ended
  deriving DecidableEq, Repr

/-- Where `_perform_sampling` is: waiting for the action, reading the probe, or waiting for the
cancelled action to end. -/
inductive Position
  | waiting
  | sampling (at_ : Sampling)
  | unwinding

/-- The local variables of an Exclusive request. -/
structure Job where
  request : ComputeRequest
  deadline : Time
  drainSeconds : Option Time

structure Drain where
  job : Job
  started : Time
  deadline : Time
  waited : Bool

structure Verify where
  job : Job
  moved : List String
  deadline : Time

/-- Where a coroutine is suspended. -/
inductive Pc
  | acquireWait (seq : ℕ) (request : ComputeRequest) (placement : Placement)
  | refreshLock
  | refreshSample (at_ : Sampling)
  | refreshAct (action : Action) (child : Child) (position : Position)
  | startLock (job : Job)
  | startSample (job : Job) (at_ : Sampling)
  | roomSleep (job : Job)
  | roomLock (job : Job)
  | roomSample (job : Job) (at_ : Sampling)
  | drainWait (drain : Drain)
  | drainedLock (drain : Drain)
  | drainedSample (drain : Drain) (at_ : Sampling)
  | emptying (job : Job) (action : Action) (rest : List String) (moved : List String)
  | verifySample (verify : Verify) (at_ : Sampling)
  | freedAsk (verify : Verify) (current : String) (rest : List String) (onGpu : Finset ℕ)
  | verifySleep (verify : Verify)

namespace Pc

/-- The sections inside `async with self._control_lock`. -/
def holdsLock : Pc → Bool
  | .refreshSample _ | .refreshAct _ _ _ | .startSample _ _ | .roomSample _ _ | .drainedSample _ _
  | .emptying _ _ _ _ | .verifySample _ _ | .freedAsk _ _ _ _ | .verifySleep _ => true
  | _ => false

def asksLock : Pc → Bool
  | .refreshLock | .startLock _ | .roomLock _ | .drainedLock _ => true
  | _ => false

/-- The places of `_acquire_exclusive`. -/
def isExclusive : Pc → Bool
  | .acquireWait _ _ _ | .refreshLock | .refreshSample _ | .refreshAct _ _ _ => false
  | _ => true

/-- The reading in progress. -/
def sampling : Pc → Option Sampling
  | .refreshSample at_ | .startSample _ at_ | .roomSample _ at_ | .drainedSample _ at_
  | .verifySample _ at_ => some at_
  | .refreshAct _ _ (.sampling at_) => some at_
  | _ => none

end Pc

/-- What a call comes to. -/
inductive Outcome
  | lease (id : LeaseId)
  | status
  | error (error : ComputeError)
  | assertion
  | cancelled
  deriving DecidableEq, Repr

inductive Turn
  | waits (state : State) (pc : Pc)
  | ends (state : State) (outcome : Outcome)

namespace Turn

def state : Turn → State
  | .waits state _ | .ends state _ => state

def pc : Turn → Option Pc
  | .waits _ pc => some pc
  | .ends _ _ => none

end Turn

namespace State

variable (cfg : ComputeConfig) (hasControl : Bool) (clock : ℕ → Time) (now : Time)

/-! ### Reading the probe -/

def beginSample (s : State) : Sampling := .probe s.pendingRelease

def loseSample (s : State) : State :=
  { s with probeFailing := true, sampledAt := none, device := none, processes := [] }

/-- `_reconcile`: a model held on the GPU whose runtime has no process is unloaded, when nothing
uses it. -/
def reconcile (entry : Deployment) : Deployment :=
  if entry.state = .gpu ∧ entry.pids = some ∅ ∧ entry.leases = ∅ ∧ ¬ entry.draining then
    { entry with state := .unloaded }
  else entry

def publishEntry (processes : List GpuProcess) (inspected : List (String × Inspection))
    (name : String) (entry : Deployment) : Deployment :=
  if entry.busy then entry
  else if !entry.countsOnGpu then
    { entry with pids := some ∅, observed := none, seenOnGpu := false }
  else
    match inspected.lookup name with
    | none => entry
    | some (pids, observed) =>
      reconcile { entry with
        pids := pids
        observed := observed
        seenOnGpu := pids.any fun pids => processes.any fun process => decide (process.pid ∈ pids) }

/-- The reading and what the models said become visible together. -/
def showReading (s : State) (reading : Reading) (inspected : List (String × Inspection)) : State :=
  { s with
    probeFailing := false
    device := some reading.device
    processes := reading.processes
    sampledAt := some reading.sampledAt
    deployments := fun name =>
      if name ∈ cfg.names then publishEntry reading.processes inspected name (s.deployments name)
      else s.deployments name }

def confirmReleases (s : State) (reading : Reading) : State :=
  if reading.carried ≠ 0 then
    let view := s.vram cfg reading.device
    { s with
      extraBaseline := view.external + min reading.carried view.extraUse
      pendingRelease := s.pendingRelease - reading.carried }
  else s

def publish (s : State) (reading : Reading) (inspected : List (String × Inspection)) : State :=
  (s.showReading cfg reading inspected).confirmReleases cfg reading

/-- The next model to be asked, or all there is to publish. -/
def nextInspection (s : State) (reading : Reading) :
    List (String × Inspection) → List String → Sampling ⊕ List (String × Inspection)
  | inspected, [] => .inr inspected
  | inspected, name :: rest =>
    if !(s.deployments name).busy ∧ (s.deployments name).countsOnGpu then
      if hasControl then .inl (.inspect reading name rest inspected)
      else nextInspection s reading ((name, none, none) :: inspected) rest
    else nextInspection s reading inspected rest

/-- Go on asking the models, and publish when all have answered. -/
def advance (s : State) (reading : Reading) (inspected : List (String × Inspection))
    (rest : List String) : State × Option Sampling :=
  match s.nextInspection hasControl reading inspected rest with
  | .inl at_ => (s, some at_)
  | .inr inspected => (s.publish cfg reading inspected, none)

/-- One section of `_sample`; no `Sampling` is left once it has ended. -/
def sampleTurn (s : State) : Sampling → Answer → Option (State × Option Sampling)
  | .probe carried, .probed sample =>
    match sample with
    | none => some (s.loseSample, none)
    | some sample =>
      match sample.device cfg.gpuIndex with
      | none => some (s.loseSample, none)
      | some device =>
        some (s.advance cfg hasControl ⟨carried, device, sample.processesOn device, now⟩ []
          cfg.ordered)
  | .inspect reading current rest inspected, .inspected pids observed =>
    some (s.advance cfg hasControl reading ((current, inspection pids observed) :: inspected) rest)
  | _, _ => none

/-! ### Shared requests -/

def noteRefused (s : State) (request : ComputeRequest) (placement : Placement) (refusal : Refusal) :
    State :=
  match request.taskId with
  | some taskId =>
    if placement = .localGpu ∧ ¬ refusal.permanent ∧ s.mode ≠ .normal then
      { s with refusedTasks := insert taskId s.refusedTasks }
    else s
  | none => s

def toCloud (s : State) (request : ComputeRequest) : Turn :=
  .ends (s.grantCloud request now) (.lease s.nextLease)

def refuse (s : State) (request : ComputeRequest) (placement : Placement) (refusal : Refusal) : Turn :=
  .ends (s.noteRefused request placement refusal) (.error (.unavailable refusal))

/-- `try_acquire` of a known request. -/
def tryAcquire (s : State) (request : ComputeRequest) : Turn :=
  match s.judge cfg now request true with
  | (none, placement) => .ends (s.grantLocal cfg request placement now) (.lease s.nextLease)
  | (some refusal, placement) => s.refuse request placement refusal

def enqueue (s : State) (request : ComputeRequest) (placement : Placement) (refusal : Refusal) : Turn :=
  .waits
    { s with
      waiters := s.waiters ++ [Waiter.new request s.nextSeq (s.queuedReason request refusal)]
      futures := Function.update s.futures s.nextSeq .pending
      nextSeq := s.nextSeq + 1 }
    (.acquireWait s.nextSeq request placement)

/-- `acquire` of a known shared request, up to its wait. -/
def acquireShared (s : State) (request : ComputeRequest) (timeout cloudAfter : Time) : Turn :=
  match s.judge cfg now request true with
  | (none, placement) => .ends (s.grantLocal cfg request placement now) (.lease s.nextLease)
  | (some refusal, placement) =>
    if refusal.permanent ∨ (request.allowCloud ∧ cloudAfter = 0) then
      if request.allowCloud then s.toCloud now request else s.refuse request placement refusal
    else if timeout = 0 then s.refuse request placement refusal
    else if cfg.maxWaiters ≤ s.waiters.length then
      if request.allowCloud then s.toCloud now request else s.refuse request placement .queueFull
    else s.enqueue request placement refusal

def lastRefusal (s : State) (seq : ℕ) : Refusal :=
  match s.waiters.find? fun waiter => decide (waiter.seq = seq) with
  | some waiter => waiter.last
  | none => .queuedBehind

/-- `acquire` after its wait ended, by its future or by its time limit. -/
def waitEnded (s : State) (seq : ℕ) (request : ComputeRequest) (placement : Placement) : Turn :=
  let dropped := s.dropWaiter seq
  match s.futures seq with
  | .resolved id => .ends dropped (.lease id)
  | _ =>
    let abandoned := { dropped with futures := Function.update s.futures seq .cancelled }
    if request.allowCloud then abandoned.toCloud now request
    else abandoned.refuse request placement (s.lastRefusal seq)

/-- `acquire` cancelled while it waited: a lease it was already granted is released. -/
def waitCancelled (s : State) (seq : ℕ) : Turn :=
  let dropped := s.dropWaiter seq
  match s.futures seq with
  | .resolved id => .ends (dropped.release cfg clock id) .cancelled
  | _ => .ends dropped .cancelled

/-! ### Refresh -/

/-- The end of `refresh`: the waiters that fit are admitted. -/
def finishRefresh (s : State) : Turn := .ends (s.pump cfg clock) .status

/-- `refresh` after its reading. -/
def refreshSampled (s : State) : Turn :=
  match s.mode, s.freshDevice cfg now with
  | .normal, some device =>
    match s.decideAction cfg hasControl device now with
    | (decided, some action) => .waits decided (.refreshAct action .unstarted .waiting)
    | (decided, none) => decided.finishRefresh cfg clock
  | _, _ => s.finishRefresh cfg clock

/-- The end of a command of the model control under `refresh`. -/
def acted (s : State) (action : Action) (ok : Bool) : State :=
  ((if ok then s.performOk action else s.performFailed cfg action now)).runAfter cfg action

/-- One section of `_perform_sampling` or of the task of its action. -/
def actTurn (s : State) (action : Action) : Child → Position → Answer → Option Turn
  | .unstarted, .waiting, .started =>
    some (.waits (s.performStart action) (.refreshAct action .running .waiting))
  | .unstarted, .sampling at_, .started =>
    some (.waits (s.performStart action) (.refreshAct action .running (.sampling at_)))
  | .running, position, .acted ok =>
    some (.waits (s.acted cfg now action ok) (.refreshAct action .ended position))
  | .running, .unwinding, .actionCancelled =>
    some (.waits (s.performFailed cfg action now) (.refreshAct action .ended .unwinding))
  | .unstarted, .unwinding, .actionCancelled =>
    some (.waits s (.refreshAct action .ended .unwinding))
  | .ended, .unwinding, .proceed => some (.ends s .cancelled)
  | .ended, .waiting, .proceed => some (s.finishRefresh cfg clock)
  | .ended, .waiting, .timer => some (s.finishRefresh cfg clock)
  | .ended, .waiting, .cancelled => some (.ends s .cancelled)
  | .ended, .sampling _, .cancelled => some (.ends s .cancelled)
  | child, .waiting, .timer =>
    some (.waits s (.refreshAct action child (.sampling s.beginSample)))
  | child, .waiting, .cancelled => some (.waits s (.refreshAct action child .unwinding))
  | child, .sampling _, .cancelled => some (.waits s (.refreshAct action child .unwinding))
  | child, .sampling at_, answer =>
    match s.sampleTurn cfg hasControl now at_ answer with
    | none => none
    | some (sampled, some at_) => some (.waits sampled (.refreshAct action child (.sampling at_)))
    | some (sampled, none) =>
      let pumped := sampled.pump cfg clock
      if child = .ended then some (pumped.finishRefresh cfg clock)
      else some (.waits pumped (.refreshAct action child .waiting))
  | _, _, _ => none

/-! ### Exclusive requests -/

/-- `_acquire_exclusive` ends with an exception: back to normal. -/
def failExclusive (s : State) (outcome : Outcome) : Turn :=
  .ends
    { ({ s with mode := .normal }).pump cfg clock with
      exclusivePending := false
      exclusiveWaitsForVram := false }
    outcome

def roomFailure (s : State) : Outcome :=
  .error (.exclusiveUnavailable
    (if (s.freshDevice cfg now).isSome then .notFreed else .probeUnavailable))

/-- Whether a fresh reading shows that the VRAM of a job would be free with every model unloaded. -/
def externalRoom (s : State) (request : ComputeRequest) : Bool :=
  (s.freshDevice cfg now).any fun device =>
    decide (request.vramBytes ≤ freeVramAfterEmptying (s.vram cfg device))

def beginDrain (s : State) (job : Job) : Turn :=
  let draining := { s with mode := .draining }
  let deadline := match job.drainSeconds with
    | none => job.deadline
    | some seconds => now + seconds
  if draining.localGpuLeases cfg = 0 then
    .waits draining (.drainedLock ⟨job, now, deadline, false⟩)
  else .waits { draining with drained := some false } (.drainWait ⟨job, now, deadline, true⟩)

/-- The head of the loop of `_await_external_room`. -/
def awaitRoom (s : State) (job : Job) : Turn :=
  if s.externalRoom cfg now job.request then
    ({ s with exclusiveWaitsForVram := false }).beginDrain cfg now job
  else
    let waiting := { s with exclusiveWaitsForVram := true }
    if job.deadline ≤ now then waiting.failExclusive cfg clock (s.roomFailure cfg now)
    else .waits waiting (.roomSleep job)

/-- The start of `_acquire_exclusive`. -/
def beginExclusive (s : State) (request : ComputeRequest) (waitSeconds : Time)
    (drainSeconds : Option Time) : Turn :=
  if s.mode ≠ .normal ∨ s.exclusivePending then .ends s (.error (.exclusiveUnavailable .busy))
  else
    .waits { s with exclusivePending := true }
      (.startLock ⟨request, now + waitSeconds, drainSeconds⟩)

/-- `_acquire_exclusive` after its first reading. -/
def startSampled (s : State) (job : Job) : Turn :=
  if (s.freshDevice cfg now).isNone then
    s.failExclusive cfg clock (.error (.exclusiveUnavailable .probeUnavailable))
  else if ¬ hasControl ∧ (cfg.ordered.any fun name => (s.deployments name).countsOnGpu) then
    s.failExclusive cfg clock (.error (.exclusiveUnavailable .cannotUnload))
  else s.awaitRoom cfg clock now job

/-- A poll of `_await_external_room` has its reading. -/
def roomSampled (s : State) (job : Job) : Turn :=
  if job.deadline ≤ now ∧ s.externalRoom cfg now job.request then
    s.failExclusive cfg clock (.error (.exclusiveUnavailable .notFreed))
  else s.awaitRoom cfg clock now job

/-- The GPU is emptied: its freeing is verified. -/
def beginVerify (s : State) (job : Job) (moved : List String) : Turn :=
  .waits s (.verifySample ⟨job, moved, now + cfg.verifyTimeoutSeconds⟩ s.beginSample)

/-- The loop of `_empty_gpu` over the models that are left. -/
def emptyNext (s : State) (job : Job) (moved : List String) : List String → Turn
  | [] => s.beginVerify cfg now job moved
  | name :: rest =>
    if (s.deployments name).countsOnGpu then
      let operation := if (cfg.spec name).cpuFallback then Operation.cpu else .unload
      let kept := s.setEntry name { s.deployments name with displaced := false }
      .waits (kept.performStart ⟨name, operation, .nothing⟩)
        (.emptying job ⟨name, operation, .nothing⟩ rest (moved ++ [name]))
    else emptyNext s job moved rest

/-- `_acquire_exclusive` after the drain and its reading. -/
def drainSampled (s : State) (drain : Drain) : Turn :=
  if drain.waited ∧ drain.deadline < now then s.failExclusive cfg clock (s.roomFailure cfg now)
  else if s.externalRoom cfg now drain.job.request then
    s.emptyNext cfg now drain.job [] cfg.emptyingOrder
  else
    let deadline := match drain.job.drainSeconds with
      | none => drain.job.deadline
      | some _ => drain.job.deadline + (now - drain.started)
    (({ s with mode := .normal }).pump cfg clock).awaitRoom cfg clock now
      { drain.job with deadline := deadline }

/-- The verification did not find the GPU empty. -/
def notFreedYet (s : State) (verify : Verify) : Turn :=
  if verify.deadline ≤ now then
    s.failExclusive cfg clock (.error (.exclusiveUnavailable .notFreed))
  else .waits s (.verifySleep verify)

def startExclusive (s : State) (device : GpuDevice) (verify : Verify) : Turn :=
  .ends
    { s.grantExclusive cfg device verify.job.request now with
      mode := .exclusive
      exclusivePending := false
      exclusiveWaitsForVram := false }
    (.lease s.nextLease)

/-- Every model was asked: the VRAM decides. -/
def concludeFreed (s : State) (verify : Verify) : Turn :=
  match s.device with
  | none => s.failExclusive cfg clock .assertion
  | some device =>
    if verify.job.request.vramBytes ≤ (s.vram cfg device).available then
      s.startExclusive cfg now device verify
    else s.notFreedYet cfg clock now verify

/-- The loop of `_freed` over the models that are left. -/
def askNext (s : State) (verify : Verify) (onGpu : Finset ℕ) : List String → Turn
  | [] => s.concludeFreed cfg clock now verify
  | name :: rest => .waits s (.freedAsk verify name rest onGpu)

/-- `_verify` after a reading. -/
def verifySampled (s : State) (verify : Verify) : Turn :=
  if (s.freshDevice cfg now).isNone ∨ (verify.moved ≠ [] ∧ ¬ hasControl) then
    s.notFreedYet cfg clock now verify
  else if hasControl then
    s.askNext cfg clock now verify (s.processes.map (·.pid)).toFinset cfg.ordered
  else s.concludeFreed cfg clock now verify

/-- One model was asked about its processes. -/
def freedAnswered (s : State) (verify : Verify) (current : String) (rest : List String)
    (onGpu : Finset ℕ) (pids : Option (Finset ℕ)) : Turn :=
  match pids with
  | none =>
    if current ∈ verify.moved then s.notFreedYet cfg clock now verify
    else s.askNext cfg clock now verify onGpu rest
  | some pids =>
    if (pids ∩ onGpu).Nonempty then s.notFreedYet cfg clock now verify
    else s.askNext cfg clock now verify onGpu rest

/-- A reading inside a coroutine: it goes on, or the coroutine does. -/
def sampleInside (s : State) (at_ : Sampling) (answer : Answer) (pc : Sampling → Pc)
    (sampled : State → Turn) : Option Turn :=
  (s.sampleTurn cfg hasControl now at_ answer).map fun result =>
    match result.2 with
    | some at_ => .waits result.1 (pc at_)
    | none => sampled result.1

/-- `_acquire_exclusive` is cancelled where it is suspended. -/
def exclusiveCancelled (s : State) : Pc → Turn
  | .drainWait _ => ({ s with drained := none }).failExclusive cfg clock .cancelled
  | .emptying _ action _ _ => (s.performFailed cfg action now).failExclusive cfg clock .cancelled
  | _ => s.failExclusive cfg clock .cancelled

/-- One section of a suspended coroutine; `none` for an answer that does not fit. -/
def turn (s : State) (pc : Pc) (answer : Answer) : Option Turn :=
  match pc, answer with
  | .acquireWait seq _ _, .cancelled => some (s.waitCancelled cfg clock seq)
  | .acquireWait seq request placement, .timer => some (s.waitEnded now seq request placement)
  | .acquireWait seq request placement, .proceed =>
    if s.futures seq = .pending then none else some (s.waitEnded now seq request placement)
  | .refreshLock, .cancelled => some (.ends s .cancelled)
  | .refreshLock, .proceed => some (.waits s (.refreshSample s.beginSample))
  | .refreshSample _, .cancelled => some (.ends s .cancelled)
  | .refreshSample at_, answer =>
    s.sampleInside cfg hasControl now at_ answer .refreshSample
      fun s => s.refreshSampled cfg hasControl clock now
  | .refreshAct action child position, answer =>
    s.actTurn cfg hasControl clock now action child position answer
  | pc, .cancelled => some (s.exclusiveCancelled cfg clock now pc)
  | .startLock job, .proceed => some (.waits s (.startSample job s.beginSample))
  | .startSample job at_, answer =>
    s.sampleInside cfg hasControl now at_ answer (.startSample job)
      fun s => s.startSampled cfg hasControl clock now job
  | .roomSleep job, .timer => some (.waits s (.roomLock job))
  | .roomLock job, .proceed => some (.waits s (.roomSample job s.beginSample))
  | .roomSample job at_, answer =>
    s.sampleInside cfg hasControl now at_ answer (.roomSample job)
      fun s => s.roomSampled cfg clock now job
  | .drainWait drain, .proceed =>
    if s.drained = some true then some (.waits { s with drained := none } (.drainedLock drain))
    else none
  | .drainWait _, .timer =>
    some (({ s with drained := none }).failExclusive cfg clock
      (.error (.exclusiveUnavailable .drainTimeout)))
  | .drainedLock drain, .proceed => some (.waits s (.drainedSample drain s.beginSample))
  | .drainedSample drain at_, answer =>
    s.sampleInside cfg hasControl now at_ answer (.drainedSample drain)
      fun s => s.drainSampled cfg clock now drain
  | .emptying job action rest moved, .acted true =>
    some ((s.performOk action).emptyNext cfg now job moved rest)
  | .emptying _ action _ _, .acted false =>
    some ((s.performFailed cfg action now).failExclusive cfg clock
      (.error (.exclusiveUnavailable .cannotUnload)))
  | .verifySample verify at_, answer =>
    s.sampleInside cfg hasControl now at_ answer (.verifySample verify)
      fun s => s.verifySampled cfg hasControl clock now verify
  | .freedAsk verify current rest onGpu, .pids pids =>
    some (s.freedAnswered cfg clock now verify current rest onGpu pids)
  | .verifySleep verify, .timer => some (.waits s (.verifySample verify s.beginSample))
  | _, _ => none

/-! ### The other calls -/

/-- `ComputeLease.release`: it waits for the work of `hold_until`. -/
def releaseLease (s : State) (id : LeaseId) : State :=
  match (s.lease id).held with
  | some work => if s.workDone work then s.release cfg clock id else s
  | none => s.release cfg clock id

def holdUntil (s : State) (id : LeaseId) (work : WorkId) : State :=
  if s.workDone work then s
  else
    { s.setLease id { s.lease id with held := some work } with
      callbacks := insert (id, work) s.callbacks }

def forceReleaseExclusive (s : State) : State :=
  match s.exclusive with
  | none => s
  | some id => (s.setLease id { s.lease id with revoked := true }).release cfg clock id

/-- `acquire`, up to its first suspension. -/
def acquire (s : State) (request : ComputeRequest) (waitSeconds cloudAfter : Time)
    (drainSeconds : Option Time) : Turn :=
  if ¬ request.known cfg then .ends s (.error (.invalidArgument "deployment"))
  else if request.resourceClass = .exclusive then
    s.beginExclusive now request waitSeconds drainSeconds
  else s.acquireShared cfg now request waitSeconds cloudAfter

end State

/-! ### The system -/

/-- The scheduler, its control lock and the suspended coroutines. -/
structure System where
  sched : State
  lock : Option TaskId
  tasks : TaskId → Option Pc

/-- What can happen next. -/
inductive Event
  | acquire (task : TaskId) (request : ComputeRequest) (waitSeconds cloudAfter : Time)
      (drainSeconds : Option Time)
  | tryAcquire (request : ComputeRequest)
  | refresh (task : TaskId)
  | release (id : LeaseId)
  | resize (id : LeaseId) (contextTokens : ℤ)
  | holdUntil (id : LeaseId) (work : WorkId)
  | workEnds (work : WorkId)
  | callback (id : LeaseId) (work : WorkId)
  | forceReleaseExclusive
  | revokeLocalGpu
  | resume (task : TaskId) (answer : Answer)

/-- An event at a time: `now` in its section, `clock` in its pass over the waiting line. -/
structure Tick where
  now : Time
  clock : ℕ → Time
  event : Event

namespace System

variable (cfg : ComputeConfig) (hasControl : Bool)

def initial : System where
  sched := .initial cfg
  lock := none
  tasks _ := none

/-- The end of a section of a task: the lock follows where the task is now. -/
def put (y : System) (task : TaskId) (turn : Turn) : System where
  sched := turn.state
  tasks := Function.update y.tasks task turn.pc
  lock :=
    if turn.pc.any Pc.holdsLock then some task
    else if y.lock = some task then none
    else y.lock

/-- A suspended task goes on. The lock is granted only while nobody holds it. -/
def resume (y : System) (now : Time) (clock : ℕ → Time) (task : TaskId) (answer : Answer) :
    Option System :=
  match y.tasks task with
  | none => none
  | some pc =>
    match answer with
    | .proceed =>
      if pc.asksLock ∧ y.lock ≠ none then none
      else (y.sched.turn cfg hasControl clock now pc .proceed).map (y.put task)
    | answer => (y.sched.turn cfg hasControl clock now pc answer).map (y.put task)

/-- One event of a run; `none` when it cannot happen. -/
def step (y : System) (tick : Tick) : Option System :=
  let s := y.sched
  match tick.event with
  | .acquire task request waitSeconds cloudAfter drainSeconds =>
    if y.tasks task = none then
      some (y.put task (s.acquire cfg tick.now request waitSeconds cloudAfter drainSeconds))
    else none
  | .tryAcquire request =>
    if request.known cfg ∧ request.resourceClass ≠ .exclusive then
      some { y with sched := (s.tryAcquire cfg tick.now request).state }
    else none
  | .refresh task => if y.tasks task = none then some (y.put task (.waits s .refreshLock)) else none
  | .release id => some { y with sched := s.releaseLease cfg tick.clock id }
  | .resize id tokens =>
    match s.resize cfg tick.clock id tokens with
    | .ok resized => some { y with sched := resized }
    | .error _ => some y
  | .holdUntil id work => some { y with sched := s.holdUntil id work }
  | .workEnds work =>
    some { y with sched := { s with workDone := Function.update s.workDone work true } }
  | .callback id work =>
    if (id, work) ∈ s.callbacks ∧ s.workDone work then
      some { y with sched := s.release cfg tick.clock id }
    else none
  | .forceReleaseExclusive => some { y with sched := s.forceReleaseExclusive cfg tick.clock }
  | .revokeLocalGpu => some { y with sched := s.revokeLocalGpu cfg }
  | .resume task answer => y.resume cfg hasControl tick.now tick.clock task answer

/-- The runs of the scheduler. -/
def machine : Machine System Tick where
  initial y := y = initial cfg
  step y tick := y.step cfg hasControl tick

end System

end PawBackend.Compute
