/-
**The scheduler's state and its synchronous operations** (`compute/scheduler.py`).

Leases, waiters and futures are objects in the source; here a lease is an id into the heap `lease`, and a future is
named by its waiter's number.
-/

import PawBackend.Compute.Accounting
import PawBackend.Compute.Concurrency

namespace PawBackend.Compute

open Lib

/-- A reading of the monotonic clock, in seconds. -/
abbrev Time := ℚ

abbrev LeaseId := ℕ

abbrev WorkId := ℕ

/-- Admitted work. -/
structure Lease where
  resourceClass : ResourceClass
  deployment : Option String
  taskId : Option ℕ
  placement : Placement
  tokens : ℤ
  vramBytes : ℤ
  revoked : Bool
  grantedAt : Time
  released : Bool
  held : Option WorkId

def Lease.new (request : ComputeRequest) (placement : Placement) (tokens : ℤ) (now : Time) : Lease where
  resourceClass := request.resourceClass
  deployment := request.deployment
  taskId := request.taskId
  placement := placement
  tokens := tokens
  vramBytes := if placement = .localGpu then request.vramBytes else 0
  revoked := false
  grantedAt := now
  released := false
  held := none

def Lease.target (lease : Lease) : String := lease.deployment.getD ""

/-- What the scheduler keeps about one model. -/
structure Deployment where
  state : DeploymentState
  leases : Finset LeaseId := ∅
  reservedTokens : ℤ := 0
  reservedByClass : ResourceClass → ℤ := fun _ => 0
  pids : Option (Finset ℕ) := none
  observed : Option ℚ := none
  draining : Bool := false
  busy : Bool := false
  displaced : Bool := false
  retryAt : Option Time := none
  seenOnGpu : Bool := false

namespace Deployment

/-- Whether its footprint is reserved: on the GPU, being moved, or in an unknown state. -/
def countsOnGpu (entry : Deployment) : Bool :=
  entry.busy || decide (entry.state = .gpu) || decide (entry.state = .failed)

/-- Work is placed on its CPU copy now. -/
def onCpu (entry : Deployment) : Bool :=
  !entry.busy && !entry.draining && decide (entry.state = .cpu)

/-- `_reserve`: change the reservations by `tokens` (negative: give back). -/
def reserve (entry : Deployment) (cls : ResourceClass) (tokens : ℤ) : Deployment :=
  { entry with
    reservedTokens := entry.reservedTokens + tokens
    reservedByClass := Function.update entry.reservedByClass cls
      (entry.reservedByClass cls + tokens) }

end Deployment

inductive Future
  | pending
  | resolved (lease : LeaseId)
  | cancelled
  deriving DecidableEq, Repr

structure Waiter where
  request : ComputeRequest
  seq : ℕ
  last : Refusal
  waitedForVram : Bool

namespace Waiter

def note (waiter : Waiter) (refusal : Refusal) : Waiter :=
  { waiter with
    last := refusal
    waitedForVram := waiter.waitedForVram || decide (refusal = .insufficientFreeVram) }

def new (request : ComputeRequest) (seq : ℕ) (last : Refusal) : Waiter :=
  note ⟨request, seq, last, false⟩ last

/-- The order of the line: by class, then by arrival. -/
def le (first second : Waiter) : Prop :=
  classRank first.request.resourceClass < classRank second.request.resourceClass ∨
    classRank first.request.resourceClass = classRank second.request.resourceClass ∧
      first.seq ≤ second.seq

instance : DecidableRel le := fun first second => by unfold le; infer_instance

end Waiter

/-- What a call of the scheduler raises. -/
inductive ComputeError
  | invalidArgument (parameter : String)
  | unavailable (reason : Refusal)
  | exclusiveUnavailable (failure : ExclusiveFailure)
  deriving DecidableEq, Repr

structure State where
  deployments : String → Deployment
  lease : LeaseId → Lease
  nextLease : LeaseId
  device : Option GpuDevice
  processes : List GpuProcess
  sampledAt : Option Time
  probeFailing : Bool
  relief : Relief
  mode : SchedulerMode
  exclusive : Option LeaseId
  extraBaseline : ℤ
  pendingRelease : ℤ
  exclusivePending : Bool
  exclusiveWaitsForVram : Bool
  drained : Option Bool
  cloud : Finset LeaseId
  waiters : List Waiter
  futures : ℕ → Future
  refusedTasks : Finset ℕ
  nextSeq : ℕ
  callbacks : Finset (LeaseId × WorkId)
  workDone : WorkId → Bool

namespace State

/-- The scheduler as it is constructed. -/
def initial (cfg : ComputeConfig) : State where
  deployments name := { state := (cfg.spec name).initial }
  lease _ := ⟨.interactive, none, none, .cloud, 0, 0, false, 0, true, none⟩
  nextLease := 0
  device := none
  processes := []
  sampledAt := none
  probeFailing := false
  relief := .none
  mode := .normal
  exclusive := none
  extraBaseline := 0
  pendingRelease := 0
  exclusivePending := false
  exclusiveWaitsForVram := false
  drained := none
  cloud := ∅
  waiters := []
  futures _ := .pending
  refusedTasks := ∅
  nextSeq := 0
  callbacks := ∅
  workDone _ := false

def setEntry (s : State) (name : String) (entry : Deployment) : State :=
  { s with deployments := Function.update s.deployments name entry }

def setLease (s : State) (id : LeaseId) (lease : Lease) : State :=
  { s with lease := Function.update s.lease id lease }

/-! ### The reading -/

def freshDevice (cfg : ComputeConfig) (s : State) (now : Time) : Option GpuDevice :=
  match s.sampledAt, s.device with
  | some sampledAt, some device => if now - sampledAt ≤ cfg.probeMaxAgeSeconds then some device else none
  | _, _ => none

def sharedVram (cfg : ComputeConfig) (s : State) : ℤ :=
  (cfg.names.map fun name => ∑ id ∈ (s.deployments name).leases, (s.lease id).vramBytes).sum

/-- VRAM promised outside the models' footprints. -/
def extraReserved (cfg : ComputeConfig) (s : State) : ℤ :=
  match s.exclusive with
  | some id => s.pendingRelease + (s.lease id).vramBytes
  | none => s.pendingRelease + s.sharedVram cfg

def headroom (cfg : ComputeConfig) (device : GpuDevice) : ℤ :=
  headroomBytes device.totalBytes cfg.headroomMinBytes cfg.headroomFraction

/-- The room that must stay free after a model is brought back. -/
def margin (cfg : ComputeConfig) (device : GpuDevice) : ℤ :=
  cfg.restoreMarginBytes.getD (headroom cfg device)

/-- The models whose footprint is reserved. -/
def usages (cfg : ComputeConfig) (s : State) : List DeploymentUsage :=
  (cfg.ordered.filter fun name => (s.deployments name).countsOnGpu).map fun name =>
    ⟨(cfg.spec name).gpuBytes, (s.deployments name).pids⟩

/-- `_vram`: the view of the current reading, whose device is given. -/
def vram (cfg : ComputeConfig) (s : State) (device : GpuDevice) : VramView :=
  account device s.processes (s.usages cfg) (headroom cfg device) (s.extraReserved cfg)
    s.extraBaseline

/-- What is available over the current reading; `none` when there is no reading. -/
def available (cfg : ComputeConfig) (s : State) : Option ℤ :=
  s.device.map fun device => (s.vram cfg device).available

/-! ### Admission -/

def kv (cfg : ComputeConfig) (s : State) (name : String) : KvState where
  capacityTokens := (cfg.spec name).kvCapacityTokens
  reservedTokens := (s.deployments name).reservedTokens
  sequences := (s.deployments name).leases.card
  maxSequences := (cfg.spec name).maxSequences
  observedFraction := (s.deployments name).observed
  reservedByClass := some (s.deployments name).reservedByClass

/-- Whether a waiter of the same or a higher class stands in front of a new request. -/
def queuedAhead (s : State) (request : ComputeRequest) (gpu : Bool) : Bool :=
  let needsVram := gpu && decide (0 < request.vramBytes)
  s.waiters.any fun waiter =>
    decide (classRank waiter.request.resourceClass ≤ classRank request.resourceClass) &&
      ((needsVram && decide (waiter.last = .insufficientFreeVram)) ||
        (decide (waiter.request.deployment = request.deployment) &&
          (needsVram || decide (waiter.last ≠ .insufficientFreeVram))))

/-- The part of `_judge` after the model is found resident on the GPU and the reading fresh. -/
def judgeReading (cfg : ComputeConfig) (s : State) (device : GpuDevice) (request : ComputeRequest) :
    Option Refusal :=
  let cls := request.resourceClass
  let tokens := request.contextTokens
  if cls = .background ∧ Relief.backgroundStopped.level ≤ s.relief.level then
    some .backgroundPaused
  else if Relief.admissionSuppressed.level ≤ s.relief.level ∧ cls ≠ .interactive then
    some .admissionSuppressed
  else if Relief.contextReduced.level ≤ s.relief.level ∧
      ⌊((cfg.spec request.target).maxContextTokens : ℚ) * cfg.pressureContextFraction⌋ < tokens then
    some .contextReduced
  else
    match kvRefusal (s.kv cfg request.target) tokens cls cfg.kvSafety cfg.classCeilings with
    | some refusal => some refusal
    | none =>
      if freeVramAdmits (s.vram cfg device) request.vramBytes then none
      else some .insufficientFreeVram

def judge (cfg : ComputeConfig) (s : State) (now : Time) (request : ComputeRequest) (queue : Bool) :
    Option Refusal × Placement :=
  let entry := s.deployments request.target
  let spec := cfg.spec request.target
  let tokens := request.contextTokens
  if spec.maxContextTokens < tokens then (some .contextTooLong, .localGpu)
  else if !entry.onCpu ∧ spec.kvCapacityTokens ≠ 0 ∧
      usableTokens (s.kv cfg request.target) request.resourceClass cfg.kvSafety cfg.classCeilings <
        tokens then (some .contextTooLong, .localGpu)
  else if entry.onCpu then
    if queue ∧ s.queuedAhead request false then (some .queuedBehind, .localCpu)
    else if spec.maxSequences ≤ entry.leases.card then (some .sequencesFull, .localCpu)
    else (none, .localCpu)
  else if s.mode ≠ .normal then (some .exclusiveMode, .localGpu)
  else if entry.busy ∨ entry.draining ∨ entry.state ≠ .gpu then (some .notResident, .localGpu)
  else if queue ∧ s.queuedAhead request true then (some .queuedBehind, .localGpu)
  else
    match s.freshDevice cfg now with
    | none => (some .probeUnavailable, .localGpu)
    | some device => (s.judgeReading cfg device request, .localGpu)

/-- What a new waiter queued behind others waits for, as `pump` labels it. -/
def queuedReason (s : State) (request : ComputeRequest) (refusal : Refusal) : Refusal :=
  if refusal ≠ .queuedBehind then refusal
  else
    let ahead := (s.waiters.insertionSort Waiter.le).filter fun waiter =>
      decide (classRank waiter.request.resourceClass ≤ classRank request.resourceClass) &&
        decide (s.futures waiter.seq = .pending)
    match ahead.find? fun waiter =>
        decide (waiter.request.deployment = request.deployment) && waiter.last.capacity with
    | some waiter => waiter.last
    | none =>
      let needsVram := decide (0 < request.vramBytes) && !(s.deployments request.target).onCpu
      if needsVram && ahead.any fun waiter => decide (waiter.last = .insufficientFreeVram) then
        .insufficientFreeVram
      else refusal

/-! ### The leases -/

/-- `_rebase`: before the shared VRAM leases change. -/
def rebase (cfg : ComputeConfig) (s : State) (released : ℤ) : State :=
  match s.device with
  | some device =>
    let view := s.vram cfg device
    { s with
      extraBaseline := view.external + min released view.extraUse
      pendingRelease := s.pendingRelease + released }
  | none => { s with pendingRelease := s.pendingRelease + released }

def newLease (s : State) (lease : Lease) : State :=
  { s with lease := Function.update s.lease s.nextLease lease, nextLease := s.nextLease + 1 }

/-- `_grant` of a `CLOUD` placement. -/
def grantCloud (s : State) (request : ComputeRequest) (now : Time) : State :=
  { s.newLease (.new request .cloud 0 now) with cloud := insert s.nextLease s.cloud }

/-- `_grant` of an Exclusive request; the current reading's device is given. -/
def grantExclusive (cfg : ComputeConfig) (s : State) (device : GpuDevice) (request : ComputeRequest)
    (now : Time) : State :=
  { s.newLease (.new request .localGpu 0 now) with
    extraBaseline := (s.vram cfg device).external
    exclusive := some s.nextLease }

def grantTokens (cfg : ComputeConfig) (request : ComputeRequest) (placement : Placement) : ℤ :=
  if placement = .localGpu ∧ (cfg.spec request.target).kvCapacityTokens ≠ 0 then
    request.contextTokens
  else 0

/-- `_grant` of a shared request on its model. The lease's id is the state's `nextLease`. -/
def grantLocal (cfg : ComputeConfig) (s : State) (request : ComputeRequest) (placement : Placement)
    (now : Time) : State :=
  let tokens := grantTokens cfg request placement
  let lease := Lease.new request placement tokens now
  let rebased := if lease.vramBytes ≠ 0 then s.rebase cfg 0 else s
  let entry := rebased.deployments request.target
  (rebased.newLease lease).setEntry request.target
    ({ entry with leases := insert s.nextLease entry.leases }.reserve request.resourceClass tokens)

/-! ### The waiting line -/

/-- One pass of `_pump`: the state, the capacity refusal each blocked model's first waiter got, and
whether an earlier waiter waits for VRAM. -/
structure Pass where
  state : State
  blocked : String → Option Refusal
  vramBlocked : Bool

/-- `waiter.note(refusal)`. -/
def noteWaiter (s : State) (seq : ℕ) (refusal : Refusal) : State :=
  { s with waiters := s.waiters.map fun waiter =>
      if waiter.seq = seq then waiter.note refusal else waiter }

/-- `_drop`: take a waiter out of the line. -/
def dropWaiter (s : State) (seq : ℕ) : State :=
  { s with waiters := s.waiters.filter fun waiter => decide (waiter.seq ≠ seq) }

def needsVram (s : State) (request : ComputeRequest) : Bool :=
  decide (0 < request.vramBytes) && !(s.deployments request.target).onCpu

def admitWaiter (cfg : ComputeConfig) (s : State) (waiter : Waiter) (placement : Placement) (now : Time) :
    State :=
  { (s.dropWaiter waiter.seq).grantLocal cfg waiter.request placement now with
    futures := Function.update s.futures waiter.seq (.resolved s.nextLease) }

def pumpWaiter (cfg : ComputeConfig) (clock : ℕ → Time) (pass : Pass) (waiter : Waiter) : Pass :=
  let target := waiter.request.target
  if pass.state.futures waiter.seq ≠ .pending then pass
  else
    match pass.blocked target with
    | some refusal => { pass with state := pass.state.noteWaiter waiter.seq refusal }
    | none =>
      if pass.state.needsVram waiter.request ∧ pass.vramBlocked then
        { pass with state := pass.state.noteWaiter waiter.seq .insufficientFreeVram }
      else
        match pass.state.judge cfg (clock waiter.seq) waiter.request false with
        | (none, placement) =>
          { pass with state := pass.state.admitWaiter cfg waiter placement (clock waiter.seq) }
        | (some refusal, _) =>
          let noted := pass.state.noteWaiter waiter.seq refusal
          if refusal.capacity then
            { pass with state := noted, blocked := Function.update pass.blocked target (some refusal) }
          else if refusal = .insufficientFreeVram then
            { pass with state := noted, vramBlocked := true }
          else { pass with state := noted }

/-- `_pump`: admit the waiters that fit, highest class first, FIFO within a class. -/
def pump (cfg : ComputeConfig) (clock : ℕ → Time) (s : State) : State :=
  ((s.waiters.insertionSort Waiter.le).foldl (pumpWaiter cfg clock) ⟨s, fun _ => none, false⟩).state

/-! ### Resizing and releasing -/

def localGpuLeases (cfg : ComputeConfig) (s : State) : ℕ :=
  (cfg.names.map fun name => ((s.deployments name).leases.filter fun id =>
    (s.lease id).placement = .localGpu).card).sum

def resize (cfg : ComputeConfig) (clock : ℕ → Time) (s : State) (id : LeaseId) (contextTokens : ℤ) :
    Except ComputeError State :=
  let lease := s.lease id
  if ¬ (0 ≤ contextTokens ∧ contextTokens ≤ maxTokens) then .error (.invalidArgument "context_tokens")
  else if lease.released ∨ lease.resourceClass = .exclusive then .error (.invalidArgument "lease")
  else if lease.placement = .cloud then .ok s
  else if (cfg.spec lease.target).maxContextTokens < contextTokens then
    .error (.unavailable .contextTooLong)
  else if id ∉ (s.deployments lease.target).leases ∨ lease.placement ≠ .localGpu ∨
      (cfg.spec lease.target).kvCapacityTokens = 0 then .ok s
  else
    let change := contextTokens - lease.tokens
    let resized := (s.setLease id { lease with tokens := contextTokens }).setEntry lease.target
      ((s.deployments lease.target).reserve lease.resourceClass change)
    .ok (if change < 0 then resized.pump cfg clock else resized)

/-- Take a shared lease out of its model. -/
def giveBack (cfg : ComputeConfig) (s : State) (id : LeaseId) : State :=
  let lease := s.lease id
  if id ∈ (s.deployments lease.target).leases then
    let rebased := if lease.vramBytes ≠ 0 then s.rebase cfg lease.vramBytes else s
    let entry := rebased.deployments lease.target
    rebased.setEntry lease.target
      ({ entry with leases := entry.leases.erase id }.reserve lease.resourceClass (-lease.tokens))
  else s

/-- The part of `_release` before the drain is told and the waiters admitted. -/
def discard (cfg : ComputeConfig) (s : State) (id : LeaseId) : State :=
  let marked := s.setLease id { s.lease id with released := true }
  if (s.lease id).placement = .cloud then { marked with cloud := s.cloud.erase id }
  else if s.exclusive = some id then
    { marked with exclusive := none, mode := .normal, refusedTasks := ∅ }
  else marked.giveBack cfg id

def signalDrained (cfg : ComputeConfig) (s : State) : State :=
  if s.drained.isSome ∧ s.localGpuLeases cfg = 0 then { s with drained := some true } else s

/-- `_release`. Idempotent. -/
def release (cfg : ComputeConfig) (clock : ℕ → Time) (s : State) (id : LeaseId) : State :=
  if (s.lease id).released then s
  else ((s.discard cfg id).signalDrained cfg).pump cfg clock

end State

end PawBackend.Compute
