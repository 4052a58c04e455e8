/-
**Relief and residency** (`compute/scheduler.py`, "relief and residency").

At a fresh reading in normal mode a refresh takes at most one action: under pressure the next relief step, with room
again the reverse, else the load of a model its residency policy wants on the GPU (`decideAction`).
-/

import PawBackend.Compute.Scheduler

namespace PawBackend.Compute

/-- What a model action does. -/
inductive Operation
  | gpu
  | cpu
  | unload
  deriving DecidableEq, Repr

def Operation.state : Operation → DeploymentState
  | .gpu => .gpu
  | .cpu => .cpu
  | .unload => .unloaded

inductive AfterAction
  | nothing
  | displaced (roles : List ModelRole) (relief : Relief)
  | broughtBack (roles : List ModelRole) (relief : Relief)
  deriving DecidableEq, Repr

structure Action where
  deployment : String
  operation : Operation
  after : AfterAction := .nothing
  deriving DecidableEq, Repr

namespace State

/-- `_revoke`: ask the holders of the leases with a property to stop. -/
def revoke (cfg : ComputeConfig) (s : State) (asked : Lease → Bool) : State :=
  { s with lease := fun id =>
      if (∃ name ∈ cfg.names, id ∈ (s.deployments name).leases) ∧ asked (s.lease id) then
        { s.lease id with revoked := true }
      else s.lease id }

def revokeLocalGpu (cfg : ComputeConfig) (s : State) : State :=
  s.revoke cfg fun lease => decide (lease.placement = .localGpu) && !lease.released

def displaceable (cfg : ComputeConfig) (s : State) (roles : List ModelRole) (name : String) : Bool :=
  let spec := cfg.spec name
  decide (spec.role ∈ roles) && decide ((s.deployments name).state = .gpu) &&
    (decide (spec.role = .memoryWorker) || spec.cpuFallback || decide (spec.residency = .ifRoom))

/-- The models a relief step may move. -/
def targets (cfg : ComputeConfig) (s : State) (roles : List ModelRole) : List String :=
  cfg.ordered.filter fun name => !(s.deployments name).busy && s.displaceable cfg roles name

/-- Stop admissions to a model that is about to be moved, and ask its work to stop. -/
def startDraining (s : State) (name : String) : State :=
  let entry := s.deployments name
  if entry.draining then s
  else
    { s.setEntry name { entry with draining := true } with
      lease := fun id =>
        if id ∈ entry.leases then { s.lease id with revoked := true } else s.lease id }

def displace (cfg : ComputeConfig) (hasControl : Bool) (s : State) (roles : List ModelRole)
    (after : Relief) : State × Option Action :=
  let targets := s.targets cfg roles
  if ¬ hasControl ∨ targets = [] then ({ s with relief := after }, none)
  else
    let draining := targets.foldl startDraining s
    match targets.filter fun name => decide ((s.deployments name).leases = ∅) with
    | [] => (draining, none)
    | name :: _ =>
      let operation := if (cfg.spec name).cpuFallback then Operation.cpu else .unload
      (draining, some ⟨name, operation, .displaced roles after⟩)

def relieve (cfg : ComputeConfig) (hasControl : Bool) (s : State) : State × Option Action :=
  match s.relief with
  | .none =>
    (State.revoke cfg { s with relief := .backgroundStopped } fun lease =>
      decide (lease.resourceClass = .background) && decide (lease.placement = .localGpu), none)
  | .backgroundStopped => s.displace cfg hasControl [.memoryWorker] .memoryWorkerUnloaded
  | .memoryWorkerUnloaded => s.displace cfg hasControl supportRoles .supportOnCpu
  | relief =>
    if relief.level < Relief.mainChangeNeeded.level then ({ s with relief := relief.next }, none)
    else (s, none)

/-- The models of some roles a relief step moved off the GPU. -/
def awaitingReturn (cfg : ComputeConfig) (s : State) (roles : List ModelRole) : List String :=
  cfg.ordered.filter fun name =>
    let entry := s.deployments name
    decide ((cfg.spec name).role ∈ roles) && entry.displaced && !entry.busy &&
      (decide (entry.state = .cpu) || decide (entry.state = .unloaded))

def bringBack (cfg : ComputeConfig) (hasControl : Bool) (s : State) (device : GpuDevice)
    (roles : List ModelRole) (view : VramView) (after : Relief) : State × Option Action :=
  if ¬ hasControl then ({ s with relief := after }, none)
  else
    match s.awaitingReturn cfg roles with
    | [] => ({ s with relief := after }, none)
    | name :: _ =>
      if view.available - (cfg.spec name).gpuBytes < margin cfg device then (s, none)
      else (s, some ⟨name, .gpu, .broughtBack roles after⟩)

def restore (cfg : ComputeConfig) (hasControl : Bool) (s : State) (device : GpuDevice)
    (view : VramView) : State × Option Action :=
  if view.available < margin cfg device then (s, none)
  else if Relief.admissionSuppressed.level ≤ s.relief.level then
    ({ s with relief := s.relief.previous }, none)
  else if s.relief = .supportOnCpu then
    s.bringBack cfg hasControl device supportRoles view .memoryWorkerUnloaded
  else if s.relief = .memoryWorkerUnloaded then
    s.bringBack cfg hasControl device [.memoryWorker] view .backgroundStopped
  else ({ s with relief := .none }, none)

/-- The loop of `_fill` over the models that are left. -/
def fillFrom (cfg : ComputeConfig) (s : State) (device : GpuDevice) (view : VramView) (now : Time) :
    List String → State × Option Action
  | [] => (s, none)
  | name :: rest =>
    let entry := s.deployments name
    if entry.busy ∨ entry.state = .gpu then s.fillFrom cfg device view now rest
    else if entry.state = .failed ∧ entry.retryAt.any fun retryAt => decide (now < retryAt) then
      s.fillFrom cfg device view now rest
    else
      let need := (cfg.spec name).gpuBytes
      let room := view.available + if entry.countsOnGpu then need else 0
      let always := decide ((cfg.spec name).residency = .always)
      let floor := if always then 0 else margin cfg device
      if floor ≤ room - need then
        (s.setEntry name { entry with displaced := false }, some ⟨name, .gpu, .nothing⟩)
      else if always then (s, none)
      else s.fillFrom cfg device view now rest

def fill (cfg : ComputeConfig) (hasControl : Bool) (s : State) (device : GpuDevice)
    (view : VramView) (now : Time) : State × Option Action :=
  if hasControl then s.fillFrom cfg device view now cfg.ordered else (s, none)

/-- The pressure ended before a drained model was moved: keep it. -/
def stopDraining (cfg : ComputeConfig) (s : State) : State :=
  { s with deployments := fun name =>
      let entry := s.deployments name
      if name ∈ cfg.names ∧ entry.draining ∧ ¬ entry.busy then { entry with draining := false }
      else entry }

/-- `_decide`, over the device of the fresh reading. -/
def decideAction (cfg : ComputeConfig) (hasControl : Bool) (s : State) (device : GpuDevice)
    (now : Time) : State × Option Action :=
  let view := s.vram cfg device
  if view.underPressure then s.relieve cfg hasControl
  else
    let kept := s.stopDraining cfg
    if kept.relief ≠ .none then kept.restore cfg hasControl device view
    else kept.fill cfg hasControl device view now

/-! ### Running an action -/

def performStart (s : State) (action : Action) : State :=
  s.setEntry action.deployment { s.deployments action.deployment with busy := true }

def performOk (s : State) (action : Action) : State :=
  let state := action.operation.state
  s.setEntry action.deployment
    { s.deployments action.deployment with
      state := state
      seenOnGpu := decide (state = .gpu)
      retryAt := none
      pids := if state = .gpu then none else some ∅
      observed := none
      busy := false
      draining := false }

def performFailed (cfg : ComputeConfig) (s : State) (action : Action) (now : Time) : State :=
  s.setEntry action.deployment
    { s.deployments action.deployment with
      state := .failed
      pids := none
      seenOnGpu := false
      retryAt := some (now + cfg.failedRetrySeconds)
      busy := false
      draining := false }

/-- `action.then()`. -/
def runAfter (cfg : ComputeConfig) (s : State) (action : Action) : State :=
  let entry := s.deployments action.deployment
  match action.after with
  | .nothing => s
  | .displaced roles relief =>
    let moved := if entry.state ≠ .failed then
        s.setEntry action.deployment { entry with displaced := true }
      else s
    if moved.targets cfg roles = [] then { moved with relief := relief } else moved
  | .broughtBack roles relief =>
    let back := s.setEntry action.deployment { entry with displaced := false }
    if back.awaitingReturn cfg roles = [] then { back with relief := relief } else back

end State

end PawBackend.Compute
