/-
**The vocabulary of the compute scheduler and what it is configured with** (`compute/domain.py`,
`compute/config.py`, the request of `compute/scheduler.py`).

The closed enums are inductive types.
-/

import Mathlib.Data.List.Sort
import Mathlib.Data.Rat.Floor

namespace PawBackend.Compute

/-- What a request is for. -/
inductive ResourceClass
  | interactive
  | coding
  | support
  | background
  | exclusive
  deriving DecidableEq, Repr

/-- `CLASS_RANK`: lower is served first. Exclusive is not queued with the others; its value is never
asked for. -/
def classRank : ResourceClass → ℕ
  | .interactive => 0
  | .coding => 1
  | .support => 2
  | .background => 3
  | .exclusive => 4

def sharedClasses : List ResourceClass := [.interactive, .coding, .support, .background]

/-- Where admitted work runs. -/
inductive Placement
  | localGpu
  | localCpu
  | cloud
  deriving DecidableEq, Repr

inductive ModelRole
  | main
  | memoryWorker
  | embedding
  | reranker
  deriving DecidableEq, Repr

def supportRoles : List ModelRole := [.embedding, .reranker]

/-- `ROLE_ORDER`: the order in which models are loaded. -/
def roleOrder : ModelRole → ℕ
  | .main => 0
  | .memoryWorker => 1
  | .embedding => 2
  | .reranker => 3

/-- `_EXCLUSIVE_ORDER`: the order in which an Exclusive job empties the GPU. -/
def exclusiveOrder : ModelRole → ℕ
  | .memoryWorker => 0
  | .embedding => 1
  | .reranker => 2
  | .main => 3

/-- Whether a model is kept on the GPU or loaded while there is room. -/
inductive ResidencyPolicy
  | always
  | ifRoom
  deriving DecidableEq, Repr

/-- Where a deployment is; `failed` is an unknown place after a failed action. -/
inductive DeploymentState
  | gpu
  | cpu
  | unloaded
  | failed
  deriving DecidableEq, Repr

/-- How far VRAM pressure has been relieved, in the order of the requirements. -/
inductive Relief
  | none
  | backgroundStopped
  | memoryWorkerUnloaded
  | supportOnCpu
  | admissionSuppressed
  | contextReduced
  | mainChangeNeeded
  deriving DecidableEq, Repr

namespace Relief

/-- The value of the `IntEnum`. -/
def level : Relief → ℕ
  | .none => 0
  | .backgroundStopped => 1
  | .memoryWorkerUnloaded => 2
  | .supportOnCpu => 3
  | .admissionSuppressed => 4
  | .contextReduced => 5
  | .mainChangeNeeded => 6

/-- `Relief(relief + 1)`, asked below `mainChangeNeeded` only. -/
def next : Relief → Relief
  | .none => .backgroundStopped
  | .backgroundStopped => .memoryWorkerUnloaded
  | .memoryWorkerUnloaded => .supportOnCpu
  | .supportOnCpu => .admissionSuppressed
  | .admissionSuppressed => .contextReduced
  | .contextReduced => .mainChangeNeeded
  | .mainChangeNeeded => .mainChangeNeeded

/-- `Relief(relief - 1)`, asked from `admissionSuppressed` on only. -/
def previous : Relief → Relief
  | .none => .none
  | .backgroundStopped => .none
  | .memoryWorkerUnloaded => .backgroundStopped
  | .supportOnCpu => .memoryWorkerUnloaded
  | .admissionSuppressed => .supportOnCpu
  | .contextReduced => .admissionSuppressed
  | .mainChangeNeeded => .contextReduced

end Relief

/-- Whether an Exclusive job drains (`draining`) or holds (`exclusive`) the GPU. -/
inductive SchedulerMode
  | normal
  | draining
  | exclusive
  deriving DecidableEq, Repr

/-- Why a request was not admitted now. -/
inductive Refusal
  | probeUnavailable
  | notResident
  | backgroundPaused
  | admissionSuppressed
  | contextTooLong
  | contextReduced
  | kvFull
  | sequencesFull
  | exclusiveMode
  | queuedBehind
  | queueFull
  | insufficientFreeVram
  deriving DecidableEq, Repr

/-- `PERMANENT_REFUSALS`: waiting cannot change them. -/
def Refusal.permanent (r : Refusal) : Bool := decide (r = .contextTooLong)

/-- `CAPACITY_REFUSALS`: they hold back the waiters of the same model behind. -/
def Refusal.capacity (r : Refusal) : Bool := decide (r = .kvFull ∨ r = .sequencesFull)

/-- Why an Exclusive lease was not granted. -/
inductive ExclusiveFailure
  | busy
  | probeUnavailable
  | drainTimeout
  | cannotUnload
  | notFreed
  deriving DecidableEq, Repr

def maxTokens : ℤ := 2 ^ 24

def maxBytes : ℤ := 2 ^ 50

/-- One model runtime the scheduler manages. -/
structure DeploymentSpec where
  name : String
  role : ModelRole
  weightsBytes : ℤ
  kvPoolBytes : ℤ := 0
  runtimeBytes : ℤ := 0
  workspaceBytes : ℤ := 0
  kvBytesPerToken : ℤ := 0
  maxSequences : ℕ := 1
  maxContextTokens : ℤ := 32768
  residency : ResidencyPolicy := .ifRoom
  cpuFallback : Bool := false
  initial : DeploymentState := .unloaded
  weights_bound : 1 ≤ weightsBytes ∧ weightsBytes ≤ maxBytes := by decide
  parts_bound : (0 ≤ kvPoolBytes ∧ kvPoolBytes ≤ maxBytes) ∧
    (0 ≤ runtimeBytes ∧ runtimeBytes ≤ maxBytes) ∧
    (0 ≤ workspaceBytes ∧ workspaceBytes ≤ maxBytes) := by decide
  perToken_bound : 0 ≤ kvBytesPerToken ∧ kvBytesPerToken ≤ maxBytes := by decide
  perToken_given : kvPoolBytes ≠ 0 → kvBytesPerToken ≠ 0 := by decide
  sequences_bound : 1 ≤ maxSequences ∧ maxSequences ≤ 4096 := by decide
  context_bound : 1 ≤ maxContextTokens ∧ maxContextTokens ≤ maxTokens := by decide
  fallback_support : cpuFallback = true → role ∈ supportRoles := by decide
  initial_known : initial ≠ .failed := by decide
  initial_cpu : initial = .cpu → cpuFallback = true := by decide

namespace DeploymentSpec

def gpuBytes (spec : DeploymentSpec) : ℤ :=
  spec.weightsBytes + spec.kvPoolBytes + spec.runtimeBytes + spec.workspaceBytes

def kvCapacityTokens (spec : DeploymentSpec) : ℤ :=
  if spec.kvPoolBytes = 0 then 0 else spec.kvPoolBytes / spec.kvBytesPerToken

/-- Stands for a name that is not configured. `_deployment` refuses such a name before anything
reads its entry. -/
def unconfigured : DeploymentSpec where
  name := ""
  role := .main
  weightsBytes := 1

end DeploymentSpec

structure ComputeConfig where
  deployments : List DeploymentSpec
  gpuIndex : ℕ := 0
  headroomMinBytes : ℤ := 4 * 1024 ^ 3
  headroomFraction : ℚ := 1 / 20
  kvSafety : ℚ := 9 / 10
  classCeilings : ResourceClass → ℚ
  probeMaxAgeSeconds : ℚ := 15
  restoreMarginBytes : Option ℤ := none
  pressureContextFraction : ℚ := 1 / 2
  maxWaiters : ℕ := 256
  verifyTimeoutSeconds : ℚ := 60
  verifyPollSeconds : ℚ := 2
  failedRetrySeconds : ℚ := 60
  deployments_given : deployments ≠ []
  names_nodup : (deployments.map (·.name)).Nodup
  headroomMin_bound : 0 ≤ headroomMinBytes ∧ headroomMinBytes ≤ maxBytes
  headroomFraction_bound : 0 ≤ headroomFraction ∧ headroomFraction ≤ 1 / 2
  kvSafety_bound : 0 < kvSafety ∧ kvSafety ≤ 1
  ceilings_bound : ∀ cls ∈ sharedClasses, 0 < classCeilings cls ∧ classCeilings cls ≤ 1
  ceilings_ordered : classCeilings .coding ≤ classCeilings .interactive ∧
    classCeilings .support ≤ classCeilings .coding ∧
    classCeilings .background ≤ classCeilings .support
  probeMaxAge_bound : 0 < probeMaxAgeSeconds ∧ probeMaxAgeSeconds ≤ 3600
  restoreMargin_bound : ∀ margin ∈ restoreMarginBytes, 0 ≤ margin ∧ margin ≤ maxBytes
  pressureContext_bound : 0 < pressureContextFraction ∧ pressureContextFraction ≤ 1
  maxWaiters_bound : 1 ≤ maxWaiters ∧ maxWaiters ≤ 100000
  seconds_bound : ∀ seconds ∈ [verifyTimeoutSeconds, verifyPollSeconds, failedRetrySeconds],
    0 < seconds ∧ seconds ≤ 86400

namespace ComputeConfig

def names (cfg : ComputeConfig) : List String := cfg.deployments.map (·.name)

def spec (cfg : ComputeConfig) (name : String) : DeploymentSpec :=
  (cfg.deployments.find? fun spec => decide (spec.name = name)).getD .unconfigured

/-- `_ordered`: the names by the order of their roles. -/
def ordered (cfg : ComputeConfig) : List String :=
  cfg.names.insertionSort fun a b => roleOrder (cfg.spec a).role ≤ roleOrder (cfg.spec b).role

def emptyingOrder (cfg : ComputeConfig) : List String :=
  cfg.ordered.insertionSort fun a b =>
    exclusiveOrder (cfg.spec a).role ≤ exclusiveOrder (cfg.spec b).role

theorem mem_ordered {cfg : ComputeConfig} {name : String} :
    name ∈ cfg.ordered ↔ name ∈ cfg.names :=
  List.mem_insertionSort _

theorem mem_emptyingOrder {cfg : ComputeConfig} {name : String} :
    name ∈ cfg.emptyingOrder ↔ name ∈ cfg.names :=
  (List.mem_insertionSort _).trans mem_ordered

end ComputeConfig

/-- What a caller needs. The fields after `taskId` are the checks of `__post_init__`. -/
structure ComputeRequest where
  resourceClass : ResourceClass
  deployment : Option String := none
  contextTokens : ℤ := 0
  vramBytes : ℤ := 0
  allowCloud : Bool := false
  taskId : Option ℕ := none
  tokens_bound : 0 ≤ contextTokens ∧ contextTokens ≤ maxTokens := by decide
  vram_bound : 0 ≤ vramBytes ∧ vramBytes ≤ maxBytes := by decide
  exclusive_shape : resourceClass = .exclusive →
    deployment = none ∧ taskId = none ∧ 0 < vramBytes ∧ allowCloud = false := by decide
  shared_named : resourceClass ≠ .exclusive → deployment.isSome = true := by decide

namespace ComputeRequest

def target (request : ComputeRequest) : String := request.deployment.getD ""

/-- `_check_request`: a named deployment must be a configured one. -/
def known (cfg : ComputeConfig) (request : ComputeRequest) : Bool :=
  request.deployment.all fun name => decide (name ∈ cfg.names)

end ComputeRequest

end PawBackend.Compute
