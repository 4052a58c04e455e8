/-
**The rows of a DAG and the calls that write them** (`orchestrator/store.py`, `orchestrator/domain.py`,
`orchestrator/validation.py`).

`DagDb` holds one DAG with its nodes, its attempts and what else its calls write, and the row of its task.
-/

import PawBackend.Orchestrator.Plan
import PawBackend.Orchestrator.Scheduling
import PawBackend.Tasks.Service

namespace PawBackend.Orchestrator

open Lib
open Tools (TaskRun)
open Tasks (TaskRow TaskState TaskCommand)
open Lib.Text (lit)

inductive DagState
  | active
  | succeeded
  | failed
  | cancelled
  deriving DecidableEq, Repr

inductive AttemptState
  | running
  | succeeded
  | failed
  | interrupted
  deriving DecidableEq, Repr

inductive ExecutionPlacement
  | localGpu
  | localCpu
  | cloud
  deriving DecidableEq, Repr

/-- What happens to a node after a failed attempt. -/
inductive NextStep
  | retry
  | alternative
  | escalate
  | giveUp
  | hold
  deriving DecidableEq, Repr

inductive IncidentKind
  | outOfMemory
  | escalation
  deriving DecidableEq, Repr

inductive DagError
  | invalidArgument (parameter : Text)
  | staleDagEpoch
  | dagState
  | staleRun
  | taskNotRunning
  | nodeState
  | staleNodeAttempt
  | cloudSendRefused
  deriving DecidableEq, Repr

/-! ### Rows -/

structure CloudSend where
  contentFingerprint : Text
  contentBytes : ℕ
  agentId : Tools.Uuid
  occurredAt : Tools.Instant
  deriving DecidableEq, Repr

/-- Where an attempt runs. -/
structure Placed where
  placement : ExecutionPlacement
  agent : Text
  model : Text
  content : Option (Text × ℕ)
  deriving DecidableEq, Repr

structure AttemptRow where
  nodeKey : Text
  number : ℕ
  agentIndex : ℕ
  approach : ℕ
  epoch : ℕ
  state : AttemptState
  errorClass : Option Text
  failureSignature : Option Text
  placed : Option Placed
  deriving DecidableEq, Repr

structure NodeRow where
  key : Text
  role : NodeRole
  required : Bool
  dependsOn : List Text
  assignedAgent : Option Text
  state : NodeState
  agentIndex : ℕ
  approach : ℕ
  attemptCount : ℕ
  rungAttempts : ℕ
  result : Option Text
  errorClass : Option Text
  deriving DecidableEq, Repr

structure DagRow where
  attempt : ℕ
  taskRetryCount : ℕ
  state : DagState
  epoch : ℕ
  owner : Option Text
  deriving DecidableEq, Repr

structure DagDb where
  task : TaskRow
  dag : DagRow
  nodes : List NodeRow
  attempts : List AttemptRow
  incidents : List IncidentKind
  sends : List CloudSend

/-! ### Checks of the arguments -/

def maxInt32 : ℤ := 2 ^ 31 - 1

def maxAttemptsPerRung : ℕ := 20

def maxLadderLength : ℕ := 4

def maxApproach : ℕ := 100

def maxErrorClassChars : ℕ := 100

def checkInt (name : String) (value minimum maximum : ℤ) : Except DagError ℕ :=
  if minimum ≤ value ∧ value ≤ maximum then .ok value.toNat else .error (.invalidArgument (lit name))

def isControl (c : ℕ) : Bool := decide (c ≤ 31 ∨ c = 127)

def isSurrogate (c : ℕ) : Bool := decide (0xD800 ≤ c ∧ c ≤ 0xDFFF)

def checkLabel (name : String) (value : Text) (maximum : ℕ) : Except DagError Unit :=
  if value.all Text.isSpace ∨ maximum < value.length ∨ value.any isControl ∨ value.any isSurrogate then
    .error (.invalidArgument (lit name))
  else .ok ()

def isAlphanumeric (c : ℕ) : Bool := Text.isDigit c || Text.isLower c || Text.isUpper c

def isWord (first other : ℕ → Bool) (maximum : ℕ) : Text → Bool
  | [] => false
  | c :: rest => first c && rest.all other && decide (rest.length < maximum)

def checkWorkerId (value : Text) (name : String) : Except DagError Unit :=
  if isWord isAlphanumeric (fun c => isAlphanumeric c || decide (c ∈ lit "._:@/-")) 100 value then .ok ()
  else .error (.invalidArgument (lit name))

def checkAgentLabel (name : String) (value : Text) : Except DagError Unit :=
  if isWord Text.isLower (fun c => Text.isLower c || Text.isDigit c || decide (c ∈ lit "._-")) 64 value then .ok ()
  else .error (.invalidArgument (lit name))

def checkModel (name : String) (value : Text) : Except DagError Unit :=
  if isWord isAlphanumeric (fun c => isAlphanumeric c || decide (c ∈ lit "._:/@+-")) 128 value then .ok ()
  else .error (.invalidArgument (lit name))

def checkSignature (value : Text) : Except DagError Unit :=
  if value.length = 64 ∧ value.all fun c => Text.isDigit c || decide (97 ≤ c ∧ c ≤ 102) then .ok ()
  else .error (.invalidArgument (lit "signature"))

/-! ### What a call reads and writes -/

def NodeRow.view (row : NodeRow) : NodeView := ⟨row.key, row.state, row.dependsOn, row.required⟩

/-- `_ENDED_TASK_STATES`. -/
def isEnded (state : TaskState) : Bool := decide (state = .completed ∨ state = .failed ∨ state = .cancelled)

/-- `_SETTLED_FOR_REOPEN`. -/
def isReopened (state : NodeState) : Bool := decide (state = .failed ∨ state = .blocked)

def outOfMemoryClasses : List Text := [lit "AgentOutOfMemory", lit "MemoryError"]

namespace DagDb

variable (db : DagDb)

def views : List NodeView := db.nodes.map NodeRow.view

def settle : DagDb :=
  { db with nodes := db.nodes.map fun row => { row with state := settledState db.views row.view } }

def setNode (key : Text) (change : NodeRow → NodeRow) : DagDb :=
  { db with nodes := db.nodes.map fun row => if row.key = key then change row else row }

def node (key : Text) : Option NodeRow := db.nodes.find? fun row => decide (row.key = key)

/-- The checks of `_open`, on the locked rows: the epoch (`none`: only `acquire_in`), the state of the DAG, and
the run of the task. -/
def fence (epoch : Option ℕ) (requireActive checkRun requireRunning : Bool) : Except DagError Unit :=
  if epoch.any fun epoch => db.dag.epoch ≠ epoch then .error .staleDagEpoch
  else if requireActive ∧ db.dag.state ≠ .active then .error .dagState
  else if checkRun ∧ (db.task.attempt ≠ db.dag.attempt ∨ db.task.retryCount ≠ db.dag.taskRetryCount ∨
      isEnded db.task.state) then .error .staleRun
  else if checkRun ∧ requireRunning ∧ db.task.state ≠ .running then .error .taskNotRunning
  else .ok ()

def running (key : Text) (number : ℕ) : Except DagError NodeRow :=
  match db.node key with
  | some row => if row.state = .running ∧ row.attemptCount = number then .ok row else .error .staleNodeAttempt
  | none => .error .staleNodeAttempt

def isAttempt (key : Text) (number : ℕ) (attempt : AttemptRow) : Bool :=
  decide (attempt.nodeKey = key ∧ attempt.number = number ∧ attempt.state = .running)

def closeIn (key : Text) (number : ℕ) (state : AttemptState) (errorClass signature : Option Text)
    (attempts : List AttemptRow) : List AttemptRow :=
  attempts.map fun attempt =>
    if isAttempt key number attempt then
      { attempt with state := state, errorClass := errorClass, failureSignature := signature }
    else attempt

def closeAttempt (key : Text) (number : ℕ) (state : AttemptState) (errorClass signature : Option Text) :
    Except DagError DagDb :=
  if db.attempts.any (isAttempt key number) then
    .ok { db with attempts := closeIn key number state errorClass signature db.attempts }
  else .error .staleNodeAttempt

def interruptRunning (nodeState : NodeState) : DagDb :=
  { db with
    attempts := db.attempts.map fun attempt =>
      if attempt.state = .running then { attempt with state := .interrupted } else attempt
    nodes := db.nodes.map fun row => if row.state = .running then { row with state := nodeState } else row }

/-! ### The calls -/

/-- The nodes a Retry opens again. -/
def reopen (row : NodeRow) : NodeRow :=
  if isReopened row.state then { row with state := .pending, rungAttempts := 0, errorClass := none } else row

def reopenFor (run : TaskRun) : DagDb :=
  if db.dag.taskRetryCount < run.retryCount then
    { db with
      dag := { db.dag with
        taskRetryCount := run.retryCount
        state := if db.dag.state = .failed then .active else db.dag.state }
      nodes := db.nodes.map reopen }
  else db

def takenBy (owner : Text) : DagDb :=
  { db with dag := { db.dag with epoch := db.dag.epoch + 1, owner := some owner } }

def acquireIn (owner : Text) (run : TaskRun) : Except DagError DagDb := do
  checkWorkerId owner "owner"
  db.fence none false false false
  if run.attempt ≠ db.dag.attempt ∨ db.dag.state = .cancelled then throw .dagState
  return (((db.takenBy owner).reopenFor run).interruptRunning .ready).settle

def startedRow (row : NodeRow) : NodeRow :=
  { row with state := .running, attemptCount := row.attemptCount + 1, rungAttempts := row.rungAttempts + 1 }

def newAttempt (row : NodeRow) (epoch : ℕ) : AttemptRow :=
  { nodeKey := row.key, number := row.attemptCount + 1, agentIndex := row.agentIndex, approach := row.approach
    epoch := epoch, state := .running, errorClass := none, failureSignature := none, placed := none }

def startNode (epoch : ℤ) (key : Text) (maxAttempts : ℤ) : Except DagError DagDb := do
  let epoch ← checkInt "epoch" epoch 1 maxInt32
  checkLabel "key" key 32
  let maxAttempts ← checkInt "max_attempts" maxAttempts 1 maxAttemptsPerRung
  db.fence (some epoch) true true true
  let row ← orThrow (db.node key) .nodeState
  if row.state ≠ .ready ∨ maxAttempts ≤ row.rungAttempts then throw .nodeState
  return { db.setNode key startedRow with attempts := db.attempts ++ [newAttempt row epoch] }

def succeededRow (result : Text) (row : NodeRow) : NodeRow :=
  { row with state := .succeeded, result := some result, errorClass := none }

def completeNode (epoch : ℤ) (key : Text) (attemptNumber : ℤ) (result : Text) : Except DagError DagDb := do
  let epoch ← checkInt "epoch" epoch 1 maxInt32
  checkLabel "key" key 32
  let number ← checkInt "attempt_number" attemptNumber 1 maxInt32
  db.fence (some epoch) true true false
  let _ ← db.running key number
  let closed ← (db.setNode key (succeededRow result)).closeAttempt key number .succeeded none none
  return closed.settle

def place (placed : Placed) (attempt : AttemptRow) : AttemptRow := { attempt with placed := some placed }

/-- `policyAllows`: what the deployment's check answers, asked in the transaction of a send. -/
def recordPlacement (epoch : ℤ) (key : Text) (attemptNumber : ℤ) (placement : ExecutionPlacement)
    (agent model : Text) (cloud : Option CloudSend) (policyAllows : Bool) : Except DagError DagDb := do
  let epoch ← checkInt "epoch" epoch 1 maxInt32
  checkLabel "key" key 32
  let number ← checkInt "attempt_number" attemptNumber 1 maxInt32
  checkAgentLabel "agent" agent
  checkModel "model" model
  if decide (placement = .cloud) ≠ cloud.isSome then throw (.invalidArgument (lit "cloud"))
  db.fence (some epoch) true true false
  let _ ← db.running key number
  let attempt ← orThrow (db.attempts.find? (isAttempt key number)) .staleNodeAttempt
  if attempt.placed.isSome then throw (.invalidArgument (lit "placement"))
  if cloud.isSome ∧ !policyAllows then throw .cloudSendRefused
  let placed := ⟨placement, agent, model, cloud.map fun send => (send.contentFingerprint, send.contentBytes)⟩
  return { db with
    attempts := db.attempts.map fun row => if isAttempt key number row then place placed row else row
    sends := db.sends ++ cloud.toList }

def moved (step : NextStep) (agentIndex approach : Option ℕ) (row : NodeRow) : Except DagError NodeRow :=
  match step, agentIndex, approach with
  | .alternative, some agentIndex, some approach =>
    if agentIndex ≠ row.agentIndex ∨ approach ≤ row.approach then .error .nodeState
    else .ok { row with approach := approach }
  | .escalate, some agentIndex, some approach =>
    if agentIndex ≤ row.agentIndex ∨ approach ≤ row.approach then .error .nodeState
    else .ok { row with agentIndex := agentIndex, approach := approach, rungAttempts := 0 }
  | _, _, _ => .ok row

/-- A step that moves a node needs both arguments, any other has neither. -/
def checkMove (step : NextStep) (agentIndex approach : Option ℤ) : Except DagError (Option ℕ × Option ℕ) :=
  if step = .alternative ∨ step = .escalate then do
    let agentIndex ← (agentIndex.elim (.error (.invalidArgument (lit "agent_index")))
      fun value => checkInt "agent_index" value 0 (maxLadderLength - 1))
    let approach ← (approach.elim (.error (.invalidArgument (lit "approach")))
      fun value => checkInt "approach" value 0 maxApproach)
    return (some agentIndex, some approach)
  else if agentIndex.isSome then .error (.invalidArgument (lit "agent_index"))
  else if approach.isSome then .error (.invalidArgument (lit "approach"))
  else .ok (none, none)

def incidentsOf (errorClass : Text) (step : NextStep) : List IncidentKind :=
  (if errorClass ∈ outOfMemoryClasses then [.outOfMemory] else []) ++
    if step = .escalate then [.escalation] else []

def failedRow (errorClass : Text) (step : NextStep) (row : NodeRow) : NodeRow :=
  { row with errorClass := some errorClass, state := if step = .giveUp then .failed else .ready }

def failNode (epoch : ℤ) (key : Text) (attemptNumber : ℤ) (errorClass signature : Text) (step : NextStep)
    (agentIndex approach : Option ℤ) : Except DagError DagDb := do
  let epoch ← checkInt "epoch" epoch 1 maxInt32
  checkLabel "key" key 32
  let number ← checkInt "attempt_number" attemptNumber 1 maxInt32
  checkLabel "error_class" errorClass maxErrorClassChars
  checkSignature signature
  let move ← checkMove step agentIndex approach
  db.fence (some epoch) true true false
  let row ← db.running key number
  let next ← moved step move.1 move.2 row
  let closed ← (db.setNode key fun _ => failedRow errorClass step next).closeAttempt key number .failed (some errorClass) (some signature)
  return DagDb.settle { closed with incidents := db.incidents ++ incidentsOf errorClass step }

def givenUpRow (errorClass : Text) (row : NodeRow) : NodeRow :=
  { row with state := .failed, errorClass := some errorClass }

def giveUpNode (epoch : ℤ) (key errorClass : Text) : Except DagError DagDb := do
  let epoch ← checkInt "epoch" epoch 1 maxInt32
  checkLabel "key" key 32
  checkLabel "error_class" errorClass maxErrorClassChars
  db.fence (some epoch) true true false
  let row ← orThrow (db.node key) .nodeState
  if row.state ≠ .ready then throw .nodeState
  return (db.setNode key (givenUpRow errorClass)).settle

def interrupt (epoch : ℤ) : Except DagError DagDb := do
  let epoch ← checkInt "epoch" epoch 1 maxInt32
  db.fence (some epoch) false false false
  return (db.interruptRunning .ready).settle

def cancelledRow (row : NodeRow) : NodeRow :=
  if row.state.isOpen then { row with state := .cancelled } else row

def cancelled : DagDb :=
  let interrupted := db.interruptRunning .cancelled
  { interrupted with
    nodes := interrupted.nodes.map cancelledRow
    dag := { db.dag with state := .cancelled } }

def cancel (epoch : ℤ) : Except DagError DagDb := do
  let epoch ← checkInt "epoch" epoch 1 maxInt32
  db.fence (some epoch) false false false
  return if db.dag.state = .active then db.cancelled else db

def closedAs : DagVerdict → DagState
  | .active => .active
  | .succeeded => .succeeded
  | .failed => .failed

def finalize (epoch : ℤ) : Except DagError DagDb := do
  let epoch ← checkInt "epoch" epoch 1 maxInt32
  db.fence (some epoch) true true false
  if dagVerdict db.views = .active then throw .dagState
  return { db with dag := { db.dag with state := closedAs (dagVerdict db.views) } }

def startRung (startRungs : Keyed (Prod.fst : Text × ℤ → Text)) (key : Text) : ℕ :=
  ((startRungs.get key).elim 0 Prod.snd).toNat

/-- The rungs `create` is given are those of the nodes that have an agent. -/
def checkRungs (plan : Plan) (startRungs : Keyed (Prod.fst : Text × ℤ → Text)) : Except DagError Unit := do
  plan.nodes.forM fun node => do
    if node.agent.isNone ≠ (startRungs.get node.key).isNone then throw (.invalidArgument (lit "start_rungs"))
    match startRungs.get node.key with
    | some rung => discard (checkInt "start_rungs" rung.2 0 (maxLadderLength - 1))
    | none => pure ()
  if startRungs.rows.length ≠ plan.nodes.countP (fun node => node.agent.isSome) then
    throw (.invalidArgument (lit "start_rungs"))

def createdRow (startRungs : Keyed (Prod.fst : Text × ℤ → Text)) (node : PlanNode) : NodeRow :=
  { key := node.key, role := node.role, required := node.required, dependsOn := node.dependsOn
    assignedAgent := node.agent, state := .pending, agentIndex := startRung startRungs node.key, approach := 0
    attemptCount := 0, rungAttempts := 0, result := none, errorClass := none }

def created (task : TaskRow) (attempt retryCount : ℕ) (plan : Plan)
    (startRungs : Keyed (Prod.fst : Text × ℤ → Text)) : DagDb :=
  settle
    { task := task
      dag := { attempt := attempt, taskRetryCount := retryCount, state := .active, epoch := 0, owner := none }
      nodes := plan.nodes.map (createdRow startRungs)
      attempts := [], incidents := [], sends := [] }

/-- `create`, for an attempt of the task that has no DAG. -/
def create (task : TaskRow) (attempt : ℤ) (plan : Plan) (run : Option TaskRun)
    (startRungs : Keyed (Prod.fst : Text × ℤ → Text)) : Except DagError DagDb := do
  let attempt ← checkInt "attempt" attempt 1 maxInt32
  if run.any fun run => run.attempt ≠ attempt then throw (.invalidArgument (lit "run"))
  checkRungs plan startRungs
  if run.any fun run => isEnded task.state ∨ task.attempt ≠ run.attempt ∨ task.retryCount ≠ run.retryCount then
    throw .staleRun
  return created task attempt (run.elim 0 TaskRun.retryCount) plan startRungs

end DagDb

/-! ### The system -/

inductive DagCall
  | acquire (owner : Text) (run : TaskRun)
  | start (epoch : ℤ) (key : Text) (maxAttempts : ℤ)
  | complete (epoch : ℤ) (key : Text) (number : ℤ) (result : Text)
  | fail (epoch : ℤ) (key : Text) (number : ℤ) (errorClass signature : Text) (step : NextStep)
      (agentIndex approach : Option ℤ)
  | giveUp (epoch : ℤ) (key errorClass : Text)
  | place (epoch : ℤ) (key : Text) (number : ℤ) (placement : ExecutionPlacement) (agent model : Text)
      (cloud : Option CloudSend) (policyAllows : Bool)
  | interrupt (epoch : ℤ)
  | cancel (epoch : ℤ)
  | finalize (epoch : ℤ)

def DagCall.epoch : DagCall → Option ℤ
  | .acquire .. => none
  | .start epoch .. | .complete epoch .. | .fail epoch .. | .giveUp epoch .. | .place epoch .. | .interrupt epoch
  | .cancel epoch | .finalize epoch => some epoch

def DagDb.perform (db : DagDb) : DagCall → Except DagError DagDb
  | .acquire owner run => db.acquireIn owner run
  | .start epoch key maxAttempts => db.startNode epoch key maxAttempts
  | .complete epoch key number result => db.completeNode epoch key number result
  | .fail epoch key number errorClass signature step agentIndex approach =>
    db.failNode epoch key number errorClass signature step agentIndex approach
  | .giveUp epoch key errorClass => db.giveUpNode epoch key errorClass
  | .place epoch key number placement agent model cloud policyAllows =>
    db.recordPlacement epoch key number placement agent model cloud policyAllows
  | .interrupt epoch => db.interrupt epoch
  | .cancel epoch => db.cancel epoch
  | .finalize epoch => db.finalize epoch

/-- A command of the task: what `TaskService.execute` makes of its row, where the transition table has a
step for it. -/
def DagDb.command (db : DagDb) (command : TaskCommand) (args : Tasks.TaskDb.CommandArguments)
    (now : Tools.Instant) : Option DagDb :=
  match Tasks.planTransition db.task.state command args.waitReason db.task.readOnly with
  | .ok plan => some { db with task := Tasks.TaskDb.commandedRow db.task command args plan now }
  | .error _ => none

inductive DagEvent
  | call (call : DagCall)
  | command (command : TaskCommand) (args : Tasks.TaskDb.CommandArguments) (now : Tools.Instant)

def dagStore : Machine DagDb DagEvent where
  initial db := ∃ task attempt plan run startRungs, DagDb.create task attempt plan run startRungs = .ok db
  step db
    | .call call => (db.perform call).toOption
    | .command command args now => db.command command args now

/-! ### What an accepted call did -/

section Accepted

variable {db db' : DagDb}

/-- The run that took the DAG over is still the task's, and neither has ended. -/
structure DagDb.Current (db : DagDb) : Prop where
  active : db.dag.state = .active
  attempt : db.task.attempt = db.dag.attempt
  retryCount : db.task.retryCount = db.dag.taskRetryCount
  notEnded : isEnded db.task.state = false

theorem checkInt_eq_ok {name : String} {value minimum maximum : ℤ} {n : ℕ} (notNegative : 0 ≤ minimum) :
    checkInt name value minimum maximum = .ok n ↔ minimum ≤ value ∧ value ≤ maximum ∧ value = n := by
  unfold checkInt
  split
  case isTrue within =>
    rw [Except.ok.injEq, ← and_assoc, and_iff_right within]
    omega
  case isFalse outside =>
    refine iff_of_false nofun fun both => outside ⟨both.1, both.2.1⟩

theorem DagDb.fence_eq_ok {epoch : Option ℕ} {requireActive checkRun requireRunning : Bool} :
    db.fence epoch requireActive checkRun requireRunning = .ok () ↔
      (∀ e ∈ epoch, db.dag.epoch = e) ∧ (requireActive = true → db.dag.state = .active) ∧
      (checkRun = true → db.task.attempt = db.dag.attempt ∧ db.task.retryCount = db.dag.taskRetryCount ∧
        isEnded db.task.state = false) ∧
      (checkRun = true → requireRunning = true → db.task.state = .running) := by
  unfold DagDb.fence
  simp only [refuse_eq_ok, Option.any_eq_true, decide_eq_true_eq, not_exists, not_and, not_or, ne_eq, not_not,
    Bool.not_eq_true, Option.mem_def, and_true]

theorem DagDb.fence_current {epoch : ℕ} {requireRunning : Bool}
    (passed : db.fence (some epoch) true true requireRunning = .ok ()) :
    db.dag.epoch = epoch ∧ db.Current ∧ (requireRunning = true → db.task.state = .running) := by
  obtain ⟨isEpoch, active, current, isRunning⟩ := DagDb.fence_eq_ok.mp passed
  obtain ⟨attempt, retryCount, notEnded⟩ := current rfl
  exact ⟨isEpoch epoch rfl, ⟨active rfl, attempt, retryCount, notEnded⟩, isRunning rfl⟩

theorem DagDb.node_eq_some {key : Text} {row : NodeRow} (found : db.node key = some row) :
    row ∈ db.nodes ∧ row.key = key :=
  ⟨List.mem_of_find?_eq_some found, by simpa using List.find?_some found⟩

theorem DagDb.running_eq_ok {key : Text} {number : ℕ} {row : NodeRow} (isRunning : db.running key number = .ok row) :
    row ∈ db.nodes ∧ row.key = key ∧ row.state = .running ∧ row.attemptCount = number := by
  unfold DagDb.running at isRunning
  cases found : db.node key with
  | none =>
    rw [found] at isRunning
    cases isRunning
  | some other =>
    rw [found] at isRunning
    dsimp only at isRunning
    split at isRunning
    case isTrue both =>
      obtain rfl := Except.ok.inj isRunning
      obtain ⟨mem, same⟩ := DagDb.node_eq_some found
      exact ⟨mem, same, both⟩
    case isFalse => cases isRunning

theorem DagDb.closeAttempt_eq_ok {key : Text} {number : ℕ} {state : AttemptState} {errorClass signature : Option Text}
    (closed : db.closeAttempt key number state errorClass signature = .ok db') :
    db' = { db with attempts := DagDb.closeIn key number state errorClass signature db.attempts } := by
  unfold DagDb.closeAttempt at closed
  split at closed
  · exact (Except.ok.inj closed).symm
  · cases closed

open DagDb in
/-- **What each accepted call did**, with what its checks found. -/
inductive Performed (db : DagDb) : DagCall → DagDb → Prop
  | acquire {owner : Text} {run : TaskRun} (sameAttempt : run.attempt = db.dag.attempt)
      (notCancelled : db.dag.state ≠ .cancelled) :
      Performed db (.acquire owner run) (((db.takenBy owner).reopenFor run).interruptRunning .ready).settle
  | start {row : NodeRow} {maxAttempts : ℤ} (current : db.Current) (taskRuns : db.task.state = .running)
      (member : row ∈ db.nodes) (ready : row.state = .ready) (left : (row.rungAttempts : ℤ) < maxAttempts) :
      Performed db (.start db.dag.epoch row.key maxAttempts)
        { db.setNode row.key startedRow with attempts := db.attempts ++ [newAttempt row db.dag.epoch] }
  | complete {row : NodeRow} {result : Text} (current : db.Current) (member : row ∈ db.nodes)
      (running : row.state = .running) :
      Performed db (.complete db.dag.epoch row.key row.attemptCount result)
        (DagDb.settle { db.setNode row.key (succeededRow result) with
          attempts := closeIn row.key row.attemptCount .succeeded none none db.attempts })
  | fail {row next : NodeRow} {errorClass signature : Text} {step : NextStep} {agentIndex approach : Option ℤ}
      {move : Option ℕ × Option ℕ} (current : db.Current) (member : row ∈ db.nodes) (running : row.state = .running)
      (checked : checkMove step agentIndex approach = .ok move) (isMoved : moved step move.1 move.2 row = .ok next) :
      Performed db (.fail db.dag.epoch row.key row.attemptCount errorClass signature step agentIndex approach)
        (DagDb.settle { db.setNode row.key fun _ => failedRow errorClass step next with
          attempts := closeIn row.key row.attemptCount .failed (some errorClass) (some signature) db.attempts
          incidents := db.incidents ++ incidentsOf errorClass step })
  | giveUp {row : NodeRow} {errorClass : Text} (current : db.Current) (member : row ∈ db.nodes)
      (ready : row.state = .ready) :
      Performed db (.giveUp db.dag.epoch row.key errorClass) (db.setNode row.key (givenUpRow errorClass)).settle
  | place {row : NodeRow} {attempt : AttemptRow} {placement : ExecutionPlacement} {agent model : Text}
      {cloud : Option CloudSend} {policyAllows : Bool} (current : db.Current) (member : row ∈ db.nodes)
      (running : row.state = .running) (isRow : attempt ∈ db.attempts)
      (isIts : isAttempt row.key row.attemptCount attempt = true) (notPlaced : attempt.placed = none) :
      Performed db (.place db.dag.epoch row.key row.attemptCount placement agent model cloud policyAllows)
        { db with
          attempts := db.attempts.map fun attempt =>
            if isAttempt row.key row.attemptCount attempt then
              DagDb.place ⟨placement, agent, model,
                cloud.map fun send => (send.contentFingerprint, send.contentBytes)⟩ attempt
            else attempt
          sends := db.sends ++ cloud.toList }
  | interrupt : Performed db (.interrupt db.dag.epoch) (db.interruptRunning .ready).settle
  | cancel (active : db.dag.state = .active) : Performed db (.cancel db.dag.epoch) db.cancelled
  | cancelEnded (ended : db.dag.state ≠ .active) : Performed db (.cancel db.dag.epoch) db
  | finalize (current : db.Current) (ended : dagVerdict db.views ≠ .active) :
      Performed db (.finalize db.dag.epoch) { db with dag := { db.dag with state := closedAs (dagVerdict db.views) } }

theorem performed_of_perform {call : DagCall} (accepted : db.perform call = .ok db') : Performed db call db' := by
  cases call with
  | acquire owner run =>
    simp only [DagDb.perform, DagDb.acquireIn, bind_eq_ok, check_eq_ok, pure_eq_ok] at accepted
    obtain ⟨_, -, _, -, allowed, rfl⟩ := accepted
    rw [not_or, not_not] at allowed
    exact .acquire allowed.1 allowed.2
  | start epoch key maxAttempts =>
    simp only [DagDb.perform, DagDb.startNode, bind_eq_ok, check_eq_ok, pure_eq_ok, orThrow_eq_ok] at accepted
    obtain ⟨e, isEpoch, _, -, most, isMost, _, fenced, row, found, allowed, rfl⟩ := accepted
    obtain ⟨-, -, rfl⟩ := (checkInt_eq_ok (by decide)).mp isEpoch
    obtain ⟨-, -, rfl⟩ := (checkInt_eq_ok (by decide)).mp isMost
    obtain ⟨rfl, current, taskRuns⟩ := DagDb.fence_current fenced
    obtain ⟨mem, rfl⟩ := DagDb.node_eq_some found
    rw [not_or, not_not, not_le] at allowed
    exact .start current (taskRuns rfl) mem allowed.1 (by exact_mod_cast allowed.2)
  | complete epoch key number result =>
    simp only [DagDb.perform, DagDb.completeNode, bind_eq_ok, pure_eq_ok] at accepted
    obtain ⟨e, isEpoch, _, -, n, isNumber, _, fenced, row, isRunning, closed, isClosed, rfl⟩ := accepted
    obtain ⟨-, -, rfl⟩ := (checkInt_eq_ok (by decide)).mp isEpoch
    obtain ⟨-, -, rfl⟩ := (checkInt_eq_ok (by decide)).mp isNumber
    obtain ⟨rfl, current, -⟩ := DagDb.fence_current fenced
    obtain ⟨mem, rfl, running, rfl⟩ := DagDb.running_eq_ok isRunning
    rw [DagDb.closeAttempt_eq_ok isClosed]
    exact .complete current mem running
  | fail epoch key number errorClass signature step agentIndex approach =>
    simp only [DagDb.perform, DagDb.failNode, bind_eq_ok, pure_eq_ok] at accepted
    obtain ⟨e, isEpoch, _, -, n, isNumber, _, -, _, -, move, checked, _, fenced, row, isRunning, next, isMoved,
      closed, isClosed, rfl⟩ := accepted
    obtain ⟨-, -, rfl⟩ := (checkInt_eq_ok (by decide)).mp isEpoch
    obtain ⟨-, -, rfl⟩ := (checkInt_eq_ok (by decide)).mp isNumber
    obtain ⟨rfl, current, -⟩ := DagDb.fence_current fenced
    obtain ⟨mem, rfl, running, rfl⟩ := DagDb.running_eq_ok isRunning
    rw [DagDb.closeAttempt_eq_ok isClosed]
    exact .fail current mem running checked isMoved
  | giveUp epoch key errorClass =>
    simp only [DagDb.perform, DagDb.giveUpNode, bind_eq_ok, check_eq_ok, pure_eq_ok, orThrow_eq_ok] at accepted
    obtain ⟨e, isEpoch, _, -, _, -, _, fenced, row, found, ready, rfl⟩ := accepted
    obtain ⟨-, -, rfl⟩ := (checkInt_eq_ok (by decide)).mp isEpoch
    obtain ⟨rfl, current, -⟩ := DagDb.fence_current fenced
    obtain ⟨mem, rfl⟩ := DagDb.node_eq_some found
    exact .giveUp current mem (not_not.mp ready)
  | place epoch key number placement agent model cloud policyAllows =>
    simp only [DagDb.perform, DagDb.recordPlacement, bind_eq_ok, check_eq_ok, pure_eq_ok, orThrow_eq_ok] at accepted
    obtain ⟨e, isEpoch, _, -, n, isNumber, _, -, _, -, -, _, fenced, row, isRunning, attempt, found, notPlaced, -,
      rfl⟩ := accepted
    obtain ⟨-, -, rfl⟩ := (checkInt_eq_ok (by decide)).mp isEpoch
    obtain ⟨-, -, rfl⟩ := (checkInt_eq_ok (by decide)).mp isNumber
    obtain ⟨rfl, current, -⟩ := DagDb.fence_current fenced
    obtain ⟨mem, rfl, running, rfl⟩ := DagDb.running_eq_ok isRunning
    exact .place current mem running (List.mem_of_find?_eq_some found) (List.find?_some found)
      (Option.not_isSome_iff_eq_none.mp notPlaced)
  | interrupt epoch =>
    simp only [DagDb.perform, DagDb.interrupt, bind_eq_ok, pure_eq_ok] at accepted
    obtain ⟨e, isEpoch, _, fenced, rfl⟩ := accepted
    obtain ⟨-, -, rfl⟩ := (checkInt_eq_ok (by decide)).mp isEpoch
    obtain rfl := (DagDb.fence_eq_ok.mp fenced).1 e rfl
    exact .interrupt
  | cancel epoch =>
    simp only [DagDb.perform, DagDb.cancel, bind_eq_ok, pure_eq_ok] at accepted
    obtain ⟨e, isEpoch, _, fenced, rfl⟩ := accepted
    obtain ⟨-, -, rfl⟩ := (checkInt_eq_ok (by decide)).mp isEpoch
    obtain rfl := (DagDb.fence_eq_ok.mp fenced).1 e rfl
    split
    case isTrue active => exact .cancel active
    case isFalse ended => exact .cancelEnded ended
  | finalize epoch =>
    simp only [DagDb.perform, DagDb.finalize, bind_eq_ok, check_eq_ok, pure_eq_ok] at accepted
    obtain ⟨e, isEpoch, _, fenced, ended, rfl⟩ := accepted
    obtain ⟨-, -, rfl⟩ := (checkInt_eq_ok (by decide)).mp isEpoch
    obtain ⟨rfl, current, -⟩ := DagDb.fence_current fenced
    exact .finalize current ended

end Accepted

end PawBackend.Orchestrator
