/-
**Workers that drive a DAG** (`orchestrator/orchestrator.py`: `_drive`, `_dispatch`, `_spec_of`, `_settle`,
`_settle_failure`, `_retry_step`; `tasks/queueing/escalation.py`: `decide_next_action`).

Each worker holds the epoch it was given, its copy of the DAG and the numbers of the attempts it runs.
-/

import PawBackend.Orchestrator.DagFencing
import PawBackend.Orchestrator.Reviews

namespace PawBackend.Orchestrator

open Lib
open Tools (TaskRun)
open Tasks (TaskCommand)
open Lib.Text (lit)

/-! ### Decisions -/

inductive LoopVerdict
  | continue
  | tryAlternative
  | escalate
  deriving DecidableEq, Repr

inductive BudgetKind
  | runtimeSeconds
  | steps
  | retries
  | toolCalls
  | tokens
  | gpuSeconds
  deriving DecidableEq, Repr

inductive NextAction
  | continue
  | tryAlternative
  | escalateAgent
  | waitForUser
  | fail
  deriving DecidableEq, Repr

/-- `decide_next_action`, with the kinds whose budget is exceeded. -/
def decideNextAction (exceeded : List BudgetKind) (loop : LoopVerdict) (canEscalate : Bool) : NextAction :=
  if exceeded ≠ [] then if .retries ∈ exceeded then .fail else .waitForUser
  else match loop with
    | .escalate => if canEscalate then .escalateAgent else .waitForUser
    | .tryAlternative => .tryAlternative
    | .continue => .continue

/-- How an attempt failed, as far as the decision reads it. -/
structure Failure where
  errorClass : Text
  retryable : Bool := true
  escalate : Bool := false
  deriving DecidableEq, Repr

structure NodeMove where
  step : NextStep
  target : Option (ℕ × ℕ) := none
  deriving DecidableEq, Repr

def retryStep (config : OrchestratorConfig) (node : NodeRow) (action : NextAction) (failure : Failure)
    (nextRung : Option ℕ) : NodeMove :=
  let rung := nextRung.getD (node.agentIndex + 1)
  let approach := node.approach + 1
  if !failure.retryable then ⟨.giveUp, none⟩
  else
    let asked := failure.escalate ∧ nextRung.isSome ∧ approach ≤ maxApproach ∧
      (action = .continue ∨ action = .tryAlternative)
    let action := if asked then .escalateAgent else action
    if action = .escalateAgent then
      if nextRung.isSome ∧ approach ≤ maxApproach then ⟨.escalate, some (rung, approach)⟩ else ⟨.giveUp, none⟩
    else if config.maxAttempts ≤ node.rungAttempts then ⟨.giveUp, none⟩
    else if action = .tryAlternative then
      if approach ≤ maxApproach then ⟨.alternative, some (node.agentIndex, approach)⟩ else ⟨.giveUp, none⟩
    else if action = .continue then ⟨.retry, none⟩
    else ⟨.giveUp, none⟩

/-- `_RETRYING_STEPS`. -/
def isRetrying (step : NextStep) : Bool := decide (step = .retry ∨ step = .alternative ∨ step = .escalate)

/-- What is asked before a failure is recorded: the loop detector, and the budget as it is and with one more
retry. -/
structure Answers where
  loop : LoopVerdict
  exceeded : List BudgetKind
  planned : List BudgetKind

/-- The decision of `_settle_failure`. -/
def failureStep (config : OrchestratorConfig) (node : NodeRow) (failure : Failure) (answers : Answers)
    (skip : List Text) : NodeMove :=
  let nextRung := config.nextRung node.role node.agentIndex skip
  match decideNextAction answers.exceeded answers.loop nextRung.isSome with
  | .fail => ⟨.giveUp, none⟩
  | .waitForUser => ⟨.hold, none⟩
  | action =>
    let move := retryStep config node action failure nextRung
    if isRetrying move.step then
      match decideNextAction answers.planned answers.loop nextRung.isSome with
      | .fail => ⟨.giveUp, none⟩
      | .waitForUser => ⟨.hold, none⟩
      | _ => move
    else move

def formatErrorClass (name : Text) : Text :=
  if name = [] then lit "Error"
  else (name.map fun c => if isAlphanumeric c || decide (c ∈ lit "_.-") then c else 95).take maxErrorClassChars

/-- `failure_signature`: a SHA-256 digest in hexadecimal. -/
abbrev Signature := { value : Text // checkSignature value = .ok () }

/-! ### Outcomes -/

inductive Finished
  | runEnded
  | stopped (budgetExceeded : Bool)
  | succeeded (result : Text) (proposesPlan : Bool)
  | failed (failure : Failure)

def failCall (epoch : ℕ) (key : Text) (number : ℕ) (errorClass : Text) (signature : Signature) (move : NodeMove) : DagCall :=
  .fail epoch key number errorClass signature.val move.step (move.target.map fun target => (target.1 : ℤ))
    (move.target.map fun target => (target.2 : ℤ))

/-- `_settle`: what is written of an attempt that ended, if anything. -/
def settleCall (config : OrchestratorConfig) (epoch : ℕ) (node : NodeRow) (number : ℕ) (finished : Finished)
    (signature : Signature) (answers : Answers) (skip : List Text) : Option DagCall :=
  let failed := fun failure => some (failCall epoch node.key number (formatErrorClass failure.errorClass) signature
    (failureStep config node failure answers skip))
  match finished with
  | .runEnded => none
  | .stopped budgetExceeded => some (failCall epoch node.key number
      (if budgetExceeded then lit "BudgetExceeded" else lit "Stopped") signature ⟨.hold, none⟩)
  | .succeeded result proposesPlan =>
    if proposesPlan then failed { errorClass := lit "InvalidNodeOutcome", retryable := false }
    else some (.complete epoch node.key number result)
  | .failed failure => failed failure

/-! ### Specs -/

/-- What an attempt is to run on (`_Spec`). -/
structure Spec where
  agent : Text
  assignmentUnavailable : Bool
  reviewNotIndependent : Bool
  deriving DecidableEq, Repr

/-- `_spec_of`, with the check of a required review (`_dispatch`). -/
def specOf (config : OrchestratorConfig) (node : NodeRow) (attempt : AttemptRow) (forbidden : List Text) : Spec :=
  let ladder := config.ladders node.role
  let rung := min attempt.agentIndex (ladder.length - 1)
  let escalated := decide (0 < attempt.approach ∧ node.rungAttempts ≠ node.attemptCount)
  let agent := config.agentOf node.role rung
  { agent := agent
    assignmentUnavailable := node.assignedAgent.any fun assigned =>
      decide (assigned ∉ ladder) || if escalated then decide (rung < ladder.idxOf assigned) else decide (agent ≠ assigned)
    reviewNotIndependent := isRequiredReview node.key && decide (agent ∈ forbidden) }

/-! ### The system -/

/-- A worker that drives the DAG: what it holds between its calls. -/
structure Worker where
  config : OrchestratorConfig
  epoch : ℕ
  view : List NodeRow
  numbers : List (Text × ℕ)
  launching : Option (NodeRow × AttemptRow)
  /-- Whether its copy was read after the last node it started. -/
  isFresh : Bool

/-- An attempt that was handed to a runtime. -/
structure Handed where
  key : Text
  number : ℕ
  agent : Text
  deriving DecidableEq, Repr

structure Drive where
  db : DagDb
  workers : List Worker
  handed : List Handed

inductive DriveEvent
  | takeOver (config : OrchestratorConfig) (owner : Text) (run : TaskRun)
  | dispatch (worker : ℕ) (key : Text)
  | launch (worker : ℕ)
  | refresh (worker : ℕ)
  | settle (worker : ℕ) (key : Text) (finished : Finished) (signature : Signature) (answers : Answers)
  | place (worker : ℕ) (key : Text) (number : ℤ) (placement : ExecutionPlacement) (agent model : Text)
      (cloud : Option CloudSend) (policyAllows : Bool)
  | interrupt (worker : ℕ)
  | cancel (worker : ℕ)
  | finalize (worker : ℕ)
  | command (command : TaskCommand) (args : Tasks.TaskDb.CommandArguments) (now : Tools.Instant)

namespace Drive

variable (s : Drive)

def setWorker (index : ℕ) (worker : Worker) : Drive := { s with workers := s.workers.set index worker }

def calls (index : ℕ) (call : DagCall) (next : DagDb → Worker) : Option Drive :=
  (s.db.perform call).toOption.map fun db => { s with db := db, workers := s.workers.set index (next db) }

def forbidden (worker : Worker) (key : Text) : List Text :=
  if isRequiredReview key then reviewForbidden worker.view s.db.attempts key else []

/-- One turn of the loop of `_dispatch`, up to the start of the node. -/
def dispatch (index : ℕ) (worker : Worker) (key : Text) : Option Drive :=
  (worker.view.find? fun row => decide (row.key = key ∧ row.state = .ready)).bind fun node =>
    if worker.launching.isSome then none
    else if worker.config.maxAttempts ≤ node.rungAttempts then
      s.calls index (.giveUp worker.epoch key (lit "AttemptsExhausted")) fun db =>
        { worker with view := db.nodes, isFresh := false }
    else
      s.calls index (.start worker.epoch key worker.config.maxAttempts) fun db =>
        { worker with launching := db.attempts.getLast?.map fun attempt => (node, attempt), isFresh := false }

/-- The rest of the turn: the attempt is handed to a runtime, or fails where it may not run. -/
def launch (index : ℕ) (worker : Worker) : Option Drive :=
  worker.launching.map fun (node, attempt) =>
    let spec := specOf worker.config node attempt (s.forbidden worker node.key)
    { s with
      workers := s.workers.set index
        { worker with launching := none, numbers := worker.numbers ++ [(node.key, attempt.number)] }
      handed := if spec.assignmentUnavailable || spec.reviewNotIndependent then s.handed
        else s.handed ++ [⟨node.key, attempt.number, spec.agent⟩] }

def settling (worker : Worker) (key : Text) : Option ((Text × ℕ) × NodeRow) :=
  if worker.launching.isSome ∨ worker.isFresh = false then none
  else
    (worker.numbers.find? fun entry => decide (entry.1 = key)).bind fun entry =>
      (worker.view.find? fun row => decide (row.key = key)).map fun node => (entry, node)

/-- One node of `_process_done`. -/
def settle (index : ℕ) (worker : Worker) (key : Text) (finished : Finished) (signature : Signature)
    (answers : Answers) : Option Drive :=
  (settling worker key).map fun (entry, node) =>
    let rest : Worker := { worker with numbers := worker.numbers.erase entry }
    match settleCall worker.config worker.epoch node entry.2 finished signature answers (s.forbidden worker key) with
    | none => s.setWorker index rest
    | some call =>
      match s.db.perform call with
      | .ok db => { s with db := db, workers := s.workers.set index { rest with view := db.nodes } }
      | .error _ => s.setWorker index rest

def asked : DriveEvent → Option DagCall
  | .settle index key finished signature answers => s.workers[index]?.bind fun worker =>
    (settling worker key).bind fun (entry, node) =>
      settleCall worker.config worker.epoch node entry.2 finished signature answers (s.forbidden worker key)
  | _ => none

end Drive

/-- One DAG from its creation on: workers that drive it, each with its own configuration, and the commands of
its task. -/
def driving : Machine Drive DriveEvent where
  initial s := dagStore.initial s.db ∧ s.workers = [] ∧ s.handed = []
  step s
    | .takeOver config owner run => (s.db.acquireIn owner run).toOption.map fun db =>
        { s with db := db, workers := s.workers ++ [⟨config, db.dag.epoch, db.nodes, [], none, true⟩] }
    | .dispatch index key => s.workers[index]?.bind fun worker => s.dispatch index worker key
    | .launch index => s.workers[index]?.bind fun worker => s.launch index worker
    | .refresh index => s.workers[index]?.bind fun worker =>
        if worker.launching.isSome then none
        else some (s.setWorker index { worker with view := s.db.nodes, isFresh := true })
    | .settle index key finished signature answers => s.workers[index]?.bind fun worker =>
        s.settle index worker key finished signature answers
    | .place index key number placement agent model cloud policyAllows => s.workers[index]?.bind fun worker =>
        s.calls index (.place worker.epoch key number placement agent model cloud policyAllows) fun _ => worker
    | .interrupt index => s.workers[index]?.bind fun worker =>
        if worker.launching.isSome then none
        else s.calls index (.interrupt worker.epoch) fun db => { worker with view := db.nodes, numbers := [] }
    | .cancel index => s.workers[index]?.bind fun worker =>
        s.calls index (.cancel worker.epoch) fun _ => { worker with isFresh := false }
    | .finalize index => s.workers[index]?.bind fun worker =>
        s.calls index (.finalize worker.epoch) fun _ => { worker with isFresh := false }
    | .command command args now => (s.db.command command args now).map fun db => { s with db := db }

/-! ### What each event does -/

/-- **What each event does**, with what was found on the way. -/
inductive Drove (s : Drive) : DriveEvent → Drive → Prop
  | takenOver {config : OrchestratorConfig} {owner : Text} {run : TaskRun} {db : DagDb}
      (accepted : s.db.perform (.acquire owner run) = .ok db) :
      Drove s (.takeOver config owner run)
        { s with db := db, workers := s.workers ++ [⟨config, db.dag.epoch, db.nodes, [], none, true⟩] }
  | gaveUp {index : ℕ} {worker : Worker} {key : Text} {db : DagDb} (isWorker : s.workers[index]? = some worker)
      (accepted : s.db.perform (.giveUp worker.epoch key (lit "AttemptsExhausted")) = .ok db) :
      Drove s (.dispatch index key)
        { s with db := db, workers := s.workers.set index { worker with view := db.nodes, isFresh := false } }
  | started {index : ℕ} {worker : Worker} {node : NodeRow} {db : DagDb} (isWorker : s.workers[index]? = some worker)
      (notLaunching : worker.launching = none) (isNode : node ∈ worker.view)
      (accepted : s.db.perform (.start worker.epoch node.key worker.config.maxAttempts) = .ok db) :
      Drove s (.dispatch index node.key)
        { s with
          db := db
          workers := s.workers.set index
            { worker with launching := db.attempts.getLast?.map fun attempt => (node, attempt), isFresh := false } }
  | launched {index : ℕ} {worker : Worker} {node : NodeRow} {attempt : AttemptRow}
      (isWorker : s.workers[index]? = some worker) (isLaunching : worker.launching = some (node, attempt)) {spec : Spec}
      (isSpec : spec = specOf worker.config node attempt (s.forbidden worker node.key)) :
      Drove s (.launch index)
        { s with
          workers := s.workers.set index
            { worker with launching := none, numbers := worker.numbers ++ [(node.key, attempt.number)] }
          handed := if spec.assignmentUnavailable || spec.reviewNotIndependent then s.handed
            else s.handed ++ [⟨node.key, attempt.number, spec.agent⟩] }
  | refreshed {index : ℕ} {worker : Worker} (isWorker : s.workers[index]? = some worker) :
      Drove s (.refresh index) (s.setWorker index { worker with view := s.db.nodes, isFresh := true })
  | unsettled {index : ℕ} {worker : Worker} {key : Text} {finished : Finished} {signature : Signature}
      {answers : Answers} {entry : Text × ℕ} (isWorker : s.workers[index]? = some worker) :
      Drove s (.settle index key finished signature answers)
        (s.setWorker index { worker with numbers := worker.numbers.erase entry })
  | settled {index : ℕ} {worker : Worker} {node : NodeRow} {number : ℕ} {finished : Finished} {signature : Signature}
      {answers : Answers} {call : DagCall} {db : DagDb}
      (isWorker : s.workers[index]? = some worker) (isSettling : Drive.settling worker node.key = some ((node.key, number), node))
      (isCall : settleCall worker.config worker.epoch node number finished signature answers
        (s.forbidden worker node.key) = some call) (accepted : s.db.perform call = .ok db) :
      Drove s (.settle index node.key finished signature answers)
        { s with
          db := db
          workers := s.workers.set index
            { worker with numbers := worker.numbers.erase (node.key, number), view := db.nodes } }
  | placed {index : ℕ} {worker : Worker} {key : Text} {number : ℤ} {placement : ExecutionPlacement} {agent model : Text}
      {cloud : Option CloudSend} {policyAllows : Bool} {db : DagDb} (isWorker : s.workers[index]? = some worker)
      (accepted : s.db.perform (.place worker.epoch key number placement agent model cloud policyAllows) = .ok db) :
      Drove s (.place index key number placement agent model cloud policyAllows)
        { s with db := db, workers := s.workers.set index worker }
  | interrupted {index : ℕ} {worker : Worker} {db : DagDb} (isWorker : s.workers[index]? = some worker)
      (notLaunching : worker.launching = none) (accepted : s.db.perform (.interrupt worker.epoch) = .ok db) :
      Drove s (.interrupt index)
        { s with db := db, workers := s.workers.set index { worker with view := db.nodes, numbers := [] } }
  | cancelled {index : ℕ} {worker : Worker} {db : DagDb} (isWorker : s.workers[index]? = some worker)
      (accepted : s.db.perform (.cancel worker.epoch) = .ok db) :
      Drove s (.cancel index) { s with db := db, workers := s.workers.set index { worker with isFresh := false } }
  | finalized {index : ℕ} {worker : Worker} {db : DagDb} (isWorker : s.workers[index]? = some worker)
      (accepted : s.db.perform (.finalize worker.epoch) = .ok db) :
      Drove s (.finalize index) { s with db := db, workers := s.workers.set index { worker with isFresh := false } }
  | commanded {command : TaskCommand} {args : Tasks.TaskDb.CommandArguments} {now : Tools.Instant} {db : DagDb}
      (accepted : s.db.command command args now = some db) : Drove s (.command command args now) { s with db := db }

section Drove

variable {s s' : Drive}

theorem calls_eq_some {index : ℕ} {call : DagCall} {next : DagDb → Worker} (called : s.calls index call next = some s') :
    ∃ db, s.db.perform call = .ok db ∧ s' = { s with db := db, workers := s.workers.set index (next db) } := by
  unfold Drive.calls at called
  cases performed : s.db.perform call with
  | error error =>
    rw [performed] at called
    cases called
  | ok db =>
    rw [performed] at called
    exact ⟨db, rfl, (Option.some.inj called).symm⟩

theorem settling_eq_some {worker : Worker} {key : Text} {entry : Text × ℕ} {node : NodeRow}
    (isSettling : Drive.settling worker key = some (entry, node)) :
    (worker.launching = none ∧ worker.isFresh = true) ∧ entry ∈ worker.numbers ∧ entry.1 = key ∧ node ∈ worker.view ∧
      node.key = key := by
  unfold Drive.settling at isSettling
  split at isSettling
  · cases isSettling
  case isFalse allowed =>
    obtain ⟨entry, found, isSettling⟩ := Option.bind_eq_some_iff.mp isSettling
    obtain ⟨node, isNode, same⟩ := Option.map_eq_some_iff.mp isSettling
    obtain ⟨rfl, rfl⟩ := Prod.mk.inj same
    rw [not_or, Bool.not_eq_false, Option.not_isSome_iff_eq_none] at allowed
    exact ⟨allowed, List.mem_of_find?_eq_some found, by simpa using List.find?_some found,
      List.mem_of_find?_eq_some isNode, by simpa using List.find?_some isNode⟩

theorem drove_of_step {event : DriveEvent} (taken : driving.step s event = some s') : Drove s event s' := by
  cases event with
  | takeOver config owner run =>
    unfold driving at taken
    dsimp only at taken
    cases performed : s.db.acquireIn owner run with
    | error error =>
      rw [performed] at taken
      cases taken
    | ok db =>
      rw [performed] at taken
      obtain rfl := Option.some.inj taken
      exact .takenOver performed
  | dispatch index key =>
    obtain ⟨worker, isWorker, dispatched⟩ := Option.bind_eq_some_iff.mp taken
    obtain ⟨node, found, dispatched⟩ := Option.bind_eq_some_iff.mp dispatched
    obtain ⟨rfl, -⟩ : node.key = key ∧ node.state = .ready := by simpa using List.find?_some found
    split at dispatched
    · cases dispatched
    case isFalse notLaunching =>
      split at dispatched
      · obtain ⟨db, accepted, rfl⟩ := calls_eq_some dispatched
        exact .gaveUp isWorker accepted
      · obtain ⟨db, accepted, rfl⟩ := calls_eq_some dispatched
        exact .started isWorker (Option.not_isSome_iff_eq_none.mp notLaunching) (List.mem_of_find?_eq_some found)
          accepted
  | launch index =>
    obtain ⟨worker, isWorker, launched⟩ := Option.bind_eq_some_iff.mp taken
    obtain ⟨⟨node, attempt⟩, isLaunching, rfl⟩ := Option.map_eq_some_iff.mp launched
    exact .launched isWorker isLaunching rfl
  | refresh index =>
    obtain ⟨worker, isWorker, refreshed⟩ := Option.bind_eq_some_iff.mp taken
    split at refreshed
    · cases refreshed
    · obtain rfl := Option.some.inj refreshed
      exact .refreshed isWorker
  | settle index key finished signature answers =>
    obtain ⟨worker, isWorker, isSettled⟩ := Option.bind_eq_some_iff.mp taken
    obtain ⟨⟨entry, node⟩, isSettling, settled⟩ := Option.map_eq_some_iff.mp isSettled
    obtain ⟨-, -, isEntry, -, isNode⟩ := settling_eq_some isSettling
    dsimp only at settled
    split at settled
    · exact settled ▸ .unsettled isWorker
    case h_2 call isCall =>
      split at settled
      case h_1 db accepted =>
        obtain ⟨entryKey, number⟩ := entry
        obtain rfl : entryKey = key := isEntry
        obtain rfl : node.key = entryKey := isNode
        exact settled ▸ .settled isWorker isSettling isCall accepted
      case h_2 => exact settled ▸ .unsettled isWorker
  | place index key number placement agent model cloud policyAllows =>
    obtain ⟨worker, isWorker, called⟩ := Option.bind_eq_some_iff.mp taken
    obtain ⟨db, accepted, rfl⟩ := calls_eq_some called
    exact .placed isWorker accepted
  | interrupt index =>
    obtain ⟨worker, isWorker, called⟩ := Option.bind_eq_some_iff.mp taken
    split at called
    · cases called
    case isFalse notLaunching =>
      obtain ⟨db, accepted, rfl⟩ := calls_eq_some called
      exact .interrupted isWorker (Option.not_isSome_iff_eq_none.mp notLaunching) accepted
  | cancel index =>
    obtain ⟨worker, isWorker, called⟩ := Option.bind_eq_some_iff.mp taken
    obtain ⟨db, accepted, rfl⟩ := calls_eq_some called
    exact .cancelled isWorker accepted
  | finalize index =>
    obtain ⟨worker, isWorker, called⟩ := Option.bind_eq_some_iff.mp taken
    obtain ⟨db, accepted, rfl⟩ := calls_eq_some called
    exact .finalized isWorker accepted
  | command command args now =>
    obtain ⟨db, accepted, rfl⟩ := Option.map_eq_some_iff.mp taken
    exact .commanded accepted

end Drove

end PawBackend.Orchestrator
