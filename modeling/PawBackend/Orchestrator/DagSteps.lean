/-
**What a call does to one node** (`orchestrator/store.py`).

The calls of the store share the rows of a DAG, but each row, with the attempts of its node, changes in few
ways: `NodeStep`. `nodeStep_of_performed` reads them off the calls once; what holds of every node in every
state is then proved from the steps alone.
-/

import PawBackend.Orchestrator.DagStore

namespace PawBackend.Orchestrator

open Lib List
open Tools (TaskRun)
open DagDb (startedRow newAttempt succeededRow failedRow givenUpRow cancelledRow closeIn isAttempt moved checkMove)

/-! ### The attempts of a node -/

def DagDb.attemptsOf (db : DagDb) (key : Text) : List AttemptRow :=
  db.attempts.filter fun attempt => attempt.nodeKey = key

def interruptIn (attempts : List AttemptRow) : List AttemptRow :=
  attempts.map fun attempt => if attempt.state = .running then { attempt with state := .interrupted } else attempt

def placeIn (key : Text) (number : ℕ) (placed : Placed) (attempts : List AttemptRow) : List AttemptRow :=
  attempts.map fun attempt => if isAttempt key number attempt then DagDb.place placed attempt else attempt

section AttemptsOf

variable {attempts : List AttemptRow} {key other : Text} {number : ℕ} {state : AttemptState}
  {errorClass signature : Option Text} {placed : Placed}

theorem filter_map_attempts {change : AttemptRow → AttemptRow} (keeps : ∀ a, (change a).nodeKey = a.nodeKey) :
    (attempts.map change).filter (fun attempt => attempt.nodeKey = key) =
      (attempts.filter fun attempt => attempt.nodeKey = key).map change := by
  rw [filter_map]
  congr 1
  refine filter_congr fun attempt _ => ?_
  rw [Function.comp_apply, keeps]

theorem filter_interruptIn :
    (interruptIn attempts).filter (fun attempt => attempt.nodeKey = key) =
      interruptIn (attempts.filter fun attempt => attempt.nodeKey = key) :=
  filter_map_attempts fun attempt => by split <;> rfl

theorem filter_closeIn :
    (closeIn key number state errorClass signature attempts).filter (fun attempt => attempt.nodeKey = other) =
      closeIn key number state errorClass signature (attempts.filter fun attempt => attempt.nodeKey = other) :=
  filter_map_attempts fun attempt => by split <;> rfl

theorem filter_placeIn :
    (placeIn key number placed attempts).filter (fun attempt => attempt.nodeKey = other) =
      placeIn key number placed (attempts.filter fun attempt => attempt.nodeKey = other) :=
  filter_map_attempts fun attempt => by split <;> rfl

theorem not_isAttempt_of_ne (different : other ≠ key) {attempt : AttemptRow}
    (mem : attempt ∈ attempts.filter fun attempt => attempt.nodeKey = other) :
    isAttempt key number attempt = false := by
  have isOther : attempt.nodeKey = other := by simpa using (mem_filter.mp mem).2
  exact decide_eq_false fun both => different (isOther.symm.trans both.1)

theorem closeIn_of_ne (different : other ≠ key) :
    closeIn key number state errorClass signature (attempts.filter fun attempt => attempt.nodeKey = other) =
      attempts.filter fun attempt => attempt.nodeKey = other := by
  rw [closeIn, map_congr_left (g := id), map_id]
  intro attempt mem
  rw [if_neg]
  · rfl
  · rw [not_isAttempt_of_ne different mem]
    decide

theorem placeIn_of_ne (different : other ≠ key) :
    placeIn key number placed (attempts.filter fun attempt => attempt.nodeKey = other) =
      attempts.filter fun attempt => attempt.nodeKey = other := by
  rw [placeIn, map_congr_left (g := id), map_id]
  intro attempt mem
  rw [if_neg]
  · rfl
  · rw [not_isAttempt_of_ne different mem]
    decide

end AttemptsOf

/-! ### Settling the rows -/

def Settles (before after : NodeState) : Prop :=
  after = before ∨ before.isOpen = true ∧ after.isOpen = true

namespace DagDb

def Ordered (db : DagDb) : Prop := OrderedAfter NodeRow.key NodeRow.dependsOn [] db.nodes

variable {db : DagDb}

theorem Ordered.views (ordered : db.Ordered) : InOrdinalOrder db.views :=
  OrderedAfter.map ordered (fun _ _ => rfl) fun _ _ => rfl

theorem Ordered.eq_of_key (ordered : db.Ordered) {row other : NodeRow} (mem : row ∈ db.nodes)
    (otherMember : other ∈ db.nodes) (same : other.key = row.key) : other = row :=
  inj_on_of_nodup_map (OrderedAfter.nodup ordered) otherMember mem same

def settledRow (db : DagDb) (row : NodeRow) : NodeRow := { row with state := settledState db.views row.view }

theorem settles_settledRow (ordered : db.Ordered) {row : NodeRow} (mem : row ∈ db.nodes) :
    Settles row.state (settledState db.views row.view) := by
  have isView : row.view ∈ db.views := mem_map_of_mem mem
  by_cases isOpen : row.state.isOpen = true
  · exact .inr ⟨isOpen, (isOpen_settledState ordered.views isView).trans isOpen⟩
  · exact .inl (settledState_of_not_open ordered.views isView isOpen)

theorem views_settle : db.settle.views = Orchestrator.settle db.views := by
  rw [DagDb.views, DagDb.settle, Orchestrator.settle, map_map, DagDb.views, map_map]
  rfl

theorem Ordered.map (ordered : db.Ordered) {db' : DagDb} {change : NodeRow → NodeRow}
    (rows : db'.nodes = db.nodes.map change) (sameKey : ∀ row ∈ db.nodes, (change row).key = row.key)
    (sameEdges : ∀ row ∈ db.nodes, (change row).dependsOn = row.dependsOn) : db'.Ordered := by
  rw [DagDb.Ordered, rows]
  exact OrderedAfter.map ordered sameKey sameEdges

end DagDb

/-! ### Steps of a node -/

/-- How a call changes the row of a node and its attempts; `retryCount` is that of the run that took the DAG
over before. -/
inductive NodeStep (retryCount : ℕ) : DagCall → NodeRow → List AttemptRow → NodeRow → List AttemptRow → Prop
  | settled {call : DagCall} {row : NodeRow} {attempts : List AttemptRow} {state : NodeState}
      (within : Settles row.state state) : NodeStep retryCount call row attempts { row with state := state } attempts
  | interrupted {call : DagCall} {row : NodeRow} {attempts : List AttemptRow} {state : NodeState}
      (within : Settles (if row.state = .running then .ready else row.state) state) :
      NodeStep retryCount call row attempts { row with state := state } (interruptIn attempts)
  | reopened {owner : Text} {run : TaskRun} {row : NodeRow} {attempts : List AttemptRow} {state : NodeState}
      (later : retryCount < run.retryCount) (wasOver : isReopened row.state = true) (isOpen : state.isOpen = true) :
      NodeStep retryCount (.acquire owner run) row attempts { row with state := state, rungAttempts := 0, errorClass := none }
        (interruptIn attempts)
  | started {epoch : ℕ} {maxAttempts : ℤ} {row : NodeRow} {attempts : List AttemptRow} (ready : row.state = .ready)
      (left : (row.rungAttempts : ℤ) < maxAttempts) :
      NodeStep retryCount (.start epoch row.key maxAttempts) row attempts (startedRow row) (attempts ++ [newAttempt row epoch])
  | succeeded {epoch : ℕ} {result : Text} {row : NodeRow} {attempts : List AttemptRow}
      (running : row.state = .running) :
      NodeStep retryCount (.complete epoch row.key row.attemptCount result) row attempts (succeededRow result row)
        (closeIn row.key row.attemptCount .succeeded none none attempts)
  | failed {epoch : ℕ} {errorClass signature : Text} {step : NextStep} {agentIndex approach : Option ℤ}
      {move : Option ℕ × Option ℕ} {row next : NodeRow} {attempts : List AttemptRow} {state : NodeState}
      (running : row.state = .running) (checked : checkMove step agentIndex approach = .ok move)
      (isMoved : moved step move.1 move.2 row = .ok next)
      (within : Settles (failedRow errorClass step next).state state) :
      NodeStep retryCount (.fail epoch row.key row.attemptCount errorClass signature step agentIndex approach) row attempts
        { failedRow errorClass step next with state := state }
        (closeIn row.key row.attemptCount .failed (some errorClass) (some signature) attempts)
  | givenUp {epoch : ℕ} {errorClass : Text} {row : NodeRow} {attempts : List AttemptRow}
      (ready : row.state = .ready) :
      NodeStep retryCount (.giveUp epoch row.key errorClass) row attempts (givenUpRow errorClass row) attempts
  | placed {epoch : ℕ} {placement : ExecutionPlacement} {agent model : Text} {cloud : Option CloudSend}
      {policyAllows : Bool} {row : NodeRow} {attempts : List AttemptRow} (running : row.state = .running) :
      NodeStep retryCount (.place epoch row.key row.attemptCount placement agent model cloud policyAllows) row attempts row
        (placeIn row.key row.attemptCount
          ⟨placement, agent, model, cloud.map fun send => (send.contentFingerprint, send.contentBytes)⟩ attempts)
  | cancelled {epoch : ℕ} {row : NodeRow} {attempts : List AttemptRow} {state : NodeState}
      (within : state = if row.state = .running ∨ row.state.isOpen = true then .cancelled else row.state) :
      NodeStep retryCount (.cancel epoch) row attempts { row with state := state } (interruptIn attempts)

structure SamePlan (row row' : NodeRow) : Prop where
  key : row'.key = row.key
  role : row'.role = row.role
  required : row'.required = row.required
  dependsOn : row'.dependsOn = row.dependsOn
  assignedAgent : row'.assignedAgent = row.assignedAgent

theorem SamePlan.refl (row : NodeRow) : SamePlan row row := ⟨rfl, rfl, rfl, rfl, rfl⟩

theorem SamePlan.trans {row mid row' : NodeRow} (first : SamePlan row mid) (second : SamePlan mid row') :
    SamePlan row row' :=
  ⟨second.key.trans first.key, second.role.trans first.role, second.required.trans first.required,
    second.dependsOn.trans first.dependsOn, second.assignedAgent.trans first.assignedAgent⟩

/-- What a failed attempt moves: the rung and the approach, up, and a new rung starts with no attempts. -/
structure Moved (row next : NodeRow) : Prop where
  plan : SamePlan row next
  state : next.state = row.state
  attemptCount : next.attemptCount = row.attemptCount
  result : next.result = row.result
  agentIndex : row.agentIndex ≤ next.agentIndex
  approach : row.approach ≤ next.approach
  rung : next.agentIndex = row.agentIndex ∧ next.rungAttempts = row.rungAttempts ∨
    row.agentIndex < next.agentIndex ∧ next.rungAttempts = 0

theorem moved_of_eq_ok {step : NextStep} {agentIndex approach : Option ℕ} {row next : NodeRow}
    (isMoved : moved step agentIndex approach row = .ok next) : Moved row next := by
  have same : Moved row row := ⟨.refl row, rfl, rfl, rfl, le_rfl, le_rfl, .inl ⟨rfl, rfl⟩⟩
  unfold moved at isMoved
  split at isMoved
  · split at isMoved
    · cases isMoved
    case isFalse allowed =>
      rw [not_or, not_not, not_le] at allowed
      obtain rfl := Except.ok.inj isMoved
      exact ⟨⟨rfl, rfl, rfl, rfl, rfl⟩, rfl, rfl, rfl, le_rfl, allowed.2.le, .inl ⟨rfl, rfl⟩⟩
  · split at isMoved
    · cases isMoved
    case isFalse allowed =>
      rw [not_or, not_le, not_le] at allowed
      obtain rfl := Except.ok.inj isMoved
      exact ⟨⟨rfl, rfl, rfl, rfl, rfl⟩, rfl, rfl, rfl, allowed.1.le, allowed.2.le, .inr ⟨allowed.1, rfl⟩⟩
  · obtain rfl := Except.ok.inj isMoved
    exact same

theorem NodeStep.samePlan {retryCount : ℕ} {call : DagCall} {row row' : NodeRow} {attempts attempts' : List AttemptRow}
    (step : NodeStep retryCount call row attempts row' attempts') : SamePlan row row' := by
  cases step with
  | failed running checked isMoved within =>
    obtain ⟨⟨key, role, required, dependsOn, assignedAgent⟩, -⟩ := moved_of_eq_ok isMoved
    exact ⟨key, role, required, dependsOn, assignedAgent⟩
  | placed running => exact .refl row
  | _ => exact ⟨rfl, rfl, rfl, rfl, rfl⟩

/-! ### Every call is a step of every node -/

def NodeSteps (call : DagCall) (db db' : DagDb) : Prop :=
  ∃ change : NodeRow → NodeRow, db'.nodes = db.nodes.map change ∧
    ∀ row ∈ db.nodes, NodeStep db.dag.taskRetryCount call row (db.attemptsOf row.key) (change row) (db'.attemptsOf row.key)

section Performed

variable {db db' : DagDb} {call : DagCall}

theorem NodeSteps.ordered (steps : NodeSteps call db db') (ordered : db.Ordered) : db'.Ordered := by
  obtain ⟨change, rows, each⟩ := steps
  exact ordered.map rows (fun row mem => (each row mem).samePlan.key) fun row mem =>
    (each row mem).samePlan.dependsOn

theorem nodeSteps_settle {mid : DagDb} {change : NodeRow → NodeRow} (ordered : db.Ordered)
    (rows : mid.nodes = db.nodes.map change) (plan : ∀ row ∈ db.nodes, SamePlan row (change row))
    (each : ∀ row ∈ db.nodes, ∀ state, Settles (change row).state state →
      NodeStep db.dag.taskRetryCount call row (db.attemptsOf row.key) { change row with state := state } (mid.attemptsOf row.key)) :
    NodeSteps call db mid.settle := by
  have midOrdered : mid.Ordered :=
    ordered.map rows (fun row mem => (plan row mem).key) fun row mem => (plan row mem).dependsOn
  refine ⟨fun row => mid.settledRow (change row), ?_, fun row mem => ?_⟩
  · rw [DagDb.settle, rows, map_map]
    rfl
  · refine each row mem _ (DagDb.settles_settledRow midOrdered ?_)
    rw [rows]
    exact mem_map_of_mem mem

theorem nodeSteps_setNode {mid : DagDb} {row : NodeRow} {change : NodeRow → NodeRow}
    {f : List AttemptRow → List AttemptRow} (ordered : db.Ordered) (mem : row ∈ db.nodes)
    (rows : mid.nodes = (db.setNode row.key change).nodes)
    (attempts : ∀ key, mid.attemptsOf key = f (db.attemptsOf key)) (plan : SamePlan row (change row))
    (others : ∀ key, key ≠ row.key → f (db.attemptsOf key) = db.attemptsOf key)
    (own : ∀ state, Settles (change row).state state →
      NodeStep db.dag.taskRetryCount call row (db.attemptsOf row.key) { change row with state := state } (f (db.attemptsOf row.key))) :
    NodeSteps call db mid.settle := by
  refine nodeSteps_settle ordered rows (fun other isNode => ?_) fun other isNode state within => ?_
  · by_cases same : other.key = row.key
    · obtain rfl := ordered.eq_of_key mem isNode same
      rw [if_pos rfl]
      exact plan
    · rw [if_neg same]
      exact .refl other
  · by_cases same : other.key = row.key
    · obtain rfl := ordered.eq_of_key mem isNode same
      rw [if_pos rfl] at within ⊢
      rw [attempts]
      exact own state within
    · rw [if_neg same] at within ⊢
      rw [attempts, others other.key same]
      exact .settled within

theorem NodeStep.same (retryCount : ℕ) (call : DagCall) (row : NodeRow) (attempts : List AttemptRow) :
    NodeStep retryCount call row attempts row attempts :=
  .settled (.inl rfl)

theorem nodeSteps_start {row : NodeRow} {maxAttempts : ℤ} (ordered : db.Ordered) (mem : row ∈ db.nodes)
    (ready : row.state = .ready) (left : (row.rungAttempts : ℤ) < maxAttempts) :
    NodeSteps (.start db.dag.epoch row.key maxAttempts) db
      { db.setNode row.key startedRow with attempts := db.attempts ++ [newAttempt row db.dag.epoch] } := by
  refine ⟨_, rfl, fun other isNode => ?_⟩
  rw [DagDb.attemptsOf, DagDb.attemptsOf, filter_append]
  by_cases same : other.key = row.key
  · obtain rfl := ordered.eq_of_key mem isNode same
    rw [if_pos rfl, filter_singleton, newAttempt]
    simp only [decide_true, cond_true]
    exact .started ready left
  · rw [if_neg same, filter_singleton, newAttempt]
    simp only [Ne.symm same, decide_false, cond_false, append_nil]
    exact .same _ _ other _

theorem nodeSteps_interruptRunning (ordered : db.Ordered) :
    NodeSteps call db (db.interruptRunning .ready).settle := by
  refine nodeSteps_settle ordered rfl (fun row _ => ?_) fun row _ state within => ?_
  · split
    · exact ⟨rfl, rfl, rfl, rfl, rfl⟩
    · exact .refl row
  · have attempts : (db.interruptRunning .ready).attemptsOf row.key = interruptIn (db.attemptsOf row.key) :=
      filter_interruptIn
    rw [attempts]
    by_cases running : row.state = .running
    · rw [if_pos running] at within ⊢
      exact .interrupted (by rw [if_pos running]; exact within)
    · rw [if_neg running] at within ⊢
      exact .interrupted (by rw [if_neg running]; exact within)

/-- A row that a later run opens again where it has to, before the running ones are interrupted. -/
def reopenedRow (later : Bool) (row : NodeRow) : NodeRow := if later then DagDb.reopen row else row

theorem reopenFor_nodes (run : TaskRun) :
    (db.reopenFor run).nodes = db.nodes.map (reopenedRow (decide (db.dag.taskRetryCount < run.retryCount))) := by
  unfold DagDb.reopenFor reopenedRow
  by_cases later : db.dag.taskRetryCount < run.retryCount
  · rw [if_pos later, decide_eq_true later]
    rfl
  · rw [if_neg later, decide_eq_false later]
    exact (map_id _).symm

theorem reopenFor_attempts (run : TaskRun) : (db.reopenFor run).attempts = db.attempts := by
  unfold DagDb.reopenFor
  split <;> rfl

theorem reopenedRow_of_not {later : Bool} {row : NodeRow} (stays : ¬ (later = true ∧ isReopened row.state = true)) :
    reopenedRow later row = row := by
  unfold reopenedRow DagDb.reopen
  by_cases isLater : later = true
  · rw [if_pos isLater, if_neg fun isOver => stays ⟨isLater, isOver⟩]
  · rw [if_neg isLater]

theorem reopenedRow_of {later : Bool} {row : NodeRow} (both : later = true ∧ isReopened row.state = true) :
    reopenedRow later row = { row with state := .pending, rungAttempts := 0, errorClass := none } := by
  rw [reopenedRow, if_pos both.1, DagDb.reopen, if_pos both.2]

theorem nodeSteps_acquire {owner : Text} {run : TaskRun} (ordered : db.Ordered) :
    NodeSteps (.acquire owner run) db (((db.takenBy owner).reopenFor run).interruptRunning .ready).settle := by
  have attempts : ∀ key, (((db.takenBy owner).reopenFor run).interruptRunning .ready).attemptsOf key =
      interruptIn (db.attemptsOf key) := by
    intro key
    have same : ((db.takenBy owner).reopenFor run).attempts = db.attempts := reopenFor_attempts run
    rw [DagDb.attemptsOf, DagDb.interruptRunning, same]
    exact filter_interruptIn
  have rows : (((db.takenBy owner).reopenFor run).interruptRunning .ready).nodes = db.nodes.map
      ((fun row => if row.state = .running then { row with state := .ready } else row) ∘
        reopenedRow (decide (db.dag.taskRetryCount < run.retryCount))) := by
    rw [DagDb.interruptRunning, reopenFor_nodes, map_map]
    rfl
  generalize isLater : decide (db.dag.taskRetryCount < run.retryCount) = later at rows
  have changed : ∀ row : NodeRow, ¬ (later = true ∧ isReopened row.state = true) →
      ((fun row => if row.state = .running then { row with state := .ready } else row) ∘ reopenedRow later) row =
        { row with state := if row.state = .running then .ready else row.state } := by
    intro row stays
    rw [Function.comp_apply, reopenedRow_of_not stays]
    split <;> rfl
  refine nodeSteps_settle ordered rows (fun row _ => ?_) fun row _ state within => ?_
  · by_cases both : later = true ∧ isReopened row.state = true
    · rw [Function.comp_apply, reopenedRow_of both]
      exact ⟨rfl, rfl, rfl, rfl, rfl⟩
    · rw [changed row both]
      exact ⟨rfl, rfl, rfl, rfl, rfl⟩
  · rw [attempts]
    by_cases both : later = true ∧ isReopened row.state = true
    · rw [Function.comp_apply, reopenedRow_of both] at within ⊢
      refine .reopened (of_decide_eq_true (isLater.trans both.1)) both.2 ?_
      rcases within with rfl | isOpen
      · rfl
      · exact isOpen.2
    · rw [changed row both] at within ⊢
      exact .interrupted within

theorem nodes_cancelled :
    db.cancelled.nodes = db.nodes.map fun row => { row with
      state := if row.state = .running ∨ row.state.isOpen = true then .cancelled else row.state } := by
  rw [DagDb.cancelled, DagDb.interruptRunning]
  dsimp only
  rw [map_map]
  refine map_congr_left fun row _ => ?_
  rw [Function.comp_apply]
  by_cases running : row.state = .running
  · rw [if_pos running, if_pos (.inl running)]
    rfl
  · rw [if_neg running, cancelledRow]
    by_cases isOpen : row.state.isOpen = true
    · rw [if_pos isOpen, if_pos (.inr isOpen)]
    · rw [if_neg isOpen, if_neg (not_or.mpr ⟨running, isOpen⟩)]

theorem nodeSteps_cancel : NodeSteps (.cancel db.dag.epoch) db db.cancelled := by
  refine ⟨_, nodes_cancelled, fun row _ => ?_⟩
  have attempts : db.cancelled.attemptsOf row.key = interruptIn (db.attemptsOf row.key) := filter_interruptIn
  rw [attempts]
  exact .cancelled rfl

/-- **Every accepted call is a step of each node of the DAG.** -/
theorem nodeSteps_of_performed (ordered : db.Ordered) (performed : Performed db call db') :
    NodeSteps call db db' := by
  cases performed with
  | acquire => exact nodeSteps_acquire ordered
  | start current taskRuns mem ready left => exact nodeSteps_start ordered mem ready left
  | @complete row result current mem running =>
    refine nodeSteps_setNode ordered mem rfl (fun key => filter_closeIn) ⟨rfl, rfl, rfl, rfl, rfl⟩
      (fun key different => closeIn_of_ne different) fun state within => ?_
    have stays : state = .succeeded := within.resolve_right fun isOpen => by cases isOpen.1
    subst stays
    exact .succeeded running
  | @fail row next errorClass signature step agentIndex approach move current mem running checked isMoved =>
    obtain ⟨⟨key, role, required, dependsOn, assignedAgent⟩, -⟩ := moved_of_eq_ok isMoved
    exact nodeSteps_setNode ordered mem rfl (fun key => filter_closeIn)
      ⟨key, role, required, dependsOn, assignedAgent⟩ (fun key different => closeIn_of_ne different)
      fun state within => .failed running checked isMoved within
  | @giveUp row errorClass current mem ready =>
    refine nodeSteps_setNode (f := id) ordered mem rfl (fun _ => rfl) ⟨rfl, rfl, rfl, rfl, rfl⟩
      (fun _ _ => rfl) fun state within => ?_
    have stays : state = .failed := within.resolve_right fun isOpen => by cases isOpen.1
    subst stays
    exact .givenUp ready
  | @place row attempt placement agent model cloud policyAllows current mem running isRow isIts notPlaced =>
    refine ⟨id, (map_id _).symm, fun other isNode => ?_⟩
    change NodeStep _ _ other _ other ((placeIn row.key row.attemptCount _ db.attempts).filter _)
    rw [filter_placeIn]
    by_cases same : other.key = row.key
    · obtain rfl := ordered.eq_of_key mem isNode same
      exact .placed running
    · rw [placeIn_of_ne same]
      exact .same _ _ other _
  | interrupt => exact nodeSteps_interruptRunning ordered
  | cancel active => exact nodeSteps_cancel
  | cancelEnded | finalize => exact ⟨id, (map_id _).symm, fun row _ => .same _ _ row _⟩

end Performed

end PawBackend.Orchestrator
