/-
**What an ended DAG leaves open** (`orchestrator/store.py`: `acquire_in`, `interrupt`, `cancel`, `finalize`;
`orchestrator/orchestrator.py`: `_hand_on_ended_dag`, `_ended_for_good`).

A DAG that succeeded is never opened again, and the orchestrator hands it on as it is.
-/

import PawBackend.Orchestrator.DagFencing

namespace PawBackend.Orchestrator

open Lib List
open Tools (TaskRun)
open DagDb (cancelledRow closedAs)
open Lib.Text (lit)

/-- An ended DAG has no node that could still run, and a succeeded one has succeeded in all it requires. -/
structure NoWorkLeft (db : DagDb) : Prop where
  ended : db.dag.state ≠ .active →
    ∀ row ∈ db.nodes, row.state ≠ .pending ∧ row.state ≠ .ready ∧ row.state ≠ .running
  succeeded : db.dag.state = .succeeded → ∀ row ∈ db.nodes, row.required = true → row.state = .succeeded

/-- The step does not let a later Retry take over a succeeded DAG that has a failed or blocked node. -/
def LeavesSucceeded (db : DagDb) : DagEvent → Prop
  | .call (.acquire _ run) => ¬ (db.dag.state = .succeeded ∧ db.dag.taskRetryCount < run.retryCount ∧
      ∃ row ∈ db.nodes, isReopened row.state = true)
  | _ => True

structure Closed (db : DagDb) : Prop where
  noWorkLeft : NoWorkLeft db
  settled : db.Settled

section Steps

variable {db db' : DagDb}

theorem closed_of_active (consistent : Consistent db) (active : db.dag.state = .active) : Closed db where
  noWorkLeft := ⟨fun ended => absurd active ended, fun succeeded => by
    rw [active] at succeeded
    cases succeeded⟩
  settled := consistent.settled active

theorem nodes_settle_of_settled (settled : db.Settled) : db.settle.nodes = db.nodes := by
  have same : ∀ row ∈ db.nodes, ({ row with state := settledState db.views row.view } : NodeRow) = row := by
    intro row mem
    have state : settledState db.views row.view = row.state :=
      settledState_eq_state_iff.mp settled row.view (mem_map_of_mem mem)
    rw [state]
  rw [DagDb.settle, map_congr_left same, map_id']

theorem nodes_interruptRunning {state : NodeState} (idle : ∀ row ∈ db.nodes, row.state ≠ .running) :
    (db.interruptRunning state).nodes = db.nodes :=
  (map_congr_left (g := id) fun row mem => if_neg (idle row mem)).trans (map_id _)

theorem settled_of_nodes (rows : db'.nodes = db.nodes) (settled : db.Settled) : db'.Settled := by
  rw [DagDb.Settled, DagDb.views, rows]
  exact settled

theorem Closed.of_same (closed : Closed db) (rows : db'.nodes = db.nodes) (state : db'.dag.state = db.dag.state) :
    Closed db' where
  noWorkLeft := by
    refine ⟨?_, ?_⟩ <;> rw [rows, state]
    · exact closed.noWorkLeft.ended
    · exact closed.noWorkLeft.succeeded
  settled := settled_of_nodes rows closed.settled

theorem Closed.nodes_interrupt (closed : Closed db) (ended : db.dag.state ≠ .active) {mid : DagDb}
    (rows : mid.nodes = db.nodes) : (mid.interruptRunning .ready).settle.nodes = db.nodes := by
  have idle : ∀ row ∈ mid.nodes, row.state ≠ .running := by
    rw [rows]
    exact fun row mem => (closed.noWorkLeft.ended ended row mem).2.2
  have same : (mid.interruptRunning .ready).nodes = db.nodes := (nodes_interruptRunning idle).trans rows
  rw [nodes_settle_of_settled (settled_of_nodes same closed.settled), same]

theorem nodes_reopenFor {run : TaskRun}
    (stays : ¬ (db.dag.taskRetryCount < run.retryCount ∧ ∃ row ∈ db.nodes, isReopened row.state = true)) :
    (db.reopenFor run).nodes = db.nodes := by
  rw [reopenFor_nodes, map_congr_left (g := id), map_id]
  intro row mem
  refine reopenedRow_of_not fun both => stays ⟨of_decide_eq_true both.1, row, mem, both.2⟩

theorem state_reopenFor {run : TaskRun} :
    (db.reopenFor run).dag.state =
      if db.dag.taskRetryCount < run.retryCount ∧ db.dag.state = .failed then .active else db.dag.state := by
  unfold DagDb.reopenFor
  by_cases later : db.dag.taskRetryCount < run.retryCount
  · rw [if_pos later]
    simp only [later, true_and]
  · rw [if_neg later, if_neg fun both => later both.1]

theorem Closed.acquire (closed : Closed db) {owner : Text} {run : TaskRun} (notCancelled : db.dag.state ≠ .cancelled)
    (leaves : LeavesSucceeded db (.call (.acquire owner run)))
    (consistent : Consistent (((db.takenBy owner).reopenFor run).interruptRunning .ready).settle) :
    Closed (((db.takenBy owner).reopenFor run).interruptRunning .ready).settle := by
  have state : (((db.takenBy owner).reopenFor run).interruptRunning .ready).settle.dag.state =
      if db.dag.taskRetryCount < run.retryCount ∧ db.dag.state = .failed then .active else db.dag.state :=
    state_reopenFor
  by_cases active : (((db.takenBy owner).reopenFor run).interruptRunning .ready).settle.dag.state = .active
  · exact closed_of_active consistent active
  rw [state] at active
  by_cases opens : db.dag.taskRetryCount < run.retryCount ∧ db.dag.state = .failed
  · exact absurd (if_pos opens) active
  rw [if_neg opens] at active state
  have stays : ¬ (db.dag.taskRetryCount < run.retryCount ∧ ∃ row ∈ db.nodes, isReopened row.state = true) := by
    rintro ⟨later, reopened⟩
    cases dagState : db.dag.state with
    | active => exact active dagState
    | succeeded => exact leaves ⟨dagState, later, reopened⟩
    | failed => exact opens ⟨later, dagState⟩
    | cancelled => exact notCancelled dagState
  have rows : ((db.takenBy owner).reopenFor run).nodes = db.nodes := @nodes_reopenFor (db.takenBy owner) run stays
  exact closed.of_same (closed.nodes_interrupt active rows) state

theorem closed_cancelled (ordered : db.cancelled.Ordered) : Closed db.cancelled := by
  have rows : ∀ row ∈ db.cancelled.nodes, row.state ≠ .running ∧ row.state.isOpen = false := by
    rw [nodes_cancelled, forall_mem_map]
    intro row mem
    dsimp only
    by_cases wasOpen : row.state = .running ∨ row.state.isOpen = true
    · rw [if_pos wasOpen]
      exact ⟨by decide, rfl⟩
    · rw [if_neg wasOpen]
      rw [not_or, Bool.not_eq_true] at wasOpen
      exact wasOpen
  refine ⟨⟨fun _ row mem => ?_, fun succeeded => by cases succeeded⟩, ?_⟩
  · obtain ⟨notRunning, notOpen⟩ := rows row mem
    refine ⟨?_, ?_, notRunning⟩ <;> intro state <;> rw [state] at notOpen <;> cases notOpen
  · rw [DagDb.Settled, settle_eq_self_iff ordered.views, DagDb.views, forall_mem_map]
    exact fun row mem isOpen => absurd ((rows row mem).2.symm.trans isOpen) Bool.false_ne_true

theorem closed_finalized (consistent : Consistent db) (active : db.dag.state = .active)
    (ended : dagVerdict db.views ≠ .active) :
    Closed { db with dag := { db.dag with state := closedAs (dagVerdict db.views) } } := by
  have settled := consistent.settled active
  have isOver := isOver_of_idle consistent.ordered.views settled ended
  refine ⟨⟨fun _ row mem => isOver row.view (mem_map_of_mem mem), fun succeeded row mem required => ?_⟩,
    settled⟩
  have verdict : dagVerdict db.views = .succeeded := by
    cases verdict : dagVerdict db.views with
    | active => exact absurd verdict ended
    | succeeded => rfl
    | failed =>
      rw [verdict] at succeeded
      cases succeeded
  exact (dagVerdict_eq_succeeded_iff ended).mp verdict row.view (mem_map_of_mem mem) required

theorem Closed.step (closed : Closed db) (consistent : Consistent db) {event : DagEvent}
    (leaves : LeavesSucceeded db event) (taken : dagStore.step db event = some db') : Closed db' := by
  have after := consistent.step taken
  rcases dagStore_step taken with ⟨call, rfl, accepted⟩ | ⟨task, rfl⟩
  · cases performed_of_perform accepted with
    | acquire sameAttempt notCancelled => exact closed.acquire notCancelled leaves after
    | start current | complete current | fail current | giveUp current | place current =>
      exact closed_of_active after current.active
    | interrupt =>
      by_cases active : db.dag.state = .active
      · exact closed_of_active after active
      · exact closed.of_same (closed.nodes_interrupt active rfl) rfl
    | cancel active => exact closed_cancelled after.ordered
    | cancelEnded ended => exact closed
    | finalize current ended => exact closed_finalized consistent current.active ended
  · exact closed.of_same rfl rfl

/-- **No work is left open** in any state of a run in which no later Retry takes over a succeeded DAG with a
failed or blocked node. -/
theorem noWorkLeft_of_reachableBy (reach : dagStore.ReachableBy LeavesSucceeded db) : NoWorkLeft db := by
  refine Closed.noWorkLeft (reach.invariant ?_ fun before event after reachable closed leaves taken => ?_)
  · rintro start ⟨task, attempt, plan, run, startRungs, accepted⟩
    obtain ⟨n, -, -, -, rfl⟩ := create_eq_ok accepted
    exact closed_of_active (consistent_created task n _ plan startRungs) rfl
  · exact closed.step (consistent_of_reachable reachable) leaves taken

end Steps

/-! ### A Retry after a failed evaluation -/

def succeedsWithoutCheck : List DagEvent :=
  [.call (.start 1 (lit "work") 6), .call (.complete 1 (lit "work") 1 (lit "\x7b\x7d")),
   .call (.start 1 (lit "check") 6),
   .call (.fail 1 (lit "check") 1 (lit "NodeTimeout") (List.replicate 64 97) .giveUp none none),
   .call (.finalize 1)]

theorem succeedsWithoutCheck_closed :
    ∃ db, dagStore.ReachableBy LeavesSucceeded db ∧ db.dag.state = .succeeded ∧ NoWorkLeft db := by
  obtain ⟨db, ran, holds⟩ := exists_of_run_any workAndCheckDag
    (.call (.acquire (lit "w1") TaskRun.first) :: succeedsWithoutCheck) (fun db => db.dag.state == .succeeded)
    (by decide)
  rw [Machine.run, Option.bind_eq_some_iff] at ran
  obtain ⟨mid, first, rest⟩ := ran
  have leaves : LeavesSucceeded workAndCheckDag (.call (.acquire (lit "w1") TaskRun.first)) :=
    fun both => absurd both.1 (by decide)
  have started := (Machine.ReachableBy.start workAndCheckDag_initial).next leaves first
  have others : ∀ event ∈ succeedsWithoutCheck, ∀ db, LeavesSucceeded db event := by
    simp [succeedsWithoutCheck, LeavesSucceeded]
  have reach := started.run others rest
  exact ⟨db, reach, beq_iff_eq.mp holds, noWorkLeft_of_reachableBy reach⟩

theorem one_le_maxRetries : 1 ≤ Tools.maxCounter := by decide

def secondRun : TaskRun := ⟨1, 1, Tools.one_le_maxCounter, one_le_maxRetries⟩

def retriedEvaluation : List DagEvent :=
  .call (.acquire (lit "w1") TaskRun.first) :: succeedsWithoutCheck ++
    [.command .beginEvaluation { actor := .system } 1, .command .fail { actor := .system } 2,
     .command .retry { actor := .system } 3, .call (.acquire (lit "w2") secondRun)]

theorem retriedEvaluation_reopens : ¬ ∀ db, dagStore.Reachable db → NoWorkLeft db := by
  intro always
  obtain ⟨db, ran, holds⟩ := exists_of_run_any workAndCheckDag retriedEvaluation
    (fun db => db.dag.state == .succeeded && db.nodes.any fun row => row.state = .ready) (by decide)
  obtain ⟨succeeded, someReady⟩ := (Bool.and_eq_true _ _).mp holds
  obtain ⟨row, member, ready⟩ := any_eq_true.mp someReady
  have none := always db ((Machine.Reachable.start workAndCheckDag_initial).run ran)
  exact (none.ended (by rw [beq_iff_eq.mp succeeded]; decide) row member).2.1 (of_decide_eq_true ready)

end PawBackend.Orchestrator
