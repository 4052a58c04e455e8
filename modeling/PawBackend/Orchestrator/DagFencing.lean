/-
**Fencing and consistency of a DAG** (`orchestrator/store.py`).

Any number of workers call the store with any epochs and attempt numbers, and the task is failed, retried, restarted,
paused or cancelled in between.
-/

import PawBackend.Orchestrator.DagSteps

namespace PawBackend.Orchestrator

open Lib List
open DagDb (startedRow newAttempt succeededRow failedRow givenUpRow closeIn isAttempt)
open Lib.Text (lit)

/-! ### A node and its attempts -/

structure RowConsistent (row : NodeRow) (attempts : List AttemptRow) : Prop where
  numbers : attempts.map AttemptRow.number = List.range' 1 row.attemptCount
  counted : row.state = .running → 0 < row.attemptCount
  running : ∀ attempt ∈ attempts, attempt.state = .running ↔ row.state = .running ∧ attempt.number = row.attemptCount

namespace Settles

variable {before after : NodeState}

theorem eq_iff (settles : Settles before after) (state : NodeState) (fixed : state.isOpen = false) :
    after = state ↔ before = state := by
  rcases settles with rfl | ⟨wasOpen, isOpen⟩
  · rfl
  · refine iff_of_false ?_ ?_ <;> rintro rfl
    · exact Bool.false_ne_true (fixed.symm.trans isOpen)
    · exact Bool.false_ne_true (fixed.symm.trans wasOpen)

end Settles

section Rows

variable {retryCount : ℕ} {row row' : NodeRow} {attempts attempts' : List AttemptRow} {call : DagCall}

theorem map_number_interruptIn : (interruptIn attempts).map AttemptRow.number = attempts.map AttemptRow.number := by
  rw [interruptIn, map_map]
  refine map_congr_left fun attempt _ => ?_
  rw [Function.comp_apply]
  split <;> rfl

theorem map_number_closeIn {key : Text} {number : ℕ} {state : AttemptState} {errorClass signature : Option Text} :
    (closeIn key number state errorClass signature attempts).map AttemptRow.number =
      attempts.map AttemptRow.number := by
  rw [closeIn, map_map]
  refine map_congr_left fun attempt _ => ?_
  rw [Function.comp_apply]
  split <;> rfl

theorem map_number_placeIn {key : Text} {number : ℕ} {placed : Placed} :
    (placeIn key number placed attempts).map AttemptRow.number = attempts.map AttemptRow.number := by
  rw [placeIn, map_map]
  refine map_congr_left fun attempt _ => ?_
  rw [Function.comp_apply]
  split <;> rfl

theorem state_ne_running_of_mem_interruptIn {attempt : AttemptRow} (mem : attempt ∈ interruptIn attempts) :
    attempt.state ≠ .running := by
  obtain ⟨before, -, rfl⟩ := mem_map.mp mem
  split
  · nofun
  · assumption

namespace RowConsistent

theorem number_mem (consistent : RowConsistent row attempts) {attempt : AttemptRow} (mem : attempt ∈ attempts) :
    1 ≤ attempt.number ∧ attempt.number ≤ row.attemptCount := by
  have isNumber : attempt.number ∈ attempts.map AttemptRow.number := mem_map_of_mem mem
  rw [consistent.numbers, mem_range'_1] at isNumber
  omega

theorem of_not_running (numbers : attempts'.map AttemptRow.number = List.range' 1 row'.attemptCount)
    (notRunning : row'.state ≠ .running) (none : ∀ attempt ∈ attempts', attempt.state ≠ .running) :
    RowConsistent row' attempts' where
  numbers := numbers
  counted running := absurd running notRunning
  running attempt mem := iff_of_false (none attempt mem) fun both => notRunning both.1

theorem none_running (consistent : RowConsistent row attempts) (notRunning : row.state ≠ .running) :
    ∀ attempt ∈ attempts, attempt.state ≠ .running :=
  fun attempt mem runs => notRunning ((consistent.running attempt mem).mp runs).1

theorem interrupted (consistent : RowConsistent row attempts) (count : row'.attemptCount = row.attemptCount)
    (notRunning : row'.state ≠ .running) : RowConsistent row' (interruptIn attempts) := by
  refine of_not_running ?_ notRunning fun attempt mem => state_ne_running_of_mem_interruptIn mem
  rw [map_number_interruptIn, consistent.numbers, count]

theorem closed (consistent : RowConsistent row attempts) (own : ∀ attempt ∈ attempts, attempt.nodeKey = row.key)
    (count : row'.attemptCount = row.attemptCount) (notRunning : row'.state ≠ .running) {state : AttemptState}
    (isClosed : state ≠ .running) {errorClass signature : Option Text} :
    RowConsistent row' (closeIn row.key row.attemptCount state errorClass signature attempts) := by
  refine of_not_running ?_ notRunning fun attempt mem => ?_
  · rw [map_number_closeIn, consistent.numbers, count]
  · obtain ⟨before, isBefore, rfl⟩ := mem_map.mp mem
    split
    case isTrue => exact isClosed
    case isFalse notIts =>
      intro runs
      refine notIts (decide_eq_true ⟨own before isBefore, ?_, runs⟩)
      exact ((consistent.running before isBefore).mp runs).2

theorem started (consistent : RowConsistent row attempts) (ready : row.state = .ready) (epoch : ℕ) :
    RowConsistent (startedRow row) (attempts ++ [newAttempt row epoch]) where
  numbers := by
    rw [map_append, consistent.numbers, startedRow, range'_concat]
    simp [newAttempt, Nat.add_comm]
  counted _ := Nat.succ_pos _
  running attempt mem := by
    rcases mem_append.mp mem with old | new
    · have notRunning := consistent.none_running (by rw [ready]; decide) attempt old
      have bound := (consistent.number_mem old).2
      refine iff_of_false notRunning fun both => ?_
      have number : attempt.number = row.attemptCount + 1 := both.2
      omega
    · obtain rfl := mem_singleton.mp new
      exact iff_of_true rfl ⟨rfl, rfl⟩

theorem placed (consistent : RowConsistent row attempts) {key : Text} {number : ℕ} {placed : Placed} :
    RowConsistent row (placeIn key number placed attempts) where
  numbers := map_number_placeIn.trans consistent.numbers
  counted := consistent.counted
  running attempt mem := by
    obtain ⟨before, isBefore, rfl⟩ := mem_map.mp mem
    have same := consistent.running before isBefore
    split
    · exact same
    · exact same

/-- **Every step of a node keeps its row and its attempts together.** -/
theorem step (consistent : RowConsistent row attempts) (own : ∀ attempt ∈ attempts, attempt.nodeKey = row.key)
    (step : NodeStep retryCount call row attempts row' attempts') : RowConsistent row' attempts' := by
  cases step with
  | settled within =>
    have running := within.eq_iff .running rfl
    refine ⟨consistent.numbers, fun runs => consistent.counted (running.mp runs), fun attempt mem => ?_⟩
    rw [consistent.running attempt mem, ← running]
  | interrupted within =>
    refine consistent.interrupted rfl fun runs => ?_
    have before := (within.eq_iff .running rfl).mp runs
    split at before
    · cases before
    case isFalse notRunning => exact notRunning before
  | reopened later wasOver isOpen =>
    refine consistent.interrupted rfl ?_
    rintro rfl
    cases isOpen
  | started ready left => exact consistent.started ready _
  | succeeded running =>
    apply consistent.closed own
    · rfl
    · nofun
    · nofun
  | @failed epoch errorClass signature step agentIndex approach move _ next _ state running checked isMoved within =>
    have count := (moved_of_eq_ok isMoved).attemptCount
    apply consistent.closed own
    · exact count
    · intro runs
      have before := (within.eq_iff .running rfl).mp runs
      unfold failedRow at before
      dsimp only at before
      split at before <;> cases before
    · nofun
  | givenUp ready =>
    exact of_not_running consistent.numbers nofun (consistent.none_running (by rw [ready]; decide))
  | placed running => exact consistent.placed
  | cancelled within =>
    refine consistent.interrupted rfl ?_
    rintro rfl
    split at within
    · cases within
    case isFalse notRunning => exact notRunning (.inl within.symm)

end RowConsistent

end Rows

/-! ### What is over stays -/

section Over

variable {retryCount : ℕ} {row row' : NodeRow} {attempts attempts' : List AttemptRow} {call : DagCall}

theorem NodeStep.succeeded_stays (step : NodeStep retryCount call row attempts row' attempts') (isOver : row.state = .succeeded) :
    row'.state = .succeeded ∧ row'.result = row.result := by
  cases step with
  | settled within => exact ⟨(within.eq_iff .succeeded rfl).mpr isOver, rfl⟩
  | interrupted within =>
    refine ⟨(within.eq_iff .succeeded rfl).mpr ?_, rfl⟩
    rw [isOver]
    rfl
  | reopened later wasOver isOpen =>
    rw [isOver] at wasOver
    cases wasOver
  | started ready left => exact absurd (isOver.symm.trans ready) nofun
  | succeeded running => exact absurd (isOver.symm.trans running) nofun
  | failed running checked isMoved within => exact absurd (isOver.symm.trans running) nofun
  | givenUp ready => exact absurd (isOver.symm.trans ready) nofun
  | placed running => exact ⟨isOver, rfl⟩
  | cancelled within =>
    rw [isOver] at within
    exact ⟨within, rfl⟩

theorem mem_map_of_kept {change : AttemptRow → AttemptRow} {attempt : AttemptRow} (mem : attempt ∈ attempts)
    (kept : change attempt = attempt) : attempt ∈ attempts.map change :=
  mem_map.mpr ⟨attempt, mem, kept⟩

theorem NodeStep.closed_stays (step : NodeStep retryCount call row attempts row' attempts') {attempt : AttemptRow}
    (mem : attempt ∈ attempts) (closed : attempt.state ≠ .running) : attempt ∈ attempts' := by
  have notIts : ∀ {key : Text} {number : ℕ}, ¬ isAttempt key number attempt = true :=
    fun its => closed (of_decide_eq_true its).2.2
  cases step with
  | settled | givenUp => exact mem
  | interrupted | reopened | cancelled => exact mem_map_of_kept mem (if_neg closed)
  | started ready left => exact mem_append_left _ mem
  | succeeded | failed | placed => exact mem_map_of_kept mem (if_neg notIts)

end Over

/-! ### The whole DAG -/

def DagDb.Settled (db : DagDb) : Prop := Orchestrator.settle db.views = db.views

structure Consistent (db : DagDb) : Prop where
  ordered : db.Ordered
  rows : ∀ row ∈ db.nodes, RowConsistent row (db.attemptsOf row.key)
  settled : db.dag.state = .active → db.Settled

section Dag

variable {db db' : DagDb} {call : DagCall}

theorem nodeKey_of_mem_attemptsOf {key : Text} {attempt : AttemptRow} (mem : attempt ∈ db.attemptsOf key) :
    attempt.nodeKey = key := by
  simpa using (mem_filter.mp mem).2

theorem settled_settle (ordered : db.settle.Ordered) : db.settle.Settled := by
  have before : db.Ordered := OrderedAfter.of_map ordered (fun _ => rfl) fun _ => rfl
  rw [DagDb.Settled, DagDb.views_settle]
  exact settle_settle before.views

theorem DagDb.Settled.succeeded_of_ready (settled : db.Settled) (ordered : db.Ordered) {row : NodeRow}
    (mem : row ∈ db.nodes) (ready : row.state = .ready) {dependency : NodeRow} (isNode : dependency ∈ db.nodes)
    (depends : dependency.key ∈ row.dependsOn) : dependency.state = .succeeded := by
  have isView : row.view ∈ db.views := mem_map_of_mem mem
  have isOpen : row.view.state.isOpen = true := by
    rw [show row.view.state = .ready from ready]
    rfl
  have state : settledState db.views row.view = .ready :=
    (settledState_eq_state_iff.mp settled row.view isView).trans ready
  exact (settledState_eq_ready_iff ordered.views isView isOpen).mp state dependency.view
    (mem_map_of_mem isNode) depends

theorem settled_start (ordered : db.Ordered) (settled : db.Settled) {row : NodeRow} (mem : row ∈ db.nodes)
    (ready : row.state = .ready) : (db.setNode row.key startedRow).Settled := by
  have viewsAfter : (db.setNode row.key startedRow).views = db.nodes.map fun other =>
      { other.view with state := if other.key = row.key then .running else other.state } := by
    rw [DagDb.views, DagDb.setNode, map_map]
    refine map_congr_left fun other _ => ?_
    rw [Function.comp_apply]
    split <;> rfl
  have orderedAfter : InOrdinalOrder (db.setNode row.key startedRow).views := by
    rw [viewsAfter]
    exact OrderedAfter.map ordered (fun _ _ => rfl) fun _ _ => rfl
  rw [DagDb.Settled, settle_eq_self_iff orderedAfter]
  have before := (settle_eq_self_iff ordered.views).mp settled
  rw [viewsAfter, forall_mem_map]
  intro other isNode isOpen
  by_cases same : other.key = row.key
  · rw [if_pos same] at isOpen
    cases isOpen
  · rw [if_neg same] at isOpen ⊢
    refine (before other.view (mem_map_of_mem isNode) isOpen).trans ?_
    have dependencyStates : ∀ key ∈ other.dependsOn, ∃ dependency ∈ db.nodes, dependency.key = key ∧
        stateOf db.views key = some dependency.state ∧
        stateOf (db.setNode row.key startedRow).views key =
          some (if dependency.key = row.key then .running else dependency.state) := by
      intro key depends
      obtain ⟨view, isView, rfl⟩ := ordered.views.exists_dependency (mem_map_of_mem isNode) depends
      obtain ⟨dependency, isDependency, rfl⟩ := mem_map.mp isView
      refine ⟨dependency, isDependency, rfl, stateOf_key ordered.views isView, ?_⟩
      have isAfter : { dependency.view with
          state := if dependency.key = row.key then NodeState.running else dependency.state } ∈
          (db.setNode row.key startedRow).views := by
        rw [viewsAfter]
        exact mem_map_of_mem isDependency
      exact stateOf_key orderedAfter isAfter
    rw [← viewsAfter]
    refine dependencyEffect_congr (fun key depends => ?_) fun key depends => ?_
    · obtain ⟨dependency, isDependency, -, old, new⟩ := dependencyStates key depends
      rw [old, new]
      split
      case isTrue isRow =>
        obtain rfl := ordered.eq_of_key mem isDependency isRow
        rw [ready]
        rfl
      case isFalse => rfl
    · obtain ⟨dependency, isDependency, -, old, new⟩ := dependencyStates key depends
      rw [old, new]
      split
      case isTrue isRow =>
        obtain rfl := ordered.eq_of_key mem isDependency isRow
        rw [ready]
        decide
      case isFalse => rfl

theorem settled_of_performed (consistent : Consistent db) (performed : Performed db call db')
    (active : db'.dag.state = .active) : db'.Settled := by
  have ordered := (nodeSteps_of_performed consistent.ordered performed).ordered consistent.ordered
  cases performed with
  | acquire | complete | fail | giveUp | interrupt => exact settled_settle ordered
  | start current taskRuns mem ready left =>
    exact settled_start consistent.ordered (consistent.settled current.active) mem ready
  | place current => exact consistent.settled current.active
  | cancel => cases active
  | cancelEnded ended => exact absurd active ended
  | finalize current ended =>
    cases verdict : dagVerdict db.views with
    | active => exact absurd verdict ended
    | succeeded | failed =>
      rw [verdict] at active
      cases active

/-- **Every committed call keeps the DAG consistent.** -/
theorem Consistent.performed (consistent : Consistent db) (performed : Performed db call db') : Consistent db' := by
  obtain steps := nodeSteps_of_performed consistent.ordered performed
  refine ⟨steps.ordered consistent.ordered, ?_, settled_of_performed consistent performed⟩
  obtain ⟨change, rows, each⟩ := steps
  rw [rows, forall_mem_map]
  intro row mem
  rw [(each row mem).samePlan.key]
  exact (consistent.rows row mem).step (fun _ => nodeKey_of_mem_attemptsOf) (each row mem)

end Dag

/-! ### Every reachable state -/

section Reachable

variable {db db' : DagDb}

theorem create_eq_ok {task : Tasks.TaskRow} {attempt : ℤ} {plan : Plan} {run : Option Tools.TaskRun}
    {startRungs : Keyed (Prod.fst : Text × ℤ → Text)} (accepted : DagDb.create task attempt plan run startRungs = .ok db) :
    ∃ n, attempt = (n : ℕ) ∧ (∀ r ∈ run, r.attempt = n) ∧ DagDb.checkRungs plan startRungs = .ok () ∧
      db = DagDb.created task n (run.elim 0 Tools.TaskRun.retryCount) plan startRungs := by
  simp only [DagDb.create, bind_eq_ok, check_eq_ok, pure_eq_ok] at accepted
  obtain ⟨n, isAttempt, sameRun, _, checked, -, rfl⟩ := accepted
  obtain ⟨-, -, isAttempt⟩ := (checkInt_eq_ok (by decide)).mp isAttempt
  refine ⟨n, isAttempt, fun r isRun => ?_, checked, rfl⟩
  rw [Option.any_eq_true, not_exists] at sameRun
  by_contra different
  exact sameRun r ⟨isRun, decide_eq_true different⟩

theorem consistent_created (task : Tasks.TaskRow) (attempt retryCount : ℕ) (plan : Plan)
    (startRungs : Keyed (Prod.fst : Text × ℤ → Text)) :
    Consistent (DagDb.created task attempt retryCount plan startRungs) := by
  have ordered : (DagDb.created task attempt retryCount plan startRungs).Ordered := by
    rw [DagDb.Ordered, DagDb.created, DagDb.settle, map_map]
    exact OrderedAfter.map plan.ordered (fun _ _ => rfl) fun _ _ => rfl
  refine ⟨ordered, fun row mem => ?_, fun _ => settled_settle ordered⟩
  obtain ⟨before, isBefore, rfl⟩ := mem_map.mp mem
  have within := DagDb.settles_settledRow (OrderedAfter.of_map ordered (fun _ => rfl) fun _ => rfl) isBefore
  obtain ⟨node, -, rfl⟩ := mem_map.mp isBefore
  refine .of_not_running rfl (fun runs => ?_) fun attempt isAttempt => absurd isAttempt not_mem_nil
  cases (within.eq_iff .running rfl).mp runs

theorem dagStore_step {event : DagEvent} (taken : dagStore.step db event = some db') :
    (∃ call, event = .call call ∧ db.perform call = .ok db') ∨ ∃ task, db' = { db with task := task } := by
  cases event with
  | call call =>
    refine .inl ⟨call, rfl, ?_⟩
    unfold dagStore at taken
    dsimp only at taken
    cases performed : db.perform call with
    | error e =>
      rw [performed] at taken
      cases taken
    | ok next =>
      rw [performed] at taken
      exact congrArg _ (Option.some.inj taken)
  | command command args now =>
    right
    unfold dagStore DagDb.command at taken
    dsimp only at taken
    split at taken
    · exact ⟨_, (Option.some.inj taken).symm⟩
    · cases taken

theorem Consistent.step (consistent : Consistent db) {event : DagEvent} (taken : dagStore.step db event = some db') :
    Consistent db' := by
  rcases dagStore_step taken with ⟨call, -, accepted⟩ | ⟨task, rfl⟩
  · exact consistent.performed (performed_of_perform accepted)
  · exact ⟨consistent.ordered, consistent.rows, consistent.settled⟩

theorem consistent_of_reachable (reach : dagStore.Reachable db) : Consistent db := by
  refine reach.invariant ?_ fun _ _ _ _ consistent taken => consistent.step taken
  rintro start ⟨task, attempt, plan, run, startRungs, accepted⟩
  obtain ⟨n, -, -, -, rfl⟩ := create_eq_ok accepted
  exact consistent_created task n _ plan startRungs

theorem nodeStep_of_step (ordered : db.Ordered) {event : DagEvent} (taken : dagStore.step db event = some db') :
    ∃ change : NodeRow → NodeRow, db'.nodes = db.nodes.map change ∧
      ∀ row ∈ db.nodes, ∃ call, NodeStep db.dag.taskRetryCount call row (db.attemptsOf row.key) (change row) (db'.attemptsOf row.key) := by
  rcases dagStore_step taken with ⟨call, -, accepted⟩ | ⟨task, rfl⟩
  · obtain ⟨change, rows, each⟩ := nodeSteps_of_performed ordered (performed_of_perform accepted)
    exact ⟨change, rows, fun row mem => ⟨call, each row mem⟩⟩
  · exact ⟨id, (map_id _).symm, fun row _ => ⟨.interrupt 0, .same _ _ row _⟩⟩

/-- **What is over in a reachable state is over in the same way after every run from it.** -/
theorem over_stays (consistent : Consistent db) {events : List DagEvent} (ran : dagStore.run db events = some db') :
    (∀ row ∈ db.nodes, row.state = .succeeded →
      ∃ row' ∈ db'.nodes, row'.key = row.key ∧ row'.state = .succeeded ∧ row'.result = row.result) ∧
    ∀ row ∈ db.nodes, ∀ attempt ∈ db.attemptsOf row.key, attempt.state ≠ .running →
      attempt ∈ db'.attemptsOf row.key := by
  have all := Machine.run_invariant (M := dagStore) (P := fun _ now => Consistent now ∧
    ∀ row ∈ db.nodes, ∃ row' ∈ now.nodes, row'.key = row.key ∧
      (row.state = .succeeded → row'.state = .succeeded ∧ row'.result = row.result) ∧
      ∀ attempt ∈ db.attemptsOf row.key, attempt.state ≠ .running → attempt ∈ now.attemptsOf row.key)
    ⟨consistent, fun row mem => ⟨row, mem, rfl, fun isOver => ⟨isOver, rfl⟩, fun _ isAttempt _ => isAttempt⟩⟩
    ?_ ran
  · obtain ⟨-, kept⟩ := all
    refine ⟨fun row mem isOver => ?_, fun row mem attempt isAttempt closed => ?_⟩
    · obtain ⟨row', member', same, over', -⟩ := kept row mem
      exact ⟨row', member', same, over' isOver⟩
    · obtain ⟨-, -, -, -, closed'⟩ := kept row mem
      exact closed' attempt isAttempt closed
  · rintro past now event next ⟨consistentNow, kept⟩ taken
    refine ⟨consistentNow.step taken, fun row mem => ?_⟩
    obtain ⟨row', member', same, over', closed'⟩ := kept row mem
    obtain ⟨change, rows, each⟩ := nodeStep_of_step consistentNow.ordered taken
    obtain ⟨call, step⟩ := each row' member'
    refine ⟨change row', rows ▸ mem_map_of_mem member', step.samePlan.key.trans same, fun isOver => ?_,
      fun attempt isAttempt closed => ?_⟩
    · obtain ⟨wasOver, result⟩ := over' isOver
      obtain ⟨stays, sameResult⟩ := step.succeeded_stays wasOver
      exact ⟨stays, sameResult.trans result⟩
    · rw [same] at step
      exact step.closed_stays (closed' attempt isAttempt closed) closed

theorem RowConsistent.running_iff {row : NodeRow} {attempts : List AttemptRow} (consistent : RowConsistent row attempts) :
    row.state = .running ↔
      ∃ attempt, attempts.filter (fun attempt => attempt.state = .running) = [attempt] ∧
        attempt.number = row.attemptCount := by
  constructor
  · intro running
    obtain ⟨n, count⟩ := Nat.exists_eq_succ_of_ne_zero (consistent.counted running).ne'
    have numbers := consistent.numbers
    rw [count, Nat.succ_eq_add_one, range'_concat] at numbers
    obtain ⟨earlier, last, rfl, isEarlier, isLast⟩ := map_eq_append_iff.mp numbers
    obtain ⟨attempt, rest, rfl, isNumber, isRest⟩ := map_eq_cons_iff.mp isLast
    obtain rfl := map_eq_nil_iff.mp isRest
    have number : attempt.number = row.attemptCount := by omega
    have runs : attempt.state = .running :=
      (consistent.running attempt (mem_append_right _ (.head _))).mpr ⟨running, number⟩
    have noEarlier : earlier.filter (fun attempt => attempt.state = .running) = [] := by
      rw [filter_eq_nil_iff]
      intro other mem otherRuns
      have both := (consistent.running other (mem_append_left _ mem)).mp (of_decide_eq_true otherRuns)
      have isNumber : other.number ∈ earlier.map AttemptRow.number := mem_map_of_mem mem
      rw [isEarlier, mem_range'_1] at isNumber
      omega
    refine ⟨attempt, ?_, number⟩
    rw [filter_append, noEarlier, nil_append, filter_singleton, runs]
    rfl
  · rintro ⟨attempt, only, -⟩
    have mem : attempt ∈ attempts.filter fun attempt => attempt.state = .running := by
      rw [only]
      exact .head _
    obtain ⟨isAttempt, runs⟩ := mem_filter.mp mem
    exact ((consistent.running attempt isAttempt).mp (of_decide_eq_true runs)).1

/-! ### Accepted calls -/

def DagCall.reports : DagCall → Option (Text × ℤ × AttemptState)
  | .complete _ key number _ => some (key, number, .succeeded)
  | .fail _ key number .. => some (key, number, .failed)
  | _ => none

def DagCall.isOfRun : DagCall → Bool
  | .start .. | .complete .. | .fail .. | .giveUp .. | .place .. | .finalize .. => true
  | .acquire .. | .interrupt .. | .cancel .. => false

theorem epoch_of_performed {call : DagCall} (performed : Performed db call db') {epoch : ℤ}
    (presented : call.epoch = some epoch) : epoch = db.dag.epoch := by
  cases performed <;> first | exact (Option.some.inj presented).symm | cases presented

theorem epoch_after {call : DagCall} (performed : Performed db call db') :
    db'.dag.epoch = if call.epoch = none then db.dag.epoch + 1 else db.dag.epoch := by
  cases performed with
  | @acquire owner run =>
    have same : ((db.takenBy owner).reopenFor run).dag.epoch = db.dag.epoch + 1 := by
      unfold DagDb.reopenFor
      split <;> rfl
    exact same
  | _ => rfl

theorem current_of_performed {call : DagCall} (performed : Performed db call db') (isOfRun : call.isOfRun = true) :
    db.Current := by
  cases performed with
  | acquire | interrupt | cancel | cancelEnded => cases isOfRun
  | start current | complete current | fail current | giveUp current | place current | finalize current => exact current

theorem closes {row : NodeRow} {attempts : List AttemptRow} (consistent : RowConsistent row attempts)
    (own : ∀ attempt ∈ attempts, attempt.nodeKey = row.key) (running : row.state = .running) {state : AttemptState}
    {errorClass signature : Option Text} :
    (∃ attempt ∈ attempts, attempt.number = row.attemptCount ∧ attempt.state = .running) ∧
      ∃ attempt ∈ closeIn row.key row.attemptCount state errorClass signature attempts,
        attempt.number = row.attemptCount ∧ attempt.state = state := by
  obtain ⟨attempt, only, number⟩ := consistent.running_iff.mp running
  have mem : attempt ∈ attempts.filter fun attempt => attempt.state = .running := by
    rw [only]
    exact .head _
  obtain ⟨isRow, runs⟩ := mem_filter.mp mem
  refine ⟨⟨attempt, isRow, number, of_decide_eq_true runs⟩, _, mem_map_of_mem isRow, ?_⟩
  have isIts : isAttempt row.key row.attemptCount attempt = true :=
    decide_eq_true ⟨own attempt isRow, number, of_decide_eq_true runs⟩
  rw [if_pos isIts]
  exact ⟨number, rfl⟩

theorem reports_of_performed (consistent : Consistent db) {call : DagCall} (performed : Performed db call db')
    {key : Text} {number : ℤ} {outcome : AttemptState} (reports : call.reports = some (key, number, outcome)) :
    (∃ attempt ∈ db.attemptsOf key, attempt.number = number ∧ attempt.state = .running) ∧
      ∃ attempt ∈ db'.attemptsOf key, attempt.number = number ∧ attempt.state = outcome := by
  cases performed with
  | @complete row result current mem running =>
    cases reports
    obtain ⟨⟨attempt, isAttempt, isNumber, runs⟩, closed, isClosed, sameNumber, state⟩ :=
      closes (consistent.rows row mem) (fun _ => nodeKey_of_mem_attemptsOf) running
    refine ⟨⟨attempt, isAttempt, congrArg _ isNumber, runs⟩, closed, ?_, congrArg _ sameNumber, state⟩
    change closed ∈ (closeIn _ _ _ _ _ db.attempts).filter _
    rw [filter_closeIn]
    exact isClosed
  | @fail row next errorClass signature step agentIndex approach move current mem running checked isMoved =>
    cases reports
    obtain ⟨⟨attempt, isAttempt, isNumber, runs⟩, closed, isClosed, sameNumber, state⟩ :=
      closes (consistent.rows row mem) (fun _ => nodeKey_of_mem_attemptsOf) running
    refine ⟨⟨attempt, isAttempt, congrArg _ isNumber, runs⟩, closed, ?_, congrArg _ sameNumber, state⟩
    change closed ∈ (closeIn _ _ _ _ _ db.attempts).filter _
    rw [filter_closeIn]
    exact isClosed
  | _ => cases reports

/-- **Fencing and consistency.** In every reachable state a node runs exactly while one attempt does, its
last one, attempts are numbered without gaps, and the states of an active DAG are settled. A call with another
epoch is refused, and only a take-over raises the epoch; a call stores for the task's current run; a node
starts when its dependencies have succeeded; an outcome closes a running attempt. A node that succeeded and
a closed attempt stay as they are. -/
theorem dag_fencing (reach : dagStore.Reachable db) :
    (∀ row ∈ db.nodes,
      (db.attemptsOf row.key).map AttemptRow.number = List.range' 1 row.attemptCount ∧
      (row.state = .running ↔
        ∃ attempt, (db.attemptsOf row.key).filter (fun attempt => attempt.state = .running) = [attempt] ∧
          attempt.number = row.attemptCount)) ∧
    (db.dag.state = .active → settle db.views = db.views) ∧
    (∀ (call : DagCall) (epoch : ℤ), call.epoch = some epoch → epoch ≠ db.dag.epoch → ∃ error, db.perform call = .error error) ∧
    (∀ call after, db.perform call = .ok after →
      after.dag.epoch = (if call.epoch = none then db.dag.epoch + 1 else db.dag.epoch) ∧
      (call.isOfRun = true → db.Current) ∧
      (∀ epoch key maxAttempts, call = .start epoch key maxAttempts → db.task.state = .running ∧
        ∃ row ∈ db.nodes, row.key = key ∧ row.state = .ready ∧
          ∀ dependency ∈ db.nodes, dependency.key ∈ row.dependsOn → dependency.state = .succeeded) ∧
      ∀ key number outcome, call.reports = some (key, number, outcome) →
        (∃ attempt ∈ db.attemptsOf key, attempt.number = number ∧ attempt.state = .running) ∧
        ∃ attempt ∈ after.attemptsOf key, attempt.number = number ∧ attempt.state = outcome) ∧
    ∀ events later, dagStore.run db events = some later →
      (∀ row ∈ db.nodes, row.state = .succeeded →
        ∃ row' ∈ later.nodes, row'.key = row.key ∧ row'.state = .succeeded ∧ row'.result = row.result) ∧
      ∀ row ∈ db.nodes, ∀ attempt ∈ db.attemptsOf row.key, attempt.state ≠ .running →
        attempt ∈ later.attemptsOf row.key := by
  have consistent := consistent_of_reachable reach
  refine ⟨fun row member => ?_, consistent.settled, fun call epoch presented different => ?_,
    fun call after accepted => ?_, fun events later ran => over_stays consistent ran⟩
  · have rowConsistent := consistent.rows row member
    exact ⟨rowConsistent.numbers, rowConsistent.running_iff⟩
  · cases performed : db.perform call with
    | error error => exact ⟨error, rfl⟩
    | ok after => exact absurd (epoch_of_performed (performed_of_perform performed) presented) different
  · have performed := performed_of_perform accepted
    refine ⟨epoch_after performed, current_of_performed performed, ?_, fun key number outcome reports => ?_⟩
    · rintro epoch key maxAttempts rfl
      cases performed with
      | @start row _ current taskRuns member ready left =>
        refine ⟨taskRuns, row, member, rfl, ready, fun dependency isNode depends => ?_⟩
        exact (consistent.settled current.active).succeeded_of_ready consistent.ordered member ready isNode depends
    · exact reports_of_performed consistent performed reports

end Reachable

/-! ### A run -/

def workAndCheckNodes : List PlanNode :=
  [{ key := lit "work", role := .worker, title := lit "Work", goal := lit "Work" },
   { key := lit "check", role := .researcher, title := lit "Check", goal := lit "Check", dependsOn := [lit "work"]
     required := false }]

theorem workAndCheck_ordered : OrderedAfter PlanNode.key PlanNode.dependsOn [] workAndCheckNodes := by
  simp only [workAndCheckNodes, OrderedAfter]
  decide

def workAndCheck : Plan := ⟨workAndCheckNodes, workAndCheck_ordered⟩

def runningTask : Tasks.TaskRow :=
  { state := .running, waitReason := none, agent := none, model := none, attempt := 1, retryCount := 0
    readOnly := false, version := 1, updatedAt := 0 }

def workAndCheckDag : DagDb := DagDb.created runningTask 1 0 workAndCheck Keyed.empty

theorem workAndCheckDag_created :
    DagDb.create runningTask 1 workAndCheck (some Tools.TaskRun.first) Keyed.empty = .ok workAndCheckDag := rfl

theorem workAndCheckDag_initial : dagStore.initial workAndCheckDag :=
  ⟨_, _, _, _, _, workAndCheckDag_created⟩

def startsWork : List DagEvent :=
  [.call (.acquire (lit "w1") Tools.TaskRun.first), .call (.start 1 (lit "work") 6)]

theorem exists_of_run_any (db : DagDb) (events : List DagEvent) (test : DagDb → Bool)
    (holds : (dagStore.run db events).any test = true) : ∃ after, dagStore.run db events = some after ∧ test after = true :=
  Option.any_eq_true _ _ |>.mp holds

theorem startsWork_fenced :
    ∃ db, dagStore.Reachable db ∧
      (∃ row ∈ db.nodes, row.state = .running ∧
        ∃ attempt, (db.attemptsOf row.key).filter (fun attempt => attempt.state = .running) = [attempt] ∧
          attempt.number = row.attemptCount) ∧
      ∃ error, db.perform (.interrupt 7) = .error error := by
  obtain ⟨db, ran, holds⟩ := exists_of_run_any workAndCheckDag startsWork
    (fun db => db.nodes.any (fun row => row.state = .running) && db.dag.epoch == 1) (by decide)
  have reach : dagStore.Reachable db := (Machine.Reachable.start workAndCheckDag_initial).run ran
  obtain ⟨rows, -, fenced, -⟩ := dag_fencing reach
  obtain ⟨someRuns, isEpoch⟩ := (Bool.and_eq_true _ _).mp holds
  obtain ⟨row, member, runs⟩ := any_eq_true.mp someRuns
  refine ⟨db, reach, ⟨row, member, of_decide_eq_true runs, ?_⟩, fenced (.interrupt 7) 7 rfl ?_⟩
  · exact (rows row member).2.mp (of_decide_eq_true runs)
  · rw [beq_iff_eq.mp isEpoch]
    decide

end PawBackend.Orchestrator
