/-
**What the workers of a DAG know** (`orchestrator/orchestrator.py`, `orchestrator/store.py`).

Every event of `driving` is a call of the store, a command of the task or nothing to the rows, so all that holds in
every state of the store holds here (`dagStore_reachable`). At most one worker has the epoch of the DAG.
-/

import PawBackend.Orchestrator.Driving

namespace PawBackend.Orchestrator

open Lib List
open DagDb (startedRow newAttempt)
open Lib.Text (lit)

variable {s s' : Drive} {event : DriveEvent} {db db' : DagDb}

/-! ### The store below -/

theorem Drove.written (drove : Drove s event s') :
    (∃ call, s.db.perform call = .ok s'.db) ∨ (∃ command args now, s.db.command command args now = some s'.db) ∨
      s'.db = s.db := by
  cases drove with
  | takenOver accepted => exact .inl ⟨_, accepted⟩
  | gaveUp isWorker accepted => exact .inl ⟨_, accepted⟩
  | started isWorker notLaunching isNode accepted => exact .inl ⟨_, accepted⟩
  | launched | refreshed | unsettled => exact .inr (.inr rfl)
  | settled isWorker isSettling isCall accepted => exact .inl ⟨_, accepted⟩
  | placed isWorker accepted => exact .inl ⟨_, accepted⟩
  | interrupted isWorker notLaunching accepted => exact .inl ⟨_, accepted⟩
  | cancelled isWorker accepted => exact .inl ⟨_, accepted⟩
  | finalized isWorker accepted => exact .inl ⟨_, accepted⟩
  | commanded accepted => exact .inr (.inl ⟨_, _, _, accepted⟩)

theorem dagStore_reachable (reach : driving.Reachable s) : dagStore.Reachable s.db := by
  refine Machine.Reachable.invariant (M := driving) (P := fun s => dagStore.Reachable s.db)
    (fun s init => .start init.1) (fun s event s' _ reached taken => ?_) reach
  rcases (drove_of_step taken).written with ⟨call, accepted⟩ | ⟨command, args, now, accepted⟩ | same
  · refine reached.next (e := .call call) ?_
    show (s.db.perform call).toOption = some s'.db
    rw [accepted]
    rfl
  · exact reached.next (e := .command command args now) accepted
  · rw [same]
    exact reached

/-! ### Calls of one worker -/

theorem epoch_of_perform {call : DagCall} {epoch : ℕ} (accepted : db.perform call = .ok db')
    (presents : call.epoch = some (epoch : ℤ)) : epoch = db.dag.epoch ∧ db'.dag.epoch = db.dag.epoch := by
  have performed := performed_of_perform accepted
  refine ⟨by exact_mod_cast epoch_of_performed performed presents, ?_⟩
  rw [epoch_after performed, presents, if_neg nofun]

theorem mem_settle_of_ne {mid : DagDb} {key : Text} {change : NodeRow → NodeRow} (ordered : mid.Ordered)
    (rows : mid.nodes = (db.setNode key change).nodes) {row : NodeRow} (mem : row ∈ db.nodes)
    (different : row.key ≠ key) (closed : row.state.isOpen = false) : row ∈ mid.settle.nodes := by
  have isRow : row ∈ mid.nodes := by
    rw [rows]
    exact mem_map.mpr ⟨row, mem, if_neg different⟩
  refine mem_map.mpr ⟨row, isRow, ?_⟩
  have notOpen : ¬ row.view.state.isOpen = true := by
    rw [show row.view.state = row.state from rfl, closed]
    exact Bool.false_ne_true
  rw [settledState_of_not_open ordered.views (mem_map_of_mem isRow) notOpen]
  rfl

/-! ### What a worker holds -/

/-- The attempts a worker has started and not settled. -/
def Worker.held (worker : Worker) : List (Text × ℕ) :=
  (worker.launching.map fun launching => (launching.1.key, launching.2.number)).toList ++ worker.numbers

def DagDb.Runs (db : DagDb) (entry : Text × ℕ) : Prop :=
  ∃ row ∈ db.nodes, row.key = entry.1 ∧ row.state = .running ∧ row.attemptCount = entry.2

structure Holds (db : DagDb) (worker : Worker) : Prop where
  view : worker.isFresh = true → worker.view = db.nodes
  runs : db.dag.state = .active → ∀ entry ∈ worker.held, db.Runs entry
  distinct : (worker.held.map Prod.fst).Nodup
  checked : ∀ entry ∈ worker.held, checkLabel "key" entry.1 32 = .ok ()

namespace Holds

variable {worker worker' : Worker}

theorem rows (holds : Holds db worker) (view : worker'.isFresh = true → worker'.view = db'.nodes)
    (fewer : worker'.held.Subperm worker.held)
    (kept : db'.dag.state = .active → ∀ entry ∈ worker'.held, (db.dag.state = .active → db.Runs entry) → db'.Runs entry) :
    Holds db' worker' where
  view := view
  runs active entry mem :=
    kept active entry mem fun wasActive => holds.runs wasActive entry (fewer.subset mem)
  distinct := by
    obtain ⟨kept, isPerm, isSublist⟩ := fewer
    exact (isPerm.map Prod.fst).nodup_iff.mp ((isSublist.map Prod.fst).nodup holds.distinct)
  checked entry mem := holds.checked entry (fewer.subset mem)

theorem shrink (holds : Holds db worker) (view : worker'.isFresh = true → worker'.view = db.nodes)
    (fewer : worker'.held.Subperm worker.held) : Holds db worker' :=
  holds.rows view fewer fun active _ _ runs => runs active

end Holds

structure Workers (db : DagDb) (workers : List Worker) : Prop where
  epochs : ∀ worker ∈ workers, 1 ≤ worker.epoch ∧ worker.epoch ≤ db.dag.epoch
  distinct : (workers.map Worker.epoch).Nodup
  holds : ∀ worker ∈ workers, worker.epoch = db.dag.epoch → Holds db worker

namespace Workers

variable {workers : List Worker} {worker worker' : Worker} {index : ℕ}

theorem map_epoch_set (isWorker : workers[index]? = some worker) (sameEpoch : worker'.epoch = worker.epoch) :
    (workers.set index worker').map Worker.epoch = workers.map Worker.epoch := by
  refine ext_getElem? fun i => ?_
  rw [getElem?_map, getElem?_map, getElem?_set]
  by_cases same : index = i
  · subst same
    have inside : index < workers.length := (List.getElem?_eq_some_iff.mp isWorker).1
    rw [if_pos rfl, if_pos inside, isWorker, Option.map_some, Option.map_some, sameEpoch]
  · rw [if_neg same]

theorem set (known : Workers db workers) (isWorker : workers[index]? = some worker)
    (sameEpoch : worker'.epoch = worker.epoch) (sameDag : db'.dag.epoch = db.dag.epoch)
    (others : worker.epoch = db.dag.epoch ∨ db' = db) (holds : worker.epoch = db.dag.epoch → Holds db' worker') :
    Workers db' (workers.set index worker') where
  epochs other mem := by
    rw [sameDag]
    rcases mem_or_eq_of_mem_set mem with old | rfl
    · exact known.epochs other old
    · rw [sameEpoch]
      exact known.epochs worker (mem_of_getElem? isWorker)
  distinct := by
    rw [map_epoch_set isWorker sameEpoch]
    exact known.distinct
  holds other mem isEpoch := by
    rw [sameDag] at isEpoch
    obtain ⟨i, found⟩ := mem_iff_getElem?.mp mem
    rw [getElem?_set] at found
    by_cases same : index = i
    · rw [if_pos same] at found
      split at found
      · obtain rfl := Option.some.inj found
        exact holds (sameEpoch ▸ isEpoch)
      · cases found
    · rw [if_neg same] at found
      rcases others with isHolder | rfl
      · -- Two workers cannot have one epoch.
        refine absurd ((getElem?_inj ?_ known.distinct).mp ?_) same
        · rw [length_map]
          exact (List.getElem?_eq_some_iff.mp isWorker).1
        · rw [getElem?_map, getElem?_map, isWorker, found, Option.map_some, Option.map_some, isHolder, isEpoch]
      · exact known.holds other (mem_of_getElem? found) isEpoch

theorem takenOver (known : Workers db workers) (later : db'.dag.epoch = db.dag.epoch + 1)
    (isEpoch : worker.epoch = db'.dag.epoch) (holds : Holds db' worker) : Workers db' (workers ++ [worker]) where
  epochs other mem := by
    rcases mem_append.mp mem with old | new
    · have bounds := known.epochs other old
      omega
    · obtain rfl := mem_singleton.mp new
      omega
  distinct := by
    rw [map_append, nodup_append]
    refine ⟨known.distinct, nodup_singleton _, fun a isOld b isNew => ?_⟩
    obtain ⟨other, old, rfl⟩ := mem_map.mp isOld
    obtain rfl := mem_singleton.mp isNew
    have bounds := known.epochs other old
    omega
  holds other mem isCurrent := by
    rcases mem_append.mp mem with old | new
    · have bounds := known.epochs other old
      omega
    · obtain rfl := mem_singleton.mp new
      exact holds

end Workers

/-! ### What the calls of a worker leave of its attempts -/

section Runs

variable {row : NodeRow} {entry : Text × ℕ} {key : Text} {change : NodeRow → NodeRow} {mid : DagDb}

theorem DagDb.Runs.settle_of_ne (runs : db.Runs entry) (different : entry.1 ≠ key) (ordered : mid.Ordered)
    (rows : mid.nodes = (db.setNode key change).nodes) : mid.settle.Runs entry := by
  obtain ⟨row, mem, isKey, running, count⟩ := runs
  refine ⟨row, mem_settle_of_ne ordered rows mem (isKey ▸ different) ?_, isKey, running, count⟩
  rw [running]
  rfl

theorem DagDb.Runs.ne_of_ready (runs : db.Runs entry) (ordered : db.Ordered) (mem : row ∈ db.nodes)
    (ready : row.state = .ready) : entry.1 ≠ row.key := by
  obtain ⟨other, isOther, isKey, running, -⟩ := runs
  intro same
  obtain rfl := ordered.eq_of_key mem isOther (isKey.trans same)
  exact NodeState.noConfusion (running.symm.trans ready)

def DagCall.Ends (call : DagCall) (key : Text) : Prop :=
  match call with
  | .complete _ other .. | .fail _ other .. => other = key
  | .acquire .. | .interrupt .. => True
  | _ => False

theorem closedAs_ne_active {verdict : DagVerdict} (ended : verdict ≠ .active) : DagDb.closedAs verdict ≠ .active := by
  cases verdict with
  | active => exact absurd rfl ended
  | succeeded | failed => exact DagState.noConfusion

/-- **A call that leaves the DAG active leaves every attempt running but those it ends.** -/
theorem DagDb.Runs.performed {call : DagCall} (runs : db.dag.state = .active → db.Runs entry) (ordered : db.Ordered)
    (performed : Performed db call db') (goesOn : ¬ call.Ends entry.1) (active : db'.dag.state = .active) :
    db'.Runs entry := by
  have after : db'.Ordered := (nodeSteps_of_performed ordered performed).ordered ordered
  cases performed with
  | acquire | interrupt => exact absurd trivial goesOn
  | @start row maxAttempts current taskRuns mem ready left =>
    have different := (runs current.active).ne_of_ready ordered mem ready
    obtain ⟨other, isOther, isKey, running, count⟩ := runs current.active
    refine ⟨other, mem_map.mpr ⟨other, isOther, if_neg ?_⟩, isKey, running, count⟩
    rw [isKey]
    exact different
  | @complete row result current mem running =>
    refine (runs current.active).settle_of_ne (fun same => goesOn same.symm) ?_ rfl
    exact OrderedAfter.of_map after (fun _ => rfl) fun _ => rfl
  | @fail row next errorClass signature step agentIndex approach move current mem running checked isMoved =>
    refine (runs current.active).settle_of_ne (fun same => goesOn same.symm) ?_ rfl
    exact OrderedAfter.of_map after (fun _ => rfl) fun _ => rfl
  | @giveUp row errorClass current mem ready =>
    refine (runs current.active).settle_of_ne ((runs current.active).ne_of_ready ordered mem ready) ?_ rfl
    exact OrderedAfter.of_map after (fun _ => rfl) fun _ => rfl
  | place current mem running isRow isIts notPlaced => exact runs current.active
  | cancel => cases active
  | cancelEnded ended => exact absurd active ended
  | finalize current ended => exact absurd active (closedAs_ne_active ended)

end Runs

/-! ### Every event -/

section Events

variable {worker worker' : Worker} {index : ℕ} {call : DagCall}

theorem Workers.called (known : Workers s.db s.workers) (ordered : s.db.Ordered)
    (isWorker : s.workers[index]? = some worker) (accepted : s.db.perform call = .ok db)
    (presents : call.epoch = some (worker.epoch : ℤ)) (sameEpoch : worker'.epoch = worker.epoch)
    (view : worker'.isFresh = true → worker.isFresh = true ∧ db.nodes = s.db.nodes ∧ worker'.view = worker.view ∨
      worker'.view = db.nodes)
    (fewer : worker'.held.Subperm worker.held) (goesOn : ∀ entry ∈ worker'.held, ¬ call.Ends entry.1) :
    Workers db (s.workers.set index worker') := by
  have performed := performed_of_perform accepted
  obtain ⟨isHolder, sameDag⟩ := epoch_of_perform accepted presents
  have holds := known.holds worker (mem_of_getElem? isWorker) isHolder
  refine known.set isWorker sameEpoch sameDag (.inl isHolder) fun _ =>
    holds.rows ?_ fewer fun active entry mem runs =>
      DagDb.Runs.performed runs ordered performed (goesOn entry mem) active
  intro isFresh
  rcases view isFresh with ⟨wasFresh, sameRows, sameView⟩ | same
  · rw [sameView, sameRows, holds.view wasFresh]
  · exact same

variable {epoch maxAttempts : ℤ} {node : NodeRow}

theorem label_of_start {key : Text} (accepted : db.perform (.start epoch key maxAttempts) = .ok db') :
    checkLabel "key" key 32 = .ok () := by
  simp only [DagDb.perform, DagDb.startNode, bind_eq_ok] at accepted
  obtain ⟨_, -, _, checked, -⟩ := accepted
  exact checked

theorem start_eq_ok {key : Text} (accepted : db.perform (.start epoch key maxAttempts) = .ok db') :
    ∃ row ∈ db.nodes, row.key = key ∧ row.state = .ready ∧ db.Current ∧ epoch = db.dag.epoch ∧
      db'.attempts.getLast? = some (newAttempt row db.dag.epoch) ∧ startedRow row ∈ db'.nodes := by
  have performed := performed_of_perform accepted
  cases performed with
  | @start row _ current taskRuns mem ready left =>
    refine ⟨row, mem, rfl, ready, current, rfl, getLast?_concat, mem_map.mpr ⟨row, mem, if_pos rfl⟩⟩

theorem Workers.started (known : Workers s.db s.workers) (ordered : s.db.Ordered)
    (isWorker : s.workers[index]? = some worker) (notLaunching : worker.launching = none)
    (accepted : s.db.perform (.start worker.epoch node.key maxAttempts) = .ok db) :
    Workers db (s.workers.set index
      { worker with launching := db.attempts.getLast?.map fun attempt => (node, attempt), isFresh := false }) := by
  obtain ⟨isHolder, sameDag⟩ := epoch_of_perform accepted rfl
  have holds := known.holds worker (mem_of_getElem? isWorker) isHolder
  have label := label_of_start accepted
  obtain ⟨row, mem, isKey, ready, current, -, isLast, isRow⟩ := start_eq_ok accepted
  have heldBefore : worker.held = worker.numbers := by
    rw [Worker.held, notLaunching]
    rfl
  have running := holds.runs current.active
  rw [heldBefore] at running
  rw [isLast]
  refine known.set isWorker rfl sameDag (.inl isHolder) fun _ => ⟨Bool.noConfusion, fun active => ?_, ?_, ?_⟩
  · refine forall_mem_cons.mpr ⟨⟨startedRow row, isRow, isKey, rfl, rfl⟩, fun entry mem => ?_⟩
    exact DagDb.Runs.performed (fun _ => running entry mem) ordered (performed_of_perform accepted) id active
  · refine nodup_cons.mpr ⟨fun isHeld => ?_, heldBefore ▸ holds.distinct⟩
    obtain ⟨entry, isEntry, same⟩ := mem_map.mp isHeld
    exact (running entry isEntry).ne_of_ready ordered mem ready (same.trans isKey.symm)
  · refine forall_mem_cons.mpr ⟨label, fun entry mem => holds.checked entry ?_⟩
    rw [heldBefore]
    exact mem

theorem nodes_of_place {number : ℤ} {key agent model : Text} {placement : ExecutionPlacement}
    {cloud : Option CloudSend} {policyAllows : Bool}
    (accepted : db.perform (.place epoch key number placement agent model cloud policyAllows) = .ok db') :
    db'.nodes = db.nodes := by
  generalize isCall : DagCall.place epoch key number placement agent model cloud policyAllows = call at accepted
  cases performed_of_perform accepted with
  | place => rfl
  | _ => cases isCall

theorem settleCall_eq_some {config : OrchestratorConfig} {epoch number : ℕ} {finished : Finished}
    {signature : Signature} {answers : Answers} {skip : List Text}
    (isCall : settleCall config epoch node number finished signature answers skip = some call) :
    (∃ result, call = .complete epoch node.key number result) ∨
      (∃ errorClass ∈ [lit "BudgetExceeded", lit "Stopped"],
        call = failCall epoch node.key number errorClass signature ⟨.hold, none⟩) ∨
      ∃ failure : Failure, call = failCall epoch node.key number (formatErrorClass failure.errorClass) signature
        (failureStep config node failure answers skip) := by
  cases finished with
  | runEnded => cases isCall
  | stopped budgetExceeded =>
    obtain rfl := Option.some.inj isCall
    refine .inr (.inl ⟨_, ?_, rfl⟩)
    split
    · exact mem_cons_self
    · exact mem_cons_of_mem _ mem_cons_self
  | succeeded result proposesPlan =>
    unfold settleCall at isCall
    dsimp only at isCall
    split at isCall
    · exact .inr (.inr ⟨⟨lit "InvalidNodeOutcome", false, false⟩, (Option.some.inj isCall).symm⟩)
    · exact .inl ⟨result, (Option.some.inj isCall).symm⟩
  | failed failure => exact .inr (.inr ⟨failure, (Option.some.inj isCall).symm⟩)

theorem settleCall_target {config : OrchestratorConfig} {epoch number : ℕ} {finished : Finished}
    {signature : Signature} {answers : Answers} {skip : List Text}
    (isCall : settleCall config epoch node number finished signature answers skip = some call) :
    call.epoch = some (epoch : ℤ) ∧ ∀ key, call.Ends key → node.key = key := by
  rcases settleCall_eq_some isCall with ⟨result, rfl⟩ | ⟨errorClass, -, rfl⟩ | ⟨failure, rfl⟩
  · exact ⟨rfl, fun _ ends => ends⟩
  · exact ⟨rfl, fun _ ends => ends⟩
  · exact ⟨rfl, fun _ ends => ends⟩

/-- **Every event leaves at most one worker with the DAG, and that one knows it.** -/
theorem Workers.drove (known : Workers s.db s.workers) (ordered : s.db.Ordered) (drove : Drove s event s') :
    Workers s'.db s'.workers := by
  cases drove with
  | @takenOver config owner run db accepted =>
    exact known.takenOver (epoch_after (performed_of_perform accepted)) rfl
      ⟨fun _ => rfl, fun _ _ mem => absurd mem not_mem_nil, nodup_nil,
        fun _ mem => absurd mem not_mem_nil⟩
  | gaveUp isWorker accepted =>
    exact known.called ordered isWorker accepted rfl rfl nofun (List.Subperm.refl _) fun _ _ => id
  | started isWorker notLaunching isNode accepted => exact known.started ordered isWorker notLaunching accepted
  | @launched index worker node attempt isWorker isLaunching spec isSpec =>
    refine known.set isWorker rfl rfl (.inr rfl) fun isHolder => ?_
    have holds := known.holds worker (mem_of_getElem? isWorker) isHolder
    refine holds.shrink holds.view (List.Perm.subperm ?_)
    rw [Worker.held, Worker.held, isLaunching]
    exact (perm_append_singleton (node.key, attempt.number) worker.numbers)
  | @refreshed index worker isWorker =>
    refine known.set isWorker rfl rfl (.inr rfl) fun isHolder => ?_
    have holds := known.holds worker (mem_of_getElem? isWorker) isHolder
    exact holds.shrink (fun _ => rfl) (List.Subperm.refl _)
  | @unsettled index worker key finished signature answers entry isWorker =>
    refine known.set isWorker rfl rfl (.inr rfl) fun isHolder => ?_
    have holds := known.holds worker (mem_of_getElem? isWorker) isHolder
    exact holds.shrink holds.view ((erase_sublist.append_left _).subperm)
  | @settled index worker node number finished signature answers call db isWorker isSettling isCall accepted =>
    obtain ⟨presents, ends⟩ := settleCall_target isCall
    obtain ⟨⟨notLaunching, -⟩, isEntry, -⟩ := settling_eq_some isSettling
    have isHolder := (epoch_of_perform accepted presents).1
    have distinct := (known.holds worker (mem_of_getElem? isWorker) isHolder).distinct
    rw [Worker.held, notLaunching] at distinct
    refine known.called ordered isWorker accepted presents rfl (fun _ => .inr rfl)
      ((erase_sublist.append_left _).subperm) fun entry mem isEnded => ?_
    -- The attempt that is settled is held no more, and no other one of its node is.
    rw [Worker.held, notLaunching] at mem
    have apart := (((perm_cons_erase isEntry).map Prod.fst).nodup_iff.mp distinct)
    rw [map_cons, nodup_cons] at apart
    exact apart.1 (mem_map.mpr ⟨entry, mem, (ends _ isEnded).symm⟩)
  | @placed index worker key number placement agent model cloud policyAllows db isWorker accepted =>
    refine known.called ordered isWorker accepted rfl rfl (fun isFresh => .inl ⟨isFresh, ?_, rfl⟩)
      (List.Subperm.refl _) fun _ _ => id
    exact nodes_of_place accepted
  | @interrupted index worker db isWorker notLaunching accepted =>
    have nothing : Worker.held { worker with view := db.nodes, numbers := [] } = [] := by
      rw [Worker.held, notLaunching]
      rfl
    refine known.called ordered isWorker accepted rfl rfl (fun _ => .inr rfl) ?_ ?_
    · rw [nothing]
      exact nil_subperm
    · rw [nothing]
      nofun
  | cancelled isWorker accepted =>
    exact known.called ordered isWorker accepted rfl rfl nofun (List.Subperm.refl _) fun _ _ => id
  | finalized isWorker accepted =>
    exact known.called ordered isWorker accepted rfl rfl nofun (List.Subperm.refl _) fun _ _ => id
  | @commanded command args now db accepted =>
    obtain ⟨task, rfl⟩ : ∃ task, db = { s.db with task := task } := by
      unfold DagDb.command at accepted
      split at accepted
      · exact ⟨_, (Option.some.inj accepted).symm⟩
      · cases accepted
    exact ⟨known.epochs, known.distinct, fun worker mem isHolder =>
      let holds := known.holds worker mem isHolder
      ⟨holds.view, holds.runs, holds.distinct, holds.checked⟩⟩

theorem workers_of_reachable (reach : driving.Reachable s) : Workers s.db s.workers := by
  induction reach with
  | start init =>
    rw [init.2.1]
    exact ⟨fun _ mem => absurd mem not_mem_nil, nodup_nil,
      fun _ mem => absurd mem not_mem_nil⟩
  | next reached taken known =>
    exact known.drove (consistent_of_reachable (dagStore_reachable reached)).ordered (drove_of_step taken)

end Events

end PawBackend.Orchestrator
