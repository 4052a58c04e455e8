/-
**The required reviews stay independent** (`orchestrator/reviews.py`; `orchestrator/orchestrator.py`:
`_dispatch`, `_review_forbidden`, `_spec_of`).

A required review depends on every Worker, so when it starts all of them have succeeded and nothing more is placed for
one: what is forbidden for it then is forbidden for ever (`Independent`).
-/

import PawBackend.Orchestrator.Retries

namespace PawBackend.Orchestrator

open Lib List
open Tools (TaskRun)
open Lib.Text (lit)

/-! ### The stored plan -/

section Stored

variable {config : OrchestratorConfig} {plan reviewed stored : Plan} {title : Text}

theorem assignNode_eq_ok {node assigned : PlanNode} (accepted : config.assignNode node = .ok assigned) :
    assigned.key = node.key ∧ assigned.role = node.role ∧ assigned.dependsOn = node.dependsOn ∧
      assigned.required = node.required ∧ (node.agent.isSome = true → assigned = node) := by
  unfold OrchestratorConfig.assignNode at accepted
  split at accepted
  case h_1 noAgent =>
    obtain rfl := Except.ok.inj accepted
    exact ⟨rfl, rfl, rfl, rfl, fun isAgent => by rw [noAgent] at isAgent; cases isAgent⟩
  case h_2 agent isAgent =>
    split at accepted
    · cases accepted
    · obtain rfl := Except.ok.inj accepted
      exact ⟨rfl, rfl, rfl, rfl, fun _ => rfl⟩

theorem mem_of_assign (accepted : config.assign plan = .ok stored) :
    (∀ node ∈ plan.nodes, ∃ assigned ∈ stored.nodes, config.assignNode node = .ok assigned) ∧
      ∀ assigned ∈ stored.nodes, ∃ node ∈ plan.nodes, config.assignNode node = .ok assigned := by
  obtain ⟨nodes, isMapped, isPlan⟩ := bind_eq_ok.mp accepted
  have same := Plan.perm_of_accept isPlan
  refine ⟨fun node mem => ?_, fun assigned mem => exists_of_mem_mapM isMapped (same.subset mem)⟩
  obtain ⟨assigned, isResult, isIts⟩ := exists_mapM_of_mem isMapped mem
  exact ⟨assigned, same.symm.subset isResult, isIts⟩

theorem reviewNode_eq_ok {workers : List Text} {key : Text} {node : PlanNode} (built : reviewNode workers title key = .ok node) :
    node.key = key ∧ node.role = .reviewer ∧ node.required = true ∧ node.agent = reviewAgent key ∧
      ∀ worker, worker ∈ node.dependsOn ↔ worker ∈ workers := by
  simp only [reviewNode, bind_eq_ok, check_eq_ok, pure_eq_ok] at built
  obtain ⟨goal, -, -, rfl⟩ := built
  exact ⟨rfl, rfl, rfl, rfl, fun worker => mem_insertionSort _⟩

theorem addRequiredReviews_eq_ok (accepted : addRequiredReviews plan title = .ok reviewed) (hasWorker : workersOf plan.nodes ≠ []) :
    refuseReservedKeys plan = .ok () ∧ ∃ reviews,
      requiredReviews.mapM (fun review => reviewNode (workersOf plan.nodes) title review.1) = .ok reviews ∧
      reviewed.nodes.Perm (plan.nodes ++ reviews) := by
  unfold addRequiredReviews at accepted
  dsimp only at accepted
  rw [if_neg hasWorker] at accepted
  obtain ⟨_, allowed, accepted⟩ := bind_eq_ok.mp accepted
  obtain ⟨reviews, areReviews, isPlan⟩ := bind_eq_ok.mp accepted
  exact ⟨allowed, reviews, areReviews, Plan.perm_of_accept isPlan⟩

theorem accepted_writes (adds : config.addsRequiredReviews = true) (accepted : config.accepted plan false title = .ok stored) :
    ∃ reviewed, addRequiredReviews plan title = .ok reviewed ∧ config.assign reviewed = .ok stored := by
  unfold OrchestratorConfig.accepted at accepted
  obtain ⟨_, -, accepted⟩ := bind_eq_ok.mp accepted
  rw [if_neg Bool.false_ne_true, if_pos adds] at accepted
  exact bind_eq_ok.mp accepted

variable {review : Text × Text}

theorem isReservedKey_of_review (mem : review ∈ requiredReviews) : isReservedKey review.1 = true := by
  have each : ∀ review ∈ requiredReviews, isReservedKey review.1 = true := by decide
  exact each review mem

theorem not_mem_workersOf_of_review (allowed : refuseReservedKeys plan = .ok ())
    (mem : review ∈ requiredReviews) : review.1 ∉ workersOf plan.nodes := by
  intro isWorker
  obtain ⟨node, isNode, same⟩ := mem_map.mp isWorker
  unfold refuseReservedKeys at allowed
  split at allowed
  · cases allowed
  case isFalse none =>
    refine none (any_eq_true.mpr ⟨node, (mem_filter.mp isNode).1, ?_⟩)
    rw [same]
    exact isReservedKey_of_review mem

def ReviewsLast (nodes : List (Text × NodeRole × List Text)) : Prop :=
  ∀ review ∈ nodes, isRequiredReview review.1 = true → review.2.1 = .reviewer ∧
    ∀ worker ∈ nodes, worker.2.1 = .worker → worker.1 ∈ review.2.2

def PlanNode.place (node : PlanNode) : Text × NodeRole × List Text := (node.key, node.role, node.dependsOn)

def NodeRow.place (row : NodeRow) : Text × NodeRole × List Text := (row.key, row.role, row.dependsOn)

theorem stored_reviews (adds : config.addsRequiredReviews = true) (accepted : config.accepted plan false title = .ok stored)
    (hasWorker : workersOf plan.nodes ≠ []) (mem : review ∈ requiredReviews) :
    ∃ node ∈ stored.nodes, node.key = review.1 ∧ node.role = .reviewer ∧ node.required = true ∧
      node.agent = reviewAgent review.1 ∧
      (∀ worker ∈ stored.nodes, worker.role = .worker → worker.key ∈ node.dependsOn) ∧
      ∀ other ∈ requiredReviews, other.1 ∉ node.dependsOn := by
  obtain ⟨reviewed, isReviewed, isStored⟩ := accepted_writes adds accepted
  obtain ⟨allowed, reviews, areReviews, isPerm⟩ := addRequiredReviews_eq_ok isReviewed hasWorker
  obtain ⟨forward, backward⟩ := mem_of_assign isStored
  obtain ⟨node, isReview, built⟩ := exists_mapM_of_mem areReviews mem
  obtain ⟨isKey, isRole, isRequired, isAgent, depends⟩ := reviewNode_eq_ok built
  obtain ⟨assigned, isAssigned, assigns⟩ := forward node (isPerm.symm.subset (mem_append_right _ isReview))
  have hasAgent : ∀ review ∈ requiredReviews, (reviewAgent review.1).isSome = true := by decide
  obtain rfl : assigned = node := (assignNode_eq_ok assigns).2.2.2.2 (by rw [isAgent]; exact hasAgent review mem)
  refine ⟨assigned, isAssigned, isKey, isRole, isRequired, isAgent, fun worker isNode isWorker => ?_, fun other isOther => ?_⟩
  · obtain ⟨source, isSource, assignsSource⟩ := backward worker isNode
    obtain ⟨sameKey, sameRole, -⟩ := assignNode_eq_ok assignsSource
    rw [depends, sameKey]
    rcases mem_append.mp (isPerm.subset isSource) with planned | added
    · refine mem_map.mpr ⟨source, mem_filter.mpr ⟨planned, decide_eq_true ?_⟩, rfl⟩
      exact sameRole.symm.trans isWorker
    · obtain ⟨_, -, builtOther⟩ := exists_of_mem_mapM areReviews added
      have isReviewer := (reviewNode_eq_ok builtOther).2.1
      exact NodeRole.noConfusion ((sameRole.symm.trans isWorker).symm.trans isReviewer)
  · rw [depends]
    exact not_mem_workersOf_of_review allowed isOther

theorem reviewsLast_stored (adds : config.addsRequiredReviews = true) (accepted : config.accepted plan false title = .ok stored)
    (hasWorker : workersOf plan.nodes ≠ []) : ReviewsLast (stored.nodes.map PlanNode.place) := by
  intro place mem isReview
  obtain ⟨node, isNode, rfl⟩ := mem_map.mp mem
  obtain ⟨review, isRequired, sameKey⟩ := mem_map.mp (of_decide_eq_true isReview)
  obtain ⟨its, isIts, itsKey, isRole, -, -, depends, -⟩ := stored_reviews adds accepted hasWorker isRequired
  obtain rfl : node = its := inj_on_of_nodup_map stored.ordered.nodup isNode isIts (sameKey.symm.trans itsKey.symm)
  refine ⟨isRole, fun worker isWorker isItsRole => ?_⟩
  obtain ⟨workerNode, isWorkerNode, rfl⟩ := mem_map.mp isWorker
  exact depends workerNode isWorkerNode isItsRole

end Stored

/-! ### Workers that are done -/

def WorkersDone (db : DagDb) : Prop := ∀ row ∈ db.nodes, row.role = .worker → row.state = .succeeded

def DagDb.RanWorker (db : DagDb) (agent : Text) : Prop :=
  ∃ row ∈ db.nodes, row.role = .worker ∧ ∃ attempt ∈ db.attemptsOf row.key, ∃ placed ∈ attempt.placed, placed.agent = agent

structure Keeps (db db' : DagDb) : Prop where
  places : db'.nodes.map NodeRow.place = db.nodes.map NodeRow.place
  done : WorkersDone db → WorkersDone db' ∧ ∀ agent, db'.RanWorker agent → db.RanWorker agent

theorem map_placed_interruptIn {attempts : List AttemptRow} :
    (interruptIn attempts).map AttemptRow.placed = attempts.map AttemptRow.placed := by
  rw [interruptIn, map_map]
  refine map_congr_left fun attempt _ => ?_
  rw [Function.comp_apply]
  split <;> rfl

theorem NodeStep.placed_stays {retryCount : ℕ} {call : DagCall} {row row' : NodeRow} {attempts attempts' : List AttemptRow}
    (step : NodeStep retryCount call row attempts row' attempts') (isOver : row.state = .succeeded) :
    attempts'.map AttemptRow.placed = attempts.map AttemptRow.placed := by
  cases step with
  | settled within => rfl
  | interrupted | cancelled | reopened => exact map_placed_interruptIn
  | started ready left => exact absurd (isOver.symm.trans ready) nofun
  | succeeded running => exact absurd (isOver.symm.trans running) nofun
  | failed running checked isMoved within => exact absurd (isOver.symm.trans running) nofun
  | givenUp ready => exact absurd (isOver.symm.trans ready) nofun
  | placed running => exact absurd (isOver.symm.trans running) nofun

section Keeps

variable {db db' : DagDb} {call : DagCall} {s s' : Drive} {event : DriveEvent}

theorem Keeps.refl (db : DagDb) : Keeps db db := ⟨rfl, fun done => ⟨done, fun _ ran => ran⟩⟩

theorem keeps_of_performed (ordered : db.Ordered) (performed : Performed db call db') : Keeps db db' := by
  obtain ⟨change, rows, each⟩ := nodeSteps_of_performed ordered performed
  have plan := fun row mem => (each row mem).samePlan
  refine ⟨?_, fun done => ⟨?_, fun agent => ?_⟩⟩
  · rw [rows, map_map]
    refine map_congr_left fun row mem => ?_
    rw [Function.comp_apply, NodeRow.place, (plan row mem).key, (plan row mem).role, (plan row mem).dependsOn]
    rfl
  · rw [WorkersDone, rows, forall_mem_map]
    intro row mem isWorker
    rw [(plan row mem).role] at isWorker
    exact ((each row mem).succeeded_stays (done row mem isWorker)).1
  · rintro ⟨after, isRow, isWorker, attempt, isAttempt, placed, isPlaced, isAgent⟩
    rw [rows] at isRow
    obtain ⟨row, mem, rfl⟩ := mem_map.mp isRow
    rw [(plan row mem).role] at isWorker
    rw [(plan row mem).key] at isAttempt
    have same := (each row mem).placed_stays (done row mem isWorker)
    have isBefore : attempt.placed ∈ (db.attemptsOf row.key).map AttemptRow.placed := same ▸ mem_map_of_mem isAttempt
    obtain ⟨before, isBeforeAttempt, samePlace⟩ := mem_map.mp isBefore
    exact ⟨row, mem, isWorker, before, isBeforeAttempt, placed, samePlace.symm ▸ isPlaced, isAgent⟩

theorem keeps_of_drove (ordered : s.db.Ordered) (drove : Drove s event s') : Keeps s.db s'.db := by
  rcases drove.written with ⟨call, accepted⟩ | ⟨command, args, now, accepted⟩ | same
  · exact keeps_of_performed ordered (performed_of_perform accepted)
  · unfold DagDb.command at accepted
    split at accepted
    · rw [← Option.some.inj accepted]
      exact ⟨rfl, fun done => ⟨done, fun _ ran => ran⟩⟩
    · cases accepted
  · rw [same]
    exact .refl s.db

end Keeps

/-! ### Every event -/

structure Worker.Knows (worker : Worker) (past : List DriveEvent) (db : DagDb) : Prop where
  view : worker.view.map NodeRow.place = db.nodes.map NodeRow.place
  config : ∃ owner run, DriveEvent.takeOver worker.config owner run ∈ past
  launching : ∀ node attempt, worker.launching = some (node, attempt) → isRequiredReview node.key = true →
    WorkersDone db ∧ node.role = .reviewer

structure Handed.Independent (handed : Handed) (past : List DriveEvent) (db : DagDb) : Prop where
  done : WorkersDone db
  other : ∀ review ∈ requiredReviews, review.1 ≠ handed.key → handed.agent ≠ review.2
  workers : ¬ db.RanWorker handed.agent
  ladder : ∃ config owner run, DriveEvent.takeOver config owner run ∈ past ∧ handed.agent ∈ config.ladders .reviewer

/-- **The independence of the required reviews**, after what has happened. -/
structure Independent (past : List DriveEvent) (s : Drive) : Prop where
  reachable : driving.Reachable s
  last : ReviewsLast (s.db.nodes.map NodeRow.place)
  workers : ∀ worker ∈ s.workers, worker.Knows past s.db
  handed : ∀ handed ∈ s.handed, isRequiredReview handed.key = true → handed.Independent past s.db

section Events

variable {past : List DriveEvent} {db db' : DagDb} {s s' : Drive} {event : DriveEvent} {worker : Worker}

theorem Worker.Knows.lift (knows : worker.Knows past db) (keeps : Keeps db db') (event : DriveEvent) :
    worker.Knows (past ++ [event]) db' where
  view := knows.view.trans keeps.places.symm
  config := by
    obtain ⟨owner, run, mem⟩ := knows.config
    exact ⟨owner, run, mem_append_left _ mem⟩
  launching node attempt isLaunching isReview := by
    obtain ⟨done, isReviewer⟩ := knows.launching node attempt isLaunching isReview
    exact ⟨(keeps.done done).1, isReviewer⟩

theorem Handed.Independent.lift {handed : Handed} (independent : handed.Independent past db) (keeps : Keeps db db')
    (event : DriveEvent) : handed.Independent (past ++ [event]) db' where
  done := (keeps.done independent.done).1
  other := independent.other
  workers ran := independent.workers ((keeps.done independent.done).2 _ ran)
  ladder := by
    obtain ⟨config, owner, run, mem, onLadder⟩ := independent.ladder
    exact ⟨config, owner, run, mem_append_left _ mem, onLadder⟩

variable {node : NodeRow}

theorem place_eq_of_key (ordered : db.Ordered) (sameView : worker.view.map NodeRow.place = db.nodes.map NodeRow.place)
    {row : NodeRow} (isNode : node ∈ worker.view) (mem : row ∈ db.nodes) (sameKey : row.key = node.key) :
    node.place = row.place := by
  have isPlace : node.place ∈ db.nodes.map NodeRow.place := sameView ▸ mem_map_of_mem isNode
  obtain ⟨other, isOther, same⟩ := mem_map.mp isPlace
  have key : other.key = node.key := congrArg Prod.fst same
  obtain rfl := ordered.eq_of_key mem isOther (key.trans sameKey.symm)
  exact same.symm

theorem workersDone_of_start (consistent : Consistent db) (last : ReviewsLast (db.nodes.map NodeRow.place))
    (sameView : worker.view.map NodeRow.place = db.nodes.map NodeRow.place) (isNode : node ∈ worker.view)
    {epoch maxAttempts : ℤ} (accepted : db.perform (.start epoch node.key maxAttempts) = .ok db')
    (isReview : isRequiredReview node.key = true) : WorkersDone db ∧ node.role = .reviewer := by
  obtain ⟨row, mem, isKey, ready, current, -⟩ := start_eq_ok accepted
  have same := place_eq_of_key consistent.ordered sameView isNode mem isKey
  obtain ⟨isReviewer, depends⟩ := last row.place (mem_map_of_mem mem) (by rw [← same]; exact isReview)
  refine ⟨fun worker isRow isWorker => ?_, (congrArg (fun place => place.2.1) same).trans isReviewer⟩
  have isDependency := depends worker.place (mem_map_of_mem isRow) isWorker
  exact (consistent.settled current.active).succeeded_of_ready consistent.ordered mem ready isRow isDependency

theorem specOf_agent_mem (config : OrchestratorConfig) (node : NodeRow) (attempt : AttemptRow) (forbidden : List Text) :
    (specOf config node attempt forbidden).agent ∈ config.ladders node.role := by
  have ladder := (config.ladder_length node.role).1
  have inside : min attempt.agentIndex ((config.ladders node.role).length - 1) < (config.ladders node.role).length := by omega
  show (config.ladders node.role).getD _ [] ∈ _
  rw [getD_eq_getElem?_getD, getElem?_eq_getElem inside]
  exact getElem_mem inside

theorem not_forbidden {config : OrchestratorConfig} {attempt : AttemptRow} {forbidden : List Text}
    (isReview : isRequiredReview node.key = true)
    (allowed : ¬ ((specOf config node attempt forbidden).assignmentUnavailable ||
      (specOf config node attempt forbidden).reviewNotIndependent) = true) :
    (specOf config node attempt forbidden).agent ∉ forbidden := by
  intro isForbidden
  refine allowed ((Bool.or_eq_true _ _).mpr (.inr ((Bool.and_eq_true _ _).mpr ⟨isReview, decide_eq_true isForbidden⟩)))

theorem handed_independent (independent : Independent past s) {index : ℕ} {attempt : AttemptRow}
    (isWorker : s.workers[index]? = some worker) (isLaunching : worker.launching = some (node, attempt))
    (isReview : isRequiredReview node.key = true)
    (allowed : (specOf worker.config node attempt (s.forbidden worker node.key)).agent ∉ s.forbidden worker node.key) :
    Handed.Independent ⟨node.key, attempt.number, (specOf worker.config node attempt (s.forbidden worker node.key)).agent⟩
      past s.db := by
  have knows := independent.workers worker (mem_of_getElem? isWorker)
  obtain ⟨done, isReviewer⟩ := knows.launching node attempt isLaunching isReview
  have onLadder := specOf_agent_mem worker.config node attempt (s.forbidden worker node.key)
  generalize (specOf worker.config node attempt (s.forbidden worker node.key)).agent = agent at allowed onLadder
  rw [Drive.forbidden, if_pos isReview, reviewForbidden, forbiddenAgents, mem_append, not_or] at allowed
  refine ⟨done, fun review mem different isOther => allowed.1 ?_, fun ran => allowed.2 ?_, ?_⟩
  · have agents : ∀ review ∈ requiredReviews, review.2 ∈ reviewAgents ∧
        ∀ key ∈ requiredReviews.map Prod.fst, review.1 ≠ key → some review.2 ≠ reviewAgent key := by decide
    obtain ⟨isAgent, apart⟩ := agents review mem
    have isOther : agent = review.2 := isOther
    rw [isOther]
    exact mem_filter.mpr ⟨isAgent, decide_eq_true (apart node.key (of_decide_eq_true isReview) different)⟩
  · obtain ⟨row, isRow, isItsRole, ranAttempt, isAttempt, placed, isPlaced, isAgent⟩ := ran
    have isPlace : row.place ∈ worker.view.map NodeRow.place := knows.view ▸ mem_map_of_mem isRow
    obtain ⟨copy, isCopy, same⟩ := mem_map.mp isPlace
    obtain ⟨isDbAttempt, isKey⟩ := mem_filter.mp isAttempt
    refine mem_filterMap.mpr ⟨ranAttempt, mem_filter.mpr ⟨isDbAttempt, decide_eq_true ?_⟩, ?_⟩
    · refine mem_map.mpr ⟨copy, mem_filter.mpr ⟨isCopy, decide_eq_true ?_⟩, ?_⟩
      · exact (congrArg (fun place => place.2.1) same).trans isItsRole
      · exact (congrArg Prod.fst same).trans (of_decide_eq_true isKey).symm
    · rw [show ranAttempt.placed = some placed from isPlaced]
      exact congrArg some isAgent
  · obtain ⟨owner, run, mem⟩ := knows.config
    exact ⟨worker.config, owner, run, mem, isReviewer ▸ onLadder⟩

/-- **Every event keeps the required reviews independent.** -/
theorem Independent.step (independent : Independent past s) (taken : driving.step s event = some s') :
    Independent (past ++ [event]) s' := by
  have drove := drove_of_step taken
  have consistent := consistent_of_reachable (dagStore_reachable independent.reachable)
  have keeps := keeps_of_drove consistent.ordered drove
  have old : ∀ worker ∈ s.workers, worker.Knows (past ++ [event]) s'.db :=
    fun worker mem => (independent.workers worker mem).lift keeps event
  have oldHanded : ∀ handed ∈ s.handed, isRequiredReview handed.key = true → handed.Independent (past ++ [event]) s'.db :=
    fun handed mem isReview => (independent.handed handed mem isReview).lift keeps event
  have last : ReviewsLast (s'.db.nodes.map NodeRow.place) := keeps.places ▸ independent.last
  have found : ∀ {index : ℕ} {worker : Worker}, s.workers[index]? = some worker → worker.Knows (past ++ [event]) s'.db :=
    fun isWorker => old _ (mem_of_getElem? isWorker)
  refine ⟨independent.reachable.next taken, last, ?_, ?_⟩
  · cases drove with
    | takenOver accepted =>
      intro worker mem
      rcases mem_append.mp mem with kept | new
      · exact old worker kept
      · obtain rfl := mem_singleton.mp new
        refine ⟨rfl, ⟨_, _, mem_append_right _ (.head _)⟩, fun _ _ isLaunching => ?_⟩
        exact absurd isLaunching.symm (Option.some_ne_none _)
    | @started index worker node db isWorker notLaunching isNode accepted =>
      refine forall_mem_set old ⟨(found isWorker).view, (found isWorker).config, fun launched attempt isLaunching isReview => ?_⟩
      obtain ⟨last, -, same⟩ := Option.map_eq_some_iff.mp isLaunching
      obtain ⟨rfl, -⟩ := Prod.mk.inj same
      obtain ⟨done, isReviewer⟩ := workersDone_of_start consistent independent.last
        (independent.workers worker (mem_of_getElem? isWorker)).view isNode accepted isReview
      exact ⟨(keeps.done done).1, isReviewer⟩
    | gaveUp isWorker accepted => exact forall_mem_set old ⟨rfl, (found isWorker).config, (found isWorker).launching⟩
    | launched isWorker isLaunching isSpec =>
      exact forall_mem_set old ⟨(found isWorker).view, (found isWorker).config,
        fun _ _ isLaunching => absurd isLaunching.symm (Option.some_ne_none _)⟩
    | refreshed isWorker => exact forall_mem_set old ⟨rfl, (found isWorker).config, (found isWorker).launching⟩
    | unsettled isWorker => exact forall_mem_set old ⟨(found isWorker).view, (found isWorker).config, (found isWorker).launching⟩
    | settled isWorker isSettling isCall accepted =>
      exact forall_mem_set old ⟨rfl, (found isWorker).config, (found isWorker).launching⟩
    | placed isWorker accepted => exact forall_mem_set old (found isWorker)
    | interrupted isWorker notLaunching accepted =>
      exact forall_mem_set old ⟨rfl, (found isWorker).config, (found isWorker).launching⟩
    | cancelled isWorker accepted =>
      exact forall_mem_set old ⟨(found isWorker).view, (found isWorker).config, (found isWorker).launching⟩
    | finalized isWorker accepted =>
      exact forall_mem_set old ⟨(found isWorker).view, (found isWorker).config, (found isWorker).launching⟩
    | commanded accepted => exact old
  · cases drove with
    | @launched index worker node attempt isWorker isLaunching spec isSpec =>
      intro handed mem isReview
      dsimp only at mem
      split at mem
      · exact oldHanded handed mem isReview
      case isFalse allowed =>
        rcases mem_append.mp mem with kept | new
        · exact oldHanded handed kept isReview
        · obtain rfl := mem_singleton.mp new
          subst isSpec
          exact (handed_independent independent isWorker isLaunching isReview (not_forbidden isReview allowed)).lift keeps _
    | _ => exact oldHanded

end Events

/-- **Required reviews stay independent.** On a deployment that adds them, the plan of a task that writes and has
a Worker is stored with both reviews, each on its agent, required, after every Worker and not after the other.
In every run of its DAG a review that is handed to a runtime runs neither on the other review's agent nor on one
that an attempt of a Worker is ever placed on; and where the reviewers' ladders have no third agent, no two
attempts of different reviews run on one agent. -/
theorem reviews_independent {config : OrchestratorConfig} {plan stored : Plan} {title : Text}
    (adds : config.addsRequiredReviews = true) (hasWorker : ∃ node ∈ plan.nodes, node.role = .worker)
    (accepted : config.accepted plan false title = .ok stored) :
    (∀ review ∈ requiredReviews, ∃ node ∈ stored.nodes, node.key = review.1 ∧ node.role = .reviewer ∧
      node.required = true ∧ node.agent = some review.2 ∧
      (∀ worker ∈ stored.nodes, worker.role = .worker → worker.key ∈ node.dependsOn) ∧
      ∀ other ∈ requiredReviews, other.1 ∉ node.dependsOn) ∧
    ∀ task attempt run db events s, DagDb.create task attempt stored run (config.startRungs stored) = .ok db →
      driving.run ⟨db, [], []⟩ events = some s → ∀ handed ∈ s.handed, isRequiredReview handed.key = true →
        (∀ review ∈ requiredReviews, review.1 ≠ handed.key → handed.agent ≠ review.2) ∧
        ¬ s.db.RanWorker handed.agent ∧
        ((∀ given owner its, DriveEvent.takeOver given owner its ∈ events →
            ∀ agent ∈ given.ladders .reviewer, agent ∈ reviewAgents) →
          ∀ other ∈ s.handed, isRequiredReview other.key = true → other.key ≠ handed.key → other.agent ≠ handed.agent) := by
  have workers : workersOf plan.nodes ≠ [] := by
    obtain ⟨node, member, isWorker⟩ := hasWorker
    refine ne_nil_of_mem (a := node.key) ?_
    exact mem_map.mpr ⟨node, mem_filter.mpr ⟨member, decide_eq_true isWorker⟩, rfl⟩
  have agents : ∀ review ∈ requiredReviews, reviewAgent review.1 = some review.2 := by decide
  refine ⟨fun review member => agents review member ▸ stored_reviews adds accepted workers member, ?_⟩
  intro task attempt run db events s created ran
  have last : ReviewsLast (db.nodes.map NodeRow.place) := by
    obtain ⟨n, -, -, -, rfl⟩ := create_eq_ok created
    have places : (DagDb.created task n (run.elim 0 TaskRun.retryCount) stored (config.startRungs stored)).nodes.map NodeRow.place =
        stored.nodes.map PlanNode.place := by
      rw [DagDb.created, DagDb.settle, map_map, map_map]
      rfl
    rw [places]
    exact reviewsLast_stored adds accepted workers
  have independent : Independent events s := by
    refine Machine.run_invariant (M := driving) (P := Independent) ⟨?_, last, ?_, ?_⟩
      (fun _ _ _ _ independent taken => independent.step taken) ran
    · exact .start ⟨⟨task, attempt, stored, run, config.startRungs stored, created⟩, rfl, rfl⟩
    · exact fun _ member => absurd member not_mem_nil
    · exact fun _ member => absurd member not_mem_nil
  intro handed member isReview
  have its := independent.handed handed member isReview
  refine ⟨its.other, its.workers, fun noThird other isOther isOtherReview different sameAgent => ?_⟩
  -- Without a third agent each runs on an agent that only its own review may have.
  have others := independent.handed other isOther isOtherReview
  obtain ⟨given, owner, itsRun, isEvent, onLadder⟩ := its.ladder
  have isReviewAgent := noThird given owner itsRun isEvent _ onLadder
  obtain ⟨review, isReviewRow, isAgent⟩ := mem_map.mp isReviewAgent
  by_cases own : review.1 = handed.key
  · exact others.other review isReviewRow (own.trans_ne different.symm) (sameAgent.trans isAgent.symm)
  · exact its.other review isReviewRow own isAgent.symm

/-! ### A third agent -/

def localAgent : List Text := [lit "local"]

def threeReviewers : List Text := [lit "claude", lit "codex", lit "other"]

def thirdAgentLadder (role : NodeRole) : List Text := if role = .reviewer then threeReviewers else localAgent

theorem thirdAgentLadder_length (role : NodeRole) :
    1 ≤ (thirdAgentLadder role).length ∧ (thirdAgentLadder role).length ≤ maxLadderLength := by
  cases role <;> decide

theorem thirdAgentLadder_nodup (role : NodeRole) : (thirdAgentLadder role).Nodup := by
  cases role <;> decide

theorem localAgent_ne_nil : localAgent ≠ [] := by decide

theorem localAgent_nodup : localAgent.Nodup := by decide

theorem mem_of_mem_none (allowed : List Text) : ∀ agent ∈ (none : Option Text), agent ∈ allowed :=
  fun agent isDefault => absurd isDefault (Option.not_mem_none agent)

def thirdAgentAssignment (role : NodeRole) : RoleAssignment :=
  if role = .reviewer then ⟨bothAgents, none, bothAgents_ne_nil, bothAgents_nodup, mem_of_mem_none bothAgents⟩
  else ⟨localAgent, none, localAgent_ne_nil, localAgent_nodup, mem_of_mem_none localAgent⟩

theorem thirdAgentAssignment_mem (role : NodeRole) : ∀ agent ∈ (thirdAgentAssignment role).allowed, agent ∈ thirdAgentLadder role := by
  cases role <;> decide

def thirdAgent : OrchestratorConfig where
  ladders := thirdAgentLadder
  maxAttempts := 2
  assigned := thirdAgentAssignment
  ladder_length := thirdAgentLadder_length
  ladder_distinct := thirdAgentLadder_nodup
  maxAttempts_bound := two_attempts
  assigned_mem := thirdAgentAssignment_mem

def workNodes : List PlanNode := [{ key := lit "work", role := .worker, title := lit "Work", goal := lit "Work" }]

theorem workNodes_ordered : OrderedAfter PlanNode.key PlanNode.dependsOn [] workNodes := by
  simp only [workNodes, OrderedAfter]
  decide

def workPlan : Plan := ⟨workNodes, workNodes_ordered⟩

def asksForNext (index : ℕ) (key : Text) : DriveEvent :=
  .settle index key (.failed ⟨lit "AgentContextExceeded", true, true⟩) ⟨List.replicate 64 48, zeroSignature_checked⟩
    ⟨.continue, [], []⟩

def bothEscalate : List DriveEvent :=
  [.takeOver thirdAgent (lit "w1") TaskRun.first, .dispatch 0 (lit "work"), .launch 0, .refresh 0,
   .settle 0 (lit "work") (.succeeded (lit "done") false) ⟨List.replicate 64 48, zeroSignature_checked⟩ ⟨.continue, [], []⟩,
   .dispatch 0 claudeReview, .launch 0, .dispatch 0 codexReview, .launch 0, .refresh 0,
   asksForNext 0 claudeReview, asksForNext 0 codexReview,
   .dispatch 0 claudeReview, .launch 0, .dispatch 0 codexReview, .launch 0]

def bothEscalateFrom (title : Text) : Option Drive :=
  (thirdAgent.accepted workPlan false title).toOption.bind fun stored =>
    (DagDb.create runningTask 1 stored (some TaskRun.first) (thirdAgent.startRungs stored)).toOption.bind fun db =>
      driving.run ⟨db, [], []⟩ bothEscalate

theorem bothEscalate_meet :
    (bothEscalateFrom (lit "Task")).any (fun s => s.handed.any (fun h => h.key = claudeReview ∧ h.agent = lit "other") &&
      s.handed.any fun h => h.key = codexReview ∧ h.agent = lit "other") = true := by
  unfold bothEscalateFrom OrchestratorConfig.accepted addRequiredReviews reviewNode reviewGoal
  repeat rw [Text.lit_ofList]
  decide +kernel

theorem mem_workPlan : ∃ node ∈ workPlan.nodes, node.role = .worker := ⟨_, .head _, rfl⟩

/-- Above the agents of the reviews both may climb to one third agent. -/
theorem bothEscalate_share_agent :
    ¬ ∀ (config : OrchestratorConfig) (plan stored : Plan) (title : Text), config.addsRequiredReviews = true →
      (∃ node ∈ plan.nodes, node.role = .worker) → config.accepted plan false title = .ok stored →
      ∀ task attempt run db events s, DagDb.create task attempt stored run (config.startRungs stored) = .ok db →
        driving.run ⟨db, [], []⟩ events = some s → ∀ handed ∈ s.handed, isRequiredReview handed.key = true →
          ∀ other ∈ s.handed, isRequiredReview other.key = true → other.key ≠ handed.key → other.agent ≠ handed.agent := by
  intro apart
  obtain ⟨s, ends, both⟩ := (Option.any_eq_true _ _).mp bothEscalate_meet
  obtain ⟨stored, isStored, rest⟩ := Option.bind_eq_some_iff.mp ends
  obtain ⟨db, created, ran⟩ := Option.bind_eq_some_iff.mp rest
  obtain ⟨byClaude, byCodex⟩ := (Bool.and_eq_true _ _).mp both
  obtain ⟨first, isFirst, isClaude⟩ := any_eq_true.mp byClaude
  obtain ⟨second, isSecond, isCodex⟩ := any_eq_true.mp byCodex
  obtain ⟨firstKey, firstAgent⟩ := of_decide_eq_true isClaude
  obtain ⟨secondKey, secondAgent⟩ := of_decide_eq_true isCodex
  refine apart thirdAgent workPlan stored (lit "Task") (by decide) mem_workPlan (toOption_eq_some.mp isStored) _ _ _ db _ s
    (toOption_eq_some.mp created) ran first isFirst (by rw [firstKey]; decide) second isSecond (by rw [secondKey]; decide) ?_ ?_
  · rw [firstKey, secondKey]
    decide
  · rw [firstAgent, secondAgent]

theorem workPlan_reviewed :
    ∃ stored, thirdAgent.accepted workPlan false (lit "Task") = .ok stored ∧
      ∀ review ∈ requiredReviews, ∃ node ∈ stored.nodes, node.key = review.1 ∧ node.agent = some review.2 ∧
        ∀ worker ∈ stored.nodes, worker.role = .worker → worker.key ∈ node.dependsOn := by
  obtain ⟨s, ends, -⟩ := (Option.any_eq_true _ _).mp bothEscalate_meet
  obtain ⟨stored, isStored, -⟩ := Option.bind_eq_some_iff.mp ends
  obtain ⟨reviewed, -⟩ := reviews_independent (by decide) mem_workPlan (toOption_eq_some.mp isStored)
  refine ⟨stored, toOption_eq_some.mp isStored, fun review member => ?_⟩
  obtain ⟨node, isNode, isKey, -, -, isAgent, depends, -⟩ := reviewed review member
  exact ⟨node, isNode, isKey, isAgent, depends⟩

end PawBackend.Orchestrator
