/-
**A node is not retried for ever** (`orchestrator/orchestrator.py`: `_settle_failure`, `_retry_step`;
`orchestrator/store.py`: `_start_node`, `fail_node`).

Within one run of a task every attempt is counted on its rung, and a rung is left for a higher one of the
ladder or not at all: `Progress` is the measure, and every event of every worker keeps it
(`Progress.drove`). What a worker asks for fits the row it is about (`failureStep_fits`), so the store never
refuses it for the step.
-/

import PawBackend.Orchestrator.DagEnds
import PawBackend.Orchestrator.Workers

namespace PawBackend.Orchestrator

open Lib List
open Tools (TaskRun)
open Tasks (TaskCommand)
open DagDb (checkMove moved startedRow failedRow)
open Lib.Text (lit)

/-! ### What a decision asks for -/

/-- A move as the store takes it: up the ladder, or another approach on the same rung. -/
def NodeMove.Fits (config : OrchestratorConfig) (node : NodeRow) (move : NodeMove) : Prop :=
  match move.step, move.target with
  | .escalate, some (rung, approach) =>
    (node.agentIndex < rung ∧ rung < (config.ladders node.role).length) ∧ node.approach < approach ∧ approach ≤ maxApproach
  | .alternative, some (rung, approach) => rung = node.agentIndex ∧ node.approach < approach ∧ approach ≤ maxApproach
  | .retry, none | .giveUp, none | .hold, none => True
  | _, _ => False

section Decisions

variable {config : OrchestratorConfig} {node : NodeRow} {failure : Failure} {skip : List Text}

theorem retryStep_fits {action : NextAction} :
    (retryStep config node action failure (config.nextRung node.role node.agentIndex skip)).Fits config node := by
  unfold retryStep
  dsimp only
  split
  · trivial
  · -- Whatever the failure asked for, the action that is taken is one of these.
    generalize (if failure.escalate ∧ (config.nextRung node.role node.agentIndex skip).isSome ∧
      node.approach + 1 ≤ maxApproach ∧ (action = .continue ∨ action = .tryAlternative) then NextAction.escalateAgent
      else action) = taken
    split
    · split
      case isTrue allowed =>
        obtain ⟨rung, isRung⟩ := Option.isSome_iff_exists.mp allowed.1
        obtain ⟨higher, inside, -⟩ := OrchestratorConfig.nextRung_eq_some isRung
        rw [isRung, Option.getD_some]
        exact ⟨⟨higher, inside⟩, Nat.lt_succ_self _, allowed.2⟩
      · trivial
    · split
      · trivial
      · split
        · split
          case isTrue allowed => exact ⟨rfl, Nat.lt_succ_self _, allowed⟩
          · trivial
        · split <;> trivial

theorem failureStep_fits {answers : Answers} : (failureStep config node failure answers skip).Fits config node := by
  unfold failureStep
  dsimp only
  split
  · trivial
  · trivial
  · split
    · split
      · trivial
      · trivial
      · exact retryStep_fits
    · exact retryStep_fits

end Decisions

/-! ### Rungs and approaches -/

structure NodeRow.InBounds (row : NodeRow) : Prop where
  rung : row.agentIndex < maxLadderLength
  approach : row.approach ≤ maxApproach

variable {agentIndex approach : Option ℤ}

theorem checkMove_eq_ok {step : NextStep} {move : Option ℕ × Option ℕ}
    (checked : checkMove step agentIndex approach = .ok move) :
    (∀ rung ∈ move.1, rung < maxLadderLength) ∧ ∀ next ∈ move.2, next ≤ maxApproach := by
  unfold checkMove at checked
  split at checked
  · simp only [bind_eq_ok, pure_eq_ok] at checked
    obtain ⟨rung, isRung, next, isNext, rfl⟩ := checked
    refine ⟨fun _ same => ?_, fun _ same => ?_⟩
    · obtain rfl := Option.some.inj same
      cases agentIndex with
      | none => cases isRung
      | some value =>
        obtain ⟨-, most, rfl⟩ := (checkInt_eq_ok (by decide)).mp isRung
        have bound : maxLadderLength = 4 := rfl
        omega
    · obtain rfl := Option.some.inj same
      cases approach with
      | none => cases isNext
      | some value =>
        obtain ⟨-, most, rfl⟩ := (checkInt_eq_ok (by decide)).mp isNext
        exact_mod_cast most
  · split at checked
    · cases checked
    · split at checked
      · cases checked
      · obtain rfl := Except.ok.inj checked
        exact ⟨nofun, nofun⟩

theorem checkMove_rung {step : NextStep} {move : Option ℕ × Option ℕ}
    (checked : checkMove step agentIndex approach = .ok move) {rung : ℕ} (isRung : move.1 = some rung) :
    agentIndex = some (rung : ℤ) := by
  unfold checkMove at checked
  split at checked
  · simp only [bind_eq_ok, pure_eq_ok] at checked
    obtain ⟨given, isGiven, next, -, rfl⟩ := checked
    obtain rfl := Option.some.inj isRung
    cases agentIndex with
    | none => cases isGiven
    | some value =>
      obtain ⟨-, -, rfl⟩ := (checkInt_eq_ok (by decide)).mp isGiven
      rfl
  · split at checked
    · cases checked
    · split at checked
      · cases checked
      · obtain rfl := Except.ok.inj checked
        cases isRung

theorem escalates_of_moved {step : NextStep} {move : Option ℕ × Option ℕ}
    {row next : NodeRow} (checked : checkMove step agentIndex approach = .ok move)
    (isMoved : moved step move.1 move.2 row = .ok next) (higher : row.agentIndex < next.agentIndex) :
    step = .escalate ∧ agentIndex = some (next.agentIndex : ℤ) := by
  unfold moved at isMoved
  split at isMoved
  · split at isMoved
    · cases isMoved
    · obtain rfl := Except.ok.inj isMoved
      exact absurd higher (lt_irrefl _)
  case h_2 isRung isApproach =>
    split at isMoved
    · cases isMoved
    · obtain rfl := Except.ok.inj isMoved
      exact ⟨rfl, checkMove_rung checked isRung⟩
  · obtain rfl := Except.ok.inj isMoved
    exact absurd higher (lt_irrefl _)

theorem moved_inBounds {step : NextStep} {move : Option ℕ × Option ℕ} {row next : NodeRow}
    (isMoved : moved step move.1 move.2 row = .ok next) (bounds : row.InBounds)
    (rungs : ∀ rung ∈ move.1, rung < maxLadderLength) (approaches : ∀ approach ∈ move.2, approach ≤ maxApproach) :
    next.InBounds := by
  unfold moved at isMoved
  split at isMoved
  case h_1 isRung isApproach =>
    split at isMoved
    · cases isMoved
    · obtain rfl := Except.ok.inj isMoved
      exact ⟨bounds.rung, approaches _ isApproach⟩
  case h_2 isRung isApproach =>
    split at isMoved
    · cases isMoved
    · obtain rfl := Except.ok.inj isMoved
      exact ⟨rungs _ isRung, approaches _ isApproach⟩
  case h_3 =>
    obtain rfl := Except.ok.inj isMoved
    exact bounds

theorem NodeStep.inBounds {retryCount : ℕ} {call : DagCall} {row row' : NodeRow} {attempts attempts' : List AttemptRow}
    (step : NodeStep retryCount call row attempts row' attempts') (bounds : row.InBounds) : row'.InBounds := by
  cases step with
  | failed running checked isMoved within =>
    obtain ⟨rungs, approaches⟩ := checkMove_eq_ok checked
    have next := moved_inBounds isMoved bounds rungs approaches
    exact ⟨next.rung, next.approach⟩
  | _ => exact ⟨bounds.rung, bounds.approach⟩

theorem createdRow_inBounds {plan : Plan} {startRungs : Keyed (Prod.fst : Text × ℤ → Text)}
    (checked : DagDb.checkRungs plan startRungs = .ok ()) {node : PlanNode} (mem : node ∈ plan.nodes) :
    (DagDb.createdRow startRungs node).InBounds := by
  refine ⟨?_, Nat.zero_le _⟩
  obtain ⟨_, each, -⟩ := bind_eq_ok.mp checked
  obtain ⟨-, isRung⟩ := check_eq_ok.mp (forM_eq_ok.mp each node mem)
  show ((startRungs.get node.key).elim 0 Prod.snd).toNat < maxLadderLength
  cases found : startRungs.get node.key with
  | none => decide
  | some rung =>
    rw [found] at isRung
    obtain ⟨value, isValue, -⟩ := bind_eq_ok.mp isRung
    obtain ⟨-, most, same⟩ := (checkInt_eq_ok (by decide)).mp isValue
    have bound : maxLadderLength = 4 := rfl
    show rung.2.toNat < maxLadderLength
    omega

theorem inBounds_of_reachable {db : DagDb} (reach : dagStore.Reachable db) : ∀ row ∈ db.nodes, row.InBounds := by
  induction reach with
  | start init =>
    obtain ⟨task, attempt, plan, run, startRungs, accepted⟩ := init
    obtain ⟨n, -, -, checked, rfl⟩ := create_eq_ok accepted
    intro row mem
    obtain ⟨before, isBefore, rfl⟩ := mem_map.mp mem
    obtain ⟨node, isNode, rfl⟩ := mem_map.mp isBefore
    have bounds := createdRow_inBounds checked isNode
    exact ⟨bounds.rung, bounds.approach⟩
  | next reached taken bounds =>
    obtain ⟨change, rows, each⟩ := nodeStep_of_step (consistent_of_reachable reached).ordered taken
    rw [rows, forall_mem_map]
    intro row mem
    obtain ⟨call, step⟩ := each row mem
    exact step.inBounds (bounds row mem)

/-! ### No step is refused -/

/-- A character `format_error_class` leaves or puts in. -/
def isClassChar (c : ℕ) : Prop := 45 ≤ c ∧ c ≤ 46 ∨ 48 ≤ c ∧ c ≤ 57 ∨ 65 ≤ c ∧ c ≤ 90 ∨ c = 95 ∨ 97 ≤ c ∧ c ≤ 122

theorem isClassChar_of_mem_formatErrorClass {name : Text} {c : ℕ} (mem : c ∈ formatErrorClass name) :
    isClassChar c := by
  unfold formatErrorClass at mem
  split at mem
  · have each : ∀ c ∈ lit "Error", 65 ≤ c ∧ c ≤ 90 ∨ 97 ≤ c ∧ c ≤ 122 := by decide
    have := each c mem
    unfold isClassChar
    omega
  · obtain ⟨before, -, rfl⟩ := mem_map.mp (mem_of_mem_take mem)
    split
    case isTrue plain =>
      simp only [isAlphanumeric, Text.isDigit, Text.isLower, Text.isUpper, Bool.or_eq_true, decide_eq_true_eq] at plain
      unfold isClassChar
      rcases plain with letter | isMark
      · omega
      · have marks : before = 95 ∨ before = 46 ∨ before = 45 := by
          simpa using (show before ∈ [95, 46, 45] from isMark)
        omega
    case isFalse => exact .inr (.inr (.inr (.inl rfl)))

theorem formatErrorClass_ne_nil (name : Text) : formatErrorClass name ≠ [] := by
  unfold formatErrorClass
  split
  · decide
  case isFalse nonempty =>
    intro isEmpty
    rw [take_eq_nil_iff, map_eq_nil_iff] at isEmpty
    rcases isEmpty with bad | isEmpty
    · exact absurd bad (by decide)
    · exact nonempty isEmpty

theorem checkLabel_formatErrorClass (name : Text) :
    checkLabel "error_class" (formatErrorClass name) maxErrorClassChars = .ok () := by
  unfold checkLabel
  rw [if_neg]
  rintro (allSpace | tooLong | control | surrogate)
  · obtain ⟨c, rest, isName⟩ := exists_cons_of_ne_nil (formatErrorClass_ne_nil name)
    have mem : c ∈ formatErrorClass name := isName ▸ (.head _)
    have space := all_eq_true.mp allSpace c mem
    have plain := isClassChar_of_mem_formatErrorClass mem
    simp only [Text.isSpace, decide_eq_true_eq] at space
    unfold isClassChar at plain
    omega
  · unfold formatErrorClass at tooLong
    split at tooLong
    · exact absurd tooLong (by decide)
    · rw [length_take] at tooLong
      omega
  · obtain ⟨c, mem, isIts⟩ := any_eq_true.mp control
    have plain := isClassChar_of_mem_formatErrorClass mem
    simp only [isControl, decide_eq_true_eq] at isIts
    unfold isClassChar at plain
    omega
  · obtain ⟨c, mem, isIts⟩ := any_eq_true.mp surrogate
    have plain := isClassChar_of_mem_formatErrorClass mem
    simp only [isSurrogate, decide_eq_true_eq] at isIts
    unfold isClassChar at plain
    omega

section Accepted

variable {db : DagDb} {row : NodeRow} {config : OrchestratorConfig} {move : NodeMove} {number : ℕ}

theorem running_of_mem (ordered : db.Ordered) (mem : row ∈ db.nodes) (running : row.state = .running)
    (isNumber : row.attemptCount = number) : db.running row.key number = .ok row := by
  have found : db.node row.key = some row := by
    unfold DagDb.node
    cases isFound : db.nodes.find? fun other => decide (other.key = row.key) with
    | none => exact absurd (decide_eq_true rfl) (find?_eq_none.mp isFound row mem)
    | some other =>
      have same : other.key = row.key := by simpa using find?_some isFound
      rw [ordered.eq_of_key mem (mem_of_find?_eq_some isFound) same]
  unfold DagDb.running
  rw [found]
  exact if_pos ⟨running, isNumber⟩

theorem exists_moved (fits : move.Fits config row) (bounds : row.InBounds) :
    ∃ checked next,
      checkMove move.step (move.target.map fun target => (target.1 : ℤ)) (move.target.map fun target => (target.2 : ℤ)) =
        .ok checked ∧ moved move.step checked.1 checked.2 row = .ok next := by
  obtain ⟨step, target⟩ := move
  cases target with
  | none =>
    cases step with
    | retry | giveUp | hold => exact ⟨(none, none), row, rfl, rfl⟩
    | alternative | escalate => exact absurd fits id
  | some target =>
    obtain ⟨rung, approach⟩ := target
    have ladders := (config.ladder_length row.role).2
    have rungs := bounds.rung
    have four : maxLadderLength = 4 := rfl
    have checks : rung < maxLadderLength → approach ≤ maxApproach → ∀ step, step = .alternative ∨ step = .escalate →
        checkMove step (some (rung : ℤ)) (some (approach : ℤ)) = .ok (some rung, some approach) := by
      intro inside most step isMove
      rw [checkMove, if_pos isMove, bind_eq_ok]
      refine ⟨rung, (checkInt_eq_ok (by decide)).mpr ⟨by omega, by omega, rfl⟩, bind_eq_ok.mpr ⟨approach, ?_, rfl⟩⟩
      exact (checkInt_eq_ok (by decide)).mpr ⟨by omega, by exact_mod_cast most, rfl⟩
    cases step with
    | retry | giveUp | hold => exact absurd fits id
    | alternative =>
      obtain ⟨same, later, most⟩ := fits
      refine ⟨_, _, checks (by omega) most _ (.inl rfl), if_neg ?_⟩
      rw [not_or, not_not, not_le]
      exact ⟨same, later⟩
    | escalate =>
      obtain ⟨⟨higher, inside⟩, later, most⟩ := fits
      refine ⟨_, _, checks (by omega) most _ (.inr rfl), if_neg ?_⟩
      rw [not_or, not_le, not_le]
      exact ⟨higher, later⟩

theorem any_isAttempt (consistent : Consistent db) (mem : row ∈ db.nodes) (running : row.state = .running) :
    db.attempts.any (DagDb.isAttempt row.key row.attemptCount) = true := by
  obtain ⟨attempt, only, isNumber⟩ := (consistent.rows row mem).running_iff.mp running
  obtain ⟨isRow, runs⟩ := mem_filter.mp (only ▸ mem_singleton_self attempt)
  refine any_eq_true.mpr ⟨attempt, (mem_filter.mp isRow).1, decide_eq_true ⟨?_, isNumber, ?_⟩⟩
  · exact nodeKey_of_mem_attemptsOf isRow
  · exact of_decide_eq_true runs

/-- The numbers fit their columns. -/
structure DagDb.InRange (db : DagDb) : Prop where
  epoch : (db.dag.epoch : ℤ) ≤ maxInt32
  attempts : ∀ row ∈ db.nodes, (row.attemptCount : ℤ) ≤ maxInt32

theorem fence_of_current (current : db.Current) : db.fence (some db.dag.epoch) true true false = .ok () := by
  refine DagDb.fence_eq_ok.mpr ⟨fun e same => Option.some.inj same, fun _ => current.active, fun _ => ?_, nofun⟩
  exact ⟨current.attempt, current.retryCount, current.notEnded⟩

theorem closeAttempt_accepted (consistent : Consistent db) (mem : row ∈ db.nodes) (running : row.state = .running)
    {mid : DagDb} (same : mid.attempts = db.attempts) {state : AttemptState} {errorClass signature : Option Text} :
    ∃ after, mid.closeAttempt row.key row.attemptCount state errorClass signature = .ok after := by
  rw [DagDb.closeAttempt, same, if_pos (any_isAttempt consistent mem running)]
  exact ⟨_, rfl⟩

theorem complete_accepted (consistent : Consistent db) (current : db.Current) (inRange : db.InRange)
    (taken : 1 ≤ db.dag.epoch) (mem : row ∈ db.nodes) (running : row.state = .running)
    (label : checkLabel "key" row.key 32 = .ok ()) (result : Text) :
    ∃ after, db.perform (.complete db.dag.epoch row.key row.attemptCount result) = .ok after := by
  have counted := (consistent.rows row mem).counted running
  have isRunning := running_of_mem consistent.ordered mem running rfl
  obtain ⟨closed, isClosed⟩ := closeAttempt_accepted consistent mem running
    (show (db.setNode row.key (DagDb.succeededRow result)).attempts = db.attempts from rfl)
  refine exists_bind_ok ((checkInt_eq_ok (by decide)).mpr ⟨by omega, inRange.epoch, rfl⟩) ?_
  refine exists_bind_ok label ?_
  refine exists_bind_ok ((checkInt_eq_ok (by decide)).mpr ⟨by omega, inRange.attempts row mem, rfl⟩) ?_
  refine exists_bind_ok (fence_of_current current) ?_
  refine exists_bind_ok isRunning ?_
  exact exists_bind_ok isClosed ⟨_, rfl⟩

theorem fail_accepted (consistent : Consistent db) (current : db.Current) (inRange : db.InRange)
    (taken : 1 ≤ db.dag.epoch) (mem : row ∈ db.nodes) (running : row.state = .running)
    (label : checkLabel "key" row.key 32 = .ok ()) {errorClass : Text}
    (isClass : checkLabel "error_class" errorClass maxErrorClassChars = .ok ()) (signature : Signature)
    (fits : move.Fits config row) (bounds : row.InBounds) :
    ∃ after, db.perform (failCall db.dag.epoch row.key row.attemptCount errorClass signature move) = .ok after := by
  have counted := (consistent.rows row mem).counted running
  have isRunning := running_of_mem consistent.ordered mem running rfl
  obtain ⟨checked, next, isChecked, isMoved⟩ := exists_moved fits bounds
  obtain ⟨closed, isClosed⟩ := closeAttempt_accepted consistent mem running
    (show (db.setNode row.key fun _ => failedRow errorClass move.step next).attempts = db.attempts from rfl)
  refine exists_bind_ok ((checkInt_eq_ok (by decide)).mpr ⟨by omega, inRange.epoch, rfl⟩) ?_
  refine exists_bind_ok label ?_
  refine exists_bind_ok ((checkInt_eq_ok (by decide)).mpr ⟨by omega, inRange.attempts row mem, rfl⟩) ?_
  refine exists_bind_ok isClass ?_
  refine exists_bind_ok signature.property ?_
  refine exists_bind_ok isChecked ?_
  refine exists_bind_ok (fence_of_current current) ?_
  refine exists_bind_ok isRunning ?_
  refine exists_bind_ok isMoved ?_
  exact exists_bind_ok isClosed ⟨_, rfl⟩

end Accepted

/-! ### One run of a task -/

/-- The events of one run of a task: whoever takes the DAG over does so for this run and is configured alike,
and nobody retries or restarts the task. -/
def DriveEvent.Within (config : OrchestratorConfig) (run : TaskRun) : DriveEvent → Prop
  | .takeOver given _ its => given = config ∧ its = run
  | .command given _ _ => given ≠ .retry ∧ given ≠ .restart
  | _ => True

structure Drive.InRun (s : Drive) (config : OrchestratorConfig) (run : TaskRun) : Prop where
  task : s.db.task.retryCount = run.retryCount
  config : ∀ worker ∈ s.workers, worker.epoch = s.db.dag.epoch → worker.config = config

/-- How far a node has come in a run: every attempt is counted on its rung, and no rung has more than its
share. -/
structure Progress (config : OrchestratorConfig) (first row : NodeRow) : Prop where
  plan : SamePlan first row
  rung : first.agentIndex ≤ row.agentIndex
  approach : first.approach ≤ row.approach
  started : first.attemptCount ≤ row.attemptCount
  counted : row.attemptCount ≤
    first.attemptCount + config.maxAttempts * (row.agentIndex - first.agentIndex) + row.rungAttempts
  share : row.rungAttempts ≤ config.maxAttempts ∨
    row.agentIndex = first.agentIndex ∧ row.attemptCount = first.attemptCount
  onLadder : row.agentIndex = first.agentIndex ∨ row.agentIndex < (config.ladders row.role).length

def DagCall.Fits (config : OrchestratorConfig) (run : TaskRun) (row : NodeRow) : DagCall → Prop
  | .acquire _ its => its = run
  | .start _ _ maxAttempts => maxAttempts = config.maxAttempts
  | .fail _ key _ _ _ step agentIndex _ =>
    key = row.key → step = .escalate → ∀ rung ∈ agentIndex, rung < (config.ladders row.role).length
  | _ => True

namespace Progress

variable {config : OrchestratorConfig} {run : TaskRun} {first row row' : NodeRow} {call : DagCall} {retryCount : ℕ}
  {attempts attempts' : List AttemptRow}

theorem refl (config : OrchestratorConfig) (row : NodeRow) : Progress config row row :=
  ⟨.refl row, le_rfl, le_rfl, le_rfl, by omega, .inr ⟨rfl, rfl⟩, .inl rfl⟩

theorem same (progress : Progress config first row) (plan : SamePlan row row') (rung : row'.agentIndex = row.agentIndex)
    (approach : row.approach ≤ row'.approach) (count : row'.attemptCount = row.attemptCount)
    (rungAttempts : row'.rungAttempts = row.rungAttempts) : Progress config first row' where
  plan := progress.plan.trans plan
  rung := rung ▸ progress.rung
  approach := progress.approach.trans approach
  started := count ▸ progress.started
  counted := by
    rw [count, rung, rungAttempts]
    exact progress.counted
  share := by
    rw [count, rung, rungAttempts]
    exact progress.share
  onLadder := by
    rw [rung, plan.role]
    exact progress.onLadder

theorem escalated (progress : Progress config first row) (plan : SamePlan row row') (higher : row.agentIndex < row'.agentIndex)
    (inside : row'.agentIndex < (config.ladders row'.role).length) (approach : row.approach ≤ row'.approach)
    (count : row'.attemptCount = row.attemptCount) (rungAttempts : row'.rungAttempts = 0) : Progress config first row' where
  plan := progress.plan.trans plan
  rung := progress.rung.trans higher.le
  approach := progress.approach.trans approach
  started := count ▸ progress.started
  counted := by
    have below := progress.rung
    have counted := progress.counted
    have more : config.maxAttempts * (row.agentIndex - first.agentIndex) + config.maxAttempts ≤
        config.maxAttempts * (row'.agentIndex - first.agentIndex) := by
      rw [← Nat.mul_succ]
      exact Nat.mul_le_mul_left _ (by omega)
    rcases progress.share with few | ⟨-, none⟩
    · omega
    · omega
  share := .inl (by omega)
  onLadder := .inr inside

theorem started_attempt (progress : Progress config first row) (left : row.rungAttempts < config.maxAttempts) :
    Progress config first (startedRow row) where
  plan := progress.plan.trans ⟨rfl, rfl, rfl, rfl, rfl⟩
  rung := progress.rung
  approach := progress.approach
  started := progress.started.trans (Nat.le_succ _)
  counted := Nat.succ_le_succ progress.counted
  share := .inl left
  onLadder := progress.onLadder

theorem reopened (progress : Progress config first row) (untouched : row.agentIndex = first.agentIndex ∧
      row.attemptCount = first.attemptCount) (plan : SamePlan row row') (rung : row'.agentIndex = row.agentIndex)
    (approach : row'.approach = row.approach) (count : row'.attemptCount = row.attemptCount)
    (rungAttempts : row'.rungAttempts = 0) : Progress config first row' where
  plan := progress.plan.trans plan
  rung := rung ▸ progress.rung
  approach := approach ▸ progress.approach
  started := count ▸ progress.started
  counted := by omega
  share := .inl (by omega)
  onLadder := .inl (rung.trans untouched.1)

/-- **Every step of a node keeps the count of its run.** -/
theorem step (progress : Progress config first row) (step : NodeStep retryCount call row attempts row' attempts')
    (fits : call.Fits config run row)
    (untouched : retryCount < run.retryCount → row.agentIndex = first.agentIndex ∧ row.attemptCount = first.attemptCount) :
    Progress config first row' := by
  have plan := step.samePlan
  cases step with
  | started ready left =>
    refine progress.started_attempt ?_
    rw [show _ = (config.maxAttempts : ℤ) from fits] at left
    exact_mod_cast left
  | @failed epoch errorClass signature step agentIndex approach move _ next _ state running checked isMoved within =>
    have moved := moved_of_eq_ok isMoved
    rcases moved.rung with ⟨sameRung, sameAttempts⟩ | ⟨higher, noAttempts⟩
    · exact progress.same plan sameRung moved.approach moved.attemptCount sameAttempts
    · obtain ⟨isEscalation, isRung⟩ := escalates_of_moved checked isMoved higher
      have inside := fits rfl isEscalation _ isRung
      refine progress.escalated plan higher ?_ moved.approach moved.attemptCount noAttempts
      show next.agentIndex < (config.ladders next.role).length
      rw [moved.plan.role]
      exact_mod_cast inside
  | reopened later wasOver isOpen =>
    obtain rfl : _ = run := fits
    exact progress.reopened (untouched later) plan rfl rfl rfl rfl
  | _ => exact progress.same plan rfl le_rfl rfl rfl

end Progress

/-! ### Every event of the run -/

section Run

variable {config : OrchestratorConfig} {run : TaskRun} {s s' : Drive} {event : DriveEvent} {db db' : DagDb}
  {call : DagCall}

theorem task_of_performed (performed : Performed db call db') : db'.task = db.task := by
  cases performed with
  | @acquire owner its =>
    show ((db.takenBy owner).reopenFor its).task = db.task
    unfold DagDb.reopenFor
    split <;> rfl
  | _ => rfl

variable {index : ℕ}

theorem mem_of_settling (known : Workers s.db s.workers) {worker : Worker} {node : NodeRow} {entry : Text × ℕ}
    {key : Text} (isWorker : s.workers[index]? = some worker) (isHolder : worker.epoch = s.db.dag.epoch)
    (isSettling : Drive.settling worker key = some (entry, node)) : node ∈ s.db.nodes := by
  obtain ⟨⟨-, isFresh⟩, -, -, isNode, -⟩ := settling_eq_some isSettling
  rw [← (known.holds worker (mem_of_getElem? isWorker) isHolder).view isFresh]
  exact isNode

theorem Drove.fits (inRun : s.InRun config run) (within : event.Within config run) (known : Workers s.db s.workers)
    (ordered : s.db.Ordered) (drove : Drove s event s') :
    (∃ call, s.db.perform call = .ok s'.db ∧ ∀ row ∈ s.db.nodes, call.Fits config run row) ∨
      ∃ task, s'.db = { s.db with task := task } ∧ task.retryCount = s.db.task.retryCount := by
  have unchanged : ∃ task, s.db = { s.db with task := task } ∧ task.retryCount = s.db.task.retryCount := ⟨_, rfl, rfl⟩
  cases drove with
  | takenOver accepted => exact .inl ⟨_, accepted, fun _ _ => within.2⟩
  | gaveUp isWorker accepted => exact .inl ⟨_, accepted, fun _ _ => trivial⟩
  | started isWorker notLaunching isNode accepted =>
    have isHolder := (epoch_of_perform accepted rfl).1
    have same := inRun.config _ (mem_of_getElem? isWorker) isHolder
    exact .inl ⟨_, accepted, fun _ _ => by rw [same]; rfl⟩
  | launched | refreshed | unsettled => exact .inr unchanged
  | @settled index worker node number finished signature answers call db isWorker isSettling isCall accepted =>
    have isHolder := (epoch_of_perform accepted (settleCall_target isCall).1).1
    have same := inRun.config _ (mem_of_getElem? isWorker) isHolder
    have mem := mem_of_settling known isWorker isHolder isSettling
    refine .inl ⟨_, accepted, fun row isRow => ?_⟩
    rcases settleCall_eq_some isCall with ⟨result, rfl⟩ | ⟨errorClass, -, rfl⟩ | ⟨failure, rfl⟩
    · trivial
    · exact fun _ isEscalation => NextStep.noConfusion isEscalation
    · intro isKey isEscalation rung isRung
      obtain rfl := ordered.eq_of_key isRow mem isKey
      have fits : (failureStep worker.config node failure answers (s.forbidden worker node.key)).Fits worker.config node :=
        failureStep_fits
      rw [same] at fits isEscalation isRung
      generalize failureStep config node failure answers (s.forbidden worker node.key) = move at fits isEscalation isRung
      obtain ⟨step, target⟩ := move
      obtain rfl : step = .escalate := isEscalation
      cases target with
      | none => cases isRung
      | some target =>
        obtain rfl := Option.some.inj isRung
        have inside := fits.1.2
        show (target.1 : ℤ) < _
        exact_mod_cast inside
  | placed isWorker accepted => exact .inl ⟨_, accepted, fun _ _ => trivial⟩
  | interrupted isWorker notLaunching accepted => exact .inl ⟨_, accepted, fun _ _ => trivial⟩
  | cancelled isWorker accepted => exact .inl ⟨_, accepted, fun _ _ => trivial⟩
  | finalized isWorker accepted => exact .inl ⟨_, accepted, fun _ _ => trivial⟩
  | @commanded command args now db accepted =>
    unfold DagDb.command at accepted
    split at accepted
    · obtain rfl := Option.some.inj accepted
      exact .inr ⟨_, rfl, if_neg within.1⟩
    · cases accepted

theorem forall_mem_set {workers : List Worker} {worker' : Worker} {P : Worker → Prop}
    (each : ∀ worker ∈ workers, P worker) (its : P worker') : ∀ worker ∈ workers.set index worker', P worker := by
  intro worker mem
  rcases mem_or_eq_of_mem_set mem with old | rfl
  · exact each worker old
  · exact its

theorem Drove.workers (drove : Drove s event s') : ∀ worker' ∈ s'.workers,
    (∃ worker ∈ s.workers, worker'.config = worker.config ∧ worker'.epoch = worker.epoch) ∨
      ∃ owner its, event = .takeOver worker'.config owner its := by
  have old : ∀ worker' ∈ s.workers, (∃ worker ∈ s.workers, worker'.config = worker.config ∧ worker'.epoch = worker.epoch) ∨
      ∃ owner its, event = .takeOver worker'.config owner its := fun worker' mem => .inl ⟨worker', mem, rfl, rfl⟩
  cases drove with
  | takenOver accepted =>
    intro worker' mem
    rcases mem_append.mp mem with kept | new
    · exact old worker' kept
    · obtain rfl := mem_singleton.mp new
      exact .inr ⟨_, _, rfl⟩
  | commanded accepted => exact old
  | gaveUp isWorker | started isWorker | launched isWorker | refreshed isWorker | unsettled isWorker | settled isWorker
  | placed isWorker | interrupted isWorker | cancelled isWorker | finalized isWorker =>
    exact forall_mem_set old (.inl ⟨_, mem_of_getElem? isWorker, rfl, rfl⟩)

theorem Drove.epoch (drove : Drove s event s') :
    s'.db.dag.epoch = s.db.dag.epoch ∨ s'.db.dag.epoch = s.db.dag.epoch + 1 ∧ ∃ config owner its, event = .takeOver config owner its := by
  cases drove with
  | takenOver accepted => exact .inr ⟨epoch_after (performed_of_perform accepted), _, _, _, rfl⟩
  | settled isWorker isSettling isCall accepted => exact .inl (epoch_of_perform accepted (settleCall_target isCall).1).2
  | launched | refreshed | unsettled => exact .inl rfl
  | gaveUp isWorker accepted | placed isWorker accepted | cancelled isWorker accepted | finalized isWorker accepted =>
    exact .inl (epoch_of_perform accepted rfl).2
  | started isWorker notLaunching isNode accepted => exact .inl (epoch_of_perform accepted rfl).2
  | interrupted isWorker notLaunching accepted => exact .inl (epoch_of_perform accepted rfl).2
  | commanded accepted =>
    unfold DagDb.command at accepted
    split at accepted
    · obtain rfl := Option.some.inj accepted
      exact .inl rfl
    · cases accepted

theorem Drive.InRun.drove (inRun : s.InRun config run) (within : event.Within config run)
    (known : Workers s.db s.workers) (ordered : s.db.Ordered) (drove : Drove s event s') : s'.InRun config run := by
  constructor
  · rcases drove.fits inRun within known ordered with ⟨call, accepted, -⟩ | ⟨task, same, sameCount⟩
    · rw [task_of_performed (performed_of_perform accepted)]
      exact inRun.task
    · rw [same]
      exact sameCount.trans inRun.task
  · intro worker' mem isHolder
    rcases drove.workers worker' mem with ⟨worker, isWorker, sameConfig, sameEpoch⟩ | ⟨owner, its, rfl⟩
    · have bounds := known.epochs worker isWorker
      rcases drove.epoch with kept | ⟨raised, -⟩
      · rw [sameConfig]
        exact inRun.config worker isWorker (by omega)
      · omega
    · exact within.1

/-- What a node has not done in a run that has not taken the DAG over yet. -/
def Untouched (first row : NodeRow) : Prop :=
  row.agentIndex = first.agentIndex ∧ row.attemptCount = first.attemptCount

theorem NodeStep.untouched {retryCount : ℕ} {row row' : NodeRow} {attempts attempts' : List AttemptRow}
    (step : NodeStep retryCount call row attempts row' attempts') (notOfRun : call.isOfRun = false) :
    row'.agentIndex = row.agentIndex ∧ row'.attemptCount = row.attemptCount := by
  cases step with
  | started | failed => cases notOfRun
  | _ => exact ⟨rfl, rfl⟩

theorem notYet_of_performed {row : NodeRow} (performed : Performed db call db') (isTask : db.task.retryCount = run.retryCount)
    (fits : call.Fits config run row) (notYet : db'.dag.taskRetryCount < run.retryCount) :
    db.dag.taskRetryCount < run.retryCount ∧ call.isOfRun = false := by
  cases performed with
  | @acquire owner its sameAttempt notCancelled =>
    obtain rfl : its = run := fits
    exfalso
    have after : ((db.takenBy owner).reopenFor its).dag.taskRetryCount < its.retryCount := notYet
    unfold DagDb.reopenFor at after
    split at after
    · exact lt_irrefl _ after
    case isFalse already => exact already after
  | interrupt | cancel | cancelEnded => exact ⟨notYet, rfl⟩
  | start current | complete current | fail current | giveUp current | place current | finalize current =>
    have same := current.retryCount
    have notYet : db.dag.taskRetryCount < run.retryCount := notYet
    omega

structure RunSoFar (config : OrchestratorConfig) (run : TaskRun) (start s : Drive) : Prop where
  reachable : driving.Reachable s
  inRun : s.InRun config run
  nodes : ∀ first ∈ start.db.nodes, ∃ row ∈ s.db.nodes, Progress config first row ∧
    (s.db.dag.taskRetryCount < run.retryCount → Untouched first row)

/-- **Every event of the run keeps the count of every node.** -/
theorem RunSoFar.step {start : Drive} (soFar : RunSoFar config run start s) (within : event.Within config run)
    (taken : driving.step s event = some s') : RunSoFar config run start s' := by
  have drove := drove_of_step taken
  have known := workers_of_reachable soFar.reachable
  have ordered := (consistent_of_reachable (dagStore_reachable soFar.reachable)).ordered
  refine ⟨soFar.reachable.next taken, soFar.inRun.drove within known ordered drove, fun first isFirst => ?_⟩
  obtain ⟨row, mem, progress, untouched⟩ := soFar.nodes first isFirst
  rcases drove.fits soFar.inRun within known ordered with ⟨call, accepted, fits⟩ | ⟨task, same, -⟩
  · have performed := performed_of_perform accepted
    obtain ⟨change, rows, each⟩ := nodeSteps_of_performed ordered performed
    refine ⟨change row, rows ▸ mem_map_of_mem mem, progress.step (each row mem) (fits row mem) untouched, ?_⟩
    intro notYet
    obtain ⟨before, notOfRun⟩ := notYet_of_performed performed soFar.inRun.task (fits row mem) notYet
    obtain ⟨sameRung, sameCount⟩ := (each row mem).untouched notOfRun
    exact ⟨sameRung.trans (untouched before).1, sameCount.trans (untouched before).2⟩
  · rw [same]
    exact ⟨row, mem, progress, untouched⟩

theorem Progress.bound {first row : NodeRow} (progress : Progress config first row) :
    row.attemptCount ≤ first.attemptCount + config.maxAttempts * config.rungsFrom row.role first.agentIndex := by
  have ladder := (config.ladder_length row.role).1
  have below := progress.rung
  have counted := progress.counted
  rcases progress.share with few | ⟨-, none⟩
  · have rungs : row.agentIndex - first.agentIndex + 1 ≤ config.rungsFrom row.role first.agentIndex := by
      unfold OrchestratorConfig.rungsFrom
      rcases progress.onLadder with same | inside
      · omega
      · omega
    have fits := Nat.mul_le_mul_left config.maxAttempts rungs
    rw [Nat.mul_add, Nat.mul_one] at fits
    omega
  · omega

theorem length_attemptsOf (consistent : Consistent db) {row : NodeRow} (mem : row ∈ db.nodes) :
    (db.attemptsOf row.key).length = row.attemptCount := by
  rw [← length_map (f := AttemptRow.number), (consistent.rows row mem).numbers, length_range']

theorem asked_eq_some (isAsked : s.asked event = some call) :
    ∃ (index : ℕ) (worker : Worker) (node : NodeRow) (number : ℕ) (finished : Finished) (signature : Signature) (answers : Answers),
      s.workers[index]? = some worker ∧ Drive.settling worker node.key = some ((node.key, number), node) ∧
      settleCall worker.config worker.epoch node number finished signature answers (s.forbidden worker node.key) = some call := by
  cases event with
  | settle index key finished signature answers =>
    obtain ⟨worker, isWorker, isAsked⟩ := Option.bind_eq_some_iff.mp isAsked
    obtain ⟨⟨⟨entryKey, number⟩, node⟩, isSettling, isCall⟩ := Option.bind_eq_some_iff.mp isAsked
    obtain ⟨-, -, isEntry, -, isNode⟩ := settling_eq_some isSettling
    obtain rfl : entryKey = key := isEntry
    obtain rfl : node.key = entryKey := isNode
    exact ⟨index, worker, node, number, finished, signature, answers, isWorker, isSettling, isCall⟩
  | _ => cases isAsked

theorem row_of_settling (known : Workers s.db s.workers) (ordered : s.db.Ordered) (active : s.db.dag.state = .active)
    {worker : Worker} {node : NodeRow} {number : ℕ} (isWorker : s.workers[index]? = some worker)
    (isHolder : worker.epoch = s.db.dag.epoch)
    (isSettling : Drive.settling worker node.key = some ((node.key, number), node)) :
    node ∈ s.db.nodes ∧ node.state = .running ∧ node.attemptCount = number ∧
      checkLabel "key" node.key 32 = .ok () := by
  have holds := known.holds worker (mem_of_getElem? isWorker) isHolder
  have mem := mem_of_settling known isWorker isHolder isSettling
  obtain ⟨-, isEntry, -⟩ := settling_eq_some isSettling
  have isHeld : (node.key, number) ∈ worker.held := mem_append_right _ isEntry
  obtain ⟨row, isRow, isKey, running, count⟩ := holds.runs active _ isHeld
  obtain rfl := ordered.eq_of_key mem isRow isKey
  exact ⟨mem, running, count, holds.checked _ isHeld⟩

/-- **No step a worker asks for is refused**: while it has the DAG and the run is current, the outcome is
written. -/
theorem asked_accepted (reach : driving.Reachable s) (isAsked : s.asked event = some call)
    (presents : call.epoch = some (s.db.dag.epoch : ℤ)) (current : s.db.Current) (inRange : s.db.InRange) :
    ∃ after, s.db.perform call = .ok after := by
  have known := workers_of_reachable reach
  have consistent := consistent_of_reachable (dagStore_reachable reach)
  obtain ⟨index, worker, node, number, finished, signature, answers, isWorker, isSettling, isCall⟩ := asked_eq_some isAsked
  have isHolder : worker.epoch = s.db.dag.epoch := by
    have same := (settleCall_target isCall).1.symm.trans presents
    exact_mod_cast Option.some.inj same
  have taken := (known.epochs worker (mem_of_getElem? isWorker)).1
  obtain ⟨mem, running, rfl, label⟩ := row_of_settling known consistent.ordered current.active isWorker isHolder isSettling
  have bounds := inBounds_of_reachable (dagStore_reachable reach) node mem
  rw [isHolder] at isCall taken
  rcases settleCall_eq_some isCall with ⟨result, rfl⟩ | ⟨errorClass, isClass, rfl⟩ | ⟨failure, rfl⟩
  · exact complete_accepted consistent current inRange taken mem running label result
  · have checks : ∀ errorClass ∈ [lit "BudgetExceeded", lit "Stopped"],
        checkLabel "error_class" errorClass maxErrorClassChars = .ok () := by decide
    have fits : NodeMove.Fits worker.config node ⟨.hold, none⟩ := trivial
    exact fail_accepted consistent current inRange taken mem running label (checks errorClass isClass) signature fits
      bounds
  · exact fail_accepted consistent current inRange taken mem running label (checkLabel_formatErrorClass _) signature
      failureStep_fits bounds

/-- **An escalation goes up the ladder.** -/
theorem asked_escalates (reach : driving.Reachable s) (inRun : s.InRun config run) (isAsked : s.asked event = some call)
    {key errorClass signature : Text} {number : ℤ} {rung approach : Option ℤ}
    (isCall : call = .fail s.db.dag.epoch key number errorClass signature .escalate rung approach) :
    ∃ row ∈ s.db.nodes, row.key = key ∧
      ∃ next : ℕ, rung = some (next : ℤ) ∧ row.agentIndex < next ∧ next < (config.ladders row.role).length := by
  have known := workers_of_reachable reach
  obtain ⟨index, worker, node, _, finished, _, answers, isWorker, isSettling, settles⟩ := asked_eq_some isAsked
  have isHolder : worker.epoch = s.db.dag.epoch := by
    have same := (settleCall_target settles).1
    rw [isCall] at same
    exact_mod_cast (Option.some.inj same).symm
  have mem := mem_of_settling known isWorker isHolder isSettling
  have same := inRun.config worker (mem_of_getElem? isWorker) isHolder
  have fits : ∀ failure : Failure, (failureStep config node failure answers (s.forbidden worker node.key)).Fits config node :=
    fun _ => failureStep_fits
  rw [same] at settles
  rcases settleCall_eq_some settles with ⟨result, rfl⟩ | ⟨_, -, rfl⟩ | ⟨failure, rfl⟩
  · cases isCall
  · unfold failCall at isCall
    injection isCall with _ _ _ _ _ isStep
    cases isStep
  · have its := fits failure
    generalize failureStep config node failure answers (s.forbidden worker node.key) = move at its isCall
    obtain ⟨step, target⟩ := move
    unfold failCall at isCall
    injection isCall with _ isKey _ _ _ isStep isRung _
    obtain rfl : step = .escalate := isStep
    cases target with
    | none => exact absurd its id
    | some target => exact ⟨node, mem, isKey, target.1, isRung.symm, its.1⟩

/-- **A node cannot be retried for ever.** In one run of a task a node starts at most `maxAttempts` attempts on
each rung of its ladder from the one it is on; its rung and its approach never decrease, and the approach stays
within what the loop detector takes. Every escalation goes to a higher rung, and no outcome that a worker
which has the DAG reports of a current run is refused. -/
theorem retries_bounded {start : Drive} {events : List DriveEvent} (reach : driving.Reachable start)
    (inRun : start.InRun config run) (within : ∀ event ∈ events, event.Within config run)
    (ran : driving.run start events = some s) :
    (∀ first ∈ start.db.nodes, ∃ row ∈ s.db.nodes, row.key = first.key ∧
      (s.db.attemptsOf row.key).length ≤
        (start.db.attemptsOf row.key).length + config.maxAttempts * config.rungsFrom row.role first.agentIndex ∧
      first.agentIndex ≤ row.agentIndex ∧ first.approach ≤ row.approach ∧ row.approach ≤ maxApproach) ∧
    ∀ event call, s.asked event = some call → call.epoch = some (s.db.dag.epoch : ℤ) →
      (∀ key number errorClass signature rung approach,
        call = .fail s.db.dag.epoch key number errorClass signature .escalate rung approach →
        ∃ row ∈ s.db.nodes, row.key = key ∧
          ∃ next : ℕ, rung = some (next : ℤ) ∧ row.agentIndex < next ∧ next < (config.ladders row.role).length) ∧
      (s.db.Current → s.db.InRange → ∃ after, s.db.perform call = .ok after) := by
  have soFar : RunSoFar config run start s := by
    refine Machine.run_preserves (M := driving) (P := RunSoFar config run start) ⟨reach, inRun, fun first isFirst => ?_⟩
      (fun _ _ _ fits soFar taken => soFar.step fits taken) within ran
    exact ⟨first, isFirst, .refl config first, fun _ => ⟨rfl, rfl⟩⟩
  refine ⟨fun first isFirst => ?_, fun event call isAsked presents => ⟨?_, asked_accepted soFar.reachable isAsked presents⟩⟩
  · obtain ⟨row, member, progress, -⟩ := soFar.nodes first isFirst
    have store := dagStore_reachable soFar.reachable
    refine ⟨row, member, progress.plan.key, ?_, progress.rung, progress.approach, (inBounds_of_reachable store row member).approach⟩
    rw [length_attemptsOf (consistent_of_reachable store) member, progress.plan.key,
      length_attemptsOf (consistent_of_reachable (dagStore_reachable reach)) isFirst]
    exact progress.bound
  · intro key number errorClass signature rung approach isCall
    exact asked_escalates soFar.reachable soFar.inRun isAsked isCall

end Run

/-- **A DAG is never stuck.** While it is active and of the task's current run, one of its nodes is ready or running, or the
worker that has it can close it: then no node is left open, and it succeeds exactly with all that it requires. -/
theorem dag_never_stuck {db : DagDb} (reach : dagStore.Reachable db) (current : db.Current) (taken : 1 ≤ db.dag.epoch)
    (inRange : db.InRange) :
    (∃ row ∈ db.nodes, row.state = .ready ∨ row.state = .running) ∨
      ∃ after, db.perform (.finalize db.dag.epoch) = .ok after ∧ after.dag.state ≠ .active ∧ NoWorkLeft after ∧
        (after.dag.state = .succeeded ↔ ∀ row ∈ after.nodes, row.required = true → row.state = .succeeded) := by
  have consistent := consistent_of_reachable reach
  by_cases ended : dagVerdict db.views = .active
  · obtain ⟨view, isView, active⟩ := dagVerdict_eq_active_iff.mp ended
    obtain ⟨row, isRow, rfl⟩ := mem_map.mp isView
    exact .inl ⟨row, isRow, active⟩
  · have closed := closed_finalized consistent current.active ended
    refine .inr ⟨_, ?_, closedAs_ne_active ended, closed.noWorkLeft, closed.noWorkLeft.succeeded, fun all => ?_⟩
    · refine bind_eq_ok.mpr ⟨db.dag.epoch, (checkInt_eq_ok (by decide)).mpr ⟨by omega, inRange.epoch, rfl⟩, ?_⟩
      exact bind_eq_ok.mpr ⟨(), fence_of_current current, check_eq_ok.mpr ⟨ended, rfl⟩⟩
    · have succeeded : dagVerdict db.views = .succeeded := (dagVerdict_eq_succeeded_iff ended).mpr (forall_mem_map.mpr all)
      exact congrArg DagDb.closedAs succeeded

theorem finishedWork_not_stuck :
    ∃ db after, dagStore.Reachable db ∧ db.perform (.finalize db.dag.epoch) = .ok after ∧ after.dag.state ≠ .active ∧
      NoWorkLeft after := by
  obtain ⟨db, ran, holds⟩ := exists_of_run_any workAndCheckDag
    (.call (.acquire (lit "w1") TaskRun.first) :: succeedsWithoutCheck.dropLast)
    (fun db => decide ((∀ row ∈ db.nodes, row.state.isOpen = false ∧ row.state ≠ .running ∧ row.attemptCount ≤ 1) ∧
      db.dag.state = .active ∧ db.task.attempt = db.dag.attempt ∧ db.task.retryCount = db.dag.taskRetryCount ∧
      isEnded db.task.state = false ∧ db.dag.epoch = 1)) (by decide)
  obtain ⟨rows, active, attempt, retryCount, notEnded, epoch⟩ := of_decide_eq_true holds
  have reach := (Machine.Reachable.start workAndCheckDag_initial).run ran
  have inRange : db.InRange :=
    ⟨by rw [epoch]; decide, fun row isRow => (Int.ofNat_le.mpr (rows row isRow).2.2).trans (by decide)⟩
  have idle : ¬∃ row ∈ db.nodes, row.state = .ready ∨ row.state = .running := by
    rintro ⟨row, isRow, ready | running⟩
    · exact absurd (rows row isRow).1 (by rw [ready]; decide)
    · exact (rows row isRow).2.1 running
  obtain ⟨after, performed, closed, noWorkLeft, -⟩ :=
    (dag_never_stuck reach ⟨active, attempt, retryCount, notEnded⟩ epoch.ge inRange).resolve_left idle
  exact ⟨db, after, reach, performed, closed, noWorkLeft⟩

/-! ### A run that escalates -/

def bothAgents : List Text := [lit "claude", lit "codex"]

theorem bothAgents_ne_nil : bothAgents ≠ [] := by decide

theorem bothAgents_nodup : bothAgents.Nodup := by decide

theorem bothAgents_length : 1 ≤ bothAgents.length ∧ bothAgents.length ≤ maxLadderLength := by decide

theorem two_attempts : 1 ≤ 2 ∧ 2 ≤ maxAttemptsPerRung := by decide

def twoRungs : OrchestratorConfig where
  ladders _ := bothAgents
  maxAttempts := 2
  assigned _ := ⟨bothAgents, none, bothAgents_ne_nil, bothAgents_nodup,
    fun agent isDefault => absurd isDefault (Option.not_mem_none agent)⟩
  ladder_length _ := bothAgents_length
  ladder_distinct _ := bothAgents_nodup
  maxAttempts_bound := two_attempts
  assigned_mem _ _ member := member

def workDrive : Drive := ⟨workAndCheckDag, [], []⟩

theorem zeroSignature_checked : checkSignature (List.replicate 64 48) = .ok () := by decide

/-- The first attempt of the node fails, and the loop detector asks for another agent. -/
def escalatesWork : List DriveEvent :=
  [.takeOver twoRungs (lit "w1") TaskRun.first, .dispatch 0 (lit "work"), .launch 0, .refresh 0,
   .settle 0 (lit "work") (.failed ⟨lit "ToolError", true, false⟩) ⟨List.replicate 64 48, zeroSignature_checked⟩
     ⟨.escalate, [], []⟩,
   .dispatch 0 (lit "work")]

theorem escalatesWork_within : ∀ event ∈ escalatesWork, event.Within twoRungs TaskRun.first := by
  simp [escalatesWork, DriveEvent.Within]

theorem escalatesWork_bounded :
    ∃ s, driving.run workDrive escalatesWork = some s ∧ s.db.nodes.any (fun row => row.agentIndex = 1) = true ∧
      ∀ first ∈ workDrive.db.nodes, ∃ row ∈ s.db.nodes, row.key = first.key ∧
        (s.db.attemptsOf row.key).length ≤
          (workDrive.db.attemptsOf row.key).length + 2 * twoRungs.rungsFrom row.role first.agentIndex := by
  obtain ⟨s, ran, escalated⟩ := (Option.any_eq_true _ _).mp
    (show (driving.run workDrive escalatesWork).any (fun s => s.db.nodes.any fun row => row.agentIndex = 1) = true by
      decide)
  have inRun : workDrive.InRun twoRungs TaskRun.first := ⟨rfl, fun _ member => absurd member not_mem_nil⟩
  obtain ⟨bounded, -⟩ := retries_bounded (.start ⟨workAndCheckDag_initial, rfl, rfl⟩) inRun escalatesWork_within ran
  refine ⟨s, ran, escalated, fun first isFirst => ?_⟩
  obtain ⟨row, member, isKey, few, -⟩ := bounded first isFirst
  exact ⟨row, member, isKey, few⟩

end PawBackend.Orchestrator
