/-
**No reservation leaks from a request** (`tools/broker.py`: `ToolBroker.request`).

What the use gate hands out is remembered at once, so whatever a request is interrupted by, the list beside it holds
every reservation of the run.
-/

import PawBackend.Tools.Justification

namespace PawBackend.Tools

open Lib Lib.Text Lib.Action List

variable {py : Platform}

/-! ### The list of reservations -/

/-- What was reserved is remembered, in its order. -/
def Tracks (s : List Uuid) (exchanges : Exchanges py) (s' : List Uuid) : Prop := s' = s ++ obtained exchanges

theorem tracks_composes : Composes (@Tracks py) where
  nil s := (append_nil s).symm
  append := by
    rintro s before mid after s' rfl rfl
    exact (append_assoc ..).trans (congrArg _ (obtained_append ..).symm)

theorem tracks_of_quiet {α : Type} {x : Asks py α} (quiet : Always Quiet x) : Always Tracks x := by
  intro s exchanges outcome s' runs
  obtain ⟨nothing, rfl⟩ := quiet runs
  show s' = s' ++ obtained exchanges
  rw [nothing, append_nil]

section Tracks

variable (asked : Asked py) (classification : Classification) (level : ApprovalLevel) (broker : ToolBroker)

theorem tracks_admitUse : Always Tracks (admitUse asked classification) := by
  unfold admitUse
  by_cases untouched : classification.repositories = []
  · rw [if_pos untouched]
    exact tracks_composes.pure _
  · -- Between the answer of the gate and the note of it nothing is waited for.
    rw [if_neg untouched]
    intro s exchanges outcome s' runs
    rcases runs_bind.mp runs with ⟨answer, mid, before, after, rfl, isAnswer, rest⟩ | ⟨failure, -, fails⟩ |
      ⟨-, interrupted⟩
    · obtain ⟨rfl, rfl⟩ := returns_attempt_ask.mp isAnswer
      split at rest
      · obtain ⟨rfl, -, rfl⟩ := runs_pure.mp rest
        exact (append_nil _).symm
      · obtain ⟨rfl, -, rfl⟩ := runs_pure.mp rest
        exact (append_nil _).symm
      · rcases runs_bind.mp rest with ⟨_, mid', before, after, rfl, notes, ends⟩ | ⟨failure, -, fails⟩ | ⟨-, fails⟩
        · obtain ⟨rfl, -, rfl⟩ := runs_modify.mp notes
          obtain ⟨rfl, -, rfl⟩ := runs_pure.mp ends
          rfl
        · cases (runs_modify.mp fails).2.1
        · cases (runs_modify.mp fails).2.1
    · rcases runs_attempt.mp fails with ⟨_, wrong, -⟩ | ⟨_, wrong, -⟩ | ⟨wrong, -⟩
      · cases wrong
      · cases wrong
      · cases wrong
    · rcases runs_attempt.mp interrupted with ⟨_, wrong, -⟩ | ⟨_, wrong, -⟩ | ⟨-, asks⟩
      · cases wrong
      · cases wrong
      · obtain ⟨rfl, rfl⟩ := runs_ask.mp asks
        exact (append_nil _).symm

theorem tracks_decideAuto : Always Tracks (ToolBroker.decideAuto asked classification level) := by
  refine tracks_composes.bind (tracks_of_quiet (quiet_workingSetTaskDenial _)) fun refusal => ?_
  split
  · exact tracks_composes.pure _
  · refine tracks_composes.bind (tracks_admitUse _ _) fun use => ?_
    split
    · exact tracks_composes.pure _
    · exact tracks_composes.pure _

theorem tracks_applyGrant (pattern : GrantPattern) :
    Always Tracks (ToolBroker.applyGrant asked classification level pattern) := by
  refine tracks_composes.bind (tracks_of_quiet (quiet_wait fun _ => rfl).attempt) fun answer => ?_
  split
  · exact tracks_composes.pure _
  · refine tracks_composes.bind (tracks_of_quiet (quiet_firstGrant _ _ _)) fun found => ?_
    split
    · exact tracks_composes.pure _
    · refine tracks_composes.bind (tracks_admitUse _ _) fun use => ?_
      split
      · exact tracks_composes.pure _
      · exact tracks_of_quiet (quiet_useGrant _ _ _ _)

theorem tracks_decideAsking : Always Tracks (broker.decideAsking asked classification level) := by
  refine tracks_composes.bind (tracks_of_quiet (quiet_patternOf _ _ _ _)) fun pattern => ?_
  split
  · exact tracks_of_quiet (quiet_openApproval _ _ _ _)
  · refine tracks_composes.bind (tracks_applyGrant _ _ _ _) fun result => ?_
    split
    · exact tracks_composes.pure _
    · exact tracks_of_quiet (quiet_openApproval _ _ _ _)

theorem tracks_decideApproved (id : Uuid) : Always Tracks (broker.decideApproved asked classification level id) := by
  refine tracks_composes.bind (tracks_admitUse _ _) fun use => ?_
  split
  · exact tracks_composes.pure _
  · refine tracks_composes.bind (tracks_of_quiet (quiet_consumeApproval _ _ _ _ _)) fun decision => ?_
    split_ifs
    · exact tracks_composes.bind (tracks_of_quiet (quiet_releaseAny _ _)) fun _ => tracks_composes.pure _
    · exact tracks_composes.pure _

theorem tracks_decideLevel (approvalId : Option Uuid) :
    Always Tracks (broker.decideLevel asked classification level approvalId) := by
  unfold ToolBroker.decideLevel
  split_ifs
  · exact tracks_decideAuto _ _ _
  · refine tracks_composes.bind (tracks_of_quiet (quiet_taskDenial _)) fun refusal => ?_
    split
    · exact tracks_composes.pure _
    · split
      · exact tracks_decideAsking _ _ _ _
      · exact tracks_decideApproved _ _ _ _ _

theorem tracks_evaluateClassified (approvalId : Option Uuid) :
    Always Tracks (broker.evaluateClassified asked classification approvalId) := by
  unfold ToolBroker.evaluateClassified
  dsimp only
  split_ifs
  · split
    · exact tracks_composes.pure _
    · exact tracks_composes.bind (tracks_composes.orRaise _ _) fun _ => tracks_composes.pure _
  · refine tracks_composes.bind (tracks_of_quiet (quiet_authorizationDenial _ _)) fun denial => ?_
    split
    · exact tracks_composes.pure _
    · refine tracks_composes.bind (tracks_of_quiet (quiet_requiredBudgetDenial _)) fun exceeded => ?_
      split
      · exact tracks_composes.pure _
      · refine tracks_composes.bind (tracks_of_quiet (quiet_leaseDenial _)) fun lost => ?_
        split
        · exact tracks_composes.pure _
        · exact tracks_decideLevel _ _ _ _ _

theorem tracks_evaluateParsed (approvalId : Option Uuid) : Always Tracks (broker.evaluateParsed asked approvalId) := by
  refine tracks_composes.bind (tracks_of_quiet (quiet_classifyAsking _).attempt) fun attempted => ?_
  split
  · exact tracks_evaluateClassified _ _ _ _
  · exact tracks_composes.pure _
  · exact tracks_composes.raise _

theorem tracks_decided (call : ToolCall py) (correlationId : Uuid) (approval : Option (Option Uuid)) :
    Always Tracks (broker.decided call correlationId approval) := by
  refine tracks_composes.bind ?_ fun decision => tracks_of_quiet (quiet_audited _ _)
  unfold ToolBroker.evaluate
  split_ifs
  · exact tracks_composes.pure _
  · split
    · exact tracks_composes.pure _
    · split_ifs
      · exact tracks_composes.pure _
      · split
        · exact tracks_composes.pure _
        · exact tracks_composes.raise _
        · exact tracks_evaluateParsed _ _ _

end Tracks

/-! ### Releases -/

theorem released_of_releaseAll {context : TaskContext py} {admitted : List Uuid} {exchanges : Exchanges py}
    (ends : (ToolBroker.releaseAll context admitted).Ends exchanges ()) {id : Uuid} (listed : id ∈ admitted) :
    ∃ reply, ⟨.releaseRepositoryUse context.taskId id, reply⟩ ∈ exchanges := by
  induction admitted generalizing exchanges with
  | nil => cases listed
  | cons first others ih =>
    obtain ⟨_, before, after, rfl, isFirst, rest⟩ := Program.ends_bind.mp ends
    rcases mem_cons.mp listed with rfl | listed
    · obtain ⟨reply, tail, rfl, -⟩ := Program.ends_ask.mp isFirst
      exact ⟨reply, mem_append_left _ mem_cons_self⟩
    · obtain ⟨reply, mem⟩ := ih rest listed
      exact ⟨reply, mem_append_right _ mem⟩

theorem quiet_releaseAll {context : TaskContext py} {admitted : List Uuid} {exchanges : Exchanges py}
    (ends : (ToolBroker.releaseAll context admitted).Ends exchanges ()) : obtained exchanges = [] := by
  induction admitted generalizing exchanges with
  | nil =>
    obtain ⟨rfl, -⟩ := Program.ends_done.mp ends
    rfl
  | cons first others ih =>
    obtain ⟨_, before, after, rfl, isFirst, rest⟩ := Program.ends_bind.mp ends
    obtain ⟨reply, tail, rfl, done⟩ := Program.ends_ask.mp isFirst
    obtain ⟨rfl, -⟩ := Program.ends_done.mp done
    rw [obtained_append, ih rest]
    rfl

section Request

variable {broker : ToolBroker} {given : Option (ToolCall py)} {approval : Option (Option Uuid)}
  {exchanges : Exchanges py} {outcome : Outcome Failure (BrokerDecision py)}

/-- However a request ends, each reservation it was given is the one of the call it allows, or was then passed
back to the gate. A decision that does not allow the call carries none. -/
theorem reservation_not_leaked (ends : (broker.request given approval).Ends exchanges outcome) :
    (∀ id ∈ obtained exchanges,
      (∃ decision, outcome = .returned decision ∧ decision.verdict = .allow ∧ decision.reservationId = some id) ∨
        ∃ call, given = some call ∧ ReleasedAfter call.context.taskId exchanges id) ∧
    ∀ decision, outcome = .returned decision → decision.verdict ≠ .allow → decision.reservationId = none := by
  rcases request_ends ends with ⟨call, correlationId, before, after, rfl, rfl, quiet, isIts⟩ | ⟨nothing, withheld⟩
  · rw [obtained_append, quiet, nil_append]
    obtain ⟨body, tail, admitted, rfl, ⟨made, admitted', decides, settles⟩ | ⟨other, interrupted, releases⟩⟩ :=
      requestWith_ends isIts
    · have kept := (decided_returns decides).2
      rcases settle_runs settles with ⟨allowed, rfl, rfl⟩ | ⟨refused, withheld, passed, nothing⟩
      · rw [append_nil]
        refine ⟨fun id isGiven => ?_, ?_⟩
        · rcases kept id isGiven with isIts | released
          · exact .inl ⟨made, rfl, allowed, isIts⟩
          · exact .inr ⟨call, rfl, released.right before⟩
        · rintro decision ⟨⟩ refused
          exact absurd allowed refused
      · rw [obtained_append, nothing, append_nil]
        refine ⟨fun id isGiven => .inr ⟨call, rfl, ReleasedAfter.right ?_ before⟩,
          fun decision isIt _ => (withheld decision isIt).no_reservation⟩
        rcases kept id isGiven with isIts | released
        · obtain ⟨reply, member⟩ := passed id isIts
          exact ⟨body, tail, reply, rfl, isGiven, member⟩
        · exact released.left tail
    · have listed : admitted = obtained body := tracks_decided _ _ _ _ interrupted
      refine ⟨fun id isGiven => .inr ⟨call, rfl, ReleasedAfter.right ?_ before⟩,
        fun decision isIt => absurd isIt (other decision)⟩
      have nothing : obtained tail = [] := quiet_releaseAll releases
      rw [obtained_append, nothing, append_nil] at isGiven
      obtain ⟨reply, member⟩ := released_of_releaseAll releases (listed ▸ isGiven)
      exact ⟨body, tail, reply, rfl, isGiven, member⟩
  · exact ⟨fun id isGiven => absurd isGiven (by rw [nothing]; exact not_mem_nil),
      fun decision isIt _ => (withheld decision isIt).no_reservation⟩

end Request

/-- Collaborators that allow, and an audit sink that stores nothing. -/
def unrecording : (question : Question Platform.ascii) → Outcome Failure question.Reply
  | .record _ => .raised .other
  | question => willing question

/-- A write that cannot be recorded passes back what was reserved for it. -/
theorem writeCall_released : ∃ exchanges decision,
    (writingBroker.request (some writeCall) none).Ends exchanges (.returned decision) ∧ 8 ∈ obtained exchanges ∧
      decision.reservationId = none ∧ ∃ call, some writeCall = some call ∧
        ReleasedAfter call.context.taskId exchanges 8 := by
  have runs : ((writingBroker.request (some writeCall) none).run unrecording).2.any
      (fun decision => decide (decision.verdict = .deny)) = true := by decide
  have given : 8 ∈ obtained ((writingBroker.request (some writeCall) none).run unrecording).1 := by decide
  have ends := Program.ends_run unrecording (writingBroker.request (some writeCall) none)
  obtain ⟨decision, isDecision, holds⟩ := Outcome.exists_of_any runs
  have denied : decision.verdict = .deny := of_decide_eq_true holds
  rw [isDecision] at ends
  obtain ⟨kept, none⟩ := reservation_not_leaked ends
  refine ⟨_, decision, ends, given, none decision rfl (by rw [denied]; decide), ?_⟩
  rcases kept 8 given with ⟨other, same, allowed, -⟩ | released
  · cases same
    rw [denied] at allowed
    cases allowed
  · exact released

end PawBackend.Tools
