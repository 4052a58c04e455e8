/-
**An allowed call is justified** (`tools/broker.py`).

The end of a decision, from the level on: a call is let go on by the use gate and, where a human is needed,
by an approval that was used for it or by a grant that covers it. From there back to the whole request.
-/

import PawBackend.Tools.BrokerRuns
import PawBackend.Tools.Summaries

namespace PawBackend.Tools

open Lib Lib.Text Lib.Action List
open Authz (Decision)
open Tasks (marksChanged QueueLease checkEntryId checkWorkerId checkClaimCount)

variable {py : Platform}

/-! ### The use gate -/

/-- The gate let the call use every repository it touches, and this is the reservation for it. -/
structure Admitted (asked : Asked py) (classification : Classification) (exchanges : Exchanges py)
    (reservation : Option Uuid) : Prop where
  told : classification.repositories ≠ [] →
    Told exchanges (.admitRepositoryUse asked.context.taskId asked.context.run classification.repositories
      asked.spec.authzCapability asked.executes) reservation
  reserved : classification.repositories ≠ [] → marksChanged asked.spec.authzCapability asked.executes = true →
    reservation.isSome = true
  held : ∀ id ∈ obtained exchanges, reservation = some id

section Parts

variable {s s' : List Uuid} {exchanges before after : Exchanges py} {asked : Asked py}
  {classification : Classification} {level : ApprovalLevel} {decision : BrokerDecision py}
  {reservation : Option Uuid}

namespace Admitted

theorem mono (admitted : Admitted asked classification before reservation) (within : before ⊆ exchanges)
    (same : obtained exchanges = obtained before) : Admitted asked classification exchanges reservation where
  told touches := (admitted.told touches).mono within
  reserved := admitted.reserved
  held id mem := admitted.held id (same ▸ mem)

theorem left (admitted : Admitted asked classification before reservation) (quiet : obtained after = []) :
    Admitted asked classification (before ++ after) reservation :=
  admitted.mono (subset_append_left _ _) (by rw [obtained_append, quiet, append_nil])

theorem right (admitted : Admitted asked classification after reservation) (quiet : obtained before = []) :
    Admitted asked classification (before ++ after) reservation :=
  admitted.mono (subset_append_right _ _) (by rw [obtained_append, quiet, nil_append])

end Admitted

theorem admitUse_returns {refusal : Option BrokerReason}
    (runs : Runs (admitUse asked classification) s exchanges (.returned (refusal, reservation)) s') :
    (∃ reason, refusal = some reason ∧ obtained exchanges = []) ∨
      refusal = none ∧ Admitted asked classification exchanges reservation := by
  unfold admitUse at runs
  split_ifs at runs with untouched
  · obtain ⟨rfl, same, -⟩ := returns_pure.mp runs
    cases same
    exact .inr ⟨rfl, fun touches => absurd untouched touches, fun touches => absurd untouched touches,
      fun id mem => absurd mem not_mem_nil⟩
  · obtain ⟨answer, mid, before, after, rfl, isAnswer, rest⟩ := returns_bind.mp runs
    obtain ⟨rfl, rfl⟩ := returns_attempt_ask.mp isAnswer
    split at rest
    · obtain ⟨rfl, same, -⟩ := returns_pure.mp rest
      cases same
      exact .inl ⟨_, rfl, rfl⟩
    · obtain ⟨rfl, same, -⟩ := returns_pure.mp rest
      cases same
      by_cases changes : marksChanged asked.spec.authzCapability asked.executes = true
      · exact .inl ⟨_, if_pos changes, rfl⟩
      · exact .inr ⟨if_neg changes, fun _ => mem_cons_self, fun _ other => absurd other changes,
          fun id mem => absurd mem not_mem_nil⟩
    · rename_i id
      obtain ⟨_, mid', before, after, rfl, isKept, ends⟩ := returns_bind.mp rest
      obtain ⟨rfl, same, -⟩ := returns_pure.mp ends
      obtain ⟨rfl, -, -⟩ := runs_modify.mp isKept
      cases same
      refine .inr ⟨rfl, fun _ => mem_cons_self, fun _ _ => rfl, fun other mem => ?_⟩
      exact congrArg some (mem_singleton.mp mem).symm

def Passed (context : TaskContext py) (reservation : Option Uuid) (exchanges : Exchanges py) : Prop :=
  ∀ id, reservation = some id → ∃ reply, ⟨.releaseRepositoryUse context.taskId id, reply⟩ ∈ exchanges

variable {context : TaskContext py} {id : Uuid} {grant : TaskGrantRecord} {result : Option (BrokerDecision py)}
  {pattern : GrantPattern}

theorem Passed.right (passed : Passed context reservation after) :
    Passed context reservation (before ++ after) := by
  intro id isIt
  obtain ⟨reply, mem⟩ := passed id isIt
  exact ⟨reply, mem_append_right _ mem⟩

theorem passed_of_releaseAny {outcome : Outcome Failure Unit}
    (runs : Runs (releaseAny context reservation) s exchanges outcome s') : Passed context reservation exchanges := by
  rintro id rfl
  rcases runs_bind.mp runs with ⟨answer, mid, before, after, rfl, isAnswer, -⟩ | ⟨failure, -, fails⟩ |
    ⟨-, interrupted⟩
  · obtain ⟨rfl, -⟩ := returns_attempt_ask.mp isAnswer
    exact ⟨_, mem_append_left _ mem_cons_self⟩
  · rcases runs_attempt.mp fails with ⟨_, wrong, -⟩ | ⟨_, wrong, -⟩ | ⟨wrong, -⟩
    · cases wrong
    · cases wrong
    · cases wrong
  · rcases runs_attempt.mp interrupted with ⟨_, wrong, -⟩ | ⟨_, wrong, -⟩ | ⟨-, asks⟩
    · cases wrong
    · cases wrong
    · obtain ⟨rfl, -⟩ := runs_ask.mp asks
      exact ⟨_, mem_cons_self⟩

theorem Admitted.released (admitted : Admitted asked classification before reservation)
    (passed : Passed asked.context reservation after) (given : id ∈ obtained before) :
    ReleasedAfter asked.context.taskId (before ++ after) id := by
  obtain ⟨reply, mem⟩ := passed id (admitted.held id given)
  exact ⟨before, after, reply, rfl, given, mem⟩

/-! ### Approvals and grants -/

def Approved (asked : Asked py) (classification : Classification) (level : ApprovalLevel) (approvalId : Option Uuid)
    (exchanges : Exchanges py) : Prop :=
  (∃ id now, approvalId = some id ∧ Told exchanges (.consume id (asked.binding level) now) (some .consumed)) ∨
    level = .approval ∧ ∃ pattern listing grant now,
      grantPatternOf py asked.spec asked.parsed.values classification.status level = .ok (some pattern) ∧
      Told exchanges (.activeGrants asked.context.taskId asked.context.run asked.context.grant.agentId
        asked.context.delegatorId asked.spec.name) listing ∧
      some grant ∈ listing.items ∧ grant.taskId = asked.context.taskId ∧ grant.taskRun = asked.context.run ∧
      grant.agentId = asked.context.grant.agentId ∧ grant.requesterUserId = asked.context.delegatorId ∧
      grant.tool = asked.spec.name ∧ grant.pattern.covers pattern = true ∧
      Told exchanges (.useGrant grant.grantId asked.grantUse now) (some .used)

structure Grounds (asked : Asked py) (classification : Classification) (level : ApprovalLevel)
    (approvalId : Option Uuid) (exchanges : Exchanges py) (decision : BrokerDecision py) : Prop where
  allowed : decision.verdict = .allow
  isLevel : decision.level = some level
  admitted : Admitted asked classification exchanges decision.reservationId
  approved : level = .approval ∨ level = .strongApproval →
    Approved asked classification level approvalId exchanges

/-- How a part of a request decides: it withholds the call and what was reserved is released, or the call is
allowed on these grounds. -/
def Settles (asked : Asked py) (classification : Classification) (level : ApprovalLevel) (approvalId : Option Uuid)
    (exchanges : Exchanges py) (decision : BrokerDecision py) : Prop :=
  (decision.Withheld ∧ ∀ id ∈ obtained exchanges, ReleasedAfter asked.context.taskId exchanges id) ∨
    Grounds asked classification level approvalId exchanges decision

variable {approvalId : Option Uuid} {broker : ToolBroker}

theorem settles_of_quiet (withheld : decision.Withheld) (quiet : obtained exchanges = []) :
    Settles asked classification level approvalId exchanges decision :=
  .inl ⟨withheld, fun id given => absurd given (by rw [quiet]; exact not_mem_nil)⟩

theorem Approved.mono (approved : Approved asked classification level approvalId before)
    (within : before ⊆ exchanges) : Approved asked classification level approvalId exchanges := by
  rcases approved with ⟨id, now, given, told⟩ | ⟨isLevel, pattern, listing, grant, now, isPattern, listed, mem,
    isTask, isRun, isAgent, isUser, isTool, covers, used⟩
  · exact .inl ⟨id, now, given, told.mono within⟩
  · exact .inr ⟨isLevel, pattern, listing, grant, now, isPattern, listed.mono within, mem, isTask, isRun, isAgent,
      isUser, isTool, covers, used.mono within⟩

theorem Grounds.mono (grounds : Grounds asked classification level approvalId before decision)
    (within : before ⊆ exchanges) (same : obtained exchanges = obtained before) :
    Grounds asked classification level approvalId exchanges decision where
  allowed := grounds.allowed
  isLevel := grounds.isLevel
  admitted := grounds.admitted.mono within same
  approved human := (grounds.approved human).mono within

theorem Settles.right (settles : Settles asked classification level approvalId after decision)
    (quiet : obtained before = []) : Settles asked classification level approvalId (before ++ after) decision := by
  have same : obtained (before ++ after) = obtained after := by rw [obtained_append, quiet, nil_append]
  rcases settles with ⟨withheld, released⟩ | grounds
  · refine .inl ⟨withheld, fun id given => ?_⟩
    rw [same] at given
    exact (released id given).right before
  · exact .inr (grounds.mono (subset_append_right _ _) same)

theorem consumeApproval_returns
    (runs : Runs (broker.consumeApproval asked level id reservation) s exchanges (.returned decision) s') :
    (∃ now, Told exchanges (.consume id (asked.binding level) now) (some .consumed) ∧
      decision = asked.allow level .approvalConsumed id reservation) ∨ decision.Withheld := by
  obtain ⟨now, mid, before, after, rfl, -, rest⟩ := returns_bind.mp runs
  obtain ⟨outcome, mid, before', after', rfl, isOutcome, decides⟩ := returns_bind.mp rest
  obtain ⟨rfl, rfl⟩ := returns_attempt_ask.mp isOutcome
  split_ifs at decides with consumed
  · obtain ⟨-, mid, before, after, rfl, -, allows⟩ := returns_bind.mp decides
    obtain ⟨rfl, rfl, -⟩ := returns_pure.mp allows
    refine .inl ⟨now, Told.right (Told.left ?_), rfl⟩
    cases outcome with
    | error failure => cases consumed
    | ok outcome =>
      cases outcome with
      | none => cases consumed
      | some outcome =>
        cases consumed
        exact mem_cons_self
  · obtain ⟨-, rfl, -⟩ := returns_pure.mp decides
    exact .inr (withheld_notConsumed _ _ _ _)

theorem useGrant_returns
    (runs : Runs (ToolBroker.useGrant asked level grant reservation) s exchanges (.returned result) s') :
    (∃ now, Told exchanges (.useGrant grant.grantId asked.grantUse now) (some .used) ∧
      result = some { asked.allow level .taskGrantApplied none reservation with grantId := some grant.grantId }) ∨
    (∀ decision, result = some decision → decision.Withheld) ∧ Passed asked.context reservation exchanges := by
  obtain ⟨now, mid, before, after, rfl, -, rest⟩ := returns_bind.mp runs
  obtain ⟨outcome, mid, before', after', rfl, isOutcome, decides⟩ := returns_bind.mp rest
  obtain ⟨rfl, rfl⟩ := returns_attempt_ask.mp isOutcome
  split_ifs at decides with used
  · obtain ⟨eventId, mid, before', after', rfl, -, records⟩ := returns_bind.mp decides
    obtain ⟨recorded, mid, before', after', rfl, -, ends⟩ := returns_bind.mp records
    split_ifs at ends
    · obtain ⟨rfl, rfl, -⟩ := returns_pure.mp ends
      refine .inl ⟨now, Told.right (Told.left ?_), rfl⟩
      cases outcome with
      | error failure => cases used
      | ok outcome =>
        cases outcome with
        | none => cases used
        | some outcome =>
          cases used
          exact mem_cons_self
    · obtain ⟨_, mid, before', after', rfl, releases, refuses⟩ := returns_bind.mp ends
      obtain ⟨rfl, rfl, -⟩ := returns_pure.mp refuses
      rw [append_nil]
      refine .inr ⟨?_, (passed_of_releaseAny releases).right.right.right.right⟩
      rintro decision ⟨⟩
      exact withheld_refuse _ _ _ _ _
  · obtain ⟨_, mid, before', after', rfl, releases, refuses⟩ := returns_bind.mp decides
    obtain ⟨rfl, rfl, -⟩ := returns_pure.mp refuses
    rw [append_nil]
    refine .inr ⟨?_, (passed_of_releaseAny releases).right.right⟩
    intro decision isDecision
    obtain ⟨reason, -, rfl⟩ := Option.map_eq_some_iff.mp isDecision
    exact withheld_refuse _ _ _ _ _

theorem firstGrant_returns {listing : GrantListing}
    (runs : Runs (ToolBroker.firstGrant asked pattern listing) s exchanges (.returned (some grant)) s') :
    some grant ∈ listing.items ∧ ToolBroker.appliesTo asked pattern grant = true := by
  unfold ToolBroker.firstGrant at runs
  split at runs
  · rename_i found isFound
    obtain ⟨-, rfl, -⟩ := returns_pure.mp runs
    have applies := find?_some isFound
    exact ⟨mem_of_find?_eq_some isFound, applies⟩
  · split_ifs at runs
    · exact absurd runs returns_raise
    · cases (returns_pure.mp runs).2.1

theorem appliesTo_iff :
    ToolBroker.appliesTo asked pattern grant = true ↔
      grant.tool = asked.spec.name ∧ grant.taskId = asked.context.taskId ∧ grant.taskRun = asked.context.run ∧
        grant.agentId = asked.context.grant.agentId ∧ grant.requesterUserId = asked.context.delegatorId ∧
        grant.pattern.covers pattern = true := by
  simp only [ToolBroker.appliesTo, Bool.and_eq_true, decide_eq_true_eq, and_assoc]

/-- A grant decides, or no reservation is left to the human who is asked. -/
def SettlesOrAsks (asked : Asked py) (classification : Classification) (level : ApprovalLevel)
    (exchanges : Exchanges py) (result : Option (BrokerDecision py)) : Prop :=
  match result with
  | some decision => Settles asked classification level none exchanges decision
  | none => ∀ id ∈ obtained exchanges, ReleasedAfter asked.context.taskId exchanges id

theorem released_of_quiet {taskId : Uuid} (quiet : obtained exchanges = []) :
    ∀ id ∈ obtained exchanges, ReleasedAfter taskId exchanges id :=
  fun id given => absurd given (by rw [quiet]; exact not_mem_nil)

theorem settlesOrAsks_of_use {listing : GrantListing} {found : Exchanges py}
    (isPattern : grantPatternOf py asked.spec asked.parsed.values classification.status level = .ok (some pattern))
    (listed : Told found (.activeGrants asked.context.taskId asked.context.run asked.context.grant.agentId
      asked.context.delegatorId asked.spec.name) listing)
    (quiet : obtained found = []) (mem : some grant ∈ listing.items)
    (applies : ToolBroker.appliesTo asked pattern grant = true)
    (admitted : Admitted asked classification before reservation)
    (runs : Runs (ToolBroker.useGrant asked level grant reservation) s after (.returned result) s') :
    SettlesOrAsks asked classification level (found ++ (before ++ after)) result := by
  have quietUse : obtained after = [] := (quiet_useGrant _ _ _ _ runs).1
  rcases useGrant_returns runs with ⟨now, used, rfl⟩ | ⟨withheld, passed⟩
  · obtain ⟨isTool, isTask, isRun, isAgent, isUser, covers⟩ := appliesTo_iff.mp applies
    refine .inr ⟨rfl, rfl, (admitted.left quietUse).right quiet, fun _ => ?_⟩
    refine .inr ⟨level_of_grantPatternOf py isPattern, ?_⟩
    exact ⟨pattern, listing, grant, now, isPattern, listed.left, mem, isTask, isRun, isAgent, isUser, isTool, covers,
      used.right.right⟩
  · have released : ∀ id ∈ obtained (found ++ (before ++ after)),
        ReleasedAfter asked.context.taskId (found ++ (before ++ after)) id := by
      intro id given
      rw [obtained_append, obtained_append, quiet, quietUse, nil_append, append_nil] at given
      exact (admitted.released passed given).right found
    cases result with
    | none => exact released
    | some decision => exact .inl ⟨withheld decision rfl, released⟩

theorem applyGrant_returns
    (isPattern : grantPatternOf py asked.spec asked.parsed.values classification.status level = .ok (some pattern))
    (runs : Runs (ToolBroker.applyGrant asked classification level pattern) s exchanges (.returned result) s') :
    SettlesOrAsks asked classification level exchanges result := by
  obtain ⟨answer, mid, before, after, rfl, isAnswer, rest⟩ := returns_bind.mp runs
  obtain ⟨rfl, rfl⟩ := returns_attempt_ask.mp isAnswer
  cases answer with
  | error failure =>
    obtain ⟨rfl, rfl, -⟩ := returns_pure.mp rest
    exact released_of_quiet rfl
  | ok listing =>
    obtain ⟨found, mid', before, after, rfl, isFound, applies⟩ := returns_bind.mp rest
    have quietFound := (quiet_firstGrant _ _ _ isFound).1
    cases found with
    | none =>
      obtain ⟨rfl, rfl, -⟩ := returns_pure.mp applies
      refine released_of_quiet ?_
      rw [obtained_append, obtained_append, quietFound]
      rfl
    | some grant =>
      obtain ⟨mem, isIts⟩ := firstGrant_returns isFound
      obtain ⟨⟨refusal, reservation⟩, mid'', before', after', rfl, isUse, uses⟩ := returns_bind.mp applies
      rw [← append_assoc]
      rcases admitUse_returns isUse with ⟨reason, rfl, nothing⟩ | ⟨rfl, admitted⟩
      · obtain ⟨rfl, rfl, -⟩ := returns_pure.mp uses
        refine settles_of_quiet (withheld_refuse _ _ _ _ _) ?_
        rw [obtained_append, obtained_append, obtained_append, quietFound, nothing]
        rfl
      · refine settlesOrAsks_of_use isPattern (Told.left mem_cons_self) ?_ mem isIts admitted uses
        rw [obtained_append, quietFound]
        rfl

/-! ### The levels -/

theorem decideAuto_settles (isAuto : level = .auto ∨ level = .scopedAuto)
    (runs : Runs (ToolBroker.decideAuto asked classification level) s exchanges (.returned decision) s') :
    Settles asked classification level approvalId exchanges decision := by
  obtain ⟨refusal, mid, before, after, rfl, isTask, rest⟩ := returns_bind.mp runs
  have quiet := (quiet_workingSetTaskDenial _ isTask).1
  cases refusal with
  | some reason =>
    obtain ⟨rfl, rfl, -⟩ := returns_pure.mp rest
    exact (settles_of_quiet (withheld_refuse _ _ _ _ _) rfl).right quiet
  | none =>
    obtain ⟨⟨refusal, reservation⟩, mid', before', after', rfl, isUse, ends⟩ := returns_bind.mp rest
    refine Settles.right ?_ quiet
    rcases admitUse_returns isUse with ⟨reason, rfl, nothing⟩ | ⟨rfl, admitted⟩
    · obtain ⟨rfl, rfl, -⟩ := returns_pure.mp ends
      rw [append_nil]
      exact settles_of_quiet (withheld_refuse _ _ _ _ _) nothing
    · obtain ⟨rfl, rfl, -⟩ := returns_pure.mp ends
      rw [append_nil]
      refine .inr ⟨rfl, rfl, admitted, fun human => ?_⟩
      rcases isAuto with rfl | rfl <;> rcases human with human | human <;> cases human

theorem decideApproved_settles
    (runs : Runs (broker.decideApproved asked classification level id) s exchanges (.returned decision) s') :
    Settles asked classification level (some id) exchanges decision := by
  obtain ⟨⟨refusal, reservation⟩, mid, before, after, rfl, isUse, rest⟩ := returns_bind.mp runs
  rcases admitUse_returns isUse with ⟨reason, rfl, nothing⟩ | ⟨rfl, admitted⟩
  · obtain ⟨rfl, rfl, -⟩ := returns_pure.mp rest
    rw [append_nil]
    exact settles_of_quiet (withheld_refuse _ _ _ _ _) nothing
  · obtain ⟨made, mid', before', after', rfl, consumes, ends⟩ := returns_bind.mp rest
    have quiet := (quiet_consumeApproval _ _ _ _ _ consumes).1
    rcases consumeApproval_returns consumes with ⟨now, consumed, rfl⟩ | withheld
    · obtain ⟨rfl, rfl, -⟩ := returns_pure.mp ends
      rw [append_nil]
      exact .inr ⟨rfl, rfl, admitted.left quiet, fun _ => .inl ⟨id, now, rfl, consumed.right⟩⟩
    · have refused : (!made.allowed) = true := by simpa [BrokerDecision.allowed] using withheld.not_allowed
      rw [if_pos refused] at ends
      obtain ⟨_, mid'', before'', after'', rfl, releases, same⟩ := returns_bind.mp ends
      obtain ⟨rfl, rfl, -⟩ := returns_pure.mp same
      have quietRelease := (quiet_releaseAny _ _ releases).1
      refine .inl ⟨withheld, fun given isGiven => ?_⟩
      rw [append_nil] at isGiven ⊢
      rw [obtained_append, obtained_append, quiet, quietRelease, append_nil, append_nil] at isGiven
      exact admitted.released (passed_of_releaseAny releases).right isGiven

theorem patternOf_returns
    (runs : Runs (broker.patternOf asked classification level) s exchanges (.returned (some pattern)) s') :
    grantPatternOf py asked.spec asked.parsed.values classification.status level = .ok (some pattern) := by
  unfold ToolBroker.patternOf at runs
  split_ifs at runs
  · obtain ⟨-, found, -⟩ := returns_orRaise.mp runs
    cases made : grantPatternOf py asked.spec asked.parsed.values classification.status level with
    | error error =>
      rw [made] at found
      cases found
    | ok built =>
      rw [made] at found
      cases found
      rfl
  · cases (returns_pure.mp runs).2.1

theorem decideAsking_settles
    (runs : Runs (broker.decideAsking asked classification level) s exchanges (.returned decision) s') :
    Settles asked classification level none exchanges decision := by
  obtain ⟨pattern, mid, before, after, rfl, isPattern, rest⟩ := returns_bind.mp runs
  refine Settles.right ?_ (quiet_patternOf _ _ _ _ isPattern).1
  cases pattern with
  | none => exact settles_of_quiet (withheld_of_openApproval rest) (quiet_openApproval _ _ _ _ rest).1
  | some pattern =>
    obtain ⟨result, mid', before', after', rfl, applies, ends⟩ := returns_bind.mp rest
    have settles := applyGrant_returns (patternOf_returns isPattern) applies
    cases result with
    | some granted =>
      obtain ⟨rfl, rfl, -⟩ := returns_pure.mp ends
      rw [append_nil]
      exact settles
    | none =>
      refine .inl ⟨withheld_of_openApproval ends, fun id given => ?_⟩
      rw [obtained_append, (quiet_openApproval _ _ _ _ ends).1, append_nil] at given
      exact (settles id given).left after'

theorem decideLevel_settles
    (runs : Runs (broker.decideLevel asked classification level approvalId) s exchanges (.returned decision) s') :
    Settles asked classification level approvalId exchanges decision := by
  unfold ToolBroker.decideLevel at runs
  split_ifs at runs with isAuto
  · exact decideAuto_settles isAuto runs
  · obtain ⟨refusal, mid, before, after, rfl, isTask, rest⟩ := returns_bind.mp runs
    have quiet := (quiet_taskDenial _ isTask).1
    cases refusal with
    | some reason =>
      obtain ⟨rfl, rfl, -⟩ := returns_pure.mp rest
      exact (settles_of_quiet (withheld_refuse _ _ _ _ _) rfl).right quiet
    | none =>
      cases approvalId with
      | none => exact (decideAsking_settles rest).right quiet
      | some id => exact (decideApproved_settles rest).right quiet

/-! ### The checks before the level is met -/

/-- The checks that can refuse a call on their own, as they were answered. -/
structure Checked (asked : Asked py) (classification : Classification) (exchanges : Exchanges py) : Prop where
  inScope : classification.status ≠ .outOfScope
  authorized : asked.spec.authzCapability.repoPermission.isSome = true → ∀ repoId ∈ classification.repositories,
    ∃ resource, scopedResource asked.context.scope repoId = some resource ∧
      ∃ answer : Decision, answer.allowed = true ∧
        Told exchanges (.authorizeAgentAction asked.context.delegatorId asked.context.grant
          asked.spec.authzCapability resource asked.correlationId) (some answer)
  budget : asked.spec.requiresBudget = true →
    Told exchanges (.checkBudget asked.context.taskId asked.spec.name) (some .withinBudget)
  lease : Told exchanges (.checkLease asked.context.taskId asked.context.lease) (some .held)

theorem Checked.mono (checked : Checked asked classification before) (within : before ⊆ exchanges) :
    Checked asked classification exchanges where
  inScope := checked.inScope
  authorized isOf repoId touched := by
    obtain ⟨resource, isIts, answer, allowed, told⟩ := checked.authorized isOf repoId touched
    exact ⟨resource, isIts, answer, allowed, told.mono within⟩
  budget required := (checked.budget required).mono within
  lease := checked.lease.mono within

theorem inScope_of_levelOf (met : broker.levelOf asked.spec classification.status ≠ .deny) :
    classification.status ≠ .outOfScope := by
  intro outside
  refine met ?_
  unfold ToolBroker.levelOf
  rw [outside, ToolPolicy.levelFor_outOfScope]
  exact ApprovalLevel.mostRestrictive_of_mem mem_cons_self

theorem evaluateClassified_returns
    (runs : Runs (broker.evaluateClassified asked classification approvalId) s exchanges (.returned decision) s') :
    Settles asked classification (broker.levelOf asked.spec classification.status) approvalId exchanges decision ∧
      (decision.verdict = .allow → Checked asked classification exchanges) := by
  unfold ToolBroker.evaluateClassified at runs
  dsimp only at runs
  have refused : ∀ {reason : BrokerReason} {level : ApprovalLevel} {own : Option Uuid}
      {authzReason : Option Authz.Reason} {t : Exchanges py}, obtained t = [] →
      Settles asked classification (broker.levelOf asked.spec classification.status) approvalId t
        (asked.refuse reason level own authzReason) ∧
      ((asked.refuse reason level own authzReason).verdict = .allow → Checked asked classification t) := by
    intro reason level own authzReason t quiet
    exact ⟨settles_of_quiet (withheld_refuse _ _ _ _ _) quiet, fun wrong => by cases wrong⟩
  split_ifs at runs with denied
  · split at runs
    · obtain ⟨rfl, rfl, -⟩ := returns_pure.mp runs
      exact refused rfl
    · obtain ⟨reason, mid, before, after, rfl, isReason, rest⟩ := returns_bind.mp runs
      obtain ⟨rfl, -, -⟩ := returns_orRaise.mp isReason
      obtain ⟨rfl, rfl, -⟩ := returns_pure.mp rest
      exact refused rfl
  · obtain ⟨denial, mid, before, after, rfl, isDenial, rest⟩ := returns_bind.mp runs
    have quiet := (quiet_authorizationDenial _ _ isDenial).1
    cases denial with
    | some denial =>
      obtain ⟨rfl, rfl, -⟩ := returns_pure.mp rest
      exact refused (by rw [append_nil, quiet])
    | none =>
      obtain ⟨exceeded, mid', budget, after', rfl, isBudget, leases⟩ := returns_bind.mp rest
      have quietBudget := (quiet_requiredBudgetDenial _ isBudget).1
      cases exceeded with
      | some reason =>
        obtain ⟨rfl, rfl, -⟩ := returns_pure.mp leases
        exact refused (by rw [append_nil, obtained_append, quiet, quietBudget]; rfl)
      | none =>
        obtain ⟨lost, mid'', lease, after'', rfl, isLease, decides⟩ := returns_bind.mp leases
        have quietLease := (quiet_leaseDenial _ isLease).1
        cases lost with
        | some reason =>
          obtain ⟨rfl, rfl, -⟩ := returns_pure.mp decides
          exact refused (by
            rw [append_nil, obtained_append, obtained_append, quiet, quietBudget, quietLease]
            rfl)
        | none =>
          refine ⟨(((decideLevel_settles decides).right quietLease).right quietBudget).right quiet, fun _ => ?_⟩
          refine ⟨inScope_of_levelOf denied, fun isOf repoId touched => ?_, fun required => ?_,
            (told_of_leaseDenial isLease).left.right.right⟩
          · obtain ⟨resource, isIts, answer, allowed, told⟩ := told_of_authorizationDenial isDenial isOf touched
            exact ⟨resource, isIts, answer, allowed, told.left⟩
          · unfold ToolBroker.requiredBudgetDenial at isBudget
            rw [if_pos required] at isBudget
            exact (told_of_budgetDenial isBudget).left.right

/-! ### The whole request -/

def Classified (asked : Asked py) (classification : Classification) (exchanges : Exchanges py) : Prop :=
  ∃ resolution resolved admitted, resolution <:+: exchanges ∧
    Runs (asked.context.scope.resolve ToolBroker.resolvePathAsking asked.parsed.targets) [] resolution
      (.returned resolved) admitted ∧
    asked.context.scope.classifyResolved asked.parsed.targets asked.parsed.urls resolved = .ok classification

theorem Classified.mono (classified : Classified asked classification before) (within : before <:+: exchanges) :
    Classified asked classification exchanges := by
  obtain ⟨resolution, resolved, admitted, part, resolves, isIts⟩ := classified
  exact ⟨resolution, resolved, admitted, part.trans within, resolves, isIts⟩

theorem classifyAsking_returns
    (runs : Runs (ToolBroker.classifyAsking asked) [] exchanges (.returned classification) s') :
    Classified asked classification exchanges := by
  obtain ⟨resolved, mid, before, after, rfl, isResolved, rest⟩ := returns_bind.mp runs
  obtain ⟨rfl, isIts, -⟩ := returns_orRaise.mp rest
  refine ⟨before, resolved, mid, ?_, isResolved, ?_⟩
  · rw [append_nil]
  · cases judged : asked.context.scope.classifyResolved asked.parsed.targets asked.parsed.urls resolved with
    | error error =>
      rw [judged] at isIts
      cases isIts
    | ok own =>
      rw [judged] at isIts
      exact congrArg Except.ok (Option.some.inj isIts)

theorem evaluateParsed_returns
    (runs : Runs (broker.evaluateParsed asked approvalId) [] exchanges (.returned decision) s') :
    (decision.Withheld ∧ ∀ id ∈ obtained exchanges, ReleasedAfter asked.context.taskId exchanges id) ∨
      ∃ classification, Classified asked classification exchanges ∧ Checked asked classification exchanges ∧
        Grounds asked classification (broker.levelOf asked.spec classification.status) approvalId exchanges
          decision := by
  obtain ⟨attempted, mid, before, after, rfl, isAttempt, rest⟩ := returns_bind.mp runs
  have quiet := (quiet_classifyAsking _).attempt isAttempt
  rcases runs_attempt.mp isAttempt with ⟨classification, same, classifies⟩ | ⟨failure, same, -⟩ | ⟨wrong, -⟩
  · cases same
    obtain ⟨settles, checks⟩ := evaluateClassified_returns rest
    rcases settles.right quiet.1 with withheld | grounds
    · exact .inl withheld
    · exact .inr ⟨classification, (classifyAsking_returns classifies).mono (prefix_append _ _).isInfix,
        (checks grounds.allowed).mono (subset_append_right _ _), grounds⟩
  · cases same
    cases failure with
    | pathResolution =>
      obtain ⟨rfl, rfl, -⟩ := returns_pure.mp rest
      exact .inl ⟨⟨nofun, rfl⟩, released_of_quiet (by rw [append_nil, quiet.1])⟩
    | _ => exact absurd rest returns_raise
  · cases wrong

theorem evaluate_returns {call : ToolCall py} {correlationId : Uuid} {approval : Option (Option Uuid)}
    (runs : Runs (broker.evaluate call correlationId approval) [] exchanges (.returned decision) s') :
    (decision.Withheld ∧ ∀ id ∈ obtained exchanges, ReleasedAfter call.context.taskId exchanges id) ∨
      ∃ asked : Asked py, ∃ classification, broker.registry.get call.tool = some asked.spec ∧
        asked.spec.returnsCredentialPlaintext = false ∧
        parseArguments py asked.spec call.arguments call.context.scope = .ok asked.parsed ∧
        asked.context = call.context ∧
        asked.callHash = computeCallHash py asked.spec.name asked.parsed.values call.context ∧
        Classified asked classification exchanges ∧ Checked asked classification exchanges ∧
        Grounds asked classification (broker.levelOf asked.spec classification.status) approval.join exchanges
          decision := by
  unfold ToolBroker.evaluate at runs
  split_ifs at runs with invalid
  · obtain ⟨rfl, rfl, -⟩ := returns_pure.mp runs
    exact .inl ⟨⟨nofun, rfl⟩, released_of_quiet rfl⟩
  · split at runs
    · obtain ⟨rfl, rfl, -⟩ := returns_pure.mp runs
      exact .inl ⟨⟨nofun, rfl⟩, released_of_quiet rfl⟩
    · rename_i spec isSpec
      split_ifs at runs with plaintext
      · obtain ⟨rfl, rfl, -⟩ := returns_pure.mp runs
        exact .inl ⟨⟨nofun, rfl⟩, released_of_quiet rfl⟩
      · split at runs
        · obtain ⟨rfl, rfl, -⟩ := returns_pure.mp runs
          exact .inl ⟨⟨nofun, rfl⟩, released_of_quiet rfl⟩
        · exact absurd runs returns_raise
        · rename_i parsed isParsed
          rcases evaluateParsed_returns runs with withheld | ⟨classification, classified, checked, grounds⟩
          · exact .inl withheld
          · exact .inr ⟨_, classification, isSpec, Bool.not_eq_true _ ▸ plaintext, isParsed, rfl, rfl, classified,
              checked, grounds⟩

theorem audited_returns {made : BrokerDecision py}
    (runs : Runs (audited made context) s exchanges (.returned decision) s') :
    (decision.verdict = .allow → decision = made ∧
      ∃ eventId now, Told exchanges (.record (decisionEvent made context eventId now)) ()) ∧
    (made.verdict ≠ .allow → decision = made) ∧ decision.reservationId = made.reservationId := by
  obtain ⟨now, mid, before, after, rfl, -, rest⟩ := returns_bind.mp runs
  obtain ⟨eventId, mid', before', after', rfl, -, records⟩ := returns_bind.mp rest
  obtain ⟨recorded, mid'', before'', after'', rfl, isRecorded, ends⟩ := returns_bind.mp records
  split_ifs at ends with keeps
  · obtain ⟨rfl, rfl, -⟩ := returns_pure.mp ends
    refine ⟨fun allowed => ⟨rfl, eventId, now, ?_⟩, fun _ => rfl, rfl⟩
    have stored : recorded = true := by simpa [BrokerDecision.allowed, allowed] using keeps
    subst stored
    exact (told_of_recordEvent isRecorded).left.right.right
  · obtain ⟨rfl, rfl, -⟩ := returns_pure.mp ends
    refine ⟨fun wrong => (by cases wrong), fun refused => ?_, rfl⟩
    exact absurd (by simp [BrokerDecision.allowed, refused]) keeps

end Parts

section Request

variable {broker : ToolBroker} {call : ToolCall py} {correlationId : Uuid} {approval : Option (Option Uuid)}
  {exchanges : Exchanges py} {decision : BrokerDecision py} {outcome : Outcome Failure (BrokerDecision py)}

theorem requestWith_ends (ends : (broker.requestWith call correlationId approval).Ends exchanges outcome) :
    ∃ body tail admitted, exchanges = body ++ tail ∧
      ((∃ made admitted', Runs (broker.decided call correlationId approval) [] body (.returned made) admitted ∧
        Runs (ToolBroker.settle call.context made) admitted tail outcome admitted') ∨
      (∀ made, outcome ≠ .returned made) ∧
        Runs (broker.decided call correlationId approval) [] body outcome admitted ∧
        (ToolBroker.releaseAll call.context admitted).Ends tail ()) := by
  obtain ⟨⟨first, admitted⟩, body, tail, rfl, isFirst, rest⟩ := Program.ends_bind.mp ends
  refine ⟨body, tail, admitted, rfl, ?_⟩
  cases first with
  | returned made =>
    obtain ⟨⟨last, admitted'⟩, before, after, rfl, settles, same⟩ := Program.ends_bind.mp rest
    obtain ⟨rfl, rfl⟩ := Program.ends_done.mp same
    rw [append_nil]
    exact .inl ⟨made, admitted', isFirst, settles⟩
  | raised | interrupted =>
    obtain ⟨_, before, after, rfl, releases, same⟩ := Program.ends_bind.mp rest
    obtain ⟨rfl, rfl⟩ := Program.ends_done.mp same
    rw [append_nil]
    exact .inr ⟨fun made wrong => (by cases wrong), isFirst, releases⟩

theorem request_ends {given : Option (ToolCall py)} (ends : (broker.request given approval).Ends exchanges outcome) :
    (∃ call correlationId before after, given = some call ∧ exchanges = before ++ after ∧ obtained before = [] ∧
      (broker.requestWith call correlationId approval).Ends after outcome) ∨
    obtained exchanges = [] ∧ ∀ decision, outcome = .returned decision → decision.Withheld := by
  cases given with
  | none =>
    obtain ⟨reply, rest, rfl, done⟩ := Program.ends_ask.mp ends
    cases reply with
    | returned id =>
      obtain ⟨rfl, rfl⟩ := Program.ends_done.mp done
      refine .inr ⟨rfl, ?_⟩
      rintro decision ⟨⟩
      exact ⟨nofun, rfl⟩
    | raised | interrupted =>
      obtain ⟨rfl, rfl⟩ := Program.ends_done.mp done
      exact .inr ⟨rfl, fun decision wrong => by cases wrong⟩
  | some call =>
    unfold ToolBroker.request at ends
    dsimp only at ends
    split at ends
    · exact .inl ⟨call, _, [], exchanges, rfl, rfl, rfl, ends⟩
    · obtain ⟨reply, rest, rfl, done⟩ := Program.ends_ask.mp ends
      cases reply with
      | returned id => exact .inl ⟨call, id, [_], rest, rfl, rfl, rfl, done⟩
      | raised | interrupted =>
        obtain ⟨rfl, rfl⟩ := Program.ends_done.mp done
        exact .inr ⟨rfl, fun decision wrong => by cases wrong⟩

/-- Everything an allowed call rests on. -/
structure Justified (broker : ToolBroker) (call : ToolCall py) (approval : Option (Option Uuid))
    (exchanges : Exchanges py) (decision : BrokerDecision py) (asked : Asked py) (classification : Classification) :
    Prop where
  registered : broker.registry.get call.tool = some asked.spec
  noPlaintext : asked.spec.returnsCredentialPlaintext = false
  isParsed : parseArguments py asked.spec call.arguments call.context.scope = .ok asked.parsed
  isContext : asked.context = call.context
  isCallHash : asked.callHash = computeCallHash py asked.spec.name asked.parsed.values call.context
  classified : Classified asked classification exchanges
  checked : Checked asked classification exchanges
  grounds : Grounds asked classification (broker.levelOf asked.spec classification.status) approval.join exchanges
    decision
  recorded : ∃ eventId now, Told exchanges (.record (decisionEvent decision call.context eventId now)) ()

theorem settle_runs {context : TaskContext py} {made : BrokerDecision py} {s s' : List Uuid}
    (runs : Runs (ToolBroker.settle context made) s exchanges outcome s') :
    (made.verdict = .allow ∧ outcome = .returned made ∧ exchanges = []) ∨
      made.verdict ≠ .allow ∧ (∀ decision, outcome = .returned decision → decision.Withheld) ∧
        Passed context made.reservationId exchanges ∧ obtained exchanges = [] := by
  unfold ToolBroker.settle at runs
  by_cases allowed : made.verdict = .allow
  · have runsOn : made.allowed = true := by simp [BrokerDecision.allowed, allowed]
    rw [if_neg (by simp [runsOn])] at runs
    obtain ⟨rfl, rfl, -⟩ := runs_pure.mp runs
    exact .inl ⟨allowed, rfl, rfl⟩
  · have refused : made.allowed = false := by simpa [BrokerDecision.allowed] using allowed
    refine .inr ⟨allowed, ?_⟩
    cases isReserved : made.reservationId with
    | none =>
      rw [if_neg (by simp [isReserved])] at runs
      obtain ⟨rfl, rfl, -⟩ := runs_pure.mp runs
      refine ⟨?_, fun id wrong => (by cases wrong), rfl⟩
      rintro decision ⟨⟩
      exact ⟨allowed, isReserved⟩
    | some id =>
      rw [if_pos (by simp [refused, isReserved]), isReserved] at runs
      rcases runs_bind.mp runs with ⟨_, mid, before, after, rfl, releases, same⟩ | ⟨failure, rfl, releases⟩ |
        ⟨rfl, releases⟩
      · obtain ⟨rfl, rfl, -⟩ := runs_pure.mp same
        rw [append_nil]
        refine ⟨?_, passed_of_releaseAny releases, (quiet_releaseAny _ _ releases).1⟩
        rintro decision ⟨⟩
        exact ⟨allowed, rfl⟩
      · exact ⟨fun decision wrong => (by cases wrong), passed_of_releaseAny releases,
          (quiet_releaseAny _ _ releases).1⟩
      · exact ⟨fun decision wrong => (by cases wrong), passed_of_releaseAny releases,
          (quiet_releaseAny _ _ releases).1⟩

theorem decided_returns {s' : List Uuid}
    (runs : Runs (broker.decided call correlationId approval) [] exchanges (.returned decision) s') :
    (decision.verdict = .allow → ∃ asked classification,
      Justified broker call approval exchanges decision asked classification) ∧
    ∀ id ∈ obtained exchanges,
      decision.reservationId = some id ∨ ReleasedAfter call.context.taskId exchanges id := by
  obtain ⟨made, mid, before, after, rfl, isMade, audits⟩ := returns_bind.mp runs
  obtain ⟨recorded, -, same⟩ := audited_returns audits
  have quiet : obtained (before ++ after) = obtained before := by
    rw [obtained_append, (quiet_audited _ _ audits).1, append_nil]
  rw [quiet]
  rcases evaluate_returns isMade with ⟨withheld, released⟩ | ⟨asked, classification, registered, plaintext, isParsed,
    isContext, isCallHash, classified, checked, grounds⟩
  · refine ⟨fun allowed => ?_, fun id given => .inr ((released id given).left after)⟩
    exact absurd ((recorded allowed).1 ▸ allowed) withheld.not_allowed
  · refine ⟨fun allowed => ?_, fun id given => .inl (same ▸ grounds.admitted.held id given)⟩
    obtain ⟨rfl, eventId, now, stored⟩ := recorded allowed
    exact ⟨asked, classification, registered, plaintext, isParsed, isContext, isCallHash,
      classified.mono (prefix_append _ _).isInfix, checked.mono (subset_append_left _ _),
      grounds.mono (subset_append_left _ _) quiet, eventId, now, stored.right⟩

theorem Justified.mono {before : Exchanges py} {asked : Asked py} {classification : Classification}
    (justified : Justified broker call approval before decision asked classification) (within : before <:+: exchanges)
    (same : obtained exchanges = obtained before) :
    Justified broker call approval exchanges decision asked classification where
  registered := justified.registered
  noPlaintext := justified.noPlaintext
  isParsed := justified.isParsed
  isContext := justified.isContext
  isCallHash := justified.isCallHash
  classified := justified.classified.mono within
  checked := justified.checked.mono within.subset
  grounds := justified.grounds.mono within.subset same
  recorded := by
    obtain ⟨eventId, now, stored⟩ := justified.recorded
    exact ⟨eventId, now, stored.mono within.subset⟩

/-- Whatever the collaborators answer, raise or leave open, a request allows a justified call only. -/
theorem request_allows_justified {given : Option (ToolCall py)}
    (ends : (broker.request given approval).Ends exchanges (.returned decision)) (allowed : decision.verdict = .allow) :
    ∃ call, given = some call ∧ ∃ asked classification,
      Justified broker call approval exchanges decision asked classification := by
  rcases request_ends ends with ⟨call, correlationId, before, after, rfl, rfl, quiet, isIts⟩ | ⟨-, withheld⟩
  · refine ⟨call, rfl, ?_⟩
    obtain ⟨body, tail, admitted, rfl, ⟨made, admitted', decides, settles⟩ | ⟨other, -, -⟩⟩ := requestWith_ends isIts
    · rcases settle_runs settles with ⟨isAllowed, same, rfl⟩ | ⟨-, withheld, -⟩
      · cases same
        obtain ⟨asked, classification, justified⟩ := (decided_returns decides).1 isAllowed
        refine ⟨asked, classification, justified.mono ?_ ?_⟩
        · rw [append_nil]
          exact (suffix_append _ _).isInfix
        · rw [append_nil, obtained_append, quiet, nil_append]
      · exact absurd allowed (withheld decision rfl).not_allowed
    · exact absurd rfl (other decision)
  · exact absurd allowed (withheld decision rfl).not_allowed

end Request

/-! ### A call that is allowed -/

theorem pathArgument_length : 1 ≤ 4096 ∧ 4096 ≤ maxTextLength := by decide

theorem pathArgument_range :
    -2 ^ 31 ≤ (-2 ^ 31 : ℤ) ∧ (-2 ^ 31 : ℤ) ≤ 2 ^ 31 - 1 ∧ (2 ^ 31 - 1 : ℤ) ≤ 2 ^ 31 - 1 := by decide

def pathArgument : ArgumentSpec where
  kind := .path
  maxLength_bound := pathArgument_length
  range_bound := pathArgument_range

/-- What a tool that writes a file of a repository declares. -/
def writeFields : SpecFields where
  name := "files.write"
  capabilities := [.write]
  authzCapability := .projectRepoWrite
  arguments := [(lit "path", pathArgument)]

theorem writeFields_accepted : writeFields.refusal = none := by decide

def writeTool : ToolSpec := ⟨writeFields, nodup_singleton _, writeFields_accepted⟩

theorem hour_bound : minApprovalTtl ≤ 3600 * 10 ^ 6 ∧ 3600 * 10 ^ 6 ≤ maxApprovalTtl := by decide

def writingBroker : ToolBroker where
  registry := ⟨[writeTool], nodup_singleton _⟩
  limits := OpenLimits.default
  approvalTtl_bound := hour_bound

theorem workRoot_canonical : normalisePath Stdlib.ascii (lit "/w") none = .ok (lit "/w") ∧ lit "/w" ≠ lit "/" := by
  decide

def workRoot : CanonicalPath Stdlib.ascii := ⟨lit "/w", workRoot_canonical⟩

theorem no_acl_own (own : Authz.RepoAcl) (isAcl : none = some own) : own.repoId = 7 ∧ own.projectId = 1 := by
  cases isAcl

def writableFields : ScopeFields Stdlib.ascii where
  pathRoots := [workRoot]
  hosts := []
  projects := [(1, .active)]
  credentialHandles := []
  repositories := [⟨7, 1, some workRoot, none, [], some .working, no_acl_own⟩]
  excludedRepositories := []
  excludedPaths := []

theorem writableFields_valid : writableFields.Valid := by decide

def writableScope : TaskScope Stdlib.ascii := ⟨writableFields, writableFields_valid⟩

theorem writableScope_project : (writableScope.project 1).isSome = true := by decide

theorem firstLease_entryId : checkEntryId 1 = .ok () := rfl

theorem firstLease_workerId : checkWorkerId (lit "w") = .ok () := rfl

theorem firstLease_claimCount : checkClaimCount 1 = .ok () := rfl

def firstLease : QueueLease := ⟨1, lit "w", 1, firstLease_entryId, firstLease_workerId, firstLease_claimCount⟩

theorem agent_not_delegator : (5 : Uuid) ≠ 4 := by decide

def writeCall : ToolCall Platform.ascii where
  tool := some (lit "files.write")
  arguments := some [(some (lit "path"), .text (lit "/w/x"))]
  context :=
    { taskId := 3, delegatorId := 4, grant := ⟨5, [.projectRepoWrite], none⟩, scope := writableScope
      primaryProjectId := 1, run := .first, lease := firstLease
      primary_own := writableScope_project, agent_not_user := agent_not_delegator }
  correlationId := some 6

/-- Collaborators that answer, and allow. -/
def willing : (question : Question Platform.ascii) → Outcome Failure question.Reply
  | .clock => .returned (0 : ℤ)
  | .newId => .returned (9 : Uuid)
  | .resolve path => .returned (some path)
  | .authorizeAgentAction _ _ capability _ _ => .returned (some ⟨true, .grantedByProjectRole, some capability⟩)
  | .workingSetAcl _ => .returned none
  | .checkBudget .. => .returned (some .withinBudget)
  | .checkLease .. => .returned (some .held)
  | .checkTask .. => .returned (some .active)
  | .admitRepositoryUse .. => .returned (some (8 : Uuid))
  | .releaseRepositoryUse .. => .returned ()
  | .openRequest .. => .returned none
  | .consume .. => .returned (some .consumed)
  | .activeGrants .. => .returned ⟨[], false⟩
  | .useGrant .. => .returned (some .used)
  | .record _ => .returned ()
  | .notify .. => .returned ()

/-- The write is allowed on the strength of their answers. -/
theorem writeCall_justified : ∃ exchanges decision,
    (writingBroker.request (some writeCall) none).Ends exchanges (.returned decision) ∧ decision.verdict = .allow ∧
      ∃ call, some writeCall = some call ∧ ∃ asked classification,
        Justified writingBroker call none exchanges decision asked classification := by
  have runs : ((writingBroker.request (some writeCall) none).run willing).2.any BrokerDecision.allowed = true := by
    decide
  have ends := Program.ends_run willing (writingBroker.request (some writeCall) none)
  obtain ⟨decision, isDecision, allowed⟩ := Outcome.exists_of_any runs
  rw [isDecision] at ends
  have isAllowed : decision.verdict = .allow := of_decide_eq_true allowed
  exact ⟨_, decision, ends, isAllowed, request_allows_justified ends isAllowed⟩

end PawBackend.Tools
