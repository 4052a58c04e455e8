/-
**What the parts of a request were told** (`tools/broker.py`).

One lemma for each part: where it lets the call go on, what the collaborators answered it.
-/

import PawBackend.Tools.Broker

namespace PawBackend.Tools

open Lib Lib.Text Lib.Action List
open Authz (Capability Decision Reason Resource)
open Tasks (marksChanged)

variable {py : Platform}

/-- In this run the question was asked, and answered so. -/
def Told (exchanges : Exchanges py) (question : Question py) (answer : question.Reply) : Prop :=
  ⟨question, .returned answer⟩ ∈ exchanges

namespace Told

variable {before after exchanges : Exchanges py} {question : Question py} {answer : question.Reply}

theorem mono (told : Told before question answer) (within : before ⊆ exchanges) : Told exchanges question answer :=
  within told

theorem left (told : Told before question answer) : Told (before ++ after) question answer :=
  told.mono (subset_append_left _ _)

theorem right (told : Told after question answer) : Told (before ++ after) question answer :=
  told.mono (subset_append_right _ _)

end Told

section Parts

variable {s s' : List Uuid} {exchanges : Exchanges py} {asked : Asked py} {context : TaskContext py}
  {classification : Classification} {level : ApprovalLevel} {decision : BrokerDecision py}

/-! ### The checks -/

theorem told_of_leaseDenial (runs : Runs (leaseDenial context) s exchanges (.returned none) s') :
    Told exchanges (.checkLease context.taskId context.lease) (some .held) := by
  obtain ⟨answer, mid, before, after, rfl, isAnswer, rest⟩ := returns_bind.mp runs
  obtain ⟨rfl, rfl⟩ := returns_attempt_ask.mp isAnswer
  split at rest
  · exact Told.left mem_cons_self
  · cases (returns_pure.mp rest).2.1
  · cases (returns_pure.mp rest).2.1

theorem told_of_budgetDenial {tool : String}
    (runs : Runs (budgetDenial context tool) s exchanges (.returned none) s') :
    Told exchanges (.checkBudget context.taskId tool) (some .withinBudget) := by
  obtain ⟨answer, mid, before, after, rfl, isAnswer, rest⟩ := returns_bind.mp runs
  obtain ⟨rfl, rfl⟩ := returns_attempt_ask.mp isAnswer
  split at rest
  · exact Told.left mem_cons_self
  · cases (returns_pure.mp rest).2.1
  · cases (returns_pure.mp rest).2.1
  · cases (returns_pure.mp rest).2.1

theorem told_of_recordEvent {event : AuditEvent}
    (runs : Runs (recordEvent event : Asks py Bool) s exchanges (.returned true) s') :
    Told exchanges (.record event) () := by
  obtain ⟨answer, mid, before, after, rfl, isAnswer, rest⟩ := returns_bind.mp runs
  obtain ⟨rfl, rfl⟩ := returns_attempt_ask.mp isAnswer
  cases answer with
  | ok answer => exact Told.left mem_cons_self
  | error failure => cases (returns_pure.mp rest).2.1

theorem told_of_decideAll {correlationId : Uuid} {requests : List (Capability × Resource)}
    (runs : Runs (decideAll context correlationId requests) s exchanges (.returned none) s') :
    ∀ request ∈ requests, ∃ answer : Decision, answer.allowed = true ∧
      Told exchanges (.authorizeAgentAction context.delegatorId context.grant request.1 request.2 correlationId)
        (some answer) := by
  induction requests generalizing s exchanges with
  | nil => exact fun request mem => absurd mem not_mem_nil
  | cons first others ih =>
    obtain ⟨answer, mid, before, after, rfl, isAnswer, rest⟩ := returns_bind.mp runs
    obtain ⟨rfl, rfl⟩ := returns_attempt_ask.mp isAnswer
    split at rest
    · cases (returns_pure.mp rest).2.1
    · cases (returns_pure.mp rest).2.1
    · rename_i answer
      split_ifs at rest with allowed
      · intro request mem
        rcases mem_cons.mp mem with rfl | mem
        · exact ⟨answer, allowed, Told.left mem_cons_self⟩
        · obtain ⟨other, isAllowed, told⟩ := ih rest request mem
          exact ⟨other, isAllowed, told.right⟩
      · cases (returns_pure.mp rest).2.1

theorem exists_of_mem_mapM_option {α β : Type} {f : α → Option β} {values : List α} {results : List β}
    (all : values.mapM f = some results) {a : α} (mem : a ∈ values) : ∃ b ∈ results, f a = some b := by
  induction values generalizing results with
  | nil => cases mem
  | cons first others ih =>
    rw [mapM_cons, Option.bind_eq_bind, Option.bind_eq_some_iff] at all
    obtain ⟨b, isFirst, rest⟩ := all
    rw [Option.bind_eq_bind, Option.bind_eq_some_iff] at rest
    obtain ⟨bs, areOthers, same⟩ := rest
    cases same
    rcases mem_cons.mp mem with rfl | mem
    · exact ⟨b, mem_cons_self, isFirst⟩
    · obtain ⟨b', among, isIts⟩ := ih areOthers mem
      exact ⟨b', mem_cons_of_mem _ among, isIts⟩

theorem mem_resources {found : List Resource} (all : resources asked classification = some (.ok found))
    (isOf : asked.spec.authzCapability.repoPermission.isSome = true) {repoId : Uuid}
    (touched : repoId ∈ classification.repositories) :
    ∃ resource ∈ found, scopedResource asked.context.scope repoId = some resource := by
  obtain ⟨permission, isPermission⟩ := Option.isSome_iff_exists.mp isOf
  unfold resources at all
  simp only [Authz.Capability.scope_of_repoPermission isPermission, if_pos isOf, Option.bind_eq_bind,
    Option.bind_eq_some_iff] at all
  obtain ⟨own, areOwn, rest⟩ := all
  split_ifs at rest with nothing
  · cases rest
  · simp only [Option.bind_eq_some_iff] at rest
    obtain ⟨named, -, others, -, same⟩ := rest
    cases same
    obtain ⟨resource, mem, isIts⟩ := exists_of_mem_mapM_option areOwn touched
    exact ⟨resource, mem_append_left _ mem, isIts⟩

theorem told_of_authorizationDenial
    (runs : Runs (authorizationDenial asked classification) s exchanges (.returned none) s')
    (isOf : asked.spec.authzCapability.repoPermission.isSome = true) {repoId : Uuid}
    (touched : repoId ∈ classification.repositories) :
    ∃ resource, scopedResource asked.context.scope repoId = some resource ∧
      ∃ answer : Decision, answer.allowed = true ∧
        Told exchanges (.authorizeAgentAction asked.context.delegatorId asked.context.grant
          asked.spec.authzCapability resource asked.correlationId) (some answer) := by
  unfold authorizationDenial at runs
  split at runs
  · -- A tool that changes the Working Set has no capability about a single repository.
    rename_i operation changes
    rw [asked.spec.manages changes] at isOf
    cases isOf
  · split at runs
    · cases (returns_pure.mp runs).2.1
    · obtain ⟨found, mid, before, after, rfl, isFound, rest⟩ := returns_bind.mp runs
      obtain ⟨rfl, areResources, rfl⟩ := returns_orRaise.mp isFound
      cases found with
      | error reason => cases (returns_pure.mp rest).2.1
      | ok found =>
        obtain ⟨resource, mem, isIts⟩ := mem_resources areResources isOf touched
        exact ⟨resource, isIts, told_of_decideAll rest (asked.spec.authzCapability, resource)
          (mem_map_of_mem mem)⟩

/-! ### Decisions that do not allow -/

/-- A decision that neither lets a call run nor holds a reservation. -/
structure BrokerDecision.Withheld (decision : BrokerDecision py) : Prop where
  not_allowed : decision.verdict ≠ .allow
  no_reservation : decision.reservationId = none

theorem withheld_refuse (asked : Asked py) (reason : BrokerReason) (level : ApprovalLevel) (approvalId : Option Uuid)
    (authzReason : Option Reason) : (asked.refuse reason level approvalId authzReason).Withheld :=
  ⟨nofun, rfl⟩

theorem withheld_needsApproval (asked : Asked py) (level : ApprovalLevel) (reason : BrokerReason) (approvalId : Uuid) :
    (asked.needsApproval level reason approvalId).Withheld :=
  ⟨nofun, rfl⟩

theorem withheld_notConsumed (asked : Asked py) (level : ApprovalLevel) (approvalId : Uuid)
    (outcome : Option ConsumeOutcome) : (ToolBroker.notConsumed asked level approvalId outcome).Withheld := by
  unfold ToolBroker.notConsumed
  split
  · exact withheld_needsApproval _ _ _ _
  all_goals exact withheld_refuse _ _ _ _ _

variable {broker : ToolBroker}

theorem withheld_of_opened {now : Instant} {result : OpenResult (RequestDetails py)}
    (runs : Runs (broker.opened asked level now result) s exchanges (.returned decision) s') :
    decision.Withheld := by
  unfold ToolBroker.opened at runs
  split at runs
  · obtain ⟨-, rfl, -⟩ := returns_pure.mp runs
    exact withheld_refuse _ _ _ _ _
  · split at runs
    · obtain ⟨-, rfl, -⟩ := returns_pure.mp runs
      exact withheld_refuse _ _ _ _ _
    · by_cases created : result.outcome = .created
      · rw [if_pos created] at runs
        obtain ⟨-, mid, before, after, rfl, -, rest⟩ := returns_bind.mp runs
        obtain ⟨-, rfl, -⟩ := returns_pure.mp rest
        exact withheld_needsApproval _ _ _ _
      · rw [if_neg created] at runs
        obtain ⟨-, rfl, -⟩ := returns_pure.mp runs
        exact withheld_needsApproval _ _ _ _

theorem withheld_of_openApproval {pattern : Option GrantPattern}
    (runs : Runs (broker.openApproval asked level pattern) s exchanges (.returned decision) s') :
    decision.Withheld := by
  obtain ⟨now, mid, before, after, rfl, -, rest⟩ := returns_bind.mp runs
  split_ifs at rest with empty
  · obtain ⟨-, rfl, -⟩ := returns_pure.mp rest
    exact withheld_refuse _ _ _ _ _
  · obtain ⟨approvalId, mid, before, after, rfl, -, rest⟩ := returns_bind.mp rest
    split at rest
    · obtain ⟨-, rfl, -⟩ := returns_pure.mp rest
      exact withheld_refuse _ _ _ _ _
    · obtain ⟨answer, mid, before, after, rfl, -, rest⟩ := returns_bind.mp rest
      split at rest
      · exact withheld_of_opened rest
      · obtain ⟨-, rfl, -⟩ := returns_pure.mp rest
        exact withheld_refuse _ _ _ _ _

end Parts

/-! ### Reservations -/

def reservationOf : Exchange (Question py) (Question.Reply py) Failure → Option Uuid
  | ⟨.admitRepositoryUse .., .returned reservation⟩ => reservation
  | _ => none

def obtained (exchanges : Exchanges py) : List Uuid := exchanges.filterMap reservationOf

theorem obtained_append (before after : Exchanges py) : obtained (before ++ after) = obtained before ++ obtained after :=
  filterMap_append

/-- The run was given this reservation, and then passed it to the gate to release it. -/
def ReleasedAfter (taskId : Uuid) (exchanges : Exchanges py) (reservation : Uuid) : Prop :=
  ∃ before after reply, exchanges = before ++ after ∧ reservation ∈ obtained before ∧
    ⟨.releaseRepositoryUse taskId reservation, reply⟩ ∈ after

namespace ReleasedAfter

variable {taskId reservation : Uuid} {exchanges : Exchanges py}

theorem left (released : ReleasedAfter taskId exchanges reservation) (more : Exchanges py) :
    ReleasedAfter taskId (exchanges ++ more) reservation := by
  obtain ⟨before, after, reply, rfl, given, passed⟩ := released
  exact ⟨before, after ++ more, reply, append_assoc .., given, mem_append_left _ passed⟩

theorem right (released : ReleasedAfter taskId exchanges reservation) (more : Exchanges py) :
    ReleasedAfter taskId (more ++ exchanges) reservation := by
  obtain ⟨before, after, reply, rfl, given, passed⟩ := released
  refine ⟨more ++ before, after, reply, (append_assoc ..).symm, ?_, passed⟩
  rw [obtained_append]
  exact mem_append_right _ given

end ReleasedAfter

/-! ### Parts that are given no reservation -/

/-- Nothing is reserved, and what was is remembered. -/
def Quiet (s : List Uuid) (exchanges : Exchanges py) (s' : List Uuid) : Prop := obtained exchanges = [] ∧ s' = s

theorem quiet_composes : Composes (@Quiet py) where
  nil s := ⟨rfl, rfl⟩
  append := by
    rintro s before mid after s' ⟨first, rfl⟩ ⟨second, rfl⟩
    exact ⟨by rw [obtained_append, first, second]; rfl, rfl⟩

theorem quiet_wait {question : Question py} (other : ∀ reply, reservationOf ⟨question, reply⟩ = none) :
    Always Quiet (wait question) := by
  intro s exchanges outcome s' runs
  obtain ⟨rfl, rfl⟩ := runs_ask.mp runs
  exact ⟨filterMap_cons_none (other outcome), rfl⟩

section Quiet

variable (asked : Asked py) (context : TaskContext py) (classification : Classification) (level : ApprovalLevel)

theorem quiet_recordEvent (event : AuditEvent) : Always Quiet (recordEvent event : Asks py Bool) := by
  refine quiet_composes.bind (quiet_wait fun _ => rfl).attempt fun answer => ?_
  cases answer with
  | ok | error => exact quiet_composes.pure _

theorem quiet_audited (decision : BrokerDecision py) : Always Quiet (audited decision context) := by
  refine quiet_composes.bind (quiet_wait fun _ => rfl) fun now => ?_
  refine quiet_composes.bind (quiet_wait fun _ => rfl) fun eventId => ?_
  refine quiet_composes.bind (quiet_recordEvent _) fun recorded => ?_
  split_ifs
  · exact quiet_composes.pure _
  · exact quiet_composes.pure _

theorem quiet_decideAll (correlationId : Uuid) (requests : List (Capability × Resource)) :
    Always Quiet (decideAll context correlationId requests) := by
  induction requests with
  | nil => exact quiet_composes.pure _
  | cons request others ih =>
    refine quiet_composes.bind (quiet_wait fun _ => rfl).attempt fun answer => ?_
    split
    · exact quiet_composes.pure _
    · exact quiet_composes.pure _
    · split_ifs
      · exact ih
      · exact quiet_composes.pure _

theorem quiet_authorizeWorkingSet (operation : Tasks.WorkingSetOperation) :
    Always Quiet (authorizeWorkingSet asked operation) := by
  refine quiet_composes.bind (quiet_composes.orRaise _ _) fun repoId => ?_
  dsimp only
  split_ifs
  · exact quiet_composes.pure _
  · exact quiet_composes.pure _
  · refine quiet_composes.bind (quiet_wait fun _ => rfl).attempt fun found => ?_
    split
    · exact quiet_composes.pure _
    · split
      · exact quiet_composes.pure _
      · split_ifs
        · exact quiet_composes.pure _
        · exact quiet_composes.bind (quiet_composes.orRaise _ _) fun proxy =>
            quiet_composes.bind (quiet_composes.orRaise _ _) fun primary => quiet_decideAll _ _ _

theorem quiet_authorizationDenial : Always Quiet (authorizationDenial asked classification) := by
  unfold authorizationDenial
  split
  · exact quiet_authorizeWorkingSet _ _
  · split
    · exact quiet_composes.pure _
    · refine quiet_composes.bind (quiet_composes.orRaise _ _) fun found => ?_
      cases found with
      | error reason => exact quiet_composes.pure _
      | ok resources => exact quiet_decideAll _ _ _

theorem quiet_budgetDenial (tool : String) : Always Quiet (budgetDenial context tool) := by
  refine quiet_composes.bind (quiet_wait fun _ => rfl).attempt fun answer => ?_
  split
  all_goals exact quiet_composes.pure _

theorem quiet_leaseDenial : Always Quiet (leaseDenial context) := by
  refine quiet_composes.bind (quiet_wait fun _ => rfl).attempt fun answer => ?_
  split
  all_goals exact quiet_composes.pure _

theorem quiet_taskDenial : Always Quiet (taskDenial context) := by
  refine quiet_composes.bind (quiet_wait fun _ => rfl).attempt fun answer => ?_
  split
  all_goals exact quiet_composes.pure _

theorem quiet_release (reservation : Uuid) : Always Quiet (release context reservation) :=
  quiet_composes.bind (quiet_wait fun _ => rfl).attempt fun _ => quiet_composes.pure _

theorem quiet_releaseAny (reservation : Option Uuid) : Always Quiet (releaseAny context reservation) := by
  cases reservation with
  | none => exact quiet_composes.pure _
  | some reservation => exact quiet_release _ _

theorem quiet_emitFrom (event : ApprovalEvent) (first left : ℕ) :
    Always Quiet (emitFrom event first left : Asks py Unit) := by
  induction left generalizing first with
  | zero => exact quiet_composes.pure _
  | succ left ih => exact quiet_composes.bind (quiet_wait fun _ => rfl).attempt fun _ => ih _

variable (broker : ToolBroker)

theorem quiet_openResult (now : Instant) (result : OpenResult (RequestDetails py)) :
    Always Quiet (broker.opened asked level now result) := by
  unfold ToolBroker.opened
  split
  · exact quiet_composes.pure _
  · split
    · exact quiet_composes.pure _
    · by_cases created : result.outcome = .created
      · rw [if_pos created]
        exact quiet_composes.bind (quiet_emitFrom _ _ _) fun _ => quiet_composes.pure _
      · rw [if_neg created]
        exact quiet_composes.pure _

theorem quiet_openApproval (pattern : Option GrantPattern) : Always Quiet (broker.openApproval asked level pattern) := by
  refine quiet_composes.bind (quiet_wait fun _ => rfl) fun now => ?_
  split_ifs
  · exact quiet_composes.pure _
  · refine quiet_composes.bind (quiet_wait fun _ => rfl) fun approvalId => ?_
    split
    · exact quiet_composes.pure _
    · refine quiet_composes.bind (quiet_wait fun _ => rfl).attempt fun answer => ?_
      split
      · exact quiet_openResult _ _ _ _ _
      · exact quiet_composes.pure _

theorem quiet_useGrant (grant : TaskGrantRecord) (reservation : Option Uuid) :
    Always Quiet (ToolBroker.useGrant asked level grant reservation) := by
  refine quiet_composes.bind (quiet_wait fun _ => rfl) fun now => ?_
  refine quiet_composes.bind (quiet_wait fun _ => rfl).attempt fun outcome => ?_
  split_ifs
  · refine quiet_composes.bind (quiet_wait fun _ => rfl) fun eventId => ?_
    refine quiet_composes.bind (quiet_recordEvent _) fun recorded => ?_
    split_ifs
    · exact quiet_composes.pure _
    · exact quiet_composes.bind (quiet_releaseAny _ _) fun _ => quiet_composes.pure _
  · exact quiet_composes.bind (quiet_releaseAny _ _) fun _ => quiet_composes.pure _

theorem quiet_firstGrant (pattern : GrantPattern) (listing : GrantListing) :
    Always Quiet (ToolBroker.firstGrant asked pattern listing) := by
  unfold ToolBroker.firstGrant
  split
  · exact quiet_composes.pure _
  · split_ifs
    · exact quiet_composes.raise _
    · exact quiet_composes.pure _

theorem quiet_consumeApproval (approvalId : Uuid) (reservation : Option Uuid) :
    Always Quiet (broker.consumeApproval asked level approvalId reservation) := by
  refine quiet_composes.bind (quiet_wait fun _ => rfl) fun now => ?_
  refine quiet_composes.bind (quiet_wait fun _ => rfl).attempt fun outcome => ?_
  split_ifs
  · exact quiet_composes.bind (quiet_emitFrom _ _ _) fun _ => quiet_composes.pure _
  · exact quiet_composes.pure _

theorem quiet_resolvePathAsking (path : Text) : Always Quiet (ToolBroker.resolvePathAsking path : Asks py Text) :=
  quiet_composes.bind (quiet_wait fun _ => rfl).attempt fun _ => quiet_composes.orRaise _ _

theorem quiet_resolve (scope : TaskScope py.toStdlib) (targets : List Target) :
    Always Quiet (scope.resolve (@ToolBroker.resolvePathAsking py) targets) := by
  unfold TaskScope.resolve
  dsimp only
  split_ifs
  · exact quiet_composes.pure _
  · refine quiet_composes.bind (quiet_composes.mapM fun _ _ => quiet_resolvePathAsking _) fun roots => ?_
    refine quiet_composes.bind (quiet_composes.mapM fun _ _ =>
      quiet_composes.bind (quiet_resolvePathAsking _) fun _ => quiet_composes.pure _) fun repositoryRoots => ?_
    refine quiet_composes.bind (quiet_composes.mapM fun _ _ => quiet_resolvePathAsking _) fun excludedRoots => ?_
    refine quiet_composes.bind (quiet_composes.mapM fun _ _ =>
      quiet_composes.bind (quiet_resolvePathAsking _) fun _ => quiet_composes.pure _) fun excludedPaths => ?_
    exact quiet_composes.bind (quiet_composes.mapM fun _ _ => quiet_resolvePathAsking _) fun resolved =>
      quiet_composes.pure _

theorem quiet_classifyAsking : Always Quiet (ToolBroker.classifyAsking asked) :=
  quiet_composes.bind (quiet_resolve _ _) fun _ => quiet_composes.orRaise _ _

theorem quiet_workingSetTaskDenial : Always Quiet (ToolBroker.workingSetTaskDenial asked) := by
  unfold ToolBroker.workingSetTaskDenial
  split_ifs
  · exact quiet_taskDenial _
  · exact quiet_composes.pure _

theorem quiet_requiredBudgetDenial : Always Quiet (ToolBroker.requiredBudgetDenial asked) := by
  unfold ToolBroker.requiredBudgetDenial
  split_ifs
  · exact quiet_budgetDenial _ _
  · exact quiet_composes.pure _

theorem quiet_patternOf : Always Quiet (broker.patternOf asked classification level) := by
  unfold ToolBroker.patternOf
  split_ifs
  · exact quiet_composes.orRaise _ _
  · exact quiet_composes.pure _

end Quiet

end PawBackend.Tools
