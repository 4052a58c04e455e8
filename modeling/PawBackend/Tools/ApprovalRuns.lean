/-
**Approvals over whole runs.** Both stores obey the rules, so their approvals live by them. PostgreSQL
refuses a stored id, so its runs need no condition. The store in memory assigns the record of a request
to its id whatever stands there: its runs are those in which no request that passes all the checks carries
the id of a stored approval (`FreshId`).
-/

import PawBackend.Tools.StoreRules

namespace PawBackend.Tools

open Lib

variable {Δ : Type}

namespace InMemoryApprovalStore

def Accepts (cfg : MemoryConfig) (s : InMemoryApprovalStore Δ) (new : NewApproval Δ) (now : Instant)
    (limits : OpenLimits) (require : Bool) (activity : TaskActivity) : Prop :=
  Passes s new now limits (require && cfg.taskActivity) activity ∧
    s.records.rows.length < cfg.maxRecords ∧ now < new.expiresAt

def FreshId (cfg : MemoryConfig) (s : InMemoryApprovalStore Δ) : Call Δ → Prop
  | .openRequest new now _ limits require activity =>
    Accepts cfg s new now limits require activity → s.get new.approvalId = none
  | _ => True

instance (cfg : MemoryConfig) (s : InMemoryApprovalStore Δ) (new : NewApproval Δ) (now : Instant)
    (limits : OpenLimits) (require : Bool) (activity : TaskActivity) :
    Decidable (Accepts cfg s new now limits require activity) :=
  inferInstanceAs (Decidable (_ ∧ _ ∧ _))

instance (cfg : MemoryConfig) (s : InMemoryApprovalStore Δ) (call : Call Δ) :
    Decidable (FreshId cfg s call) :=
  match call with
  | .openRequest new now _ limits require activity =>
    inferInstanceAs (Decidable (Accepts cfg s new now limits require activity → _ = none))
  | .decide .. => isTrue trivial
  | .consume .. => isTrue trivial
  | .revoke .. => isTrue trivial
  | .revokeTask .. => isTrue trivial

theorem accepts_of_opens {cfg : MemoryConfig} {s : InMemoryApprovalStore Δ} {call : Call Δ} {id : Uuid}
    (opens : Opens call ((model cfg).apply s call).2 id) :
    ∃ new now waited limits require activity,
      call = .openRequest new now waited limits require activity ∧ new.approvalId = id ∧
        Accepts cfg s new now limits require activity := by
  obtain ⟨new, now, waited, limits, require, activity, found, rfl, answered, rfl⟩ := opens
  have answered : (s.openRequest cfg new now limits require activity).2 = .ok ⟨.created, found⟩ :=
    Answer.opened.inj answered
  refine ⟨new, now, waited, limits, require, activity, rfl, rfl, ?_⟩
  rcases openRequest_cases cfg s new now limits require activity with
    ⟨-, notCreated⟩ | ⟨u, creation, -⟩
  · exact absurd answered (notCreated found)
  · exact ⟨creation.passes, creation.room, creation.inTime⟩

theorem fresh_of_freshId {cfg : MemoryConfig} {s : InMemoryApprovalStore Δ} {call : Call Δ}
    (fresh : FreshId cfg s call) (id : Uuid) (opens : Opens call ((model cfg).apply s call).2 id) :
    ((model cfg).view s).record id = none := by
  obtain ⟨new, now, waited, limits, require, activity, rfl, rfl, accepts⟩ := accepts_of_opens opens
  exact fresh accepts

def freshRuns (cfg : MemoryConfig) : Machine (Trace (InMemoryApprovalStore Δ) Δ) (Call Δ) :=
  (model cfg).runs empty fun z call => FreshId cfg z.store call

end InMemoryApprovalStore

open InMemoryApprovalStore (FreshId freshRuns)

/-- In every state such a run reaches, the approvals have lived by the rules, and the next call keeps
to them. -/
theorem approvals_live_by_rules (cfg : MemoryConfig) {z : Trace (InMemoryApprovalStore Δ) Δ}
    (reach : (freshRuns cfg).Reachable z) :
    Lifecycle ((InMemoryApprovalStore.model cfg).view z.store) z.log z.changes ∧
      ∀ call, FreshId cfg z.store call →
        Advances ((InMemoryApprovalStore.model cfg).view z.store)
          ((InMemoryApprovalStore.model cfg).view (z.store.apply cfg call).1) z.log call
          (z.store.apply cfg call).2 := by
  have life : Lifecycle ((InMemoryApprovalStore.model cfg).view z.store) z.log z.changes :=
    StoreModel.lifecycle (fun _ => rfl) rfl (InMemoryApprovalStore.model_obeys cfg)
      (fun _ _ fresh => InMemoryApprovalStore.fresh_of_freshId fresh) reach
  exact ⟨life, fun call fresh => life.advances (InMemoryApprovalStore.model_obeys cfg z.store call)
    (InMemoryApprovalStore.fresh_of_freshId fresh)⟩

/-- A push that user 3 is asked about by agent 2, at a minute's notice. -/
def pushRequest (id : Uuid) (callHash : CallHash) : NewApproval Unit where
  approvalId := id
  taskId := 1
  taskRun := .first
  agentId := 2
  requesterUserId := 3
  tool := "git.push"
  level := .strongApproval
  callHash := callHash
  expiresAt := 60 * 10 ^ 6
  details := ()

def inMemoryAfter (calls : List (Call Unit)) : Trace (InMemoryApprovalStore Unit) Unit :=
  calls.foldl (InMemoryApprovalStore.model {}).next ⟨.empty, [], fun _ => []⟩

/-- A push is asked for, approved with a step-up, and used. -/
def pushCalls : List (Call Unit) :=
  [.openRequest (pushRequest 7 11) 0 0 .default true .active, .decide 7 3 true 1 true,
    .consume 7 (pushRequest 7 11).binding 2 0 true .active]

theorem push_live_by_rules :
    ((InMemoryApprovalStore.model {}).view (inMemoryAfter pushCalls).store).status 7 =
        some .consumed ∧
      Lifecycle ((InMemoryApprovalStore.model {}).view (inMemoryAfter pushCalls).store)
        (inMemoryAfter pushCalls).log (inMemoryAfter pushCalls).changes := by
  have reach : (freshRuns {}).Reachable (inMemoryAfter pushCalls) :=
    (((Machine.Reachable.start rfl).next (StoreModel.step_runs (by decide))).next
      (StoreModel.step_runs (by decide))).next (StoreModel.step_runs (by decide))
  exact ⟨by decide, (approvals_live_by_rules {} reach).1⟩

def refusedCalls : List (Call Unit) :=
  [.openRequest (pushRequest 7 11) 0 0 .default false .active, .decide 7 3 false 1 false]

/-- Another push is asked for under the id of the refused one, which is pending again. -/
theorem refused_push_reopened :
    ¬ ∀ z, ((InMemoryApprovalStore.model {}).runs (.empty : InMemoryApprovalStore Unit)
        fun _ _ => True).Reachable z →
      Lifecycle ((InMemoryApprovalStore.model {}).view z.store) z.log z.changes ∧
        ∀ call, Advances ((InMemoryApprovalStore.model {}).view z.store)
          ((InMemoryApprovalStore.model {}).view (z.store.apply {} call).1) z.log call
          (z.store.apply {} call).2 := by
  intro claim
  have reach : ((InMemoryApprovalStore.model {}).runs (.empty : InMemoryApprovalStore Unit)
      fun _ _ => True).Reachable (inMemoryAfter refusedCalls) :=
    ((Machine.Reachable.start rfl).next (StoreModel.step_runs trivial)).next
      (StoreModel.step_runs trivial)
  have advances := (claim _ reach).2 (.openRequest (pushRequest 7 12) 2 0 .default false .active)
  have final := advances.final 7
    (((pushRequest 7 11).record 0).decide 3 false 1 false) (by decide) (Or.inl rfl)
  revert final
  decide

/-- **The approvals in PostgreSQL live by the rules** in every run, whatever is called. -/
theorem stored_approvals_live_by_rules (arrange : List Uuid → List Uuid)
    {z : Trace (PostgresApprovalStore Δ) Δ}
    (reach : ((PostgresApprovalStore.model arrange).runs .empty fun _ _ => True).Reachable z) :
    Lifecycle ((PostgresApprovalStore.model arrange).view z.store) z.log z.changes ∧
      ∀ call, Advances ((PostgresApprovalStore.model arrange).view z.store)
        ((PostgresApprovalStore.model arrange).view (z.store.apply arrange call).1) z.log call
        (z.store.apply arrange call).2 := by
  have life : Lifecycle ((PostgresApprovalStore.model arrange).view z.store) z.log z.changes :=
    StoreModel.lifecycle (fun _ => rfl) rfl (PostgresApprovalStore.model_obeys arrange)
      (fun z call _ => PostgresApprovalStore.model_fresh arrange z.store call) reach
  exact ⟨life, fun call => life.advances (PostgresApprovalStore.model_obeys arrange z.store call)
    (PostgresApprovalStore.model_fresh arrange z.store call)⟩

def storedAfter (calls : List (Call Unit)) : Trace (PostgresApprovalStore Unit) Unit :=
  calls.foldl (PostgresApprovalStore.model id).next ⟨.empty, [], fun _ => []⟩

/-- The same push in PostgreSQL. -/
theorem stored_push_lives_by_rules :
    ((PostgresApprovalStore.model id).view (storedAfter pushCalls).store).status 7 = some .consumed ∧
      Lifecycle ((PostgresApprovalStore.model id).view (storedAfter pushCalls).store)
        (storedAfter pushCalls).log (storedAfter pushCalls).changes := by
  have reach : ((PostgresApprovalStore.model id).runs (.empty : PostgresApprovalStore Unit)
      fun _ _ => True).Reachable (storedAfter pushCalls) :=
    (((Machine.Reachable.start rfl).next (StoreModel.step_runs trivial)).next
      (StoreModel.step_runs trivial)).next (StoreModel.step_runs trivial)
  exact ⟨by decide, (stored_approvals_live_by_rules id reach).1⟩

end PawBackend.Tools
