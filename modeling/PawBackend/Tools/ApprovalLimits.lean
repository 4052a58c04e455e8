/-
**One open approval for a call, a cap for a task and user, and the cooldown of a rejection.** Every call
that obeys the rules keeps at most one approval of a call open (`Obeys.singleOpen`). A request is
created only below the cap. A rejection is remembered by the record it left: PostgreSQL never loses one,
and the store in memory only where an accepted request carries the id of an approval that was rejected
less than a cooldown ago (`SparesRejection` says that it does not).
-/

import PawBackend.Tools.ApprovalRuns

namespace PawBackend.Tools

open Lib

variable {σ Δ : Type}

/-! ### At most one open approval -/

def View.SingleOpen (v : View Δ) : Prop :=
  ∀ id other record record', v.record id = some record → v.record other = some record' →
    record.status.isOpen = true → record'.status.isOpen = true → record.callHash = record'.callHash →
    id = other

def OneOpen (approvals : Approvals Δ) : Prop :=
  ∀ record ∈ approvals.rows, ∀ other ∈ approvals.rows, record.status.isOpen = true →
    other.status.isOpen = true → record.callHash = other.callHash → record = other

theorem oneOpen_of_singleOpen {S : StoreModel σ Δ} {s : σ} (single : (S.view s).SingleOpen) :
    OneOpen (S.approvals s) := by
  intro record mem other member' isOpen isOpen' sameCall
  have found : (S.view s).record record.approvalId = some record := Keyed.get_self mem
  have found' : (S.view s).record other.approvalId = some other := Keyed.get_self member'
  have sameId := single _ _ record other found found' isOpen isOpen' sameCall
  rw [sameId, found'] at found
  exact (Option.some.inj found).symm

namespace Obeys

variable {v w : View Δ} {call : Call Δ} {answer : Answer Δ}

theorem wasOpen (obeys : Obeys v w call answer) {id : Uuid} {record : ApprovalRecord Δ}
    (other : ¬ Opens call answer id) (now : w.record id = some record)
    (isOpen : record.status.isOpen = true) :
    ∃ before, v.record id = some before ∧ before.status.isOpen = true ∧
      before.callHash = record.callHash := by
  rcases obeys.kept id other with same | ⟨before, after, was, now', moves⟩
  · exact ⟨record, same.symm.trans now, isOpen, rfl⟩
  · cases Option.some.inj (now.symm.trans now')
    refine ⟨before, was, ApprovalStatus.isOpen_of_leadsTo moves.leadsTo, ?_⟩
    exact (congrArg ApprovalBinding.callHash moves.granted_same.1).symm

theorem singleOpen (obeys : Obeys v w call answer) (single : v.SingleOpen) : w.SingleOpen := by
  intro id other record record' now now' isOpen isOpen' sameCall
  have unlessCreated : ∀ {id other record record'}, w.record id = some record →
      w.record other = some record' → record.status.isOpen = true → record'.status.isOpen = true →
      record.callHash = record'.callHash → Opens call answer id → id = other := by
    rintro id other record record' now now' isOpen isOpen' sameCall
      ⟨new, at_, waited, limits, require, activity, found, called, answered, rfl⟩
    obtain ⟨isNew, -, only, -⟩ := obeys.created _ _ _ _ _ _ _ called answered
    cases Option.some.inj (now.symm.trans isNew)
    exact (only other record' now' isOpen' sameCall.symm).symm
  by_cases opens : Opens call answer id
  · exact unlessCreated now now' isOpen isOpen' sameCall opens
  by_cases opens' : Opens call answer other
  · exact (unlessCreated now' now isOpen' isOpen sameCall.symm opens').symm
  obtain ⟨before, was, wasOpen, isCall⟩ := obeys.wasOpen opens now isOpen
  obtain ⟨before', was', wasOpen', isCall'⟩ := obeys.wasOpen opens' now' isOpen'
  exact single id other before before' was was' wasOpen wasOpen'
    (isCall.trans (sameCall.trans isCall'.symm))

end Obeys

theorem StoreModel.oneOpen {S : StoreModel σ Δ} {start : σ} {ok : Trace σ Δ → Call Δ → Prop}
    [∀ z call, Decidable (ok z call)] (noRecord : ∀ id, (S.approvals start).get id = none)
    (obeys : ∀ s call, Obeys (S.view s) (S.view (S.apply s call).1) call (S.apply s call).2)
    {z : Trace σ Δ} (reach : (S.runs start ok).Reachable z) : OneOpen (S.approvals z.store) := by
  refine oneOpen_of_singleOpen (reach.invariant (P := fun z => (S.view z.store).SingleOpen) ?_ ?_)
  · rintro z rfl id other record record' found
    have nothing : (S.view start).record id = none := noRecord id
    rw [nothing] at found
    cases found
  · intro z call z' _ single taken
    obtain ⟨-, rfl⟩ := StoreModel.of_step_runs taken
    exact (obeys z.store call).singleOpen single

/-! ### The cooldown of a rejection -/

def InOrder (limits : OpenLimits) (z : Trace σ Δ) (call : Call Δ) : Prop :=
  (∀ entry ∈ z.log, entry.1.now ≤ call.now) ∧
    match call with
    | .openRequest _ _ _ given _ _ => given = limits
    | _ => True

instance (limits : OpenLimits) (z : Trace σ Δ) (call : Call Δ) : Decidable (InOrder limits z call) :=
  match call with
  | .openRequest .. => inferInstanceAs (Decidable (_ ∧ _ = limits))
  | .decide .. => inferInstanceAs (Decidable (_ ∧ True))
  | .consume .. => inferInstanceAs (Decidable (_ ∧ True))
  | .revoke .. => inferInstanceAs (Decidable (_ ∧ True))
  | .revokeTask .. => inferInstanceAs (Decidable (_ ∧ True))

def View.Remembers (v : View Δ) (callHash : CallHash) (rejectedAt : Instant) : Prop :=
  ∃ id record, v.record id = some record ∧ record.status = .rejected ∧ record.callHash = callHash ∧
    record.decidedAt = some rejectedAt

def View.Cooling (v : View Δ) (limits : OpenLimits) (log : List (Call Δ × Answer Δ)) : Prop :=
  ∀ entry ∈ log, ∀ callHash rejectedAt, Rejects entry callHash rejectedAt →
    v.Remembers callHash rejectedAt ∨
      ∃ later ∈ log, rejectedAt ≤ later.1.now - limits.rejectionCooldown

def View.Spares (v : View Δ) (limits : OpenLimits) (call : Call Δ) (answer : Answer Δ) : Prop :=
  ∀ id, Opens call answer id → ∀ record, v.record id = some record → record.status = .rejected →
    ∀ decidedAt, record.decidedAt = some decidedAt → decidedAt ≤ call.now - limits.rejectionCooldown

section Cooldown

variable {v w : View Δ} {call : Call Δ} {answer : Answer Δ} {log : List (Call Δ × Answer Δ)}
  {limits : OpenLimits}

theorem Obeys.remembers (obeys : Obeys v w call answer) {callHash : CallHash} {rejectedAt : Instant}
    (rejects : Rejects (call, answer) callHash rejectedAt) : w.Remembers callHash rejectedAt := by
  obtain ⟨id, approver, stepUp, found, isEntry, isCall⟩ := rejects
  obtain ⟨isDecide, isAnswer⟩ := Prod.mk.inj isEntry
  obtain ⟨id', approver', approve, now, stepUp', before, called, -, -, isNow, isFound⟩ :=
    obeys.decided _ isAnswer
  rw [isDecide] at called
  obtain ⟨rfl, rfl, rfl, rfl, rfl⟩ := Call.decide.inj called
  cases Option.some.inj isFound
  exact ⟨id, _, isNow, rfl, isCall, rfl⟩

theorem View.Cooling.step (cooling : v.Cooling limits log) (obeys : Obeys v w call answer)
    (spares : v.Spares limits call answer) : w.Cooling limits (log ++ [(call, answer)]) := by
  intro entry mem callHash rejectedAt rejects
  rcases List.mem_append.mp mem with mem | mem
  · rcases cooling entry mem callHash rejectedAt rejects with
      ⟨id, record, was, isRejected, isCall, decided⟩ | ⟨later, isLater, ended⟩
    · by_cases opens : Opens call answer id
      · refine Or.inr ⟨(call, answer), List.mem_append_right _ (List.mem_singleton_self _), ?_⟩
        exact spares id opens record was isRejected rejectedAt decided
      · have closed : record.status.isOpen = false := by
          rw [isRejected]
          rfl
        exact Or.inl ⟨id, record, obeys.closed opens was closed, isRejected, isCall, decided⟩
    · exact Or.inr ⟨later, List.mem_append_left _ isLater, ended⟩
  · rw [List.mem_singleton] at mem
    subst mem
    exact Or.inl (obeys.remembers rejects)

theorem View.Cooling.created (cooling : v.Cooling limits log) (obeys : Obeys v w call answer)
    (inOrder : ∀ entry ∈ log, entry.1.now ≤ call.now) {new : NewApproval Δ} {now : Instant}
    (creates : Creates (call, answer) new now limits) :
    ∀ entry ∈ log, ∀ rejectedAt, Rejects entry new.callHash rejectedAt →
      rejectedAt ≤ now - limits.rejectionCooldown := by
  intro entry mem rejectedAt rejects
  obtain ⟨waited, require, activity, found, isEntry⟩ := creates
  obtain ⟨rfl, rfl⟩ := Prod.mk.inj isEntry
  rcases cooling entry mem new.callHash rejectedAt rejects with
    ⟨id, record, was, isRejected, isCall, decided⟩ | ⟨later, isLater, ended⟩
  · exact (obeys.created new now waited limits require activity found rfl rfl).2.2.2 id record rejectedAt
      was isRejected isCall decided
  · have notBefore : later.1.now ≤ now := inOrder later isLater
    exact ended.trans (Int.sub_le_sub_right notBefore _)

end Cooldown

theorem StoreModel.cooling {S : StoreModel σ Δ} {start : σ} {ok : Trace σ Δ → Call Δ → Prop}
    [∀ z call, Decidable (ok z call)] {limits : OpenLimits}
    (obeys : ∀ s call, Obeys (S.view s) (S.view (S.apply s call).1) call (S.apply s call).2)
    (spares : ∀ z call, ok z call → (S.view z.store).Spares limits call (S.apply z.store call).2)
    {z : Trace σ Δ} (reach : (S.runs start ok).Reachable z) :
    (S.view z.store).Cooling limits z.log := by
  refine reach.invariant (P := fun z => (S.view z.store).Cooling limits z.log) ?_ ?_
  · rintro z rfl entry mem
    cases mem
  · intro z call z' _ cooling taken
    obtain ⟨allowed, rfl⟩ := StoreModel.of_step_runs taken
    exact cooling.step (obeys z.store call) (spares z call allowed)

/-! ### The cap -/

def openCount (approvals : Approvals Δ) (taskId userId : Uuid) (now : Instant) : ℕ :=
  approvals.rows.countP (InMemoryApprovalStore.counts taskId userId now)

/-- What the answer `CREATED` means in a run: at the instant the request was judged at, its task and user
have at most `max_pending` open approvals, and no rejection of its call is younger than the cooldown. -/
def StoreModel.Limited (S : StoreModel σ Δ) (judged : Instant → ℕ → Instant) (limits : OpenLimits)
    (z : Trace σ Δ) (call : Call Δ) : Prop :=
  ∀ new now waited require activity found,
    call = .openRequest new now waited limits require activity →
    (S.apply z.store call).2 = .opened (.ok ⟨.created, found⟩) →
    openCount (S.approvals (S.apply z.store call).1) new.taskId new.requesterUserId
        (judged now waited) ≤ limits.maxPending ∧
      ∀ entry ∈ z.log, ∀ rejectedAt, Rejects entry new.callHash rejectedAt →
        rejectedAt ≤ now - limits.rejectionCooldown

namespace InMemoryApprovalStore

variable {cfg : MemoryConfig} {s u : InMemoryApprovalStore Δ} {new : NewApproval Δ} {now : Instant}
  {limits : OpenLimits} {asks : Bool} {activity : TaskActivity}

theorem Creation.capped (creation : Creation cfg s new now limits asks activity u) :
    openCount (u.records.put (new.record now)) new.taskId new.requesterUserId now ≤
      limits.maxPending := by
  have below := creation.passes.below
  have same : counts new.taskId new.requesterUserId now ∘ tidied new now asks = fun record =>
      Decidable.decide (record.taskId = new.taskId) &&
        Decidable.decide (record.requesterUserId = new.requesterUserId) &&
        survives new now asks record := by
    funext record
    exact counts_tidied new.taskId new.requesterUserId record
  rw [← same, ← List.countP_map, ← (perm_tidied creation.records).countP_eq] at below
  exact (Keyed.countP_put_le u.records (new.record now) _).trans below

theorem capped {require : Bool} {found : Option (ApprovalRecord Δ)}
    (created : (s.openRequest cfg new now limits require activity).2 = .ok ⟨.created, found⟩) :
    openCount (s.openRequest cfg new now limits require activity).1.records new.taskId
      new.requesterUserId now ≤ limits.maxPending := by
  rcases openRequest_cases cfg s new now limits require activity with
    ⟨-, notCreated⟩ | ⟨u, creation, isNow⟩
  · exact absurd created (notCreated found)
  · rw [isNow]
    exact creation.capped

def SparesRejection (cfg : MemoryConfig) (s : InMemoryApprovalStore Δ) : Call Δ → Prop
  | .openRequest new now _ limits require activity =>
    Accepts cfg s new now limits require activity →
      ∀ record ∈ s.get new.approvalId, record.status = .rejected →
        ∀ decidedAt ∈ record.decidedAt, decidedAt ≤ now - limits.rejectionCooldown
  | _ => True

instance (cfg : MemoryConfig) (s : InMemoryApprovalStore Δ) (call : Call Δ) :
    Decidable (SparesRejection cfg s call) :=
  match call with
  | .openRequest new now _ limits require activity =>
    inferInstanceAs (Decidable (Accepts cfg s new now limits require activity →
      ∀ record ∈ s.get new.approvalId, record.status = .rejected →
        ∀ decidedAt ∈ record.decidedAt, decidedAt ≤ now - limits.rejectionCooldown))
  | .decide .. => isTrue trivial
  | .consume .. => isTrue trivial
  | .revoke .. => isTrue trivial
  | .revokeTask .. => isTrue trivial

theorem spares {z : Trace (InMemoryApprovalStore Δ) Δ} {call : Call Δ}
    (inOrder : InOrder limits z call) (sparing : SparesRejection cfg z.store call) :
    ((model cfg).view z.store).Spares limits call ((model cfg).apply z.store call).2 := by
  intro id opens record was isRejected decidedAt decided
  obtain ⟨new, now, waited, limits', require, activity, rfl, rfl, accepts⟩ := accepts_of_opens opens
  obtain rfl : limits' = limits := inOrder.2
  exact sparing accepts record was isRejected decidedAt decided

end InMemoryApprovalStore

namespace PostgresApprovalStore

variable {t u : PostgresApprovalStore Δ} {new : NewApproval Δ} {now judged : Instant}
  {limits : OpenLimits} {require : Bool} {activity : TaskActivity}

theorem countsOpen_eq (taskId userId : Uuid) (judged : Instant) :
    (countsOpen taskId userId judged : ApprovalRecord Δ → Bool) =
      InMemoryApprovalStore.counts taskId userId judged := by
  funext row
  unfold countsOpen InMemoryApprovalStore.counts hasTask revocable ApprovalRecord.isExpired
  rw [Bool.and_assoc _ _ (!_)]
  congr 2
  rw [← decide_not]
  simp

theorem capped {found : Option (ApprovalRecord Δ)}
    (created : (openRequest new now judged limits require activity openAttempts t).2 =
      .ok ⟨.created, found⟩) :
    openCount (openRequest new now judged limits require activity openAttempts t).1.approvals new.taskId
      new.requesterUserId judged ≤ limits.maxPending := by
  rcases openRequest_cases t new now judged limits require activity with
    ⟨-, notCreated⟩ | ⟨u, insertion, fresh, isNow⟩
  · exact absurd created (notCreated found)
  · have below := insertion.below
    rw [countsOpen_eq] at below
    rw [isNow]
    show (u.approvals.rows ++ [new.record now]).countP _ ≤ _
    rw [List.countP_append]
    exact (Nat.add_le_add_left List.countP_le_length _).trans below

theorem spares (arrange : List Uuid → List Uuid) (call : Call Δ) :
    ((model arrange).view t).Spares limits call ((model arrange).apply t call).2 := by
  intro id opens record was
  rw [model_fresh arrange t call id opens] at was
  cases was

end PostgresApprovalStore

/-! ### Both stores -/

open InMemoryApprovalStore (SparesRejection)

/-- In every run of either store at most one approval of a call is open. With times in order and fixed
limits, every answer `CREATED` is within the cap and after the cooldown: always in PostgreSQL, and in
memory where no accepted request carries the id of an approval rejected less than a cooldown ago. -/
theorem open_approvals_limited (cfg : MemoryConfig) (arrange : List Uuid → List Uuid)
    (limits : OpenLimits) :
    ((∀ z, ((InMemoryApprovalStore.model (Δ := Δ) cfg).runs .empty fun _ _ => True).Reachable z →
        OneOpen z.store.records) ∧
      ∀ z, ((InMemoryApprovalStore.model (Δ := Δ) cfg).runs .empty fun z call =>
          InOrder limits z call ∧ SparesRejection cfg z.store call).Reachable z →
        ∀ call, InOrder limits z call →
          (InMemoryApprovalStore.model cfg).Limited (fun now _ => now) limits z call) ∧
    (∀ z, ((PostgresApprovalStore.model (Δ := Δ) arrange).runs .empty fun _ _ => True).Reachable z →
        OneOpen z.store.approvals) ∧
      ∀ z, ((PostgresApprovalStore.model (Δ := Δ) arrange).runs .empty (InOrder limits)).Reachable z →
        ∀ call, InOrder limits z call →
          (PostgresApprovalStore.model arrange).Limited (fun now waited => now + waited) limits z
            call := by
  refine ⟨⟨fun z reach => ?_, fun z reach call inOrder => ?_⟩, fun z reach => ?_,
    fun z reach call inOrder => ?_⟩
  · exact StoreModel.oneOpen (fun _ => rfl) (InMemoryApprovalStore.model_obeys cfg) reach
  · rintro new now waited require activity found rfl created
    have cooling : ((InMemoryApprovalStore.model cfg).view z.store).Cooling limits z.log :=
      StoreModel.cooling (InMemoryApprovalStore.model_obeys cfg)
        (fun _ _ allowed => InMemoryApprovalStore.spares allowed.1 allowed.2) reach
    refine ⟨InMemoryApprovalStore.capped (Answer.opened.inj created), ?_⟩
    exact cooling.created (InMemoryApprovalStore.model_obeys cfg z.store _) inOrder.1
      ⟨waited, require, activity, found, by rw [created]⟩
  · exact StoreModel.oneOpen (fun _ => rfl) (PostgresApprovalStore.model_obeys arrange) reach
  · rintro new now waited require activity found rfl created
    have cooling : ((PostgresApprovalStore.model arrange).view z.store).Cooling limits z.log :=
      StoreModel.cooling (PostgresApprovalStore.model_obeys arrange)
        (fun _ call _ => PostgresApprovalStore.spares arrange call) reach
    refine ⟨PostgresApprovalStore.capped (Answer.opened.inj created), ?_⟩
    exact cooling.created (PostgresApprovalStore.model_obeys arrange z.store _) inOrder.1
      ⟨waited, require, activity, found, by rw [created]⟩

/-- A refused push is asked for again ten minutes later. -/
def pushAgain : Call Unit :=
  .openRequest { pushRequest 8 11 with expiresAt := 11 * 60 * 10 ^ 6 } (10 * 60 * 10 ^ 6) 0 .default false
    .active

theorem pushAgain_limited :
    ((inMemoryAfter refusedCalls).store.apply {} pushAgain).2 =
        .opened (.ok ⟨.created, some (NewApproval.record
          { pushRequest 8 11 with expiresAt := 11 * 60 * 10 ^ 6 } (10 * 60 * 10 ^ 6))⟩) ∧
      (InMemoryApprovalStore.model {}).Limited (fun now _ => now) .default (inMemoryAfter refusedCalls)
        pushAgain := by
  refine ⟨rfl, (open_approvals_limited {} id .default).1.2 _ ?_ pushAgain (by decide)⟩
  exact ((Machine.Reachable.start rfl).next (StoreModel.step_runs (by decide))).next
    (StoreModel.step_runs (by decide))

/-- A refused push, and another under its id: the refusal is forgotten, and the refused push is created
again at once. -/
theorem refused_push_forgotten :
    ¬ ∀ z, ((InMemoryApprovalStore.model (Δ := Unit) {}).runs .empty (InOrder .default)).Reachable z →
      ∀ call, InOrder .default z call →
        (InMemoryApprovalStore.model {}).Limited (fun now _ => now) .default z call := by
  intro claim
  have reach : ((InMemoryApprovalStore.model (Δ := Unit) {}).runs .empty (InOrder .default)).Reachable
      (inMemoryAfter (refusedCalls ++ [.openRequest (pushRequest 7 12) 2 0 .default false .active])) :=
    (((Machine.Reachable.start rfl).next (StoreModel.step_runs (by decide))).next
      (StoreModel.step_runs (by decide))).next (StoreModel.step_runs (by decide))
  have limited := claim _ reach (.openRequest (pushRequest 8 11) 3 0 .default false .active)
    (by decide) _ _ _ _ _ _ rfl rfl
  have early := limited.2 _ (List.mem_cons_of_mem _ List.mem_cons_self) 1
    ⟨7, 3, false, _, rfl, rfl⟩
  revert early
  decide

end PawBackend.Tools
