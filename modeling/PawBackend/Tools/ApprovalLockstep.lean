/-
**The two stores in lockstep.** The same calls are made to both stores, one at a time and with no wait in
PostgreSQL, and both are told the same about the tasks. As long as the store in memory has room, an
accepted request has an id of its own and ends after it was made, and no use that asks about a task that
is not active meets a timed-out approval (`Agreeable`), the stores answer the same and hold the same
records after every call (`stores_agree`).
-/

import PawBackend.Tools.ApprovalLimits

namespace PawBackend.Tools

open Lib List

variable {Δ : Type}

/-! ### The calls of PostgreSQL, by the record they find -/

namespace PostgresApprovalStore

variable {t : PostgresApprovalStore Δ}

theorem revocable_eq (now : Instant) (row : ApprovalRecord Δ) :
    revocable now row = (row.status.isOpen && !row.isExpired now) := by
  unfold revocable ApprovalRecord.isExpired
  rw [← decide_not]
  simp

theorem diagnoseRevoke_eq (now : Instant) (row : ApprovalRecord Δ) :
    diagnoseRevoke (some row) now = if revocable now row then .revoked else .notOpen := by
  rw [revocable_eq]
  unfold diagnoseRevoke
  simp

variable {id : Uuid} {row : ApprovalRecord Δ}

theorem decidable_iff {approver : Uuid} {approve stepUp : Bool} {now : Instant} :
    decidable id approver now (approve && !(approve && stepUp)) row = true ↔
      row.approvalId = id ∧ diagnoseDecide (some row) approver now approve stepUp = .decided := by
  constructor
  · intro this
    obtain ⟨isId, may⟩ := mayDecide_of_decidable this
    have notAgent : row.agentId ≠ approver := by
      unfold decidable at this
      simp only [Bool.and_eq_true, decide_eq_true_eq] at this
      exact this.1.2
    have notLate : row.isExpired now = false := by
      unfold ApprovalRecord.isExpired
      simpa using may.inTime
    refine ⟨isId, ?_⟩
    have weak : ¬ (approve = true ∧ row.level = .strongApproval ∧ ¬ stepUp = true) :=
      fun ⟨approves, strong, unverified⟩ => unverified (may.stepUp approves strong)
    unfold diagnoseDecide
    dsimp only
    rw [if_neg (not_or.mpr ⟨not_not.mpr may.approver, fun same => notAgent same.symm⟩),
      if_neg (not_not.mpr may.status), if_neg (by simp [notLate]), if_neg weak]
  · rintro ⟨isId, decided⟩
    have may := mayDecide_of_diagnose decided
    have notAgent : row.agentId ≠ approver := by
      intro same
      unfold diagnoseDecide at decided
      dsimp only at decided
      rw [if_pos (Or.inr same.symm)] at decided
      cases decided
    unfold decidable hasId
    simp only [Bool.and_eq_true, Bool.or_eq_true, decide_eq_true_eq, Bool.not_eq_true']
    refine ⟨⟨⟨⟨⟨isId, may.status⟩, may.inTime⟩, may.approver.symm⟩, notAgent⟩, ?_⟩
    by_cases strong : row.level = .strongApproval
    · left
      cases approve
      · rfl
      · simpa using may.stepUp rfl strong
    · exact Or.inr strong

theorem consumable_iff {binding : ApprovalBinding} {now : Instant} :
    consumable id binding now row = true ↔
      row.approvalId = id ∧ diagnoseConsume (some row) binding now = .consumed := by
  constructor
  · intro this
    obtain ⟨isId, may⟩ := mayConsume_of_consumable this
    have notLate : row.isExpired now = false := by
      unfold ApprovalRecord.isExpired
      simpa using may.inTime
    have sameRun : row.taskRun = binding.taskRun := congrArg ApprovalBinding.taskRun may.binding
    refine ⟨isId, ?_⟩
    have matching : { row.binding with taskRun := binding.taskRun } = binding := by
      rw [may.binding]
    simp [diagnoseConsume, matching, may.status, notLate, sameRun]
  · rintro ⟨isId, consumed⟩
    have may := mayConsume_of_diagnose consumed
    have isBinding := may.binding
    unfold consumable hasId hasTask
    rw [← isBinding]
    simp [ApprovalRecord.binding, isId, may.status, may.inTime]

theorem decide_eq (t : PostgresApprovalStore Δ) (id approver : Uuid) (approve : Bool) (now : Instant)
    (stepUp : Bool) (found : t.approvals.get id = some row) :
    t.decide id approver approve now stepUp =
      match diagnoseDecide (some row) approver now approve stepUp with
      | .decided =>
        (t.updateWhere (decidable id approver now (approve && !(approve && stepUp)))
          (fun row => row.decide approver approve now stepUp) (fun _ _ => rfl)
          fun id =>
            { approvalId := id, kind := if approve then .approved else .rejected,
              actorUserId := some approver, createdAt := now },
          ⟨.decided, some (row.decide approver approve now stepUp)⟩)
      | .expired => (t.markExpired (hasId id) now, ⟨.expired, none⟩)
      | outcome => (t, ⟨outcome, none⟩) := by
  have isId : row.approvalId = id := Keyed.key_of_get found
  have search : t.approvals.rows.find? (decidable id approver now (approve && !(approve && stepUp))) =
      (some row).filter (decidable id approver now (approve && !(approve && stepUp))) := by
    rw [Keyed.find?_of_key t.approvals fun row this => (decidable_iff.mp this).1, found]
  unfold decide
  rw [found]
  dsimp only
  rw [search]
  by_cases decided : diagnoseDecide (some row) approver now approve stepUp = .decided
  · rw [Option.filter_some_pos (decidable_iff.mpr ⟨isId, decided⟩), decided]
  · have other : decidable id approver now (approve && !(approve && stepUp)) row = false := by
      rw [Bool.eq_false_iff]
      exact fun this => decided (decidable_iff.mp this).2
    rw [Option.filter_some_neg other]
    dsimp only
    generalize diagnoseDecide (some row) approver now approve stepUp = outcome at decided ⊢
    cases outcome <;> first | rfl | exact absurd rfl decided

theorem consume_eq (t : PostgresApprovalStore Δ) (id : Uuid) (binding : ApprovalBinding) (now : Instant)
    (require : Bool) (activity : TaskActivity)
    (found : t.approvals.get id = some row) :
    t.consume id binding now require activity =
      match (if require then consumeTaskRefusal activity else none),
        diagnoseConsume (some row) binding now with
      | some refusal, .consumed => (t, refusal)
      | some refusal, .superseded => (t, refusal)
      | some _, outcome => (t, outcome)
      | none, .consumed =>
        (t.updateWhere (consumable id binding now) (fun row => row.consume now) (fun _ _ => rfl)
          fun id =>
            { approvalId := id, kind := .consumed, agentId := some binding.agentId, createdAt := now },
          .consumed)
      | none, .expired => (t.markExpired (hasId id) now, .expired)
      | none, outcome => (t, outcome) := by
  have isId : row.approvalId = id := Keyed.key_of_get found
  have search : t.approvals.rows.any (consumable id binding now) = consumable id binding now row :=
    Keyed.any_of_key t.approvals (fun row this => (consumable_iff.mp this).1) found
  unfold consume
  rw [found]
  dsimp only
  cases (if require then consumeTaskRefusal activity else none) with
  | some refusal =>
    generalize diagnoseConsume (some row) binding now = outcome
    cases outcome <;> rfl
  | none =>
    dsimp only
    rw [search]
    by_cases consumed : diagnoseConsume (some row) binding now = .consumed
    · rw [if_pos (consumable_iff.mpr ⟨isId, consumed⟩), consumed]
    · rw [if_neg fun this => consumed (consumable_iff.mp this).2]
      generalize diagnoseConsume (some row) binding now = outcome at consumed ⊢
      cases outcome <;> first | rfl | exact absurd rfl consumed

theorem revoke_eq (t : PostgresApprovalStore Δ) (id : Uuid) (actor : Option Uuid) (now : Instant)
    (found : t.approvals.get id = some row) :
    t.revoke id actor now =
      match diagnoseRevoke (some row) now with
      | .revoked => (t.revokeRows (hasId id) actor now, .revoked)
      | outcome => (t, outcome) := by
  have isId : row.approvalId = id := Keyed.key_of_get found
  have only : ∀ other : ApprovalRecord Δ, (hasId id other && revocable now other) = true →
      other.approvalId = id := by
    intro other this
    rw [Bool.and_eq_true] at this
    exact of_decide_eq_true this.1
  have search : t.approvals.rows.any (fun row => hasId id row && revocable now row) =
      revocable now row := by
    have here : hasId id row = true := decide_eq_true isId
    rw [Keyed.any_of_key t.approvals only found, here, Bool.true_and]
  unfold revoke
  rw [search, found, diagnoseRevoke_eq]
  cases revocable now row <;> rfl

theorem get_updateWhere_of_id {selected : ApprovalRecord Δ → Bool}
    {change : ApprovalRecord Δ → ApprovalRecord Δ}
    {keeps : ∀ row, selected row = true → (change row).approvalId = row.approvalId}
    {event : Uuid → ToolApprovalEventRow Δ}
    (found : t.approvals.get id = some row) (this : selected row = true)
    (only : ∀ other, selected other = true → other.approvalId = id) (k : Uuid) :
    (t.updateWhere selected change keeps event).approvals.get k =
      if k = id then some (change row) else t.approvals.get k := by
  rw [get_updateWhere]
  split_ifs with same
  · rw [same, found, Option.map_some, if_pos this]
  · cases there : t.approvals.get k with
    | none => rfl
    | some other =>
      have notThis : ¬ selected other = true := fun isThis =>
        same ((Keyed.key_of_get there).symm.trans (only other isThis))
      rw [Option.map_some, if_neg notThis]

end PostgresApprovalStore

/-! ### The calls about one approval -/

section Alike

variable {s : InMemoryApprovalStore Δ} {t : PostgresApprovalStore Δ}

open PostgresApprovalStore (timedOut hasId hasTask hasCallHash revocable openCall openRequest openAttempts earlierRun
  decidable_iff consumable_iff get_markExpired get_revokeRows diagnoseRevoke_eq)
open InMemoryApprovalStore (timedOut_iff stored_of_mem ofTask)

theorem write_alike (same : ∀ id, s.get id = t.approvals.get id) {selected : ApprovalRecord Δ → Bool}
    (change : ApprovalRecord Δ → ApprovalRecord Δ)
    {keeps : ∀ row, selected row = true → (change row).approvalId = row.approvalId}
    {event : Uuid → ToolApprovalEventRow Δ} {id : Uuid} {row : ApprovalRecord Δ}
    (found : t.approvals.get id = some row) (this : selected row = true)
    (only : ∀ other, selected other = true → other.approvalId = id) {logged : Uuid}
    {kind : ApprovalEventKind} {now : Instant} {actor agent : Option Uuid} {summary : Option Δ}
    (k : Uuid) :
    ((s.assign (change row)).log logged kind now actor agent summary).get k =
      (t.updateWhere selected change keeps event).approvals.get k := by
  rw [InMemoryApprovalStore.get_assign_log, PostgresApprovalStore.get_updateWhere_of_id found this only,
    keeps row this, Keyed.key_of_get found, same]

theorem expire_alike (same : ∀ id, s.get id = t.approvals.get id) {id : Uuid} {row : ApprovalRecord Δ}
    (found : t.approvals.get id = some row) (now : Instant) (k : Uuid) :
    (s.expire row now).1.get k = (t.markExpired (hasId id) now).approvals.get k := by
  have isId : row.approvalId = id := Keyed.key_of_get found
  unfold InMemoryApprovalStore.expire
  split_ifs with late
  · have here : hasId id row = true := decide_eq_true isId
    have isLate : timedOut now row = true := timedOut_iff.mpr late
    have this : (hasId id row && timedOut now row) = true := by
      rw [here, isLate]
      rfl
    refine write_alike same ApprovalRecord.expire found this (fun other isThis => ?_) k
    rw [Bool.and_eq_true] at isThis
    exact of_decide_eq_true isThis.1
  · rw [same, get_markExpired]
    cases there : t.approvals.get k with
    | none => rfl
    | some other =>
      have untouched : ¬ (hasId id other && timedOut now other) = true := by
        rw [Bool.and_eq_true]
        rintro ⟨isThis, isLate⟩
        have sameId : other.approvalId = row.approvalId := (of_decide_eq_true isThis).trans isId.symm
        rw [t.approvals.eq_of_key_eq (Keyed.mem_of_get there) (Keyed.mem_of_get found) sameId] at isLate
        exact late (timedOut_iff.mp isLate)
      rw [Option.map_some, if_neg untouched]

theorem decide_alike (same : ∀ id, s.get id = t.approvals.get id) (id approver : Uuid) (approve : Bool)
    (now : Instant) (stepUp : Bool) :
    (s.decide id approver approve now stepUp).2 = (t.decide id approver approve now stepUp).2 ∧
      ∀ k, (s.decide id approver approve now stepUp).1.get k =
        (t.decide id approver approve now stepUp).1.approvals.get k := by
  cases found : t.approvals.get id with
  | none =>
    have nothing : t.approvals.rows.find?
        (PostgresApprovalStore.decidable id approver now (approve && !(approve && stepUp))) = none := by
      rw [Keyed.find?_of_key t.approvals fun row this =>
        (decidable_iff.mp this).1, found]
      rfl
    unfold InMemoryApprovalStore.decide PostgresApprovalStore.decide
    rw [same id, found]
    dsimp only
    rw [nothing]
    exact ⟨rfl, same⟩
  | some row =>
    have isId : row.approvalId = id := Keyed.key_of_get found
    rw [PostgresApprovalStore.decide_eq t id approver approve now stepUp found]
    unfold InMemoryApprovalStore.decide
    rw [same id, found]
    dsimp only
    cases outcome : diagnoseDecide (some row) approver now approve stepUp with
    | decided =>
      refine ⟨rfl, fun k => ?_⟩
      have this := decidable_iff.mpr ⟨isId, outcome⟩
      exact write_alike same (fun row => row.decide approver approve now stepUp) found this
        (fun other isThis => (decidable_iff.mp isThis).1) k
    | expired => exact ⟨rfl, expire_alike same found now⟩
    | notFound | notPending | notAuthorised | stepUpRequired => exact ⟨rfl, same⟩

theorem revoke_alike (same : ∀ id, s.get id = t.approvals.get id) (id : Uuid) (actor : Option Uuid)
    (now : Instant) :
    (s.revoke id actor now).2 = (t.revoke id actor now).2 ∧
      ∀ k, (s.revoke id actor now).1.get k = (t.revoke id actor now).1.approvals.get k := by
  cases found : t.approvals.get id with
  | none =>
    have nothing : t.approvals.rows.any
        (fun row => hasId id row && revocable now row) = false := by
      rw [any_eq_false]
      intro row mem this
      rw [Bool.and_eq_true] at this
      exact Keyed.get_eq_none.mp found row mem (of_decide_eq_true this.1)
    unfold InMemoryApprovalStore.revoke PostgresApprovalStore.revoke
    rw [same id, found, nothing]
    exact ⟨rfl, same⟩
  | some row =>
    have isId : row.approvalId = id := Keyed.key_of_get found
    rw [PostgresApprovalStore.revoke_eq t id actor now found]
    unfold InMemoryApprovalStore.revoke
    rw [same id, found]
    dsimp only
    cases outcome : diagnoseRevoke (some row) now with
    | revoked =>
      refine ⟨rfl, fun k => ?_⟩
      have here : hasId id row = true := decide_eq_true isId
      have isRevocable : revocable now row = true := by
        rw [diagnoseRevoke_eq] at outcome
        split_ifs at outcome with isRevocable
        exact isRevocable
      have this : (hasId id row && revocable now row) = true := by
        rw [here, isRevocable]
        rfl
      refine write_alike same (fun row => row.revoke actor now) found this (fun other isThis => ?_) k
      rw [Bool.and_eq_true] at isThis
      exact of_decide_eq_true isThis.1
    | notFound => exact ⟨rfl, same⟩
    | notOpen => exact ⟨rfl, same⟩

theorem consume_alike (same : ∀ id, s.get id = t.approvals.get id) {cfg : MemoryConfig}
    (provider : cfg.taskActivity = true) (id : Uuid) (binding : ApprovalBinding) (now : Instant)
    (require : Bool) (activity : TaskActivity)
    (marked : require = true → activity ≠ .active → ∀ record ∈ s.get id,
      diagnoseConsume (some record) binding now = .expired → record.status = .expired) :
    (s.consume cfg id binding now require activity).2 =
        (t.consume id binding now require activity).2 ∧
      ∀ k, (s.consume cfg id binding now require activity).1.get k =
        (t.consume id binding now require activity).1.approvals.get k := by
  cases found : t.approvals.get id with
  | none =>
    have nothing : t.approvals.rows.any (PostgresApprovalStore.consumable id binding now) = false := by
      rw [any_eq_false]
      intro row mem this
      exact Keyed.get_eq_none.mp found row mem (consumable_iff.mp this).1
    unfold InMemoryApprovalStore.consume PostgresApprovalStore.consume
    rw [same id, found, nothing]
    cases (if require then consumeTaskRefusal activity else none) <;> exact ⟨rfl, same⟩
  | some row =>
    have isId : row.approvalId = id := Keyed.key_of_get found
    rw [PostgresApprovalStore.consume_eq t id binding now require activity found]
    unfold InMemoryApprovalStore.consume
    rw [same id, found, provider, Bool.and_true]
    dsimp only
    cases refused : (if require then consumeTaskRefusal activity else none) with
    | some refusal =>
      have asked : require = true ∧ activity ≠ .active := by
        split_ifs at refused with asks
        refine ⟨asks, ?_⟩
        rintro rfl
        cases refused
      cases outcome : diagnoseConsume (some row) binding now with
      | expired =>
        refine ⟨rfl, fun k => ?_⟩
        have isExpired := marked asked.1 asked.2 row (by rw [same, found]; rfl) outcome
        have closed : row.status.isOpen = false := by
          rw [isExpired]
          rfl
        show (s.expire row now).1.get k = t.approvals.get k
        unfold InMemoryApprovalStore.expire
        rw [if_neg (by simp [closed])]
        exact same k
      | consumed | superseded | notFound | mismatch | alreadyUsed | rejected | revoked | pending | taskNotActive
      | taskUnknown | taskSuperseded => exact ⟨rfl, same⟩
    | none =>
      cases outcome : diagnoseConsume (some row) binding now with
      | expired => exact ⟨rfl, expire_alike same found now⟩
      | consumed =>
        refine ⟨rfl, fun k => ?_⟩
        have this := consumable_iff.mpr ⟨isId, outcome⟩
        exact write_alike same (fun row => row.consume now) found this
          (fun other isThis => (consumable_iff.mp isThis).1) k
      | superseded | notFound | mismatch | alreadyUsed | rejected | revoked | pending | taskNotActive
      | taskUnknown | taskSuperseded => exact ⟨rfl, same⟩

/-! ### The calls about many approvals -/

theorem ofTask_eq (taskId : Uuid) (now : Instant) (record : ApprovalRecord Δ) :
    ofTask taskId now record =
      (hasTask taskId record && revocable now record) := by
  unfold ofTask hasTask
  rw [diagnoseRevoke_eq]
  congr 1
  cases revocable now record <;> rfl

theorem revokeTask_alike (same : ∀ id, s.get id = t.approvals.get id) {arrange : List Uuid → List Uuid}
    (arranges : ∀ ids, (arrange ids).Perm ids) (taskId : Uuid) (now : Instant) :
    (s.revokeTask taskId now).2.Perm (t.revokeTask arrange taskId now).2 ∧
      ∀ k, (s.revokeTask taskId now).1.get k =
        (t.revokeTask arrange taskId now).1.approvals.get k := by
  constructor
  · refine List.Perm.trans ?_ (arranges _).symm
    have rows : s.records.rows.Perm t.approvals.rows := Keyed.perm_of_get_eq same
    have selected : ofTask taskId now = fun row : ApprovalRecord Δ =>
        hasTask taskId row && revocable now row :=
      funext (ofTask_eq taskId now)
    rw [← selected]
    exact (rows.filter _).map _
  · intro k
    show (s.revokeWhere _ now).get k = (t.revokeRows _ none now).approvals.get k
    rw [InMemoryApprovalStore.get_revokeWhere, get_revokeRows, same]
    congr 1
    funext record
    rw [ofTask_eq]

section Opening

open InMemoryApprovalStore (tidied survives ofEarlierRun)

variable {new : NewApproval Δ} {now : Instant} {require : Bool}

theorem ofEarlierRun_eq (record : ApprovalRecord Δ) :
    ofEarlierRun new now record =
      (earlierRun new.taskId new.taskRun record &&
        revocable now record) := by
  have otherRun : Decidable.decide (record.taskRun ≠ new.taskRun) =
      (Decidable.decide (record.taskRun.attempt ≠ new.taskRun.attempt) ||
        Decidable.decide (record.taskRun.retryCount ≠ new.taskRun.retryCount)) := by
    rw [Bool.eq_iff_iff]
    simp only [decide_eq_true_eq, Bool.or_eq_true, ne_eq, TaskRun.ext_iff, not_and_or]
  rw [PostgresApprovalStore.revocable_eq]
  unfold ofEarlierRun earlierRun hasTask
  rw [otherRun, Bool.and_assoc _ _ (!_)]

theorem get_swept (id : Uuid) :
    (t.swept new now require).approvals.get id = (t.approvals.get id).map (tidied new now require) := by
  unfold PostgresApprovalStore.swept
  cases require with
  | false =>
    rw [if_neg Bool.false_ne_true, get_markExpired]
    rfl
  | true =>
    rw [if_pos rfl, get_revokeRows, get_markExpired,
      Option.map_map]
    congr 1
    funext record
    rw [Function.comp_apply]
    unfold tidied
    rw [ofEarlierRun_eq, Bool.true_and]
    split_ifs with late closed
    · -- an expired row is closed, so it is not revoked
      rw [Bool.and_eq_true] at closed
      exact absurd closed.2 Bool.false_ne_true
    · rfl
    · rfl
    · rfl

theorem rejectedLately_eq (callHash : CallHash) (limits : OpenLimits) :
    (PostgresApprovalStore.rejectedLately callHash (now - limits.rejectionCooldown) :
      ApprovalRecord Δ → Bool) = InMemoryApprovalStore.coolsDown callHash now limits := rfl

theorem no_timedOut (single : s.view.SingleOpen) {record other : ApprovalRecord Δ}
    (mem : record ∈ s.records.rows) (isOpen : record.status.isOpen = true)
    (inTime : record.isExpired now = false) (member' : other ∈ s.records.rows)
    (sameCall : other.callHash = record.callHash) : timedOut now other = false := by
  rw [Bool.eq_false_iff]
  intro late
  obtain ⟨isOpen', late⟩ := timedOut_iff.mp late
  have found := stored_of_mem mem
  have found' := stored_of_mem member'
  have sameId := single _ _ other record found' found isOpen' isOpen sameCall
  rw [sameId, found] at found'
  rw [← Option.some.inj found', inTime] at late
  cases late

theorem markCall_eq_self {callHash : CallHash} {l : List (ApprovalRecord Δ)}
    (none : ∀ record ∈ l, record.callHash = callHash → timedOut now record = false) :
    InMemoryApprovalStore.markCall callHash now l s = s := by
  induction l with
  | nil => rfl
  | cons record rest ih =>
    have notSelected : ¬ (hasCallHash callHash record && timedOut now record) =
        true := by
      rw [Bool.and_eq_true]
      rintro ⟨isCall, late⟩
      rw [none record mem_cons_self (of_decide_eq_true isCall)] at late
      cases late
    unfold InMemoryApprovalStore.markCall InMemoryApprovalStore.pass
    rw [foldl_cons, if_neg notSelected]
    exact ih fun other mem => none other (mem_cons_of_mem _ mem)

theorem searched_some (single : s.view.SingleOpen) {found : InMemoryApprovalStore Δ}
    {record : ApprovalRecord Δ} (searched : s.searched new now require = (found, some record)) :
    (∀ id, found.get id = (s.get id).map (tidied new now require)) ∧ found.view.SingleOpen ∧
      record ∈ found.records.rows ∧ record.callHash = new.callHash ∧ record.status.isOpen = true := by
  obtain ⟨⟨isCall, isOpen, inTime⟩, earlier, later, isRows, isNow⟩ :=
    InMemoryApprovalStore.findOpen_some (congrArg Prod.snd searched)
  have swept : (s.swept new now require).view.SingleOpen := by
    intro id other first second now_ now_' isOpen isOpen' sameCall
    have was := InMemoryApprovalStore.swept_tidies.closed_of_closed now_ isOpen
    have was' := InMemoryApprovalStore.swept_tidies.closed_of_closed now_' isOpen'
    exact single id other first second was was' isOpen isOpen' sameCall
  have mem : record ∈ (s.swept new now require).records.rows :=
    isRows ▸ mem_append_right _ mem_cons_self
  have inTimeAll : ∀ other ∈ (s.swept new now require).records.rows,
      other.callHash = new.callHash → timedOut now other = false := fun other member' sameCall =>
    no_timedOut swept mem isOpen inTime member' (sameCall.trans isCall.symm)
  have unchanged : found = s.swept new now require := by
    have isFound : found = _ := (congrArg Prod.fst searched).symm.trans isNow
    rw [isFound]
    refine markCall_eq_self fun other member' => inTimeAll other ?_
    exact isRows ▸ mem_append_left _ member'
  refine ⟨fun id => ?_, unchanged ▸ swept, unchanged ▸ mem, isCall, isOpen⟩
  rw [← InMemoryApprovalStore.get_marked, markCall_eq_self inTimeAll, unchanged]

theorem openRequest_alike (same : ∀ id, s.get id = t.approvals.get id) (single : s.view.SingleOpen)
    {cfg : MemoryConfig} (provider : cfg.taskActivity = true) (limits : OpenLimits)
    (activity : TaskActivity)
    (storable : InMemoryApprovalStore.Passes s new now limits require activity →
      s.records.rows.length < cfg.maxRecords ∧ now < new.expiresAt ∧ s.get new.approvalId = none) :
    (s.openRequest cfg new now limits require activity).2 =
        (openRequest new now now limits require activity
          openAttempts t).2 ∧
      ∀ k, (s.openRequest cfg new now limits require activity).1.get k =
        (openRequest new now now limits require activity
          openAttempts t).1.approvals.get k := by
  rw [InMemoryApprovalStore.openRequest_eq, provider, Bool.and_true, openAttempts,
    openRequest, PostgresApprovalStore.openOnce_eq]
  cases refused : InMemoryApprovalStore.refusalOf require activity with
  | some refusal =>
    rw [show (if require then openTaskRefusal activity else none) = some refusal from refused]
    exact ⟨rfl, same⟩
  | none =>
    rw [show (if require then openTaskRefusal activity else none) = none from refused]
    rcases searched : s.searched new now require with ⟨found, _ | record⟩
    · obtain ⟨records, noOpen⟩ := InMemoryApprovalStore.searched_none searched
      have alike : ∀ k, found.get k = (t.swept new now require).approvals.get k := by
        intro k
        rw [records, get_swept, same]
      have rows : found.records.rows.Perm (t.swept new now require).approvals.rows :=
        Keyed.perm_of_get_eq alike
      have nothing : (t.swept new now require).approvals.rows.find?
          (openCall new.callHash) = none := by
        rw [find?_eq_none]
        intro row mem isOpen
        have there := Keyed.get_self mem
        rw [← alike, records, Option.map_eq_some_iff] at there
        obtain ⟨before, was, rfl⟩ := there
        unfold openCall at isOpen
        rw [Bool.and_eq_true] at isOpen
        have sameCall : before.callHash = new.callHash :=
          (InMemoryApprovalStore.tidied_callHash before).symm.trans (of_decide_eq_true isOpen.1)
        have survived := InMemoryApprovalStore.survives_of_isOpen_tidied sameCall isOpen.2
        rw [noOpen before (Keyed.mem_of_get was) sameCall] at survived
        cases survived
      dsimp only
      rw [nothing]
      dsimp only
      rw [PostgresApprovalStore.insertRequest_eq nothing, rejectedLately_eq,
        PostgresApprovalStore.countsOpen_eq, ← rows.any_eq, ← rows.countP_eq]
      unfold InMemoryApprovalStore.create
      by_cases cooling : found.records.rows.any
          (InMemoryApprovalStore.coolsDown new.callHash now limits) = true
      · rw [if_pos cooling, if_pos cooling]
        exact ⟨rfl, alike⟩
      by_cases many : limits.maxPending ≤ found.records.rows.countP
          (InMemoryApprovalStore.counts new.taskId new.requesterUserId now)
      · rw [if_neg cooling, if_neg cooling, if_pos many, if_pos many]
        exact ⟨rfl, alike⟩
      obtain ⟨room, inTime, isNew⟩ := storable (InMemoryApprovalStore.passes_of_tidied records
        (InMemoryApprovalStore.active_of_refusalOf refused) noOpen (Bool.eq_false_iff.mpr cooling)
        (Nat.lt_of_not_le many))
      have full : ¬ cfg.maxRecords ≤ found.records.rows.length := by
        rw [(InMemoryApprovalStore.perm_tidied records).length_eq, length_map]
        exact Nat.not_le_of_lt room
      have fresh : (t.swept new now require).approvals.get new.approvalId = none := by
        rw [get_swept, ← same, isNew]
        rfl
      rw [if_neg cooling, if_neg cooling, if_neg many, if_neg many, if_neg full,
        if_neg (not_le.mpr inTime), if_neg (not_le.mpr inTime), dif_pos fresh]
      refine ⟨rfl, fun k => ?_⟩
      have written : ((t.swept new now require).inserted new now fresh).approvals.get k =
          if k = new.approvalId then some (new.record now)
          else (t.swept new now require).approvals.get k :=
        Keyed.get_insert (t.swept new now require).approvals (new.record now) fresh k
      show (InMemoryApprovalStore.log _ _ _ _ _ _ _).get k = _
      rw [written, ← alike]
      exact InMemoryApprovalStore.get_assign_log (new.record now) _ _ _ _ _ _ k
    · obtain ⟨records, only, mem, isCall, isOpen⟩ := searched_some single searched
      have alike : ∀ k, found.get k = (t.swept new now require).approvals.get k := by
        intro k
        rw [records, get_swept, same]
      have rows : found.records.rows.Perm (t.swept new now require).approvals.rows :=
        Keyed.perm_of_get_eq alike
      have selected : openCall new.callHash record = true := by
        unfold openCall hasCallHash
        rw [isOpen, decide_eq_true isCall]
        rfl
      have isRecord : (t.swept new now require).approvals.rows.find?
          (openCall new.callHash) = some record := by
        cases first : (t.swept new now require).approvals.rows.find?
            (openCall new.callHash) with
        | none => exact absurd selected (find?_eq_none.mp first record (rows.mem_iff.mp mem))
        | some row =>
          have isSelected := find?_some first
          unfold openCall at isSelected
          rw [Bool.and_eq_true] at isSelected
          have there := rows.mem_iff.mpr (mem_of_find?_eq_some first)
          have sameId := only _ _ row record (stored_of_mem there)
            (stored_of_mem mem) isSelected.2 isOpen
            ((of_decide_eq_true isSelected.1).trans isCall.symm)
          rw [found.records.eq_of_key_eq there mem sameId]
      dsimp only
      rw [isRecord]
      exact ⟨rfl, alike⟩

end Opening

end Alike

/-! ### Whole runs -/

/-- The calls that both stores make the same of: an accepted request is stored in memory under a free id,
with an end after its start, and a use that asks about a task that is not active meets no timed-out
approval that is not marked. -/
def Agreeable (cfg : MemoryConfig) (s : InMemoryApprovalStore Δ) : Call Δ → Prop
  | .openRequest new now _ limits require activity =>
    InMemoryApprovalStore.Passes s new now limits require activity →
      s.records.rows.length < cfg.maxRecords ∧ now < new.expiresAt ∧ s.get new.approvalId = none
  | .consume id binding now _ require activity =>
    require = true → activity ≠ .active → ∀ record ∈ s.get id,
      diagnoseConsume (some record) binding now = .expired → record.status = .expired
  | _ => True

instance (cfg : MemoryConfig) (s : InMemoryApprovalStore Δ) (call : Call Δ) :
    Decidable (Agreeable cfg s call) :=
  match call with
  | .openRequest new now _ limits require activity =>
    inferInstanceAs (Decidable (InMemoryApprovalStore.Passes s new now limits require activity →
      _ < _ ∧ _ < _ ∧ _ = none))
  | .consume id binding now _ require activity =>
    inferInstanceAs (Decidable (require = true → activity ≠ .active → ∀ record ∈ s.get id,
      diagnoseConsume (some record) binding now = .expired → record.status = .expired))
  | .decide .. => isTrue trivial
  | .revoke .. => isTrue trivial
  | .revokeTask .. => isTrue trivial

def lockstep (cfg : MemoryConfig) (arrange : List Uuid → List Uuid) :
    Machine (InMemoryApprovalStore Δ × PostgresApprovalStore Δ) (Call Δ) where
  initial z := z = (.empty, .empty)
  step z call :=
    if call.waited = 0 ∧ Agreeable cfg z.1 call then
      some ((z.1.apply cfg call).1, (z.2.apply arrange call).1)
    else none

theorem step_lockstep {cfg : MemoryConfig} {arrange : List Uuid → List Uuid}
    {z : InMemoryApprovalStore Δ × PostgresApprovalStore Δ} {call : Call Δ}
    (allowed : call.waited = 0 ∧ Agreeable cfg z.1 call) :
    (lockstep cfg arrange).step z call =
      some ((z.1.apply cfg call).1, (z.2.apply arrange call).1) :=
  if_pos allowed

def SameAnswer : Answer Δ → Answer Δ → Prop
  | .revokedTask ids, .revokedTask ids' => ids.Perm ids'
  | first, second => first = second

section Runs

variable {cfg : MemoryConfig} {arrange : List Uuid → List Uuid} {s : InMemoryApprovalStore Δ}
  {t : PostgresApprovalStore Δ}

theorem apply_alike (provider : cfg.taskActivity = true) (arranges : ∀ ids, (arrange ids).Perm ids)
    (same : ∀ id, s.get id = t.approvals.get id) (single : s.view.SingleOpen) {call : Call Δ}
    (atOnce : call.waited = 0) (agreeable : Agreeable cfg s call) :
    SameAnswer (s.apply cfg call).2 (t.apply arrange call).2 ∧
      ∀ id, (s.apply cfg call).1.get id = (t.apply arrange call).1.approvals.get id := by
  cases call with
  | openRequest new now waited limits require activity =>
    obtain rfl : waited = 0 := atOnce
    have alike := openRequest_alike same single provider limits activity agreeable
    simp only [InMemoryApprovalStore.apply, PostgresApprovalStore.apply, Nat.cast_zero, add_zero]
    exact ⟨congrArg Answer.opened alike.1, alike.2⟩
  | decide id approver approve now stepUp =>
    have alike := decide_alike same id approver approve now stepUp
    exact ⟨congrArg Answer.decided alike.1, alike.2⟩
  | consume id binding now waited require activity =>
    obtain rfl : waited = 0 := atOnce
    have alike := consume_alike same provider id binding now require activity agreeable
    simp only [InMemoryApprovalStore.apply, PostgresApprovalStore.apply, Nat.cast_zero, add_zero]
    exact ⟨congrArg Answer.consumed alike.1, alike.2⟩
  | revoke id actor now =>
    have alike := revoke_alike same id actor now
    exact ⟨congrArg Answer.revoked alike.1, alike.2⟩
  | revokeTask taskId now => exact revokeTask_alike same arranges taskId now

/-- In every run the two stores hold the same records after every call, and answer the next one the
same. -/
theorem stores_agree (cfg : MemoryConfig) (provider : cfg.taskActivity = true)
    (arrange : List Uuid → List Uuid) (arranges : ∀ ids, (arrange ids).Perm ids)
    {z : InMemoryApprovalStore Δ × PostgresApprovalStore Δ}
    (reach : (lockstep cfg arrange).Reachable z) :
    (∀ id, z.1.get id = z.2.approvals.get id) ∧
      ∀ call, call.waited = 0 → Agreeable cfg z.1 call →
        SameAnswer (z.1.apply cfg call).2 (z.2.apply arrange call).2 := by
  have kept : (∀ id, z.1.get id = z.2.approvals.get id) ∧ z.1.view.SingleOpen := by
    refine reach.invariant
      (P := fun z => (∀ id, z.1.get id = z.2.approvals.get id) ∧ z.1.view.SingleOpen) ?_ ?_
    · rintro z rfl
      refine ⟨fun _ => rfl, fun id other record record' found => ?_⟩
      cases found
    · rintro z call z' - ⟨same, single⟩ taken
      change (if _ then some _ else none) = some z' at taken
      split_ifs at taken with allowed
      cases taken
      refine ⟨(apply_alike provider arranges same single allowed.1 allowed.2).2, ?_⟩
      exact (InMemoryApprovalStore.model_obeys cfg z.1 call).singleOpen single
  exact ⟨kept.1, fun call atOnce agreeable =>
    (apply_alike provider arranges kept.1 kept.2 atOnce agreeable).1⟩

end Runs

def bothAfter (cfg : MemoryConfig) (calls : List (Call Unit)) :
    InMemoryApprovalStore Unit × PostgresApprovalStore Unit :=
  calls.foldl (fun z call => ((z.1.apply cfg call).1, (z.2.apply id call).1)) (.empty, .empty)

theorem push_alike :
    ((bothAfter {} pushCalls).2.approvals.get 7).map ApprovalRecord.status = some .consumed ∧
      ∀ k, (bothAfter {} pushCalls).1.get k = (bothAfter {} pushCalls).2.approvals.get k := by
  refine ⟨by decide, (stores_agree {} rfl id (fun _ => List.Perm.refl _) ?_).1⟩
  exact (((Machine.Reachable.start rfl).next (step_lockstep (by decide))).next
    (step_lockstep (by decide))).next (step_lockstep (by decide))

/-- A second push: the store in memory, which has room for one approval, is full. -/
theorem full_store_differs :
    ¬ ∀ (cfg : MemoryConfig) (calls : List (Call Unit)) (call : Call Unit), cfg.taskActivity = true →
      (∀ call ∈ calls, call.waited = 0) → call.waited = 0 →
      SameAnswer ((bothAfter cfg calls).1.apply cfg call).2 ((bothAfter cfg calls).2.apply id call).2 := by
  intro claim
  have same := claim { maxRecords := 1 } [.openRequest (pushRequest 7 11) 0 0 .default false .active]
    (.openRequest (pushRequest 8 12) 1 0 .default false .active) rfl (by decide) rfl
  have full : ((bothAfter { maxRecords := 1 }
      [.openRequest (pushRequest 7 11) 0 0 .default false .active]).1.apply { maxRecords := 1 }
        (.openRequest (pushRequest 8 12) 1 0 .default false .active)).2 = .opened (.error .full) := rfl
  have created : ((bothAfter { maxRecords := 1 }
      [.openRequest (pushRequest 7 11) 0 0 .default false .active]).2.apply id
        (.openRequest (pushRequest 8 12) 1 0 .default false .active)).2 =
      .opened (.ok ⟨.created, some ((pushRequest 8 12).record 1)⟩) := rfl
  rw [full, created] at same
  cases same

end PawBackend.Tools
