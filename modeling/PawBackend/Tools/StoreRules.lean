/-
**The PostgreSQL store obeys the rules.** A statement that selects one row is a `Writes`, one that selects
open rows and closes them is a `Tidies`; each call is put together from them. One call runs at a time,
so the insert never meets an open request that the `SELECT` before it did not see
(`openOnce_not_raced`): the first attempt answers. The primary key refuses an id that is stored, so every
request is created under a free one.
-/

import PawBackend.Tools.MemoryRules

namespace PawBackend.Tools

open Lib List

variable {Δ : Type}

namespace PostgresApprovalStore

def apply (arrange : List Uuid → List Uuid) (t : PostgresApprovalStore Δ) :
    Call Δ → PostgresApprovalStore Δ × Answer Δ
  | .openRequest new now waited limits require activity =>
    let (t, result) := openRequest new now (now + waited) limits require activity openAttempts t
    (t, .opened result)
  | .decide id approver approve now stepUp =>
    let (t, result) := t.decide id approver approve now stepUp
    (t, .decided result)
  | .consume id binding now waited require activity =>
    let (t, outcome) := t.consume id binding (now + waited) require activity
    (t, .consumed outcome)
  | .revoke id actor now =>
    let (t, outcome) := t.revoke id actor now
    (t, .revoked outcome)
  | .revokeTask taskId now =>
    let (t, ids) := t.revokeTask arrange taskId now
    (t, .revokedTask ids)

def model (arrange : List Uuid → List Uuid) : StoreModel (PostgresApprovalStore Δ) Δ where
  approvals := approvals
  events := events
  apply := apply arrange

def view (t : PostgresApprovalStore Δ) : View Δ where
  record := t.approvals.get
  events := t.events
  keyed _ _ found := Keyed.key_of_get found

variable {t : PostgresApprovalStore Δ}

/-! ### Statements -/

section Statements

variable {selected : ApprovalRecord Δ → Bool} {change : ApprovalRecord Δ → ApprovalRecord Δ}
  {keeps : ∀ row, selected row = true → (change row).approvalId = row.approvalId}
  {event : Uuid → ToolApprovalEventRow Δ}

theorem get_updateWhere (id : Uuid) :
    (t.updateWhere selected change keeps event).approvals.get id =
      (t.approvals.get id).map fun row => if selected row then change row else row :=
  Keyed.get_update _ _ _ keeps id

theorem history_updateWhere (named : ∀ id, (event id).approvalId = id) (id : Uuid) :
    (t.updateWhere selected change keeps event).view.history id =
      t.view.history id ++
        ((t.approvals.get id).filter selected).toList.map fun row => (event row.approvalId).kind := by
  show ((t.events ++ _).filter _).map _ = _
  rw [filter_append, map_append]
  congr 1
  rw [filter_map, map_map, ← Keyed.filter_key]
  congr 2
  funext row
  rw [Function.comp_apply, named]

theorem updateWhere_tidies (named : ∀ id, (event id).approvalId = id)
    (ordered : ∀ row, selected row = true → row.PutInOrder (change row))
    (logged : ∀ row id, selected row = true → (event id).kind = (change row).status.kind) :
    Tidies t.view (t.updateWhere selected change keeps event).view where
  record id := by
    show (t.updateWhere selected change keeps event).approvals.get id = t.approvals.get id ∨ _
    rw [get_updateWhere]
    cases found : t.approvals.get id with
    | none => exact Or.inl rfl
    | some row =>
      rw [Option.map_some]
      split_ifs with this
      · refine Or.inr ⟨row, change row, found, ?_, ordered row this⟩
        show (t.updateWhere selected change keeps event).approvals.get id = _
        rw [get_updateWhere, found, Option.map_some, if_pos this]
      · exact Or.inl rfl
  events := ⟨_, rfl⟩
  history id := by
    have before : t.view.status id = (t.approvals.get id).map ApprovalRecord.status := rfl
    have after : (t.updateWhere selected change keeps event).view.status id =
        (t.approvals.get id).map fun row => if selected row then (change row).status else row.status := by
      show ((t.updateWhere selected change keeps event).approvals.get id).map _ = _
      rw [get_updateWhere, Option.map_map]
      congr 1
      funext row
      rw [Function.comp_apply, apply_ite ApprovalRecord.status]
    rw [history_updateWhere named, before, after]
    congr 1
    cases t.approvals.get id with
    | none => rfl
    | some row =>
      by_cases this : selected row = true
      · have changes := (ordered row this).status_ne
        simp [this, changes, logged row row.approvalId this]
      · simp [this]

theorem updateWhere_writes {row : ApprovalRecord Δ} (named : ∀ id, (event id).approvalId = id)
    (stored : t.approvals.get row.approvalId = some row) (this : selected row = true)
    (only : ∀ other, selected other = true → other.approvalId = row.approvalId)
    (logged : (event row.approvalId).kind = (change row).status.kind) :
    Writes t.view (t.updateWhere selected change keeps event).view (change row) where
  record id := by
    show (t.updateWhere selected change keeps event).approvals.get id =
      if id = (change row).approvalId then some (change row) else t.approvals.get id
    rw [get_updateWhere, keeps row this]
    split_ifs with same
    · rw [same, stored, Option.map_some, if_pos this]
    · cases found : t.approvals.get id with
      | none => rfl
      | some other =>
        have notThis : ¬ selected other = true := fun isThis =>
          same ((Keyed.key_of_get found).symm.trans (only other isThis))
        rw [Option.map_some, if_neg notThis]
  events := by
    have alone : t.approvals.rows.filter selected = [row] := by
      have byId := t.approvals.filter_key selected row.approvalId
      rw [stored, Option.filter_some_pos this, Option.toList_some] at byId
      rw [← byId, filter_filter]
      refine filter_congr fun other _ => ?_
      cases isThis : selected other with
      | false => rw [Bool.and_false]
      | true => simp [only other isThis]
    refine ⟨event row.approvalId, ?_, ?_, logged⟩
    · show t.events ++ (t.approvals.rows.filter selected).map _ = _
      rw [alone]
      rfl
    · rw [named, keeps row this]

end Statements

theorem isOpen_of_timedOut {now : Instant} {row : ApprovalRecord Δ} (late : timedOut now row = true) :
    row.status.isOpen = true := by
  unfold timedOut at late
  rw [Bool.and_eq_true] at late
  exact late.1

theorem isOpen_of_revocable {now : Instant} {row : ApprovalRecord Δ}
    (isRevocable : revocable now row = true) : row.status.isOpen = true := by
  unfold revocable at isRevocable
  rw [Bool.and_eq_true] at isRevocable
  exact isRevocable.1

theorem get_markExpired (column : ApprovalRecord Δ → Bool) (now : Instant) (id : Uuid) :
    (t.markExpired column now).approvals.get id = (t.approvals.get id).map fun row =>
      if column row && timedOut now row then row.expire else row :=
  get_updateWhere id

theorem get_revokeRows (column : ApprovalRecord Δ → Bool) (actor : Option Uuid) (now : Instant)
    (id : Uuid) :
    (t.revokeRows column actor now).approvals.get id = (t.approvals.get id).map fun row =>
      if column row && revocable now row then row.revoke actor now else row :=
  get_updateWhere id

theorem markExpired_tidies (column : ApprovalRecord Δ → Bool) (now : Instant) :
    Tidies t.view (t.markExpired column now).view := by
  apply updateWhere_tidies
  · exact fun _ => rfl
  · intro row this
    rw [Bool.and_eq_true] at this
    exact ⟨isOpen_of_timedOut this.2, Or.inl rfl⟩
  · exact fun _ _ _ => rfl

theorem revokeRows_tidies (column : ApprovalRecord Δ → Bool) (actor : Option Uuid) (now : Instant) :
    Tidies t.view (t.revokeRows column actor now).view := by
  apply updateWhere_tidies
  · exact fun _ => rfl
  · intro row this
    rw [Bool.and_eq_true] at this
    exact ⟨isOpen_of_revocable this.2, Or.inr ⟨actor, now, rfl⟩⟩
  · exact fun _ _ _ => rfl

/-! ### `open_request` -/

section Opening

variable {new : NewApproval Δ} {now judged : Instant} {limits : OpenLimits} {require : Bool}
  {activity : TaskActivity}

/-- The tables once timed-out rows of the call are marked and earlier runs revoked. -/
def swept (t : PostgresApprovalStore Δ) (new : NewApproval Δ) (judged : Instant) (require : Bool) :
    PostgresApprovalStore Δ :=
  if require then
    (t.markExpired (hasCallHash new.callHash) judged).revokeRows (earlierRun new.taskId new.taskRun) none
      judged
  else t.markExpired (hasCallHash new.callHash) judged

theorem swept_tidies : Tidies t.view (t.swept new judged require).view := by
  unfold swept
  split_ifs
  · exact (markExpired_tidies _ _).trans (revokeRows_tidies _ _ _)
  · exact markExpired_tidies _ _

/-- The tables with the request. -/
def inserted (u : PostgresApprovalStore Δ) (new : NewApproval Δ) (now : Instant)
    (fresh : u.approvals.get new.approvalId = none) : PostgresApprovalStore Δ where
  approvals := u.approvals.insert (new.record now) fresh
  events := u.events ++ [
    { approvalId := new.approvalId, kind := .requested, agentId := some new.agentId, createdAt := now,
      summary := some new.details }]

theorem inserted_writes (u : PostgresApprovalStore Δ) (fresh : u.approvals.get new.approvalId = none) :
    Writes u.view (u.inserted new now fresh).view (new.record now) where
  record id := Keyed.get_insert u.approvals (new.record now) fresh id
  events := ⟨_, rfl, rfl, rfl⟩

/-- The tables `u` a request is inserted into: nothing is in its way there. -/
structure Insertion (t : PostgresApprovalStore Δ) (new : NewApproval Δ) (now judged : Instant)
    (limits : OpenLimits) (require : Bool) (activity : TaskActivity) (u : PostgresApprovalStore Δ) :
    Prop where
  isSwept : u = t.swept new judged require
  task : require = true → activity = .active
  noOpen : ∀ row ∈ u.approvals.rows, openCall new.callHash row = false
  noRejection : ∀ row ∈ u.approvals.rows,
    rejectedLately new.callHash (now - limits.rejectionCooldown) row = false
  below : u.approvals.rows.countP (countsOpen new.taskId new.requesterUserId judged) < limits.maxPending
  inTime : now < new.expiresAt

theorem openOnce_eq (t : PostgresApprovalStore Δ) (new : NewApproval Δ) (now judged : Instant)
    (limits : OpenLimits) (require : Bool) (activity : TaskActivity) :
    t.openOnce new now judged limits require activity =
      match (if require then openTaskRefusal activity else none) with
      | some refusal => .ok (t, some ⟨refusal, none⟩)
      | none =>
        match (t.swept new judged require).approvals.rows.find? (openCall new.callHash) with
        | some row => .ok (t.swept new judged require, some ⟨.existing, some row⟩)
        | none =>
          if (t.swept new judged require).approvals.rows.any
              (rejectedLately new.callHash (now - limits.rejectionCooldown)) then
            .ok (t.swept new judged require, some ⟨.coolingDown, none⟩)
          else if limits.maxPending ≤ (t.swept new judged require).approvals.rows.countP
              (countsOpen new.taskId new.requesterUserId judged) then
            .ok (t.swept new judged require, some ⟨.tooManyPending, none⟩)
          else (t.swept new judged require).insertRequest new now := by
  unfold openOnce swept
  cases require <;> rfl

theorem insertRequest_eq {u : PostgresApprovalStore Δ}
    (noOpen : u.approvals.rows.find? (openCall new.callHash) = none) :
    u.insertRequest new now =
      if new.expiresAt ≤ now then .error .expiresBeforeCreation
      else if fresh : u.approvals.get new.approvalId = none then
        .ok (u.inserted new now fresh, some ⟨.created, some (new.record now)⟩)
      else .error .duplicateId := by
  have none : ¬ u.approvals.rows.any (openCall new.callHash) = true := by
    rw [any_eq_true]
    rintro ⟨row, mem, isOpen⟩
    exact find?_eq_none.mp noOpen row mem isOpen
  unfold insertRequest
  rw [if_neg none]
  rfl

theorem openOnce_cases (t : PostgresApprovalStore Δ) (new : NewApproval Δ) (now judged : Instant)
    (limits : OpenLimits) (require : Bool) (activity : TaskActivity) :
    (∃ error, t.openOnce new now judged limits require activity = .error error) ∨
    (∃ u opened, t.openOnce new now judged limits require activity = .ok (u, some opened) ∧
      Tidies t.view u.view ∧ opened.outcome ≠ .created) ∨
    ∃ u, Insertion t new now judged limits require activity u ∧
      ∃ fresh : u.approvals.get new.approvalId = none,
        t.openOnce new now judged limits require activity =
          .ok (u.inserted new now fresh, some ⟨.created, some (new.record now)⟩) := by
  rw [openOnce_eq]
  cases refused : (if require then openTaskRefusal activity else none) with
  | some refusal =>
    refine Or.inr (Or.inl ⟨t, _, rfl, Tidies.refl _, ?_⟩)
    rintro rfl
    split_ifs at refused
    cases activity <;> cases refused
  | none =>
    have task : require = true → activity = .active := by
      rintro rfl
      cases activity <;> first | rfl | cases refused
    cases existing : (t.swept new judged require).approvals.rows.find? (openCall new.callHash) with
    | some row => exact Or.inr (Or.inl ⟨_, _, rfl, swept_tidies, by simp⟩)
    | none =>
      dsimp only
      rw [insertRequest_eq existing]
      split_ifs with cooling many late fresh
      · exact Or.inr (Or.inl ⟨_, _, rfl, swept_tidies, by simp⟩)
      · exact Or.inr (Or.inl ⟨_, _, rfl, swept_tidies, by simp⟩)
      · exact Or.inl ⟨_, rfl⟩
      · refine Or.inr (Or.inr ⟨_, ⟨rfl, task, fun row mem => ?_, fun row mem => ?_, ?_, ?_⟩, fresh,
          rfl⟩)
        · exact Bool.eq_false_iff.mpr (find?_eq_none.mp existing row mem)
        · exact Bool.eq_false_iff.mpr fun lately => cooling (any_eq_true.mpr ⟨row, mem, lately⟩)
        · exact Nat.lt_of_not_le many
        · exact lt_of_not_ge late
      · exact Or.inl ⟨_, rfl⟩

theorem openRequest_cases (t : PostgresApprovalStore Δ) (new : NewApproval Δ) (now judged : Instant)
    (limits : OpenLimits) (require : Bool) (activity : TaskActivity) :
    (Tidies t.view (openRequest new now judged limits require activity openAttempts t).1.view ∧
      ∀ found, (openRequest new now judged limits require activity openAttempts t).2 ≠
        .ok ⟨.created, found⟩) ∨
    ∃ u, Insertion t new now judged limits require activity u ∧
      ∃ fresh : u.approvals.get new.approvalId = none,
        openRequest new now judged limits require activity openAttempts t =
          (u.inserted new now fresh, .ok ⟨.created, some (new.record now)⟩) := by
  rw [openAttempts, openRequest]
  rcases openOnce_cases t new now judged limits require activity with
    ⟨error, failed⟩ | ⟨u, opened, answered, tidies, notCreated⟩ | ⟨u, insertion, fresh, created⟩
  · rw [failed]
    exact Or.inl ⟨Tidies.refl _, by simp⟩
  · rw [answered]
    refine Or.inl ⟨tidies, fun found same => notCreated ?_⟩
    exact congrArg OpenResult.outcome (Except.ok.inj same)
  · rw [created]
    exact Or.inr ⟨u, insertion, fresh, rfl⟩

theorem Insertion.isNew {u : PostgresApprovalStore Δ}
    (insertion : Insertion t new now judged limits require activity u)
    (fresh : u.approvals.get new.approvalId = none) : t.view.record new.approvalId = none := by
  rw [insertion.isSwept] at fresh
  exact swept_tidies.none.mp fresh

theorem Insertion.obeys {u : PostgresApprovalStore Δ} {waited : ℕ}
    (insertion : Insertion t new now judged limits require activity u)
    (fresh : u.approvals.get new.approvalId = none) :
    Obeys t.view (u.inserted new now fresh).view
      (.openRequest new now waited limits require activity)
      (.opened (.ok ⟨.created, some (new.record now)⟩)) := by
  refine (inserted_writes u fresh).obeys_create (insertion.isSwept ▸ swept_tidies)
    (fun id row found isOpen sameCall => ?_)
    fun id row decidedAt found isRejected sameCall decided => ?_
  · have closed := insertion.noOpen row (Keyed.mem_of_get found)
    simp [openCall, hasCallHash, sameCall, isOpen] at closed
  · have cold := insertion.noRejection row (Keyed.mem_of_get found)
    simpa [rejectedLately, hasCallHash, sameCall, isRejected, decided] using cold

end Opening

/-! ### Every call -/

theorem openRequest_obeys (t : PostgresApprovalStore Δ) (new : NewApproval Δ) (now : Instant) (waited : ℕ)
    (limits : OpenLimits) (require : Bool) (activity : TaskActivity) :
    Obeys t.view (openRequest new now (now + waited) limits require activity openAttempts t).1.view
      (.openRequest new now waited limits require activity)
      (.opened (openRequest new now (now + waited) limits require activity openAttempts t).2) := by
  rcases openRequest_cases t new now (now + waited) limits require activity with
    ⟨tidies, notCreated⟩ | ⟨u, insertion, fresh, isNow⟩
  · exact tidies.obeys _ (quiet_opened notCreated)
  · rw [isNow]
    exact insertion.obeys fresh

theorem mayDecide_of_decidable {id approver : Uuid} {approve : Bool} {now : Instant} {stepUp : Bool}
    {row : ApprovalRecord Δ}
    (this : decidable id approver now (approve && !(approve && stepUp)) row = true) :
    row.approvalId = id ∧ row.MayDecide approver approve now stepUp := by
  unfold decidable hasId at this
  simp only [Bool.and_eq_true, Bool.or_eq_true, decide_eq_true_eq, Bool.not_eq_true'] at this
  obtain ⟨⟨⟨⟨⟨isId, isPending⟩, inTime⟩, isUser⟩, -⟩, strong⟩ := this
  refine ⟨isId, isPending, isUser.symm, fun approves isStrong => ?_, inTime⟩
  rcases strong with verified | notStrong
  · simpa [approves] using verified
  · exact absurd isStrong notStrong

theorem decide_obeys (t : PostgresApprovalStore Δ) (id approver : Uuid) (approve : Bool) (now : Instant)
    (stepUp : Bool) :
    Obeys t.view (t.decide id approver approve now stepUp).1.view
      (.decide id approver approve now stepUp)
      (.decided (t.decide id approver approve now stepUp).2) := by
  unfold decide
  dsimp only
  cases found : t.approvals.rows.find? (decidable id approver now (approve && !(approve && stepUp))) with
  | some row =>
    have this := find?_some found
    have stored := Keyed.get_self (mem_of_find?_eq_some found)
    obtain ⟨isId, may⟩ := mayDecide_of_decidable this
    refine (updateWhere_writes (fun _ => rfl) stored this (fun other isThis => ?_) ?_).obeys_decide
      (isId ▸ stored) may
    · exact (mayDecide_of_decidable isThis).1.trans isId.symm
    · cases approve <;> rfl
  | none =>
    have undecided : ∀ {u : PostgresApprovalStore Δ} {outcome : DecideOutcome}, outcome ≠ .decided →
        Tidies t.view u.view →
        Obeys t.view u.view (.decide id approver approve now stepUp) (.decided ⟨outcome, none⟩) := by
      intro u outcome notDecided tidies
      exact tidies.obeys _ (quiet_decided notDecided)
    dsimp only
    split
    · exact (Tidies.refl _).obeys _ rfl
    · exact (markExpired_tidies _ _).obeys _ rfl
    · next notDecided _ => exact undecided notDecided (Tidies.refl _)

theorem mayConsume_of_consumable {id : Uuid} {binding : ApprovalBinding} {judged : Instant}
    {row : ApprovalRecord Δ} (this : consumable id binding judged row = true) :
    row.approvalId = id ∧ row.MayConsume binding judged := by
  unfold consumable hasId hasTask at this
  simp only [Bool.and_eq_true, decide_eq_true_eq] at this
  obtain ⟨⟨⟨⟨⟨⟨⟨⟨⟨⟨isId, isApproved⟩, inTime⟩, task⟩, attempt⟩, retry⟩, agent⟩, user⟩, tool⟩, level⟩,
    call⟩ := this
  refine ⟨isId, isApproved, ?_, inTime⟩
  have run : row.taskRun = binding.taskRun := TaskRun.ext attempt retry
  unfold ApprovalRecord.binding
  rw [task, run, agent, user, tool, level, call]

theorem consume_obeys (t : PostgresApprovalStore Δ) (id : Uuid) (binding : ApprovalBinding)
    (now : Instant) (waited : ℕ) (require : Bool) (activity : TaskActivity) :
    Obeys t.view (t.consume id binding (now + waited) require activity).1.view
      (.consume id binding now waited require activity)
      (.consumed (t.consume id binding (now + waited) require activity).2) := by
  have unused : ∀ {u : PostgresApprovalStore Δ} {outcome : ConsumeOutcome}, outcome ≠ .consumed →
      Tidies t.view u.view →
      Obeys t.view u.view (.consume id binding now waited require activity) (.consumed outcome) := by
    intro u outcome notConsumed tidies
    exact tidies.obeys _ (quiet_consumed notConsumed)
  unfold consume
  dsimp only
  cases refused : (if require then consumeTaskRefusal activity else none) with
  | some refusal =>
    have notConsumed : refusal ≠ .consumed := by
      rintro rfl
      split_ifs at refused
      cases activity <;> cases refused
    dsimp only
    refine unused ?_ (Tidies.refl _)
    split_ifs with usable
    · exact notConsumed
    · exact fun same => usable (Or.inl same)
  | none =>
    dsimp only
    split_ifs with usable
    · obtain ⟨row, mem, this⟩ := any_eq_true.mp usable
      have stored := Keyed.get_self mem
      obtain ⟨isId, may⟩ := mayConsume_of_consumable this
      have mayNow : row.MayConsume binding now :=
        ⟨may.status, may.binding, lt_of_le_of_lt (by simp) may.inTime⟩
      refine (updateWhere_writes (fun _ => rfl) stored this (fun other isThis => ?_) ?_).obeys_consume
        (isId ▸ stored) mayNow
      · exact (mayConsume_of_consumable isThis).1.trans isId.symm
      · rfl
    · split
      · exact (Tidies.refl _).obeys _ rfl
      · exact (markExpired_tidies _ _).obeys _ rfl
      · next notConsumed _ => exact unused notConsumed (Tidies.refl _)

theorem revoke_obeys (t : PostgresApprovalStore Δ) (id : Uuid) (actor : Option Uuid) (now : Instant) :
    Obeys t.view (t.revoke id actor now).1.view (.revoke id actor now)
      (.revoked (t.revoke id actor now).2) := by
  have tidies : Tidies t.view (t.revoke id actor now).1.view := by
    unfold revoke
    split_ifs
    · exact revokeRows_tidies _ _ _
    · split <;> exact Tidies.refl _
  exact tidies.obeys _ rfl

theorem model_obeys (arrange : List Uuid → List Uuid) (t : PostgresApprovalStore Δ) (call : Call Δ) :
    Obeys ((model arrange).view t) ((model arrange).view ((model arrange).apply t call).1) call
      ((model arrange).apply t call).2 := by
  cases call with
  | openRequest new now waited limits require activity =>
    exact openRequest_obeys t new now waited limits require activity
  | decide id approver approve now stepUp => exact decide_obeys t id approver approve now stepUp
  | consume id binding now waited require activity =>
    exact consume_obeys t id binding now waited require activity
  | revoke id actor now => exact revoke_obeys t id actor now
  | revokeTask taskId now =>
    exact (revokeRows_tidies _ _ _).obeys _ rfl

theorem model_fresh (arrange : List Uuid → List Uuid) (t : PostgresApprovalStore Δ) (call : Call Δ)
    (id : Uuid) (opens : Opens call ((model arrange).apply t call).2 id) :
    ((model arrange).view t).record id = none := by
  obtain ⟨new, now, waited, limits, require, activity, found, rfl, answered, rfl⟩ := opens
  have answered : (openRequest new now (now + waited) limits require activity openAttempts t).2 =
    .ok ⟨.created, found⟩ := Answer.opened.inj answered
  rcases openRequest_cases t new now (now + waited) limits require activity with
    ⟨-, notCreated⟩ | ⟨u, insertion, fresh, -⟩
  · exact absurd answered (notCreated found)
  · exact insertion.isNew fresh

end PostgresApprovalStore

end PawBackend.Tools
