/-
**The rules of an approval store.** What a store shows is a `View`: the record of each approval, and
the history in order. `Obeys` says what one call may do to a view, and what its answer
means: every approval stays as it is or moves by one of the rules, with one history entry; a new one is
pending, and comes from an `open_request` that found nothing in its way.

A call first puts the open approvals in order it comes across (`Tidies`: timed-out ones are marked, those of an
earlier run revoked).
-/

import PawBackend.Tools.ApprovalStore

namespace PawBackend.Tools

open List

variable {Δ : Type}

/-! ### What a store shows -/

/-- The history entry a status comes with. -/
def ApprovalStatus.kind : ApprovalStatus → ApprovalEventKind
  | .pending => .requested
  | .approved => .approved
  | .rejected => .rejected
  | .consumed => .consumed
  | .revoked => .revoked
  | .expired => .expired

/-- What a store shows: the records by their ids, and the history in order. -/
structure View (Δ : Type) where
  record : Uuid → Option (ApprovalRecord Δ)
  events : List (ToolApprovalEventRow Δ)
  keyed : ∀ id found, record id = some found → found.approvalId = id

namespace View

def status (v : View Δ) (id : Uuid) : Option ApprovalStatus := (v.record id).map ApprovalRecord.status

def history (v : View Δ) (id : Uuid) : List ApprovalEventKind :=
  (v.events.filter fun event => Decidable.decide (event.approvalId = id)).map ToolApprovalEventRow.kind

end View

/-! ### The changes of a record -/

def ApprovalRecord.PutInOrder (record after : ApprovalRecord Δ) : Prop :=
  record.status.isOpen = true ∧ (after = record.expire ∨ ∃ actor now, after = record.revoke actor now)

/-- The approver is the user the agent works for, in time, with a step-up where the level asks for it. -/
structure ApprovalRecord.MayDecide (record : ApprovalRecord Δ) (approver : Uuid) (approve : Bool)
    (now : Instant) (stepUpVerified : Bool) : Prop where
  status : record.status = .pending
  approver : approver = record.requesterUserId
  stepUp : approve = true → record.level = .strongApproval → stepUpVerified = true
  inTime : now < record.expiresAt

/-- The call is the one that was granted, in time. -/
structure ApprovalRecord.MayConsume (record : ApprovalRecord Δ) (binding : ApprovalBinding)
    (now : Instant) : Prop where
  status : record.status = .approved
  binding : record.binding = binding
  inTime : now < record.expiresAt

inductive Moves (call : Call Δ) (answer : Answer Δ) (record : ApprovalRecord Δ) :
    ApprovalRecord Δ → Prop
  | order {after : ApprovalRecord Δ} (ordered : record.PutInOrder after) :
      Moves call answer record after
  | decide {approver : Uuid} {approve : Bool} {now : Instant} {stepUp : Bool} {id : Uuid}
      (called : call = .decide id approver approve now stepUp) (this : record.approvalId = id)
      (answered : answer = .decided ⟨.decided, some (record.decide approver approve now stepUp)⟩)
      (may : record.MayDecide approver approve now stepUp) :
      Moves call answer record (record.decide approver approve now stepUp)
  | consume {binding : ApprovalBinding} {now at_ : Instant} {waited : ℕ} {require : Bool}
      {activity : TaskActivity} {id : Uuid}
      (called : call = .consume id binding now waited require activity) (this : record.approvalId = id)
      (answered : answer = .consumed .consumed) (may : record.MayConsume binding now) :
      Moves call answer record (record.consume at_)

/-! ### What the shared rules allow -/

section Diagnoses

variable {record : ApprovalRecord Δ} {now : Instant}

theorem inTime_of_not_isExpired (notLate : ¬ record.isExpired now = true) : now < record.expiresAt := by
  unfold ApprovalRecord.isExpired at notLate
  simpa using notLate

theorem mayDecide_of_diagnose {approver : Uuid} {approve stepUp : Bool}
    (decided : diagnoseDecide (some record) approver now approve stepUp = .decided) :
    record.MayDecide approver approve now stepUp := by
  unfold diagnoseDecide at decided
  dsimp only at decided
  split_ifs at decided with unauthorised notPending late weak
  push Not at unauthorised
  refine ⟨not_not.mp notPending, unauthorised.1, fun approves strong => ?_,
    inTime_of_not_isExpired late⟩
  by_contra unverified
  exact weak ⟨approves, strong, unverified⟩

theorem mayConsume_of_diagnose {binding : ApprovalBinding}
    (consumed : diagnoseConsume (some record) binding now = .consumed) :
    record.MayConsume binding now := by
  unfold diagnoseConsume at consumed
  dsimp only at consumed
  split_ifs at consumed with mismatch used rejected revoked late superseded pending
  push Not at mismatch superseded late
  refine ⟨?_, ?_, inTime_of_not_isExpired (by simpa using late.2)⟩
  · cases isStatus : record.status <;> simp_all
  · rw [← mismatch, ← superseded]
    rfl

theorem isOpen_of_diagnose (revoked : diagnoseRevoke (some record) now = .revoked) :
    record.status.isOpen = true := by
  unfold diagnoseRevoke at revoked
  dsimp only at revoked
  split_ifs at revoked with isOpen
  exact isOpen.1

end Diagnoses

/-! ### Putting in order -/

structure Tidies (v w : View Δ) : Prop where
  record : ∀ id, w.record id = v.record id ∨ ∃ before after, v.record id = some before ∧
    w.record id = some after ∧ before.PutInOrder after
  events : ∃ added, w.events = v.events ++ added
  history : ∀ id, w.history id = v.history id ++
    if w.status id = v.status id then [] else ((w.status id).map ApprovalStatus.kind).toList

namespace ApprovalRecord.PutInOrder

variable {record after : ApprovalRecord Δ}

theorem closed (ordered : record.PutInOrder after) : after.status.isOpen = false := by
  obtain ⟨-, rfl | ⟨actor, now, rfl⟩⟩ := ordered <;> rfl

theorem status_ne (ordered : record.PutInOrder after) : after.status ≠ record.status := by
  intro same
  have isOpen := ordered.1
  rw [← same, ordered.closed] at isOpen
  cases isOpen

end ApprovalRecord.PutInOrder

namespace Tidies

variable {u v w : View Δ}

theorem refl (v : View Δ) : Tidies v v where
  record _ := Or.inl rfl
  events := ⟨[], (append_nil _).symm⟩
  history id := by rw [if_pos rfl, append_nil]

theorem status_of_record {id : Uuid} (same : w.record id = v.record id) : w.status id = v.status id := by
  unfold View.status
  rw [same]

theorem trans (first : Tidies u v) (second : Tidies v w) : Tidies u w := by
  refine ⟨fun id => ?_, ?_, fun id => ?_⟩
  · rcases second.record id with same | ⟨middle, after, was, now, ordered⟩
    · rw [same]
      exact first.record id
    · rcases first.record id with same | ⟨before, between, -, then_, earlier⟩
      · exact Or.inr ⟨middle, after, same ▸ was, now, ordered⟩
      · have isOpen := ordered.1
        rw [Option.some.inj (was.symm.trans then_), earlier.closed] at isOpen
        cases isOpen
  · obtain ⟨added, isFirst⟩ := first.events
    obtain ⟨more, isSecond⟩ := second.events
    exact ⟨added ++ more, by rw [isSecond, isFirst, append_assoc]⟩
  · rw [second.history id, first.history id, append_assoc]
    congr 1
    rcases second.record id with same | ⟨middle, after, was, now, ordered⟩
    · have sameStatus := status_of_record same
      rw [if_pos sameStatus, append_nil, sameStatus]
    · have unchanged : v.record id = u.record id := by
        rcases first.record id with same | ⟨before, between, -, then_, earlier⟩
        · exact same
        · have isOpen := ordered.1
          rw [Option.some.inj (was.symm.trans then_), earlier.closed] at isOpen
          cases isOpen
      have sameStatus := status_of_record unchanged
      rw [if_pos sameStatus, nil_append, sameStatus]

theorem closed_of_closed (tidies : Tidies v w) {id : Uuid} {after : ApprovalRecord Δ}
    (now : w.record id = some after) (isOpen : after.status.isOpen = true) :
    v.record id = some after := by
  rcases tidies.record id with same | ⟨before, after', -, now', ordered⟩
  · exact same.symm.trans now
  · rw [Option.some.inj (now.symm.trans now'), ordered.closed] at isOpen
    cases isOpen

theorem of_closed (tidies : Tidies v w) {id : Uuid} {before : ApprovalRecord Δ}
    (was : v.record id = some before) (closed : before.status.isOpen = false) :
    w.record id = some before := by
  rcases tidies.record id with same | ⟨before', after, was', -, ordered⟩
  · exact same.trans was
  · have isOpen := ordered.1
    rw [← Option.some.inj (was.symm.trans was'), closed] at isOpen
    cases isOpen

theorem none (tidies : Tidies v w) {id : Uuid} : w.record id = none ↔ v.record id = none := by
  rcases tidies.record id with same | ⟨before, after, was, now, -⟩
  · rw [same]
  · rw [was, now]
    exact iff_of_false (Option.some_ne_none _) (Option.some_ne_none _)

end Tidies

/-! ### One call -/

def Opens (call : Call Δ) (answer : Answer Δ) (id : Uuid) : Prop :=
  ∃ new now waited limits require activity found,
    call = .openRequest new now waited limits require activity ∧
      answer = .opened (.ok ⟨.created, found⟩) ∧ new.approvalId = id

/-- What one call may do to the view of a store, and what its answer means. Whether the id of a request
that is created was free is not said here. -/
structure Obeys (v w : View Δ) (call : Call Δ) (answer : Answer Δ) : Prop where
  /-- An approval that is not created stays as it is, or moves by a rule. -/
  kept : ∀ id, ¬ Opens call answer id → w.record id = v.record id ∨
    ∃ before after, v.record id = some before ∧ w.record id = some after ∧ Moves call answer before after
  events : ∃ added, w.events = v.events ++ added
  history : ∀ id, ¬ Opens call answer id → w.history id = v.history id ++
    if w.status id = v.status id then [] else ((w.status id).map ApprovalStatus.kind).toList
  created : ∀ new now waited limits require activity found,
    call = .openRequest new now waited limits require activity →
    answer = .opened (.ok ⟨.created, found⟩) →
    w.record new.approvalId = some (new.record now) ∧
      (v.record new.approvalId = none →
        w.history new.approvalId = v.history new.approvalId ++ [.requested]) ∧
      (∀ id record, w.record id = some record → record.status.isOpen = true →
        record.callHash = new.callHash → id = new.approvalId) ∧
      ∀ id record decidedAt, v.record id = some record → record.status = .rejected →
        record.callHash = new.callHash → record.decidedAt = some decidedAt →
        decidedAt ≤ now - limits.rejectionCooldown
  /-- A decision was made by one who may. -/
  decided : ∀ found, answer = .decided ⟨.decided, found⟩ →
    ∃ id approver approve now stepUp before, call = .decide id approver approve now stepUp ∧
      v.record id = some before ∧ before.MayDecide approver approve now stepUp ∧
      w.record id = some (before.decide approver approve now stepUp) ∧
      found = some (before.decide approver approve now stepUp)
  /-- A use was of an approval that may be used. -/
  consumed : answer = .consumed .consumed →
    ∃ id binding now waited require activity before at_,
      call = .consume id binding now waited require activity ∧ v.record id = some before ∧
      before.MayConsume binding now ∧ w.record id = some (before.consume at_)

def Answer.quiet : Answer Δ → Bool
  | .opened (.ok ⟨.created, _⟩) => false
  | .decided ⟨.decided, _⟩ => false
  | .consumed .consumed => false
  | _ => true

theorem quiet_opened {result : Except StoreError (OpenResult Δ)}
    (notCreated : ∀ found, result ≠ .ok ⟨.created, found⟩) : (Answer.opened result).quiet = true := by
  rcases result with error | ⟨outcome, record⟩
  · rfl
  · cases outcome <;> first | rfl | exact absurd rfl (notCreated record)

theorem quiet_decided {outcome : DecideOutcome} (notDecided : outcome ≠ .decided) :
    (Answer.decided (⟨outcome, none⟩ : DecideResult Δ)).quiet = true := by
  cases outcome <;> first | rfl | exact absurd rfl notDecided

theorem quiet_consumed {outcome : ConsumeOutcome} (notConsumed : outcome ≠ .consumed) :
    (Answer.consumed (Δ := Δ) outcome).quiet = true := by
  cases outcome <;> first | rfl | exact absurd rfl notConsumed

theorem Tidies.obeys {v w : View Δ} (tidies : Tidies v w) (call : Call Δ) {answer : Answer Δ}
    (quiet : answer.quiet = true) : Obeys v w call answer where
  kept id _ := by
    rcases tidies.record id with same | ⟨before, after, was, now, ordered⟩
    · exact Or.inl same
    · exact Or.inr ⟨before, after, was, now, .order ordered⟩
  events := tidies.events
  history id _ := tidies.history id
  created _ _ _ _ _ _ _ _ answered := by
    rw [answered] at quiet
    cases quiet
  decided _ answered := by
    rw [answered] at quiet
    cases quiet
  consumed answered := by
    rw [answered] at quiet
    cases quiet

/-! ### Writing one record -/

structure Writes (v w : View Δ) (written : ApprovalRecord Δ) : Prop where
  record : ∀ id, w.record id = if id = written.approvalId then some written else v.record id
  events : ∃ row, w.events = v.events ++ [row] ∧ row.approvalId = written.approvalId ∧
    row.kind = written.status.kind

namespace Writes

variable {v w : View Δ} {before after : ApprovalRecord Δ}

theorem this (writes : Writes v w after) : w.record after.approvalId = some after := by
  rw [writes.record, if_pos rfl]

theorem other (writes : Writes v w after) {id : Uuid} (differs : id ≠ after.approvalId) :
    w.record id = v.record id := by
  rw [writes.record, if_neg differs]

theorem history (writes : Writes v w after) (id : Uuid) :
    w.history id = v.history id ++ if id = after.approvalId then [after.status.kind] else [] := by
  obtain ⟨row, isNow, isId, isKind⟩ := writes.events
  unfold View.history
  rw [isNow, filter_append, map_append]
  congr 1
  split_ifs with same
  · rw [filter_cons_of_pos (by simpa [isId] using same.symm)]
    simpa using isKind
  · rw [filter_cons_of_neg (by simpa [isId] using fun this => same this.symm)]
    rfl

theorem history_of_ne (writes : Writes v w after) (id : Uuid)
    (changes : w.status after.approvalId ≠ v.status after.approvalId) :
    w.history id = v.history id ++
      if w.status id = v.status id then [] else ((w.status id).map ApprovalStatus.kind).toList := by
  rw [writes.history id]
  congr 1
  by_cases same : id = after.approvalId
  · subst same
    rw [if_pos rfl, if_neg changes, View.status, writes.this]
    rfl
  · rw [if_neg same, if_pos (Tidies.status_of_record (writes.other same))]

theorem status_ne (writes : Writes v w after) (was : v.record after.approvalId = some before)
    (changes : after.status ≠ before.status) :
    w.status after.approvalId ≠ v.status after.approvalId := by
  rw [View.status, View.status, writes.this, was]
  exact fun same => changes (Option.some.inj same)

theorem tidies (writes : Writes v w after) (was : v.record after.approvalId = some before)
    (ordered : before.PutInOrder after) : Tidies v w where
  record id := by
    by_cases same : id = after.approvalId
    · exact Or.inr ⟨before, after, same ▸ was, same ▸ writes.this, ordered⟩
    · exact Or.inl (writes.other same)
  events := by
    obtain ⟨row, isNow, -⟩ := writes.events
    exact ⟨[row], isNow⟩
  history id := writes.history_of_ne id (writes.status_ne was ordered.status_ne)

variable {id : Uuid}

theorem obeys_decide {approver : Uuid} {approve : Bool} {now : Instant} {stepUp : Bool}
    (writes : Writes v w (before.decide approver approve now stepUp))
    (was : v.record id = some before) (may : before.MayDecide approver approve now stepUp) :
    Obeys v w (.decide id approver approve now stepUp)
      (.decided ⟨.decided, some (before.decide approver approve now stepUp)⟩) := by
  have thisId : before.approvalId = id := v.keyed id before was
  have was' : v.record (before.decide approver approve now stepUp).approvalId = some before :=
    thisId.symm ▸ was
  have changes : (before.decide approver approve now stepUp).status ≠ before.status := by
    rw [may.status]
    cases approve <;> simp [ApprovalRecord.decide]
  constructor
  · intro id' _
    by_cases same : id' = before.approvalId
    · exact Or.inr ⟨before, _, same ▸ was', same ▸ writes.this, .decide rfl thisId rfl may⟩
    · exact Or.inl (writes.other same)
  · obtain ⟨row, isNow, -⟩ := writes.events
    exact ⟨[row], isNow⟩
  · exact fun id' _ => writes.history_of_ne id' (writes.status_ne was' changes)
  · intro _ _ _ _ _ _ _ called
    cases called
  · intro found answered
    cases answered
    exact ⟨id, approver, approve, now, stepUp, before, rfl, was, may, thisId ▸ writes.this, rfl⟩
  · intro answered
    cases answered

theorem obeys_consume {binding : ApprovalBinding} {now at_ : Instant} {waited : ℕ} {require : Bool}
    {activity : TaskActivity} (writes : Writes v w (before.consume at_))
    (was : v.record id = some before) (may : before.MayConsume binding now) :
    Obeys v w (.consume id binding now waited require activity) (.consumed .consumed) := by
  have thisId : before.approvalId = id := v.keyed id before was
  have was' : v.record (before.consume at_).approvalId = some before := thisId.symm ▸ was
  have changes : (before.consume at_).status ≠ before.status := by
    rw [may.status]
    simp [ApprovalRecord.consume]
  constructor
  · intro id' _
    by_cases same : id' = before.approvalId
    · exact Or.inr ⟨before, _, same ▸ was', same ▸ writes.this, .consume rfl thisId rfl may⟩
    · exact Or.inl (writes.other same)
  · obtain ⟨row, isNow, -⟩ := writes.events
    exact ⟨[row], isNow⟩
  · exact fun id' _ => writes.history_of_ne id' (writes.status_ne was' changes)
  · intro _ _ _ _ _ _ _ called
    cases called
  · intro found answered
    cases answered
  · intro answered
    exact ⟨id, binding, now, waited, require, activity, before, at_, rfl, was, may,
      thisId ▸ writes.this⟩

theorem obeys_create {u : View Δ} {new : NewApproval Δ} {now : Instant} {waited : ℕ}
    {limits : OpenLimits} {require : Bool} {activity : TaskActivity}
    (writes : Writes u w (new.record now)) (tidies : Tidies v u)
    (noOpen : ∀ id record, u.record id = some record → record.status.isOpen = true →
      record.callHash ≠ new.callHash)
    (noRejection : ∀ id record decidedAt, u.record id = some record → record.status = .rejected →
      record.callHash = new.callHash → record.decidedAt = some decidedAt →
      decidedAt ≤ now - limits.rejectionCooldown) :
    Obeys v w (.openRequest new now waited limits require activity)
      (.opened (.ok ⟨.created, some (new.record now)⟩)) := by
  have differs : ∀ id, ¬ Opens (.openRequest new now waited limits require activity)
      (.opened (.ok ⟨.created, some (new.record now)⟩)) id → id ≠ (new.record now).approvalId := by
    rintro id other rfl
    exact other ⟨new, now, waited, limits, require, activity, _, rfl, rfl, rfl⟩
  constructor
  · intro id other
    rw [writes.other (differs id other)]
    rcases tidies.record id with same | ⟨before, after, was, isNow, ordered⟩
    · exact Or.inl same
    · exact Or.inr ⟨before, after, was, isNow, .order ordered⟩
  · obtain ⟨added, isFirst⟩ := tidies.events
    obtain ⟨row, isSecond, -⟩ := writes.events
    exact ⟨added ++ [row], by rw [isSecond, isFirst, append_assoc]⟩
  · intro id other
    have same : w.record id = u.record id := writes.other (differs id other)
    rw [writes.history, if_neg (differs id other), append_nil, tidies.history,
      Tidies.status_of_record same]
  · rintro new' now' waited' limits' require' activity' found called -
    cases called
    refine ⟨writes.this, ?_, ?_, ?_⟩
    · intro isNew
      have same : u.record new.approvalId = v.record new.approvalId :=
        (tidies.none.mpr isNew).trans isNew.symm
      have here : new.approvalId = (new.record now).approvalId := rfl
      rw [writes.history, if_pos here, tidies.history, if_pos (Tidies.status_of_record same),
        append_nil]
      rfl
    · intro id record isNow isOpen sameCall
      by_contra other
      rw [writes.other other] at isNow
      exact noOpen id record isNow isOpen sameCall
    · intro id record decidedAt was isRejected sameCall decided
      have closed : record.status.isOpen = false := by
        rw [isRejected]
        rfl
      exact noRejection id record decidedAt (tidies.of_closed was closed) isRejected sameCall decided
  · intro found answered
    cases answered
  · intro answered
    cases answered

end Writes

end PawBackend.Tools
