/-
**The life of an approval, in any store that obeys the rules.** A run of a store is followed with the log
of its calls and answers, and with the sequence of statuses each approval has had (`Trace`). Where every
call of a run obeys the rules (`Obeys`) and creates its requests under ids of their own, every state the
run reaches satisfies `Lifecycle`, and the next call `Advances` it:

* the statuses of an approval are a path of the state machine, and its history is that path;
* what is rejected, consumed, revoked or expired never changes again;
* every use was of an approval that was requested for that very call, granted by its user and in time,
  and is its only use.
-/

import PawBackend.Tools.ApprovalRules
import PawBackend.Lib.Machine
import Mathlib.Data.List.Chain

namespace PawBackend.Tools

open Lib List

variable {σ Δ : Type}

/-! ### Stores and their runs -/

/-- A store: its records, its history, and what a call makes of it. -/
structure StoreModel (σ Δ : Type) where
  approvals : σ → Approvals Δ
  events : σ → List (ToolApprovalEventRow Δ)
  apply : σ → Call Δ → σ × Answer Δ

def StoreModel.view (S : StoreModel σ Δ) (s : σ) : View Δ where
  record := (S.approvals s).get
  events := S.events s
  keyed _ _ found := Keyed.key_of_get found

/-- A store followed with the calls so far and the statuses each approval has had. -/
structure Trace (σ Δ : Type) where
  store : σ
  log : List (Call Δ × Answer Δ)
  changes : Uuid → List ApprovalStatus

def View.changed (v w : View Δ) (changes : Uuid → List ApprovalStatus) (id : Uuid) :
    List ApprovalStatus :=
  changes id ++ if w.status id = v.status id then [] else (w.status id).toList

namespace StoreModel

variable (S : StoreModel σ Δ)

def next (z : Trace σ Δ) (call : Call Δ) : Trace σ Δ where
  store := (S.apply z.store call).1
  log := z.log ++ [(call, (S.apply z.store call).2)]
  changes := (S.view z.store).changed (S.view (S.apply z.store call).1) z.changes

def runs (start : σ) (ok : Trace σ Δ → Call Δ → Prop) [∀ z call, Decidable (ok z call)] :
    Machine (Trace σ Δ) (Call Δ) where
  initial z := z = ⟨start, [], fun _ => []⟩
  step z call := if ok z call then some (S.next z call) else none

variable {S} {start : σ} {ok : Trace σ Δ → Call Δ → Prop} [∀ z call, Decidable (ok z call)]

theorem step_runs {z : Trace σ Δ} {call : Call Δ} (allowed : ok z call) :
    (S.runs start ok).step z call = some (S.next z call) :=
  if_pos allowed

theorem of_step_runs {z z' : Trace σ Δ} {call : Call Δ}
    (taken : (S.runs start ok).step z call = some z') : ok z call ∧ z' = S.next z call := by
  change (if ok z call then some (S.next z call) else none) = some z' at taken
  split_ifs at taken with allowed
  exact ⟨allowed, (Option.some.inj taken).symm⟩

end StoreModel

/-! ### The state machine -/

/-- The changes of a status: pending to approved to consumed, pending to rejected, and pending or
approved to revoked or expired. -/
def ApprovalStatus.leadsTo : ApprovalStatus → ApprovalStatus → Bool
  | .pending, .approved | .pending, .rejected | .pending, .revoked | .pending, .expired => true
  | .approved, .consumed | .approved, .revoked | .approved, .expired => true
  | _, _ => false

/-- A status that never changes again. -/
def ApprovalStatus.final (status : ApprovalStatus) : Prop :=
  status = .rejected ∨ status = .consumed ∨ status = .revoked ∨ status = .expired

def IsPath (statuses : List ApprovalStatus) : Prop :=
  statuses.IsChain (fun before after => before.leadsTo after = true) ∧
    ∀ first ∈ statuses.head?, first = .pending

/-! ### What a log says -/

section

variable (entry : Call Δ × Answer Δ)

def Creates (new : NewApproval Δ) (now : Instant) (limits : OpenLimits) : Prop :=
  ∃ waited require activity found,
    entry = (.openRequest new now waited limits require activity, .opened (.ok ⟨.created, found⟩))

def Approves (id approver : Uuid) (stepUp : Bool) : Prop :=
  ∃ now found, entry = (.decide id approver true now stepUp, .decided ⟨.decided, found⟩)

def Rejects (callHash : CallHash) (now : Instant) : Prop :=
  ∃ id approver stepUp found, entry = (.decide id approver false now stepUp,
    .decided ⟨.decided, some found⟩) ∧ found.callHash = callHash

def Uses (id : Uuid) (binding : ApprovalBinding) (now : Instant) : Prop :=
  ∃ waited require activity,
    entry = (.consume id binding now waited require activity, .consumed .consumed)

end

structure Lifecycle (v : View Δ) (log : List (Call Δ × Answer Δ))
    (changes : Uuid → List ApprovalStatus) : Prop where
  path : ∀ id, IsPath (changes id) ∧ (changes id).getLast? = v.status id
  history : ∀ id, v.history id = (changes id).map ApprovalStatus.kind
  origin : ∀ id record, v.record id = some record → ∃ entry ∈ log, ∃ new now limits,
    Creates entry new now limits ∧ new.approvalId = id ∧ new.binding = record.binding ∧
      new.expiresAt = record.expiresAt
  granted : ∀ id record, v.record id = some record →
    (record.status = .approved ∨ record.status = .consumed) → ∃ entry ∈ log, ∃ stepUp,
      Approves entry id record.requesterUserId stepUp ∧
        (record.level = .strongApproval → stepUp = true)
  spent : ∀ entry ∈ log, ∀ id binding now, Uses entry id binding now → v.status id = some .consumed

structure Advances (v w : View Δ) (log : List (Call Δ × Answer Δ)) (call : Call Δ)
    (answer : Answer Δ) : Prop where
  /-- What is rejected, consumed, revoked or expired never changes again. -/
  final : ∀ id record, v.record id = some record → record.status.final → w.record id = some record
  /-- The history is only added to. -/
  appended : v.events <+: w.events
  /-- A use is of an approval that was requested for this call and granted by its user, before it
  expires, and is its first. -/
  used : ∀ id binding now, Uses (call, answer) id binding now →
    (∃ request ∈ log, ∃ new created limits, Creates request new created limits ∧
      new.approvalId = id ∧ new.binding = binding ∧ now < new.expiresAt ∧
      ∃ grant ∈ log, ∃ stepUp, Approves grant id new.requesterUserId stepUp ∧
        (new.level = .strongApproval → stepUp = true)) ∧
    ∀ other ∈ log, ∀ binding now, ¬ Uses other id binding now

/-! ### What a move keeps -/

namespace ApprovalStatus

theorem leadsTo_ne {before after : ApprovalStatus} (leads : before.leadsTo after = true) :
    after ≠ before := by
  rintro rfl
  cases after <;> cases leads

theorem isOpen_of_leadsTo {before after : ApprovalStatus} (leads : before.leadsTo after = true) :
    before.isOpen = true := by
  cases before <;> first | rfl | cases leads

theorem final.closed {status : ApprovalStatus} (final : status.final) : status.isOpen = false := by
  rcases final with rfl | rfl | rfl | rfl <;> rfl

theorem leadsTo_of_isOpen {before : ApprovalStatus} (isOpen : before.isOpen = true) :
    before.leadsTo .expired = true ∧ before.leadsTo .revoked = true := by
  cases before <;> first | exact ⟨rfl, rfl⟩ | cases isOpen

end ApprovalStatus

namespace Moves

variable {call : Call Δ} {answer : Answer Δ} {before after : ApprovalRecord Δ}

theorem leadsTo (moves : Moves call answer before after) :
    before.status.leadsTo after.status = true := by
  cases moves with
  | order ordered =>
    obtain ⟨isOpen, rfl | ⟨actor, now, rfl⟩⟩ := ordered
    · exact (ApprovalStatus.leadsTo_of_isOpen isOpen).1
    · exact (ApprovalStatus.leadsTo_of_isOpen isOpen).2
  | @decide approver approve now stepUp id called this answered may =>
    rw [may.status]
    cases approve <;> rfl
  | consume called this answered may =>
    rw [may.status]
    rfl

theorem granted_same (moves : Moves call answer before after) :
    after.binding = before.binding ∧ after.expiresAt = before.expiresAt := by
  cases moves with
  | order ordered => obtain ⟨-, rfl | ⟨actor, now, rfl⟩⟩ := ordered <;> exact ⟨rfl, rfl⟩
  | decide => exact ⟨rfl, rfl⟩
  | consume => exact ⟨rfl, rfl⟩

end Moves

/-! ### One more call -/

theorem View.status_eq_some {v : View Δ} {id : Uuid} {status : ApprovalStatus} :
    v.status id = some status ↔ ∃ record, v.record id = some record ∧ record.status = status := by
  unfold View.status
  rw [Option.map_eq_some_iff]

namespace Obeys

variable {v w : View Δ} {call : Call Δ} {answer : Answer Δ}

theorem opened (obeys : Obeys v w call answer) {id : Uuid} (opens : Opens call answer id) :
    ∃ new now limits, Creates (call, answer) new now limits ∧ new.approvalId = id ∧
      w.record id = some (new.record now) ∧
      (v.record id = none → w.history id = v.history id ++ [.requested]) := by
  obtain ⟨new, now, waited, limits, require, activity, found, called, answered, rfl⟩ := opens
  have created := obeys.created _ _ _ _ _ _ _ called answered
  exact ⟨new, now, limits, ⟨waited, require, activity, found, by rw [called, answered]⟩, rfl, created.1,
    created.2.1⟩

theorem closed (obeys : Obeys v w call answer) {id : Uuid} {record : ApprovalRecord Δ}
    (other : ¬ Opens call answer id) (was : v.record id = some record)
    (closed : record.status.isOpen = false) : w.record id = some record := by
  rcases obeys.kept id other with same | ⟨before, after, was', -, moves⟩
  · exact same.trans was
  · have isOpen := ApprovalStatus.isOpen_of_leadsTo moves.leadsTo
    rw [← Option.some.inj (was.symm.trans was'), closed] at isOpen
    cases isOpen

theorem used (obeys : Obeys v w call answer) {id : Uuid} {binding : ApprovalBinding} {now : Instant}
    (uses : Uses (call, answer) id binding now) :
    ∃ before at_, v.record id = some before ∧ before.MayConsume binding now ∧
      w.record id = some (before.consume at_) := by
  obtain ⟨waited, require, activity, isEntry⟩ := uses
  obtain ⟨isCall, isAnswer⟩ := Prod.mk.inj isEntry
  obtain ⟨id', binding', now', waited', require', activity', before, at_, called, was, may, isNow⟩ :=
    obeys.consumed isAnswer
  rw [isCall] at called
  obtain ⟨rfl, rfl, rfl, -, -, -⟩ := Call.consume.inj called
  exact ⟨before, at_, was, may, isNow⟩

end Obeys

section

variable {v w : View Δ} {call : Call Δ} {answer : Answer Δ} {log : List (Call Δ × Answer Δ)}
  {changes : Uuid → List ApprovalStatus}

theorem Obeys.status_cases (obeys : Obeys v w call answer)
    (fresh : ∀ id, Opens call answer id → v.record id = none) (id : Uuid) :
    w.status id = v.status id ∨
    (∃ before after, v.status id = some before ∧ w.status id = some after ∧
      before.leadsTo after = true) ∨
    v.status id = none ∧ w.status id = some .pending := by
  by_cases opens : Opens call answer id
  · obtain ⟨new, now, limits, -, -, isNow, -⟩ := obeys.opened opens
    refine Or.inr (Or.inr ⟨?_, ?_⟩)
    · rw [View.status, fresh id opens]
      rfl
    · rw [View.status, isNow]
      rfl
  · rcases obeys.kept id opens with same | ⟨before, after, was, now, moves⟩
    · exact Or.inl (Tidies.status_of_record same)
    · exact Or.inr (Or.inl ⟨before.status, after.status, View.status_eq_some.mpr ⟨_, was, rfl⟩,
        View.status_eq_some.mpr ⟨_, now, rfl⟩, moves.leadsTo⟩)

theorem IsPath.concat {statuses : List ApprovalStatus} (path : IsPath statuses)
    {after : ApprovalStatus}
    (next : (∃ before, statuses.getLast? = some before ∧ before.leadsTo after = true) ∨
      statuses.getLast? = none ∧ after = .pending) : IsPath (statuses ++ [after]) := by
  rcases next with ⟨before, last, leads⟩ | ⟨isEmpty, rfl⟩
  · refine ⟨isChain_append.mpr ⟨path.1, isChain_singleton _, ?_⟩, ?_⟩
    · intro x isLast y isFirst
      rw [last] at isLast
      rw [head?_cons] at isFirst
      cases isLast
      cases isFirst
      exact leads
    · cases statuses with
      | nil => cases last
      | cons first rest => exact path.2
  · rw [getLast?_eq_none_iff.mp isEmpty]
    exact ⟨isChain_singleton _, by simp⟩

theorem Lifecycle.path_next (life : Lifecycle v log changes) (obeys : Obeys v w call answer)
    (fresh : ∀ id, Opens call answer id → v.record id = none) (id : Uuid) :
    IsPath (v.changed w changes id) ∧ (v.changed w changes id).getLast? = w.status id := by
  obtain ⟨path, last⟩ := life.path id
  unfold View.changed
  rcases obeys.status_cases fresh id with same | ⟨before, after, was, now, leads⟩ | ⟨was, now⟩
  · rw [if_pos same, append_nil, same]
    exact ⟨path, last⟩
  · have changes_ : w.status id ≠ v.status id := by
      rw [was, now]
      exact fun same => ApprovalStatus.leadsTo_ne leads (Option.some.inj same)
    rw [if_neg changes_, now]
    refine ⟨path.concat (Or.inl ⟨before, last.trans was, leads⟩), ?_⟩
    rw [Option.toList_some, getLast?_concat]
  · have changes_ : w.status id ≠ v.status id := by
      rw [was, now]
      exact Option.some_ne_none _
    rw [if_neg changes_, now]
    refine ⟨path.concat (Or.inr ⟨last.trans was, rfl⟩), ?_⟩
    rw [Option.toList_some, getLast?_concat]

theorem Lifecycle.history_next (life : Lifecycle v log changes) (obeys : Obeys v w call answer)
    (fresh : ∀ id, Opens call answer id → v.record id = none) (id : Uuid) :
    w.history id = (v.changed w changes id).map ApprovalStatus.kind := by
  unfold View.changed
  rw [map_append, ← life.history id]
  by_cases opens : Opens call answer id
  · obtain ⟨new, now, limits, -, -, isNow, added⟩ := obeys.opened opens
    have was : v.status id = none := by
      rw [View.status, fresh id opens]
      rfl
    have isPending : w.status id = some .pending := by
      rw [View.status, isNow]
      rfl
    rw [added (fresh id opens), was, isPending, if_neg (Option.some_ne_none _)]
    rfl
  · rw [obeys.history id opens]
    congr 1
    split_ifs
    · rfl
    · cases w.status id <;> rfl

theorem Lifecycle.origin_next (life : Lifecycle v log changes) (obeys : Obeys v w call answer)
    (id : Uuid) (record : ApprovalRecord Δ) (now : w.record id = some record) :
    ∃ entry ∈ log ++ [(call, answer)], ∃ new now limits, Creates entry new now limits ∧
      new.approvalId = id ∧ new.binding = record.binding ∧ new.expiresAt = record.expiresAt := by
  by_cases opens : Opens call answer id
  · obtain ⟨new, at_, limits, creates, this, isNow, -⟩ := obeys.opened opens
    rw [Option.some.inj (now.symm.trans isNow)]
    exact ⟨_, mem_append_right _ (mem_singleton_self _), new, at_, limits, creates, this, rfl,
      rfl⟩
  · have earlier : ∃ before, v.record id = some before ∧ record.binding = before.binding ∧
        record.expiresAt = before.expiresAt := by
      rcases obeys.kept id opens with same | ⟨before, after, was, isNow, moves⟩
      · exact ⟨record, same.symm.trans now, rfl, rfl⟩
      · rw [Option.some.inj (now.symm.trans isNow)]
        exact ⟨before, was, moves.granted_same⟩
    obtain ⟨before, was, sameBinding, sameEnd⟩ := earlier
    obtain ⟨entry, mem, new, at_, limits, creates, this, binding, ends⟩ := life.origin id before was
    exact ⟨entry, mem_append_left _ mem, new, at_, limits, creates, this,
      binding.trans sameBinding.symm, ends.trans sameEnd.symm⟩

theorem Lifecycle.granted_next (life : Lifecycle v log changes) (obeys : Obeys v w call answer)
    (id : Uuid) (record : ApprovalRecord Δ) (now : w.record id = some record)
    (status : record.status = .approved ∨ record.status = .consumed) :
    ∃ entry ∈ log ++ [(call, answer)], ∃ stepUp, Approves entry id record.requesterUserId stepUp ∧
      (record.level = .strongApproval → stepUp = true) := by
  have inLog : ∀ before, v.record id = some before →
      (before.status = .approved ∨ before.status = .consumed) →
      ∃ entry ∈ log ++ [(call, answer)], ∃ stepUp, Approves entry id before.requesterUserId stepUp ∧
        (before.level = .strongApproval → stepUp = true) := by
    intro before was granted
    obtain ⟨entry, mem, rest⟩ := life.granted id before was granted
    exact ⟨entry, mem_append_left _ mem, rest⟩
  by_cases opens : Opens call answer id
  · obtain ⟨new, at_, limits, -, -, isNow, -⟩ := obeys.opened opens
    rw [Option.some.inj (now.symm.trans isNow)] at status
    rcases status with status | status <;> cases status
  · rcases obeys.kept id opens with same | ⟨before, after, was, isNow, moves⟩
    · exact inLog record (same.symm.trans now) status
    · cases Option.some.inj (now.symm.trans isNow)
      cases moves with
      | order ordered =>
        have closed := ordered.closed
        rcases status with status | status
        · rw [status] at closed
          cases closed
        · obtain ⟨-, rfl | ⟨actor, at_, rfl⟩⟩ := ordered <;> cases status
      | @decide approver approve at_ stepUp id' called this answered may =>
        have approves : approve = true := by
          cases approve
          · rcases status with status | status <;> cases status
          · rfl
        subst approves
        have thisId : id' = id := this.symm.trans (v.keyed id before was)
        have byUser : approver = before.requesterUserId := may.approver
        refine ⟨_, mem_append_right _ (mem_singleton_self _), stepUp,
          ⟨at_, some (before.decide approver true at_ stepUp), ?_⟩, may.stepUp rfl⟩
        rw [called, answered, thisId, byUser]
        rfl
      | consume called this answered may => exact inLog before was (Or.inl may.status)

theorem Lifecycle.spent_next (life : Lifecycle v log changes) (obeys : Obeys v w call answer)
    (fresh : ∀ id, Opens call answer id → v.record id = none) :
    ∀ entry ∈ log ++ [(call, answer)], ∀ id binding now, Uses entry id binding now →
      w.status id = some .consumed := by
  intro entry mem id binding now uses
  rcases mem_append.mp mem with mem | mem
  · obtain ⟨record, was, isConsumed⟩ := View.status_eq_some.mp (life.spent entry mem id binding now uses)
    have other : ¬ Opens call answer id := by
      intro opens
      rw [fresh id opens] at was
      cases was
    exact View.status_eq_some.mpr ⟨record, obeys.closed other was (by rw [isConsumed]; rfl), isConsumed⟩
  · rw [mem_singleton] at mem
    subst mem
    obtain ⟨before, at_, -, -, isNow⟩ := obeys.used uses
    exact View.status_eq_some.mpr ⟨_, isNow, rfl⟩

theorem Lifecycle.step (life : Lifecycle v log changes) (obeys : Obeys v w call answer)
    (fresh : ∀ id, Opens call answer id → v.record id = none) :
    Lifecycle w (log ++ [(call, answer)]) (v.changed w changes) where
  path := life.path_next obeys fresh
  history := life.history_next obeys fresh
  origin := life.origin_next obeys
  granted := life.granted_next obeys
  spent := life.spent_next obeys fresh

theorem Lifecycle.advances (life : Lifecycle v log changes) (obeys : Obeys v w call answer)
    (fresh : ∀ id, Opens call answer id → v.record id = none) : Advances v w log call answer where
  final id record was final := by
    refine obeys.closed (fun opens => ?_) was final.closed
    rw [fresh id opens] at was
    cases was
  appended := by
    obtain ⟨added, isNow⟩ := obeys.events
    exact ⟨added, isNow.symm⟩
  used id binding now uses := by
    obtain ⟨before, at_, was, may, -⟩ := obeys.used uses
    obtain ⟨request, asked, new, created, limits, creates, this, isBinding, ends⟩ :=
      life.origin id before was
    obtain ⟨grant, given, stepUp, approves, strong⟩ := life.granted id before was (Or.inl may.status)
    have sameUser : new.requesterUserId = before.requesterUserId :=
      congrArg ApprovalBinding.requesterUserId isBinding
    have sameLevel : new.level = before.level := congrArg ApprovalBinding.level isBinding
    refine ⟨⟨request, asked, new, created, limits, creates, this, isBinding.trans may.binding, ?_, grant,
      given, stepUp, ?_, ?_⟩, ?_⟩
    · rw [ends]
      exact may.inTime
    · rw [sameUser]
      exact approves
    · rw [sameLevel]
      exact strong
    · intro other mem binding' now' again
      obtain ⟨record, was', isConsumed⟩ :=
        View.status_eq_some.mp (life.spent other mem id binding' now' again)
      rw [← Option.some.inj (was.symm.trans was'), may.status] at isConsumed
      cases isConsumed

end

/-! ### Whole runs -/

section

variable {S : StoreModel σ Δ} {start : σ} {ok : Trace σ Δ → Call Δ → Prop}
  [∀ z call, Decidable (ok z call)]

theorem StoreModel.lifecycle (noRecord : ∀ id, (S.approvals start).get id = none)
    (noEvent : S.events start = [])
    (obeys : ∀ s call, Obeys (S.view s) (S.view (S.apply s call).1) call (S.apply s call).2)
    (fresh : ∀ z call, ok z call → ∀ id, Opens call (S.apply z.store call).2 id →
      (S.view z.store).record id = none)
    {z : Trace σ Δ} (reach : (S.runs start ok).Reachable z) :
    Lifecycle (S.view z.store) z.log z.changes := by
  refine reach.invariant (P := fun z => Lifecycle (S.view z.store) z.log z.changes) ?_ ?_
  · rintro z rfl
    have nothing : ∀ id, (S.view start).record id = none := noRecord
    refine ⟨fun id => ⟨⟨isChain_nil, by simp⟩, ?_⟩, fun id => ?_, fun id record now => ?_,
      fun id record now => ?_, fun entry mem => ?_⟩
    · show none = (S.view start).status id
      rw [View.status, nothing]
      rfl
    · show (S.view start).history id = []
      rw [View.history, show (S.view start).events = [] from noEvent]
      rfl
    · rw [nothing] at now
      cases now
    · rw [nothing] at now
      cases now
    · cases mem
  · intro z call z' _ life taken
    obtain ⟨allowed, rfl⟩ := StoreModel.of_step_runs taken
    exact life.step (obeys z.store call) (fresh z call allowed)

end

end PawBackend.Tools
