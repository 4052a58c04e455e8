/-
**The session slots of the connections** (`connections/store.py`: the session slot statements).

One row a connection names who holds its slot. Each statement finds, checks and writes that row at one instant of the
database's clock, in a transaction of its own.
-/

import PawBackend.Connections.Domain

namespace PawBackend.Connections

open Lib
open Tools (Instant Uuid)

inductive SessionCollection
  | written
  | unchanged
  | staleVersion
  | detached
  | missing
  | invalid
  deriving DecidableEq, Repr

inductive CredentialSuspicion
  | missing
  | invalid
  deriving DecidableEq, Repr

/-- What a slot bound to a session has on its row. -/
structure SessionBinding where
  session : Uuid
  secretHandle : Uuid
  expectedVersion : ℤ
  kept : Bool := false
  collected : Option SessionCollection := none
  deriving DecidableEq, Repr

/-- A row of `connection_session_leases`. -/
structure LeaseRow where
  kind : ConnectionKind
  holder : Uuid
  acquiredAt : Instant
  heartbeatAt : Instant
  expiresAt : Instant
  binding : Option SessionBinding := none
  deriving DecidableEq, Repr

/-- What the statements read and write of a row of `shared_connections`. -/
structure SuspectRow where
  kind : ConnectionKind
  secretHandle : Uuid
  suspected : Option (Instant × CredentialSuspicion) := none
  deriving DecidableEq, Repr

structure LeaseTables where
  leases : Keyed LeaseRow.kind
  connections : Keyed SuspectRow.kind

def LeaseTables.lease (t : LeaseTables) (kind : ConnectionKind) : Option LeaseRow := t.leases.get kind

/-- What a statement returned: whether it wrote a row, and the session of the row it marked `kept`. -/
structure LeaseReply where
  found : Bool
  session : Option Uuid := none
  deriving DecidableEq, Repr

/-! ### The statements -/

section Statements

variable (t : LeaseTables) (now : Instant) (kind : ConnectionKind) (holder : Uuid)

/-- The row of the connection, where it names the holder and meets the rest of the `WHERE` clause. -/
def LeaseTables.own (guard : LeaseRow → Bool) : Option LeaseRow :=
  (t.lease kind).filter fun row => decide (row.holder = holder) && guard row

/-- An `UPDATE` of that row. -/
def LeaseTables.updateOwn (guard : LeaseRow → Bool) (change : LeaseRow → LeaseRow) : LeaseTables × LeaseReply :=
  match t.own kind holder guard with
  | none => (t, ⟨false, none⟩)
  | some row => ({ t with leases := t.leases.put (change row) }, ⟨true, none⟩)

/-- The `DELETE` of it. -/
def LeaseTables.deleteOwn : LeaseTables × LeaseReply :=
  match t.own kind holder fun _ => true with
  | none => (t, ⟨false, none⟩)
  | some _ => ({ t with leases := t.leases.remove fun row => decide (row.kind = kind) }, ⟨true, none⟩)

def acquireSessionSlot (ttl : ℤ) : LeaseTables × LeaseReply :=
  match t.lease kind with
  | none =>
    ({ t with leases := t.leases.put ⟨kind, holder, now, now, now + ttl, none⟩ }, ⟨true, none⟩)
  | some row =>
    if row.expiresAt ≤ now ∧ row.binding = none then
      let taken := { row with holder := holder, acquiredAt := now, heartbeatAt := now, expiresAt := now + ttl }
      ({ t with leases := t.leases.put taken }, ⟨true, none⟩)
    else (t, ⟨false, none⟩)

def renewSessionSlot (ttl : ℤ) : LeaseTables × LeaseReply :=
  t.updateOwn kind holder (fun row => decide (now < row.expiresAt))
    fun row => { row with heartbeatAt := now, expiresAt := now + ttl }

def releaseSessionSlot : LeaseTables × LeaseReply := t.deleteOwn kind holder

def bindSessionSlot (session handle : Uuid) (version ttl : ℤ) : LeaseTables × LeaseReply :=
  t.updateOwn kind holder (fun row => decide (row.binding = none ∧ now < row.expiresAt)) fun row =>
    { row with
      binding := some { session := session, secretHandle := handle, expectedVersion := version }
      heartbeatAt := now
      expiresAt := now + ttl }

def recordSessionSlotVersion (version : ℤ) : LeaseTables × LeaseReply :=
  t.updateOwn kind holder (fun row => row.binding.isSome) fun row =>
    { row with
      binding := row.binding.map fun binding =>
        { binding with expectedVersion := max binding.expectedVersion version } }

/-- `keep_session_slot`: it returns the session. -/
def keepSessionSlot : LeaseTables × LeaseReply :=
  match t.own kind holder fun row => row.binding.isSome with
  | none => (t, ⟨false, none⟩)
  | some row =>
    let marked := { row with binding := row.binding.map fun binding => { binding with kept := true } }
    ({ t with leases := t.leases.put marked }, ⟨true, row.binding.map SessionBinding.session⟩)

def recordSessionResult (result : SessionCollection) : LeaseTables × LeaseReply :=
  t.updateOwn kind holder (fun row => row.binding.isSome) fun row =>
    { row with binding := row.binding.map fun binding => { binding with collected := some result } }

/-- `take_over_session_slot`: the row of the previous holder, once it expired. -/
def takeOverSessionSlot (previous : Uuid) (ttl : ℤ) : LeaseTables × LeaseReply :=
  t.updateOwn kind previous (fun row => row.binding.isSome && decide (row.expiresAt ≤ now)) fun row =>
    { row with
      holder := holder
      binding := row.binding.map fun binding => { binding with kept := true }
      heartbeatAt := now
      expiresAt := now + ttl }

/-- `finish_session_slot`: with a suspicion it marks the connection, while that still points at the handle. -/
def finishSessionSlot (suspicion : Option CredentialSuspicion) : LeaseTables × LeaseReply :=
  match t.own kind holder (fun _ => true), suspicion with
  | some row, some reason =>
    ({ (t.deleteOwn kind holder).1 with
        connections := t.connections.update
          (fun connection => decide (connection.kind = kind ∧
            row.binding.map SessionBinding.secretHandle = some connection.secretHandle))
          (fun connection => { connection with suspected := some (now, reason) }) fun _ _ => rfl },
      ⟨true, none⟩)
  | _, _ => t.deleteOwn kind holder

end Statements

/-- What a statement does, its connection and its holder apart. -/
inductive LeaseOrder
  | acquire (ttl : ℤ)
  | renew (ttl : ℤ)
  | release
  | bind (session handle : Uuid) (version ttl : ℤ)
  | recordVersion (version : ℤ)
  | keep
  | recordResult (result : SessionCollection)
  | takeOver (previous : Uuid) (ttl : ℤ)
  | finish (suspicion : Option CredentialSuspicion)
  deriving DecidableEq, Repr

structure LeaseStatement where
  kind : ConnectionKind
  holder : Uuid
  order : LeaseOrder
  deriving DecidableEq, Repr

def LeaseStatement.execute (s : LeaseStatement) (now : Instant) (t : LeaseTables) : LeaseTables × LeaseReply :=
  match s.order with
  | .acquire ttl => acquireSessionSlot t now s.kind s.holder ttl
  | .renew ttl => renewSessionSlot t now s.kind s.holder ttl
  | .release => releaseSessionSlot t s.kind s.holder
  | .bind session handle version ttl => bindSessionSlot t now s.kind s.holder session handle version ttl
  | .recordVersion version => recordSessionSlotVersion t s.kind s.holder version
  | .keep => keepSessionSlot t s.kind s.holder
  | .recordResult result => recordSessionResult t s.kind s.holder result
  | .takeOver previous ttl => takeOverSessionSlot t now s.kind s.holder previous ttl
  | .finish suspicion => finishSessionSlot t now s.kind s.holder suspicion

def LeaseOrder.ttl : LeaseOrder → Option ℤ
  | .acquire ttl | .renew ttl | .bind _ _ _ ttl | .takeOver _ ttl => some ttl
  | _ => none

/-- The orders that delete the row. -/
def LeaseOrder.drops : LeaseOrder → Bool
  | .release | .finish _ => true
  | _ => false

/-- The orders that put another holder on the row. -/
def LeaseOrder.seizes : LeaseOrder → Bool
  | .acquire _ | .takeOver _ _ => true
  | _ => false

/-! ### What a statement does to the rows -/

section Changes

variable {t : LeaseTables} {now : Instant} {kind : ConnectionKind} {holder : Uuid}

theorem LeaseTables.kind_of_lease {row : LeaseRow} (found : t.lease kind = some row) : row.kind = kind :=
  Keyed.key_of_get found

theorem LeaseTables.own_eq_some {guard : LeaseRow → Bool} {row : LeaseRow} :
    t.own kind holder guard = some row ↔ t.lease kind = some row ∧ row.holder = holder ∧ guard row = true := by
  unfold LeaseTables.own
  rw [Option.filter_eq_some_iff, Bool.and_eq_true, decide_eq_true_eq]

/-- The row of the connection is another one now, and those of the others are as they were. -/
def LeaseTables.Replaces (t : LeaseTables) (kind : ConnectionKind) (after : Option LeaseRow) (u : LeaseTables) : Prop :=
  ∀ k, u.lease k = if k = kind then after else t.lease k

theorem LeaseTables.replaces_put (t : LeaseTables) {row : LeaseRow} (isKind : row.kind = kind) :
    t.Replaces kind (some row) { t with leases := t.leases.put row } := by
  intro k
  show (t.leases.put row).get k = _
  rw [Keyed.get_put, isKind]
  rfl

theorem LeaseTables.replaces_remove (t : LeaseTables) {row : LeaseRow} (found : t.lease kind = some row) :
    t.Replaces kind none { t with leases := t.leases.remove fun row => decide (row.kind = kind) } := by
  intro k
  show (t.leases.remove _).get k = _
  rw [Keyed.get_remove]
  by_cases same : k = kind
  · have here : t.leases.get k = some row := same ▸ found
    rw [if_pos same, here, Option.filter_some_neg (by simp [kind_of_lease found])]
  · rw [if_neg same]
    show _ = t.leases.get k
    cases there : t.leases.get k with
    | none => rfl
    | some other =>
      have apart : other.kind ≠ kind := fun isKind => same ((Keyed.key_of_get there).symm.trans isKind)
      rw [Option.filter_some_pos (by simpa using apart)]

theorem LeaseTables.updateOwn_spec (t : LeaseTables) (kind : ConnectionKind) (holder : Uuid) {guard : LeaseRow → Bool} {change : LeaseRow → LeaseRow}
    (keeps : ∀ row, (change row).kind = row.kind) :
    t.updateOwn kind holder guard change = (t, ⟨false, none⟩) ∨
      ∃ row, t.lease kind = some row ∧ row.holder = holder ∧ guard row = true ∧
        (t.updateOwn kind holder guard change).2.found = true ∧
        t.Replaces kind (some (change row)) (t.updateOwn kind holder guard change).1 := by
  unfold LeaseTables.updateOwn
  cases own : t.own kind holder guard with
  | none => exact .inl rfl
  | some row =>
    obtain ⟨found, isHolder, guarded⟩ := own_eq_some.mp own
    exact .inr ⟨row, found, isHolder, guarded, rfl, t.replaces_put ((keeps row).trans (kind_of_lease found))⟩

theorem LeaseTables.deleteOwn_spec (t : LeaseTables) (kind : ConnectionKind) (holder : Uuid) :
    t.deleteOwn kind holder = (t, ⟨false, none⟩) ∨
      ∃ row, t.lease kind = some row ∧ row.holder = holder ∧ (t.deleteOwn kind holder).2.found = true ∧
        t.Replaces kind none (t.deleteOwn kind holder).1 := by
  unfold LeaseTables.deleteOwn
  cases own : t.own kind holder fun _ => true with
  | none => exact .inl rfl
  | some row =>
    obtain ⟨found, isHolder, -⟩ := own_eq_some.mp own
    exact .inr ⟨row, found, isHolder, rfl, t.replaces_remove found⟩

end Changes

def LeaseRow.Continues (row row' : LeaseRow) : Prop :=
  ∀ binding ∈ row.binding, ∃ binding' ∈ row'.binding,
    binding'.session = binding.session ∧ binding.expectedVersion ≤ binding'.expectedVersion

inductive LeaseChange (now : Instant) (s : LeaseStatement) : Option LeaseRow → Option LeaseRow → Prop
  | acquired {before : Option LeaseRow} {ttl : ℤ} (order : s.order = .acquire ttl)
      (free : ∀ row ∈ before, row.expiresAt ≤ now ∧ row.binding = none) :
      LeaseChange now s before (some ⟨s.kind, s.holder, now, now, now + ttl, none⟩)
  | takenOver {row : LeaseRow} {binding : SessionBinding} {ttl : ℤ} (order : s.order = .takeOver row.holder ttl)
      (expired : row.expiresAt ≤ now) (bound : row.binding = some binding) :
      LeaseChange now s (some row) (some { row with
        holder := s.holder
        heartbeatAt := now
        expiresAt := now + ttl
        binding := some { binding with kept := true } })
  | written {row row' : LeaseRow} (named : row.holder = s.holder) (same : row'.holder = row.holder)
      (plain : s.order.seizes = false) (live : s.order.ttl.isSome = true → now < row.expiresAt)
      (lasts : row'.expiresAt = (s.order.ttl.map fun ttl => now + ttl).getD row.expiresAt)
      (continues : row.Continues row') : LeaseChange now s (some row) (some row')
  | deleted {row : LeaseRow} (named : row.holder = s.holder) (drops : s.order.drops = true) :
      LeaseChange now s (some row) none

section Execution

variable {t : LeaseTables} {now : Instant} {s : LeaseStatement}

theorem LeaseRow.continues_map {row row' : LeaseRow} {f : SessionBinding → SessionBinding}
    (mapped : row'.binding = row.binding.map f)
    (keeps : ∀ binding, (f binding).session = binding.session ∧ binding.expectedVersion ≤ (f binding).expectedVersion) :
    row.Continues row' := by
  intro binding isBinding
  exact ⟨f binding, by rw [mapped, isBinding]; rfl, keeps binding⟩

theorem LeaseRow.continues_same {row row' : LeaseRow} (same : row'.binding = row.binding) : row.Continues row' :=
  fun binding isBinding => ⟨binding, same ▸ isBinding, rfl, le_refl _⟩

def LeaseStatement.Spec (now : Instant) (s : LeaseStatement) (t : LeaseTables) (r : LeaseTables × LeaseReply) : Prop :=
  r = (t, ⟨false, none⟩) ∨
    r.2.found = true ∧ ∃ after, LeaseChange now s (t.lease s.kind) after ∧ t.Replaces s.kind after r.1

theorem spec_updateOwn {guard : LeaseRow → Bool} {change : LeaseRow → LeaseRow} {holder : Uuid}
    (keeps : ∀ row, (change row).kind = row.kind)
    (changes : ∀ row, row.holder = holder → guard row = true → LeaseChange now s (some row) (some (change row))) :
    s.Spec now t (t.updateOwn s.kind holder guard change) := by
  rcases t.updateOwn_spec s.kind holder keeps with
    nothing | ⟨row, found, isHolder, guarded, wrote, replaces⟩
  · exact .inl nothing
  · exact .inr ⟨wrote, some (change row), found ▸ changes row isHolder guarded, replaces⟩

theorem spec_deleteOwn (drops : s.order.drops = true) : s.Spec now t (t.deleteOwn s.kind s.holder) := by
  rcases t.deleteOwn_spec s.kind s.holder with
    nothing | ⟨row, found, isHolder, wrote, replaces⟩
  · exact .inl nothing
  · exact .inr ⟨wrote, none, found ▸ .deleted isHolder drops, replaces⟩

theorem spec_acquire {ttl : ℤ} (order : s.order = .acquire ttl) :
    s.Spec now t (acquireSessionSlot t now s.kind s.holder ttl) := by
  unfold acquireSessionSlot
  cases found : t.lease s.kind with
  | none =>
    refine .inr ⟨rfl, _, ?_, t.replaces_put rfl⟩
    rw [found]
    exact .acquired order (by simp)
  | some row =>
    dsimp only
    split_ifs with free
    · have isKind := LeaseTables.kind_of_lease found
      refine .inr ⟨rfl, _, ?_, t.replaces_put isKind⟩
      have fresh : { row with holder := s.holder, acquiredAt := now, heartbeatAt := now, expiresAt := now + ttl } =
          (⟨s.kind, s.holder, now, now, now + ttl, none⟩ : LeaseRow) := by
        rw [← isKind, ← free.2]
      rw [found, fresh]
      exact .acquired order (by simpa using free)
    · exact .inl rfl

theorem spec_keep (order : s.order = .keep) : s.Spec now t (keepSessionSlot t s.kind s.holder) := by
  unfold keepSessionSlot
  cases own : t.own s.kind s.holder fun row => row.binding.isSome with
  | none => exact .inl rfl
  | some row =>
    obtain ⟨found, isHolder, -⟩ := LeaseTables.own_eq_some.mp own
    have isKind := LeaseTables.kind_of_lease found
    refine .inr ⟨rfl, _, ?_, t.replaces_put isKind⟩
    rw [found]
    refine .written isHolder rfl (by rw [order]; rfl) (by simp [order, LeaseOrder.ttl]) (by rw [order]; rfl) ?_
    exact LeaseRow.continues_map rfl fun binding => ⟨rfl, le_refl _⟩

theorem spec_finish {suspicion : Option CredentialSuspicion} (order : s.order = .finish suspicion) :
    s.Spec now t (finishSessionSlot t now s.kind s.holder suspicion) := by
  have deletes := @spec_deleteOwn t now s (by rw [order]; rfl)
  unfold finishSessionSlot
  split
  · rename_i row reason own
    rcases deletes with nothing | ⟨-, after, change, replaces⟩
    · have wrote : (t.deleteOwn s.kind s.holder).2.found = true := by
        unfold LeaseTables.deleteOwn
        rw [own]
      rw [nothing] at wrote
      exact absurd wrote Bool.false_ne_true
    · exact .inr ⟨rfl, after, change, replaces⟩
  · exact deletes

/-- **A statement writes the row of its connection alone, and only as `LeaseChange` says.** -/
theorem execute_spec (s : LeaseStatement) (now : Instant) (t : LeaseTables) : s.Spec now t (s.execute now t) := by
  unfold LeaseStatement.execute
  cases order : s.order with
  | acquire ttl => exact spec_acquire order
  | renew ttl =>
    refine spec_updateOwn (fun _ => rfl) fun row isHolder live => ?_
    exact .written isHolder rfl (by rw [order]; rfl) (fun _ => of_decide_eq_true live) (by rw [order]; rfl)
      (LeaseRow.continues_same rfl)
  | release => exact spec_deleteOwn (by rw [order]; rfl)
  | bind session handle version ttl =>
    refine spec_updateOwn (fun _ => rfl) fun row isHolder guarded => ?_
    obtain ⟨unbound, live⟩ := of_decide_eq_true guarded
    refine .written isHolder rfl (by rw [order]; rfl) (fun _ => live) (by rw [order]; rfl) ?_
    intro binding isBinding
    rw [unbound] at isBinding
    cases isBinding
  | recordVersion version =>
    refine spec_updateOwn (fun _ => rfl) fun row isHolder _ => ?_
    refine .written isHolder rfl (by rw [order]; rfl) (by simp [order, LeaseOrder.ttl]) (by rw [order]; rfl) ?_
    exact LeaseRow.continues_map rfl fun binding => ⟨rfl, le_max_left _ _⟩
  | keep => exact spec_keep order
  | recordResult result =>
    refine spec_updateOwn (fun _ => rfl) fun row isHolder _ => ?_
    refine .written isHolder rfl (by rw [order]; rfl) (by simp [order, LeaseOrder.ttl]) (by rw [order]; rfl) ?_
    exact LeaseRow.continues_map rfl fun binding => ⟨rfl, le_refl _⟩
  | takeOver previous ttl =>
    refine spec_updateOwn (fun _ => rfl) fun row isHolder guarded => ?_
    rw [Bool.and_eq_true, decide_eq_true_eq] at guarded
    obtain ⟨binding, bound⟩ := Option.isSome_iff_exists.mp guarded.1
    rw [bound]
    exact .takenOver (by rw [order, isHolder]) guarded.2 bound
  | finish suspicion => exact spec_finish order

theorem execute_of_former (plain : s.order.seizes = false)
    (former : ∀ row, t.lease s.kind = some row → row.holder ≠ s.holder) : (s.execute now t).1 = t := by
  rcases execute_spec s now t with nothing | ⟨-, after, change, -⟩
  · rw [nothing]
  · generalize before : t.lease s.kind = row at change
    cases change with
    | acquired order _ =>
      rw [order] at plain
      cases plain
    | takenOver order _ _ =>
      rw [order] at plain
      cases plain
    | written named _ _ _ _ _ => exact absurd named (former _ before)
    | deleted named _ => exact absurd named (former _ before)

theorem lease_of_execute {ttl : ℤ} (asked : s.order.ttl = some ttl) (found : (s.execute now t).2.found = true) :
    ∃ row, (s.execute now t).1.lease s.kind = some row ∧ row.holder = s.holder ∧ row.expiresAt = now + ttl := by
  rcases execute_spec s now t with nothing | ⟨-, after, change, replaces⟩
  · rw [nothing] at found
    exact absurd found Bool.false_ne_true
  · have here := replaces s.kind
    rw [if_pos rfl] at here
    rw [here]
    generalize t.lease s.kind = before at change
    cases change with
    | acquired order _ =>
      rw [order] at asked
      cases asked
      exact ⟨_, rfl, rfl, rfl⟩
    | takenOver order _ _ =>
      rw [order] at asked
      cases asked
      exact ⟨_, rfl, rfl, rfl⟩
    | written named same _ _ lasts _ =>
      rw [asked] at lasts
      exact ⟨_, rfl, same.trans named, lasts⟩
    | deleted _ drops =>
      cases order : s.order <;> simp_all [LeaseOrder.ttl, LeaseOrder.drops]

end Execution

end PawBackend.Connections
