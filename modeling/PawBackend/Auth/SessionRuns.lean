/-
**Runs of the session statements** (`auth/sessions.py`).

The transactions of any number of callers take their statements in any order; each statement is judged at one instant,
and these do not go back. `authenticate` and `purge` are left between their two statements, and a call may be
abandoned there.
-/

import PawBackend.Auth.Sessions
import PawBackend.Lib.Machine
import Mathlib.Tactic.Linarith

namespace PawBackend.Auth

open Lib
open Tools (Uuid Instant)
open Projects (UserStatus)

/-! ### The machine -/

/-- A session id that was handed out: for which session, in exchange for which digest, with which Passkey. -/
structure Issue where
  session : Uuid
  old : Option TokenHash
  token : SessionToken
  passkey : Option Uuid

/-- A call of one operation, with the random values it draws. -/
inductive Operation
  | create (id userId : Uuid) (token : SessionToken) (rememberMe : Bool) (deviceLabel : Option Text)
      (authMethod : AuthMethod) (passkeyGate : PasskeyGate)
  | authenticate (token : Text) (touch : Bool)
  | rotate (id : Uuid) (old : TokenHash) (token : SessionToken)
  | recordStepUp (id : Uuid) (old : TokenHash) (token : SessionToken) (method : AuthMethod) (passkeyId : Option Uuid)
  | openGate (id : Uuid) (old : TokenHash) (token : SessionToken) (passkeyId : Uuid)
  | revoke (id userId : Uuid) (reason : RevokeReason)
  | revokeByToken (token : Text) (reason : RevokeReason)
  | revokeAll (userId : Uuid) (reason : RevokeReason) (exceptId : Option Uuid)
  | revokeBoundToPasskey (passkeyId : Uuid)
  | clearPasskeyStepUps (userId : Uuid)
  | purge

/-- The statement a call still has to take. -/
inductive Rest
  | touch (found : AuthenticatedSession)
  | purgeIdle
  | purgeRevoked (deleted : ℕ)

/-- What a statement did: the tables, what it issued, and where the call is. -/
structure Performed where
  tables : AuthTables
  issue : Option Issue
  rest : Option Rest

structure SessionWorld where
  tables : AuthTables
  clock : Instant
  issues : List Issue
  calls : List Rest

inductive SessionEvent
  | call (op : Operation) (caller database : Instant) (chosen : List Uuid)
  | resume (place : ℕ) (caller database : Instant) (chosen : List Uuid)
  | abandon (place : ℕ)
  | setUser (user : AuthUser)
  | addPasskey (id : Uuid)

section Machine

variable (py : Unicode) (lifetimes : SessionLifetimes) (sha256 : Text → TokenHash)

def Operation.first (t : AuthTables) (ts : Instant) (chosen : List Uuid) : Operation → Except AuthError Performed
  | .create id userId token rememberMe deviceLabel authMethod gate =>
    (Auth.create t ts py lifetimes sha256 id userId token rememberMe deviceLabel authMethod gate).map fun r =>
      ⟨r.1, some ⟨id, none, token, none⟩, some .purgeIdle⟩
  | .authenticate token touch =>
    .ok ⟨t, none, ((Auth.authenticate t ts sha256 token).filter fun _ => touch).map .touch⟩
  | .rotate id old token =>
    (Auth.rotate t ts sha256 id old token).map fun r => ⟨r.1, r.2.map fun token => ⟨id, some old, token, none⟩, none⟩
  | .recordStepUp id old token method passkeyId =>
    (Auth.recordStepUp t ts sha256 id old token method passkeyId).map fun r =>
      ⟨r.1, r.2.map fun issued => ⟨id, some old, issued.token, passkeyId⟩, none⟩
  | .openGate id old token passkeyId =>
    (Auth.openGate t ts sha256 id old token passkeyId).map fun r =>
      ⟨r.1, r.2.map fun issued => ⟨id, some old, issued.token, some passkeyId⟩, none⟩
  | .revoke id userId reason => (Auth.revoke t ts id userId reason).map fun r => ⟨r.1, none, none⟩
  | .revokeByToken token reason => (Auth.revokeByToken t ts sha256 token reason).map fun r => ⟨r.1, none, none⟩
  | .revokeAll userId reason exceptId => (Auth.revokeAll t ts userId reason exceptId).map fun r => ⟨r.1, none, none⟩
  | .revokeBoundToPasskey passkeyId => (Auth.revokeBoundToPasskey t ts passkeyId).map fun r => ⟨r.1, none, none⟩
  | .clearPasskeyStepUps userId => (Auth.clearPasskeyStepUps t userId).map fun r => ⟨r.1, none, none⟩
  | .purge =>
    let r := Auth.purgeIdle t ts chosen
    .ok ⟨r.1, none, if purgeBatch ≤ r.2 then none else some (.purgeRevoked r.2)⟩

def Rest.next (t : AuthTables) (ts : Instant) (chosen : List Uuid) : Rest → Except AuthError Performed
  | .touch found => (Auth.touch t ts lifetimes found).map fun r => ⟨r.1, none, none⟩
  | .purgeIdle =>
    let r := Auth.purgeIdle t ts chosen
    .ok ⟨r.1, none, if purgeBatch ≤ r.2 then none else some (.purgeRevoked r.2)⟩
  | .purgeRevoked deleted => .ok ⟨(Auth.purgeRevoked t ts deleted chosen).1, none, none⟩

def SessionWorld.Fresh (w : SessionWorld) : Operation → Prop
  | .create id _ token _ _ _ _ =>
    id ∉ w.issues.map Issue.session ∧
      hashSessionToken sha256 token ∉ w.issues.map fun issue => hashSessionToken sha256 issue.token
  | .rotate _ _ token | .recordStepUp _ _ token _ _ | .openGate _ _ token _ =>
    hashSessionToken sha256 token ∉ w.issues.map fun issue => hashSessionToken sha256 issue.token
  | _ => True

instance (w : SessionWorld) (op : Operation) : Decidable (w.Fresh sha256 op) :=
  match op with
  | .create .. => inferInstanceAs (Decidable (_ ∧ _))
  | .rotate .. | .recordStepUp .. | .openGate .. => inferInstanceAs (Decidable (_ ∉ _))
  | .authenticate .. | .revoke .. | .revokeByToken .. | .revokeAll .. | .revokeBoundToPasskey _
  | .clearPasskeyStepUps _ | .purge => inferInstanceAs (Decidable True)

/-- The statement was taken at an instant: its effects, or none where it raised. -/
def SessionWorld.after (w : SessionWorld) (ts : Instant) (done : Except AuthError Performed) : SessionWorld :=
  match done with
  | .error _ => { w with clock := ts }
  | .ok performed =>
    { tables := performed.tables
      clock := ts
      issues := w.issues ++ performed.issue.toList
      calls := w.calls ++ performed.rest.toList }

def SessionWorld.step (w : SessionWorld) : SessionEvent → Option SessionWorld
  | .call op caller database chosen =>
    let ts := max caller database
    if w.clock ≤ ts ∧ w.Fresh sha256 op then
      some (w.after ts (op.first py lifetimes sha256 w.tables ts chosen))
    else none
  | .resume place caller database chosen =>
    let ts := max caller database
    if w.clock ≤ ts then
      w.calls[place]?.map fun rest =>
        ({ w with calls := w.calls.eraseIdx place }).after ts (rest.next lifetimes w.tables ts chosen)
    else none
  | .abandon place => some { w with calls := w.calls.eraseIdx place }
  | .setUser user => some { w with tables := { w.tables with users := w.tables.users.put user } }
  | .addPasskey id => some { w with tables := { w.tables with passkeys := id :: w.tables.passkeys } }

def sessionMachine : Machine SessionWorld SessionEvent where
  initial w := w.tables.sessions = Keyed.empty ∧ w.issues = [] ∧ w.calls = []
  step w := w.step py lifetimes sha256

end Machine

/-! ### What a statement can make of a row -/

variable {py : Unicode} {lifetimes : SessionLifetimes} {sha256 : Text → TokenHash}

def AuthSessionRow.GateStep (row row' : AuthSessionRow) (passkey : Option Uuid) : Prop :=
  row'.passkeyGate = row.passkeyGate ∧ row'.passkeyId = row.passkeyId ∨
    passkey.isSome = true ∧ row'.passkeyGate = .isOpen ∧
      row'.passkeyId = if row.passkeyGate = .isOpen then row.passkeyId else passkey

/-- What a statement judged at `now` makes of one row, and what it issued for it. -/
inductive SessionChange (sha256 : Text → TokenHash) (now : Instant) :
    Option Issue → Option AuthSessionRow → Option AuthSessionRow → Prop
  | same (row : Option AuthSessionRow) : SessionChange sha256 now none row row
  | created {row : AuthSessionRow} {issue : Issue} (first : issue.old = none)
      (hash : row.tokenHash = hashSessionToken sha256 issue.token)
      (within : row.idleExpiresAt ≤ row.absoluteExpiresAt) : SessionChange sha256 now (some issue) none (some row)
  | reissued {row row' : AuthSessionRow} {issue : Issue} (live : row.validAt now = true)
      (old : issue.old = some row.tokenHash) (hash : row'.tokenHash = hashSessionToken sha256 issue.token)
      (idle : row'.idleExpiresAt = row.idleExpiresAt) (absolute : row'.absoluteExpiresAt = row.absoluteExpiresAt)
      (gate : row.GateStep row' issue.passkey) : SessionChange sha256 now (some issue) (some row) (some row')
  | touched {row : AuthSessionRow} (live : row.validAt now = true) :
      SessionChange sha256 now none (some row) (some { row with
        lastUsedAt := now
        idleExpiresAt := min (now + seconds row.idleTimeoutSeconds) row.absoluteExpiresAt })
  | revoked (row : AuthSessionRow) (reason : RevokeReason) :
      SessionChange sha256 now none (some row) (some { row with revokedAt := some now, revokedReason := some reason })
  | cleared (row : AuthSessionRow) :
      SessionChange sha256 now none (some row) (some { row with stepupAt := none, stepupMethod := none })
  | deleted {row : AuthSessionRow} (ended : row.validAt now = false) : SessionChange sha256 now none (some row) none

/-- A statement leaves the other tables and changes every row as `SessionChange` says. -/
structure Changes (sha256 : Text → TokenHash) (now : Instant) (issue : Option Issue) (t t' : AuthTables) : Prop where
  users : t'.users = t.users
  passkeys : t'.passkeys = t.passkeys
  rows : ∀ id, SessionChange sha256 now (issue.filter fun i => decide (i.session = id)) (t.sessions.get id)
    (t'.sessions.get id)

section Spec

variable {t t' : AuthTables} {ts : Instant}

theorem Changes.refl (sha256 : Text → TokenHash) (now : Instant) (t : AuthTables) : Changes sha256 now none t t :=
  ⟨rfl, rfl, fun id => .same (t.sessions.get id)⟩

variable {p : AuthSessionRow → Bool} {change : AuthSessionRow → AuthSessionRow} {changed : List AuthSessionRow}
  {row : AuthSessionRow}

theorem updateSessions_spec {keeps : ∀ row, p row = true → (change row).id = row.id}
    (done : t.updateSessions p change keeps = .ok (t', changed)) :
    t'.users = t.users ∧ t'.passkeys = t.passkeys ∧
      (∀ id, t'.sessions.get id = (t.sessions.get id).map fun row => if p row then change row else row) ∧
      changed = (t.sessions.rows.filter p).map change := by
  unfold AuthTables.updateSessions at done
  dsimp only at done
  split_ifs at done with accepted
  obtain ⟨rfl, rfl⟩ := Prod.mk.inj (Except.ok.inj done)
  exact ⟨rfl, rfl, fun id => t.sessions.get_update p change keeps id, rfl⟩

theorem changes_of_update {keeps : ∀ row, p row = true → (change row).id = row.id}
    (done : t.updateSessions p change keeps = .ok (t', changed))
    (selected : ∀ row, p row = true → SessionChange sha256 ts none (some row) (some (change row))) :
    Changes sha256 ts none t t' := by
  obtain ⟨users, passkeys, rows, -⟩ := updateSessions_spec done
  refine ⟨users, passkeys, fun id => ?_⟩
  rw [rows id]
  cases found : t.sessions.get id with
  | none => exact .same none
  | some row =>
    show SessionChange sha256 ts none (some row) (some (if p row then change row else row))
    split_ifs with isSelected
    · exact selected row isSelected
    · exact .same (some row)

theorem changes_of_swap {keeps : ∀ row, p row = true → (change row).id = row.id} (issue : Issue)
    (done : t.updateSessions p change keeps = .ok (t', changed))
    (only : ∀ row, p row = true → row.id = issue.session)
    (selected : ∀ row, p row = true → SessionChange sha256 ts (some issue) (some row) (some (change row))) :
    Changes sha256 ts (changed.head?.map fun _ => issue) t t' := by
  obtain ⟨users, passkeys, rows, rfl⟩ := updateSessions_spec done
  refine ⟨users, passkeys, fun id => ?_⟩
  have found : ((t.sessions.rows.filter p).map change).head? = ((t.sessions.get issue.session).filter p).map change := by
    rw [List.head?_map, List.head?_filter, t.sessions.find?_of_key only]
  rw [rows id, found]
  by_cases here : issue.session = id
  · rw [here]
    cases there : t.sessions.get id with
    | none => exact .same none
    | some row =>
      by_cases isSelected : p row = true
      · simpa [Option.filter, isSelected, here] using selected row isSelected
      · simpa [Option.filter, isSelected] using SessionChange.same (some row)
  · have notMine : Option.filter (fun i => decide (i.session = id))
        ((((t.sessions.get issue.session).filter p).map change).map fun _ => issue) = none := by
      rw [Option.filter_eq_none_iff]
      intro i isIssue
      obtain ⟨_, -, rfl⟩ := Option.map_eq_some_iff.mp isIssue
      simpa using here
    rw [notMine]
    cases there : t.sessions.get id with
    | none => exact .same none
    | some row =>
      have other : p row = false := Bool.eq_false_iff.mpr fun isSelected =>
        here ((only row isSelected).symm.trans (Keyed.key_of_get there))
      rw [Option.map_some, other]
      exact .same (some row)

theorem changes_of_insert {issue : Issue} (done : t.insertSession row = .ok t')
    (names : row.id = issue.session) (first : issue.old = none)
    (hash : row.tokenHash = hashSessionToken sha256 issue.token) : Changes sha256 ts (some issue) t t' := by
  unfold AuthTables.insertSession at done
  split_ifs at done with accepted
  obtain ⟨sessions, added, rfl⟩ := map_eq_ok.mp done
  have inserted := orThrow_eq_ok.mp added
  have within : row.idleExpiresAt ≤ row.absoluteExpiresAt := by
    have checked := accepted.1
    simp only [AuthTables.accepts, AuthSessionRow.checks, Bool.and_eq_true, decide_eq_true_eq] at checked
    exact checked.1.1.1.1.1.1.1
  refine ⟨rfl, rfl, fun id => ?_⟩
  show SessionChange sha256 ts _ (t.sessions.get id) (sessions.get id)
  rw [Keyed.get_of_tryInsert inserted]
  split_ifs with this
  · rw [this, Keyed.fresh_of_tryInsert inserted, names, Option.filter_some_pos (by simp)]
    exact .created first hash within
  · rw [Option.filter_some_neg (by simpa [← names] using fun same => this same.symm)]
    exact .same _

theorem changes_of_delete (p : AuthSessionRow → Bool) (batch : ℕ) (chosen : List Uuid)
    (ended : ∀ row, p row = true → row.validAt ts = false) :
    Changes sha256 ts none t (t.deleteSessions p batch chosen).1 := by
  refine ⟨rfl, rfl, fun id => ?_⟩
  unfold AuthTables.deleteSessions
  dsimp only
  rw [Keyed.get_remove]
  cases found : t.sessions.get id with
  | none => exact .same none
  | some row =>
    by_cases gone : row.id ∈ (((t.sessions.rows.filter p).map AuthSessionRow.id).filter
        (decide <| · ∈ chosen)).take batch
    · obtain ⟨named, -⟩ := List.mem_filter.mp (List.mem_of_mem_take gone)
      obtain ⟨other, mem, same⟩ := List.mem_map.mp named
      obtain ⟨inTable, selected⟩ := List.mem_filter.mp mem
      have isRow := t.sessions.eq_of_key_eq inTable (Keyed.mem_of_get found) same
      rw [Option.filter_some_neg (by simpa using gone)]
      exact .deleted (ended row (isRow ▸ selected))
    · rw [Option.filter_some_pos (by simpa using gone)]
      exact .same _

theorem live_of_held {id : Uuid} {old : TokenHash} (held : row.heldAt ts id old = true) :
    row.id = id ∧ row.tokenHash = old ∧ row.validAt ts = true := by
  unfold AuthSessionRow.heldAt at held
  rw [Bool.and_eq_true, decide_eq_true_eq] at held
  exact ⟨held.1.1, held.1.2, held.2⟩

theorem changes_revoke {reason : RevokeReason} {ended : List Uuid}
    (done : t.revokeSessions ts p reason = .ok (t', ended)) : Changes sha256 ts none t t' := by
  unfold AuthTables.revokeSessions at done
  obtain ⟨⟨after, changed⟩, updated, rest⟩ := bind_eq_ok.mp done
  obtain ⟨rfl, -⟩ := Prod.mk.inj (Except.ok.inj rest)
  exact changes_of_update updated fun row _ => .revoked row reason

theorem not_valid_of_idle (idle : row.idleExpiresAt < ts - seconds sessionRetentionSeconds) :
    row.validAt ts = false := by
  have kept : 0 ≤ seconds sessionRetentionSeconds := by decide
  have past : ¬ts < row.idleExpiresAt := not_lt.mpr (by linarith)
  simp [AuthSessionRow.validAt, past]

theorem not_valid_of_revoked {p : Instant → Bool} (revoked : row.revokedAt.any p = true) :
    row.validAt ts = false := by
  cases at_ : row.revokedAt with
  | none => simp [at_] at revoked
  | some time => simp [AuthSessionRow.validAt, at_]

def Operation.Issues (issue : Issue) : Operation → Prop
  | .create id _ token _ _ _ _ => issue = ⟨id, none, token, none⟩
  | .rotate id old token => issue = ⟨id, some old, token, none⟩
  | .recordStepUp id old token _ passkeyId => issue = ⟨id, some old, token, passkeyId⟩
  | .openGate id old token passkeyId => issue = ⟨id, some old, token, some passkeyId⟩
  | _ => False

theorem mem_of_swapped {α : Type} {changed : List α} {issue i : Issue}
    (isIssue : i ∈ changed.head?.map fun _ => issue) : i = issue := by
  obtain ⟨_, -, rfl⟩ := Option.map_eq_some_iff.mp isIssue
  rfl

/-- **What the first statement of a call does.** -/
theorem changes_first {op : Operation} {chosen : List Uuid} {performed : Performed}
    (done : op.first py lifetimes sha256 t ts chosen = .ok performed) :
    (∀ issue ∈ performed.issue, op.Issues issue) ∧ Changes sha256 ts performed.issue t performed.tables := by
  cases op with
  | create id userId token rememberMe deviceLabel authMethod gate =>
    obtain ⟨⟨after, issued⟩, made, rfl⟩ := map_eq_ok.mp done
    unfold create at made
    obtain ⟨label, -, made⟩ := bind_eq_ok.mp made
    obtain ⟨inserted, added, rest⟩ := bind_eq_ok.mp made
    obtain ⟨rfl, -⟩ := Prod.mk.inj (Except.ok.inj rest)
    exact ⟨fun issue isIssue => (Option.some.inj isIssue).symm, changes_of_insert added rfl rfl rfl⟩
  | authenticate token touch =>
    obtain rfl := Except.ok.inj done
    exact ⟨by simp, Changes.refl sha256 ts t⟩
  | rotate id old token =>
    obtain ⟨⟨after, answer⟩, made, rfl⟩ := map_eq_ok.mp done
    unfold rotate at made
    obtain ⟨⟨updated, changed⟩, swapped, rest⟩ := bind_eq_ok.mp made
    obtain ⟨rfl, rfl⟩ := Prod.mk.inj (Except.ok.inj rest)
    rw [Option.map_map]
    refine ⟨fun issue isIssue => mem_of_swapped isIssue, ?_⟩
    refine changes_of_swap ⟨id, some old, token, none⟩ swapped (fun row held => (live_of_held held).1) fun row held => ?_
    obtain ⟨-, holds, live⟩ := live_of_held held
    exact .reissued live (congrArg some holds.symm) rfl rfl rfl (.inl ⟨rfl, rfl⟩)
  | recordStepUp id old token method passkeyId =>
    obtain ⟨⟨after, answer⟩, made, rfl⟩ := map_eq_ok.mp done
    unfold recordStepUp at made
    obtain ⟨-, made⟩ := check_eq_ok.mp made
    obtain ⟨⟨updated, changed⟩, swapped, rest⟩ := bind_eq_ok.mp made
    obtain ⟨rfl, rfl⟩ := Prod.mk.inj (Except.ok.inj rest)
    rw [Option.map_map]
    refine ⟨fun issue isIssue => mem_of_swapped isIssue, ?_⟩
    refine changes_of_swap ⟨id, some old, token, passkeyId⟩ swapped (fun row held => (live_of_held held).1) fun row held => ?_
    obtain ⟨-, holds, live⟩ := live_of_held held
    refine .reissued live (congrArg some holds.symm) rfl rfl rfl ?_
    cases passkeyId with
    | none => exact .inl ⟨rfl, rfl⟩
    | some passkey =>
      refine .inr ⟨rfl, rfl, ?_⟩
      by_cases isOpen : row.passkeyGate = .isOpen <;> simp [isOpen]
  | openGate id old token passkeyId =>
    obtain ⟨⟨after, answer⟩, made, rfl⟩ := map_eq_ok.mp done
    unfold openGate at made
    obtain ⟨⟨updated, changed⟩, swapped, rest⟩ := bind_eq_ok.mp made
    obtain ⟨rfl, rfl⟩ := Prod.mk.inj (Except.ok.inj rest)
    rw [Option.map_map]
    refine ⟨fun issue isIssue => mem_of_swapped isIssue, ?_⟩
    refine changes_of_swap ⟨id, some old, token, some passkeyId⟩ swapped (fun row held => (live_of_held (Bool.and_elim_left held)).1) fun row held => ?_
    obtain ⟨held, closed⟩ := (Bool.and_eq_true _ _).mp held
    obtain ⟨-, holds, live⟩ := live_of_held held
    exact .reissued live (congrArg some holds.symm) rfl rfl rfl
      (.inr ⟨rfl, rfl, (if_neg (of_decide_eq_true closed)).symm⟩)
  | revoke | revokeAll =>
    obtain ⟨⟨after, answer⟩, made, rfl⟩ := map_eq_ok.mp done
    obtain ⟨⟨updated, ended⟩, revoked, rest⟩ := bind_eq_ok.mp made
    obtain ⟨rfl, -⟩ := Prod.mk.inj (Except.ok.inj rest)
    exact ⟨by simp, changes_revoke revoked⟩
  | revokeByToken token reason =>
    obtain ⟨⟨after, answer⟩, made, rfl⟩ := map_eq_ok.mp done
    unfold revokeByToken at made
    split at made
    · obtain ⟨rfl, -⟩ := Prod.mk.inj (Except.ok.inj made)
      exact ⟨by simp, Changes.refl sha256 ts t⟩
    · obtain ⟨⟨updated, ended⟩, revoked, rest⟩ := bind_eq_ok.mp made
      obtain ⟨rfl, -⟩ := Prod.mk.inj (Except.ok.inj rest)
      exact ⟨by simp, changes_revoke revoked⟩
  | revokeBoundToPasskey passkeyId =>
    obtain ⟨⟨after, answer⟩, made, rfl⟩ := map_eq_ok.mp done
    exact ⟨by simp, changes_revoke made⟩
  | clearPasskeyStepUps userId =>
    obtain ⟨⟨after, answer⟩, made, rfl⟩ := map_eq_ok.mp done
    obtain ⟨⟨updated, changed⟩, cleared, rest⟩ := bind_eq_ok.mp made
    obtain ⟨rfl, -⟩ := Prod.mk.inj (Except.ok.inj rest)
    exact ⟨by simp, changes_of_update cleared fun row _ => .cleared row⟩
  | purge =>
    obtain rfl := Except.ok.inj done
    exact ⟨by simp, changes_of_delete _ _ _ fun row idle => not_valid_of_idle (of_decide_eq_true idle)⟩

theorem changes_next {rest : Rest} {chosen : List Uuid} {performed : Performed}
    (done : rest.next lifetimes t ts chosen = .ok performed) :
    performed.issue = none ∧ Changes sha256 ts none t performed.tables := by
  cases rest with
  | touch found =>
    obtain ⟨⟨after, answer⟩, made, rfl⟩ := map_eq_ok.mp done
    obtain ⟨⟨updated, touched⟩, swapped, made⟩ := bind_eq_ok.mp made
    obtain ⟨rfl, -⟩ := Prod.mk.inj (Except.ok.inj made)
    refine ⟨rfl, changes_of_update swapped fun row selected => .touched ?_⟩
    simp only [Bool.and_eq_true] at selected
    exact selected.1.2
  | purgeIdle =>
    obtain rfl := Except.ok.inj done
    exact ⟨rfl, changes_of_delete _ _ _ fun row idle => not_valid_of_idle (of_decide_eq_true idle)⟩
  | purgeRevoked deleted =>
    obtain rfl := Except.ok.inj done
    exact ⟨rfl, changes_of_delete _ _ _ fun row revoked => not_valid_of_revoked revoked⟩

end Spec

end PawBackend.Auth
