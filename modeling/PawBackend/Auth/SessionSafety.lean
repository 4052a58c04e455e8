/-
**The life of a session** (`auth/sessions.py`).

`Kept` is the invariant of every run: the row of a session holds the digest of the session id that was issued for it
last, no digest was issued twice, and none that was given in exchange is held by a row or was given in exchange before.
-/

import PawBackend.Auth.SessionRuns

namespace PawBackend.Auth

open Lib List
open Tools (Uuid Instant)
open Projects (UserStatus)

variable {py : Unicode} {lifetimes : SessionLifetimes} {sha256 : Text → TokenHash}

/-! ### The log -/

def lastIssue (issues : List Issue) (id : Uuid) : Option Issue :=
  (issues.filter fun issue => decide (issue.session = id)).getLast?

def issuedHashes (sha256 : Text → TokenHash) (issues : List Issue) : List TokenHash :=
  issues.map fun issue => hashSessionToken sha256 issue.token

theorem lastIssue_append (issues : List Issue) (issue : Issue) (id : Uuid) :
    lastIssue (issues ++ [issue]) id = if issue.session = id then some issue else lastIssue issues id := by
  unfold lastIssue
  rw [filter_append]
  split_ifs with this
  · rw [filter_cons_of_pos (by simpa using this), filter_nil, getLast?_concat]
  · rw [filter_cons_of_neg (by simpa using this), filter_nil, append_nil]

theorem mem_of_lastIssue {issues : List Issue} {id : Uuid} {issue : Issue} (last : lastIssue issues id = some issue) :
    issue ∈ issues ∧ issue.session = id := by
  have mem := mem_of_getLast? last
  rw [mem_filter, decide_eq_true_eq] at mem
  exact mem

theorem issuedHashes_append (sha256 : Text → TokenHash) (issues more : List Issue) :
    issuedHashes sha256 (issues ++ more) = issuedHashes sha256 issues ++ issuedHashes sha256 more :=
  map_append

/-! ### What a step can do -/

def SessionEvent.Opens (id : Uuid) : SessionEvent → Prop
  | .call (.recordStepUp id' _ _ _ (some _)) _ _ _ => id' = id
  | .call (.openGate id' _ _ _) _ _ _ => id' = id
  | _ => False

structure NewIssue (sha256 : Text → TokenHash) (w : SessionWorld) (e : SessionEvent) (issue : Issue) : Prop where
  hash : hashSessionToken sha256 issue.token ∉ issuedHashes sha256 w.issues
  session : issue.old = none → issue.session ∉ w.issues.map Issue.session
  opens : issue.passkey.isSome = true → e.Opens issue.session

/-- What a step makes of the sessions, the clock and the log. -/
structure Moves (sha256 : Text → TokenHash) (w w' : SessionWorld) (e : SessionEvent) (now : Instant)
    (issue : Option Issue) : Prop where
  later : w.clock ≤ now
  clock : w'.clock = now
  issues : w'.issues = w.issues ++ issue.toList
  fresh : ∀ i ∈ issue, NewIssue sha256 w e i
  rows : ∀ id, SessionChange sha256 now (issue.filter fun i => decide (i.session = id)) (w.tables.sessions.get id)
    (w'.tables.sessions.get id)

theorem newIssue_of_issues {w : SessionWorld} {op : Operation} {issue : Issue} (fresh : w.Fresh sha256 op)
    (issues : op.Issues issue) (caller database : Instant) (chosen : List Uuid) :
    NewIssue sha256 w (.call op caller database chosen) issue := by
  cases op with
  | create id userId token rememberMe deviceLabel authMethod gate =>
    obtain rfl := issues
    exact ⟨fresh.2, fun _ => fresh.1, fun none => absurd none Bool.false_ne_true⟩
  | rotate id old token =>
    obtain rfl := issues
    exact ⟨fresh, fun none => absurd none (Option.some_ne_none old), fun none => absurd none Bool.false_ne_true⟩
  | recordStepUp id old token method passkeyId =>
    obtain rfl := issues
    refine ⟨fresh, fun none => absurd none (Option.some_ne_none old), fun isSome => ?_⟩
    cases passkeyId with
    | none => exact absurd isSome Bool.false_ne_true
    | some passkey => exact rfl
  | openGate id old token passkeyId =>
    obtain rfl := issues
    exact ⟨fresh, fun none => absurd none (Option.some_ne_none old), fun _ => rfl⟩
  | authenticate | revoke | revokeByToken | revokeAll | revokeBoundToPasskey | clearPasskeyStepUps | purge =>
    exact absurd issues id

theorem moves_of_same {w w' : SessionWorld} {e : SessionEvent} (sessions : w'.tables.sessions = w.tables.sessions)
    (clock : w'.clock = w.clock) (issues : w'.issues = w.issues) : Moves sha256 w w' e w.clock none where
  later := le_refl _
  clock := clock
  issues := by rw [issues]; exact (append_nil _).symm
  fresh := by simp
  rows id := sessions ▸ .same _

/-- **What a step can do.** -/
theorem moves_of_step {w w' : SessionWorld} {e : SessionEvent} (taken : w.step py lifetimes sha256 e = some w') :
    ∃ now issue, Moves sha256 w w' e now issue := by
  cases e with
  | call op caller database chosen =>
    simp only [SessionWorld.step] at taken
    split_ifs at taken with allowed
    obtain ⟨later, fresh⟩ := allowed
    rw [Option.some.injEq] at taken
    subst taken
    cases done : op.first py lifetimes sha256 w.tables (max caller database) chosen with
    | error failure =>
      refine ⟨max caller database, none, later, rfl, (append_nil _).symm, by simp, fun id => .same _⟩
    | ok performed =>
      obtain ⟨issues, changes⟩ := changes_first done
      exact ⟨max caller database, performed.issue, later, rfl, rfl,
        fun i isIssue => newIssue_of_issues fresh (issues i isIssue) _ _ _, changes.rows⟩
  | resume place caller database chosen =>
    simp only [SessionWorld.step] at taken
    split_ifs at taken with later
    obtain ⟨rest, -, rfl⟩ := Option.map_eq_some_iff.mp taken
    cases done : rest.next lifetimes w.tables (max caller database) chosen with
    | error failure =>
      refine ⟨max caller database, none, later, rfl, (append_nil _).symm, by simp, fun id => .same _⟩
    | ok performed =>
      obtain ⟨none, changes⟩ := changes_next done
      refine ⟨max caller database, performed.issue, later, rfl, rfl, by simp [none], fun id => ?_⟩
      rw [none]
      exact changes.rows id
  | abandon | setUser | addPasskey =>
    obtain rfl := Option.some.inj taken
    exact ⟨w.clock, none, moves_of_same rfl rfl rfl⟩

/-! ### The invariant -/

structure Kept (sha256 : Text → TokenHash) (w : SessionWorld) : Prop where
  last : ∀ id row, w.tables.sessions.get id = some row →
    ∃ issue, lastIssue w.issues id = some issue ∧ row.tokenHash = hashSessionToken sha256 issue.token
  within : ∀ id row, w.tables.sessions.get id = some row → row.idleExpiresAt ≤ row.absoluteExpiresAt
  distinct : (issuedHashes sha256 w.issues).Nodup
  swapped : (w.issues.filterMap Issue.old).Nodup
  retired : ∀ old ∈ w.issues.filterMap Issue.old, old ∈ issuedHashes sha256 w.issues ∧
    ∀ id row, w.tables.sessions.get id = some row → row.tokenHash ≠ old

section Kept

variable {w w' : SessionWorld} {e : SessionEvent} {now : Instant} {issue : Option Issue}

theorem Kept.unique (kept : Kept sha256 w) {id id' : Uuid} {row row' : AuthSessionRow}
    (found : w.tables.sessions.get id = some row) (found' : w.tables.sessions.get id' = some row')
    (same : row.tokenHash = row'.tokenHash) : id = id' := by
  obtain ⟨first, isFirst, hash⟩ := kept.last id row found
  obtain ⟨second, isSecond, hash'⟩ := kept.last id' row' found'
  obtain ⟨mem, rfl⟩ := mem_of_lastIssue isFirst
  obtain ⟨member', rfl⟩ := mem_of_lastIssue isSecond
  rw [inj_on_of_nodup_map kept.distinct mem member' (hash.symm.trans (same.trans hash'))]

theorem Kept.hash_mem (kept : Kept sha256 w) {id : Uuid} {row : AuthSessionRow}
    (found : w.tables.sessions.get id = some row) : row.tokenHash ∈ issuedHashes sha256 w.issues := by
  obtain ⟨issue, isLast, hash⟩ := kept.last id row found
  exact mem_map.mpr ⟨issue, (mem_of_lastIssue isLast).1, hash.symm⟩

variable {before : Option AuthSessionRow} {i : Issue}

theorem SessionChange.hash {found : Option Issue} {row : AuthSessionRow}
    (change : SessionChange sha256 now found before (some row)) :
    (∃ i, found = some i ∧ row.tokenHash = hashSessionToken sha256 i.token) ∨
      found = none ∧ ∃ row₀, before = some row₀ ∧ row.tokenHash = row₀.tokenHash := by
  cases change with
  | same => exact .inr ⟨rfl, row, rfl, rfl⟩
  | created first hash within => exact .inl ⟨_, rfl, hash⟩
  | reissued live old hash idle absolute gate => exact .inl ⟨_, rfl, hash⟩
  | touched | revoked | cleared => exact .inr ⟨rfl, _, rfl, rfl⟩

theorem SessionChange.within {found : Option Issue} {row : AuthSessionRow}
    (change : SessionChange sha256 now found before (some row))
    (was : ∀ row₀ ∈ before, row₀.idleExpiresAt ≤ row₀.absoluteExpiresAt) :
    row.idleExpiresAt ≤ row.absoluteExpiresAt := by
  cases change with
  | same => exact was row rfl
  | created first hash within => exact within
  | reissued live old hash idle absolute gate =>
    rw [idle, absolute]
    exact was _ rfl
  | touched live => exact min_le_right _ _
  | revoked row₀ reason => exact was row₀ rfl
  | cleared row₀ => exact was row₀ rfl

theorem SessionChange.old {after : Option AuthSessionRow} {old : TokenHash}
    (change : SessionChange sha256 now (some i) before after) (isOld : i.old = some old) :
    ∃ row, before = some row ∧ row.tokenHash = old := by
  cases change with
  | created first hash within => exact absurd (isOld.symm.trans first) (Option.some_ne_none old)
  | reissued live isHash hash idle absolute gate => exact ⟨_, rfl, Option.some.inj (isHash.symm.trans isOld)⟩

theorem Moves.at_none (moves : Moves sha256 w w' e now none) (id : Uuid) :
    SessionChange sha256 now none (w.tables.sessions.get id) (w'.tables.sessions.get id) :=
  moves.rows id

theorem Moves.at_self (moves : Moves sha256 w w' e now (some i)) :
    SessionChange sha256 now (some i) (w.tables.sessions.get i.session) (w'.tables.sessions.get i.session) := by
  simpa [Option.filter] using moves.rows i.session

theorem Moves.at_other (moves : Moves sha256 w w' e now (some i)) {id : Uuid} (other : i.session ≠ id) :
    SessionChange sha256 now none (w.tables.sessions.get id) (w'.tables.sessions.get id) := by
  simpa [Option.filter, other] using moves.rows id

theorem Kept.of_none (kept : Kept sha256 w) (moves : Moves sha256 w w' e now none) : Kept sha256 w' := by
  have issues : w'.issues = w.issues := moves.issues.trans (append_nil _)
  have before : ∀ id row, w'.tables.sessions.get id = some row →
      ∃ row₀, w.tables.sessions.get id = some row₀ ∧ row.tokenHash = row₀.tokenHash := by
    intro id row found
    rcases (found ▸ moves.at_none id).hash with ⟨i, none, -⟩ | ⟨-, there⟩
    · exact absurd none.symm (Option.some_ne_none i)
    · exact there
  refine ⟨fun id row found => ?_, fun id row found => ?_, ?_, ?_, fun old mem => ?_⟩
  · obtain ⟨row₀, found₀, same⟩ := before id row found
    rw [issues, same]
    exact kept.last id row₀ found₀
  · exact (found ▸ moves.at_none id).within fun row₀ => kept.within id row₀
  · rw [issues]
    exact kept.distinct
  · rw [issues]
    exact kept.swapped
  · rw [issues] at mem ⊢
    obtain ⟨issued, absent⟩ := kept.retired old mem
    refine ⟨issued, fun id row found => ?_⟩
    obtain ⟨row₀, found₀, same⟩ := before id row found
    rw [same]
    exact absent id row₀ found₀

theorem Kept.of_some (kept : Kept sha256 w) (moves : Moves sha256 w w' e now (some i)) :
    Kept sha256 w' := by
  have issues : w'.issues = w.issues ++ [i] := moves.issues
  have new := moves.fresh i rfl
  have hashes : issuedHashes sha256 w'.issues =
      issuedHashes sha256 w.issues ++ [hashSessionToken sha256 i.token] := by
    rw [issues, issuedHashes_append]
    rfl
  have holds : ∀ id row, w'.tables.sessions.get id = some row →
      id = i.session ∧ row.tokenHash = hashSessionToken sha256 i.token ∨
        id ≠ i.session ∧ ∃ row₀, w.tables.sessions.get id = some row₀ ∧ row.tokenHash = row₀.tokenHash := by
    intro id row found
    by_cases here : i.session = id
    · subst here
      rcases (found ▸ moves.at_self).hash with ⟨_, isIt, hash⟩ | ⟨none, -⟩
      · obtain rfl := Option.some.inj isIt
        exact .inl ⟨rfl, hash⟩
      · exact absurd none (Option.some_ne_none i)
    · rcases (found ▸ moves.at_other here).hash with ⟨_, none, -⟩ | ⟨-, there⟩
      · exact absurd none.symm (Option.some_ne_none _)
      · exact .inr ⟨fun same => here same.symm, there⟩
  have within : ∀ id row, w'.tables.sessions.get id = some row → row.idleExpiresAt ≤ row.absoluteExpiresAt := by
    intro id row found
    exact (found ▸ moves.rows id).within fun row₀ => kept.within id row₀
  have distinct : (issuedHashes sha256 w'.issues).Nodup := by
    rw [hashes, nodup_append]
    refine ⟨kept.distinct, nodup_singleton _, fun h old h' isNew same => ?_⟩
    rw [mem_singleton] at isNew
    exact new.hash (isNew ▸ same ▸ old)
  have last : ∀ id row, w'.tables.sessions.get id = some row →
      ∃ issue, lastIssue w'.issues id = some issue ∧ row.tokenHash = hashSessionToken sha256 issue.token := by
    intro id row found
    rw [issues, lastIssue_append]
    rcases holds id row found with ⟨rfl, hash⟩ | ⟨other, row₀, found₀, same⟩
    · exact ⟨i, if_pos rfl, hash⟩
    · rw [if_neg fun same => other same.symm, same]
      exact kept.last id row₀ found₀
  have earlier : ∀ old ∈ w.issues.filterMap Issue.old, old ∈ issuedHashes sha256 w'.issues ∧
      ∀ id row, w'.tables.sessions.get id = some row → row.tokenHash ≠ old := by
    intro old mem
    obtain ⟨issued, absent⟩ := kept.retired old mem
    refine ⟨hashes ▸ mem_append_left _ issued, fun id row found => ?_⟩
    rcases holds id row found with ⟨-, hash⟩ | ⟨-, row₀, found₀, same⟩
    · rw [hash]
      exact fun same => new.hash (same ▸ issued)
    · rw [same]
      exact absent id row₀ found₀
  cases isOld : i.old with
  | none =>
    have olds : w'.issues.filterMap Issue.old = w.issues.filterMap Issue.old := by
      rw [issues, filterMap_append]
      simp [isOld]
    exact ⟨last, within, distinct, olds ▸ kept.swapped, olds ▸ earlier⟩
  | some old =>
    have olds : w'.issues.filterMap Issue.old = w.issues.filterMap Issue.old ++ [old] := by
      rw [issues, filterMap_append]
      simp [isOld]
    obtain ⟨held, found₀, isHash⟩ := moves.at_self.old isOld
    have known : old ∈ issuedHashes sha256 w.issues := isHash ▸ kept.hash_mem found₀
    refine ⟨last, within, distinct, ?_, fun old' mem => ?_⟩
    · rw [olds, nodup_append]
      refine ⟨kept.swapped, nodup_singleton _, fun h mem h' isNew same => ?_⟩
      rw [mem_singleton] at isNew
      exact (kept.retired h mem).2 _ held found₀ (isHash.trans (isNew ▸ same.symm))
    · rw [olds, mem_append, mem_singleton] at mem
      rcases mem with mem | rfl
      · exact earlier old' mem
      · refine ⟨hashes ▸ mem_append_left _ known, fun id row found => ?_⟩
        rcases holds id row found with ⟨-, hash⟩ | ⟨other, row₀, foundOther, same⟩
        · rw [hash]
          exact fun same => new.hash (same ▸ known)
        · rw [same]
          exact fun sameHash => other (kept.unique foundOther found₀ (sameHash.trans isHash.symm))

theorem kept_initial (init : (sessionMachine py lifetimes sha256).initial w) : Kept sha256 w := by
  obtain ⟨empty, none, -⟩ := init
  refine ⟨fun id row found => ?_, fun id row found => ?_, ?_, ?_, ?_⟩
  · rw [empty] at found
    exact absurd found.symm (Option.some_ne_none row)
  · rw [empty] at found
    exact absurd found.symm (Option.some_ne_none row)
  all_goals
    rw [none]
    simp [issuedHashes]

theorem kept_of_reachable (reach : (sessionMachine py lifetimes sha256).Reachable w) : Kept sha256 w := by
  refine reach.invariant (fun _ init => kept_initial init) fun w e w' _ kept taken => ?_
  obtain ⟨now, issue, moves⟩ := moves_of_step taken
  cases issue with
  | none => exact kept.of_none moves
  | some i => exact kept.of_some moves

end Kept

/-! ### Which session ids authenticate -/

def Authenticates (sha256 : Text → TokenHash) (t : AuthTables) (now : Instant) (token : Text) (id : Uuid) : Prop :=
  ∃ found, authenticate t now sha256 token = some found ∧ found.record.id = id

theorem authenticate_spec {t : AuthTables} {now : Instant} {token : Text} {found : AuthenticatedSession}
    (answer : authenticate t now sha256 token = some found) :
    ∃ parsed, parseSessionToken token = some parsed ∧ found.record ∈ t.sessions.rows ∧
      found.record.tokenHash = hashSessionToken sha256 parsed ∧ found.record.validAt now = true := by
  obtain ⟨parsed, isParsed, answer⟩ := Option.bind_eq_some_iff.mp answer
  obtain ⟨row, isRow, answer⟩ := Option.bind_eq_some_iff.mp answer
  obtain ⟨user, -, answer⟩ := Option.bind_eq_some_iff.mp answer
  obtain rfl := Option.some.inj answer
  have selected := find?_some isRow
  rw [Bool.and_eq_true, decide_eq_true_eq] at selected
  exact ⟨parsed, isParsed, mem_of_find?_eq_some isRow, selected⟩

section Authentication

variable {w : SessionWorld} {now : Instant} {id : Uuid} {row : AuthSessionRow}

/-- **A valid session of an active user is authenticated by the session ids with the digest of its row.** -/
theorem authenticates_iff (kept : Kept sha256 w) (found : w.tables.sessions.get id = some row)
    (valid : row.validAt now = true) {user : AuthUser} (isUser : w.tables.users.get row.userId = some user)
    (active : user.status = .active) (token : Text) :
    Authenticates sha256 w.tables now token id ↔
      ∃ parsed, parseSessionToken token = some parsed ∧ hashSessionToken sha256 parsed = row.tokenHash := by
  constructor
  · rintro ⟨answer, isAnswer, isId⟩
    obtain ⟨parsed, isParsed, mem, hash, -⟩ := authenticate_spec isAnswer
    have same : answer.record = row :=
      w.tables.sessions.eq_of_key_eq mem (Keyed.mem_of_get found) (isId.trans (Keyed.key_of_get found).symm)
    exact ⟨parsed, isParsed, hash.symm.trans (congrArg _ same)⟩
  · rintro ⟨parsed, isParsed, hash⟩
    have selected : (decide (row.tokenHash = hashSessionToken sha256 parsed) && row.validAt now) = true := by
      rw [hash, valid]
      simp
    have isRow : w.tables.sessions.rows.find? (fun row =>
        decide (row.tokenHash = hashSessionToken sha256 parsed) && row.validAt now) = some row := by
      cases there : w.tables.sessions.rows.find? fun row =>
          decide (row.tokenHash = hashSessionToken sha256 parsed) && row.validAt now with
      | none => exact absurd selected (find?_eq_none.mp there row (Keyed.mem_of_get found))
      | some other =>
        have isOther := find?_some there
        rw [Bool.and_eq_true, decide_eq_true_eq] at isOther
        have foundOther := Keyed.get_self (mem_of_find?_eq_some there)
        have same := kept.unique foundOther found (isOther.1.trans hash)
        rw [same, found] at foundOther
        exact foundOther.symm
    refine ⟨⟨row, user.loginName, user.systemRole, now, row.tokenHash⟩, ?_, Keyed.key_of_get found⟩
    unfold authenticate
    rw [isParsed, Option.bind_eq_bind, Option.bind_some, isRow, Option.bind_eq_bind, Option.bind_some, isUser,
      Option.filter_some_pos (by simpa using active)]
    rfl

theorem authenticates_issued (kept : Kept sha256 w) (found : w.tables.sessions.get id = some row)
    (valid : row.validAt now = true) {user : AuthUser} (isUser : w.tables.users.get row.userId = some user)
    (active : user.status = .active) {last issue : Issue} (isLast : lastIssue w.issues id = some last)
    (mem : issue ∈ w.issues) :
    Authenticates sha256 w.tables now issue.token.val id ↔ issue.token = last.token := by
  obtain ⟨other, isOther, hash⟩ := kept.last id row found
  obtain rfl := Option.some.inj (isOther.symm.trans isLast)
  have shaped : parseSessionToken issue.token.val = some issue.token := dif_pos issue.token.property
  rw [authenticates_iff kept found valid isUser active, shaped, hash]
  constructor
  · rintro ⟨parsed, isParsed, same⟩
    obtain rfl := Option.some.inj isParsed
    rw [inj_on_of_nodup_map kept.distinct mem (mem_of_lastIssue isLast).1 same]
  · rintro same
    exact ⟨issue.token, rfl, same ▸ rfl⟩

end Authentication

/-! ### The end of a session -/

/-- The row with a key, if there still is one, has the latest end it had, and its key is known. -/
def Expires (id : Uuid) (end_ : Instant) (w : SessionWorld) : Prop :=
  id ∈ w.issues.map Issue.session ∧ ∀ row, w.tables.sessions.get id = some row → row.absoluteExpiresAt = end_

def HasEnded (id : Uuid) (w : SessionWorld) : Prop :=
  id ∈ w.issues.map Issue.session ∧ ∀ row, w.tables.sessions.get id = some row → row.validAt w.clock = false

theorem validAt_of_later {row : AuthSessionRow} {early late : Instant} (later : early ≤ late)
    (ended : row.validAt early = false) : row.validAt late = false := by
  rw [Bool.eq_false_iff] at ended ⊢
  refine fun valid => ended ?_
  simp only [AuthSessionRow.validAt, Bool.and_eq_true, decide_eq_true_eq] at valid ⊢
  exact ⟨⟨valid.1.1, later.trans_lt valid.1.2⟩, later.trans_lt valid.2⟩

section Ends

variable {w w' : SessionWorld} {e : SessionEvent} {now : Instant} {issue : Option Issue} {id : Uuid}

theorem Moves.known (moves : Moves sha256 w w' e now issue) (known : id ∈ w.issues.map Issue.session) :
    id ∈ w'.issues.map Issue.session := by
  rw [moves.issues, map_append]
  exact mem_append_left _ known

theorem Moves.not_created (moves : Moves sha256 w w' e now issue) (known : id ∈ w.issues.map Issue.session) {i : Issue}
    (isIssue : issue.filter (fun i => decide (i.session = id)) = some i) : i.old ≠ none := by
  obtain ⟨isIt, named⟩ := Option.filter_eq_some_iff.mp isIssue
  intro first
  exact (moves.fresh i isIt).session first (of_decide_eq_true named ▸ known)

theorem expires_of_moves (moves : Moves sha256 w w' e now issue) {end_ : Instant} (expires : Expires id end_ w) :
    Expires id end_ w' := by
  obtain ⟨known, same⟩ := expires
  refine ⟨moves.known known, fun row found => ?_⟩
  have change := moves.rows id
  have created := fun i => moves.not_created known (i := i)
  rw [found] at change
  generalize w.tables.sessions.get id = before at change same
  generalize issue.filter (fun i => decide (i.session = id)) = mine at change created
  cases change with
  | same => exact same row rfl
  | created first hash within => exact absurd first (created _ rfl)
  | reissued live old hash idle absolute gate => exact absolute.trans (same _ rfl)
  | @touched row₀ live => exact same row₀ rfl
  | revoked row₀ reason => exact same row₀ rfl
  | cleared row₀ => exact same row₀ rfl

theorem ended_of_moves (moves : Moves sha256 w w' e now issue) (ended : HasEnded id w) : HasEnded id w' := by
  obtain ⟨known, ended⟩ := ended
  refine ⟨moves.known known, fun row found => ?_⟩
  have change := moves.rows id
  have created := fun i => moves.not_created known (i := i)
  have overNow : ∀ row, w.tables.sessions.get id = some row → row.validAt now = false := fun row found =>
    validAt_of_later moves.later (ended row found)
  rw [found] at change
  rw [moves.clock]
  generalize w.tables.sessions.get id = before at change overNow
  generalize issue.filter (fun i => decide (i.session = id)) = mine at change created
  cases change with
  | same => exact overNow row rfl
  | created first hash within => exact absurd first (created _ rfl)
  | reissued live old hash idle absolute gate => exact absurd live (Bool.eq_false_iff.mp (overNow _ rfl))
  | touched live => exact absurd live (Bool.eq_false_iff.mp (overNow _ rfl))
  | revoked row₀ reason => rfl
  | cleared row₀ => exact overNow row₀ rfl

/-- **The latest end of a session does not move.** -/
theorem expiry_stays {events : List SessionEvent} (ran : (sessionMachine py lifetimes sha256).run w events = some w')
    {end_ : Instant} (expires : Expires id end_ w) : Expires id end_ w' := by
  refine Machine.run_preserves expires (fun w e w' (_ : True) expires taken => ?_) (fun _ _ => trivial) ran
  obtain ⟨now, issue, moves⟩ := moves_of_step taken
  exact expires_of_moves moves expires

/-- **A session that ended does not come back.** -/
theorem ended_stays {events : List SessionEvent} (ran : (sessionMachine py lifetimes sha256).run w events = some w')
    (ended : HasEnded id w) : HasEnded id w' := by
  refine Machine.run_preserves ended (fun w e w' (_ : True) ended taken => ?_) (fun _ _ => trivial) ran
  obtain ⟨now, issue, moves⟩ := moves_of_step taken
  exact ended_of_moves moves ended

theorem not_authenticates_of_ended (ended : HasEnded id w) (later : w.clock ≤ now) (token : Text) :
    ¬Authenticates sha256 w.tables now token id := by
  rintro ⟨answer, isAnswer, isId⟩
  obtain ⟨-, -, mem, -, valid⟩ := authenticate_spec isAnswer
  have passed := validAt_of_later later (ended.2 answer.record (isId ▸ Keyed.get_self mem))
  exact Bool.eq_false_iff.mp passed valid

theorem Kept.known (kept : Kept sha256 w) {row : AuthSessionRow} (found : w.tables.sessions.get id = some row) :
    id ∈ w.issues.map Issue.session := by
  obtain ⟨issue, isLast, -⟩ := kept.last id row found
  obtain ⟨mem, named⟩ := mem_of_lastIssue isLast
  exact mem_map.mpr ⟨issue, mem, named⟩

/-- **A gate only opens, and only by a Passkey**; the Passkey of an open session stays. -/
theorem gate_of_step (taken : w.step py lifetimes sha256 e = some w') {row row' : AuthSessionRow}
    (found : w.tables.sessions.get id = some row) (found' : w'.tables.sessions.get id = some row') :
    row'.passkeyGate = row.passkeyGate ∧ row'.passkeyId = row.passkeyId ∨
      e.Opens id ∧ row'.passkeyGate = .isOpen ∧ (row.passkeyGate = .isOpen → row'.passkeyId = row.passkeyId) := by
  obtain ⟨now, issue, moves⟩ := moves_of_step taken
  have change := moves.rows id
  have opens : ∀ i, issue.filter (fun i => decide (i.session = id)) = some i → i.passkey.isSome = true → e.Opens id := by
    intro i isIssue isSome
    obtain ⟨isIt, named⟩ := Option.filter_eq_some_iff.mp isIssue
    exact of_decide_eq_true named ▸ (moves.fresh i isIt).opens isSome
  rw [found, found'] at change
  generalize issue.filter (fun i => decide (i.session = id)) = mine at change opens
  cases change with
  | reissued live old hash idle absolute gate =>
    rcases gate with stays | ⟨isSome, isOpen, bound⟩
    · exact .inl stays
    · exact .inr ⟨opens _ rfl isSome, isOpen, fun was => bound.trans (if_pos was)⟩
  | same | touched | revoked | cleared => exact .inl ⟨rfl, rfl⟩

end Ends

/-- **The life of a session.** In every reachable state at most one exchange of a session id succeeded; a valid session
of an active user is authenticated by the id that was issued for it last and by no other that was issued; no session
goes idle after its latest end. In every run from there the latest end of a session stays, an ended session is
authenticated by nothing, and a step changes a gate only by opening it with a Passkey. -/
theorem session_lifecycle {w : SessionWorld} (reach : (sessionMachine py lifetimes sha256).Reachable w) :
    ((w.issues.filterMap Issue.old).Nodup ∧
      ∀ id row user now, w.tables.sessions.get id = some row → row.validAt now = true →
        w.tables.users.get row.userId = some user → user.status = .active →
        ∃ last, lastIssue w.issues id = some last ∧
          (∀ token, Authenticates sha256 w.tables now token id ↔ ∃ parsed, parseSessionToken token = some parsed ∧
            hashSessionToken sha256 parsed = hashSessionToken sha256 last.token) ∧
          ∀ issue ∈ w.issues, Authenticates sha256 w.tables now issue.token.val id ↔ issue.token = last.token) ∧
    (∀ id row, w.tables.sessions.get id = some row → row.idleExpiresAt ≤ row.absoluteExpiresAt ∧
      ∀ events w', (sessionMachine py lifetimes sha256).run w events = some w' →
        (∀ row', w'.tables.sessions.get id = some row' → row'.absoluteExpiresAt = row.absoluteExpiresAt) ∧
        (row.validAt w.clock = false → ∀ now token, w'.clock ≤ now → ¬Authenticates sha256 w'.tables now token id)) ∧
    ∀ e w', (sessionMachine py lifetimes sha256).step w e = some w' → ∀ id row row',
      w.tables.sessions.get id = some row → w'.tables.sessions.get id = some row' →
        row'.passkeyGate = row.passkeyGate ∧ row'.passkeyId = row.passkeyId ∨
          e.Opens id ∧ row'.passkeyGate = .isOpen ∧ (row.passkeyGate = .isOpen → row'.passkeyId = row.passkeyId) := by
  have kept := kept_of_reachable reach
  refine ⟨⟨kept.swapped, fun id row user now found valid isUser active => ?_⟩, fun id row found => ?_, ?_⟩
  · obtain ⟨last, isLast, hash⟩ := kept.last id row found
    refine ⟨last, isLast, fun token => ?_, fun issue member => ?_⟩
    · rw [authenticates_iff kept found valid isUser active, hash]
    · exact authenticates_issued kept found valid isUser active isLast member
  · have known := kept.known found
    have only : ∀ other, w.tables.sessions.get id = some other → other = row := fun other there =>
      Option.some.inj (there.symm.trans found)
    refine ⟨kept.within id row found, fun events w' ran => ⟨fun row' found' => ?_, fun passed now token later => ?_⟩⟩
    · exact (expiry_stays ran ⟨known, fun other there => only other there ▸ rfl⟩).2 row' found'
    · have ended := ended_stays ran ⟨known, fun other there => only other there ▸ passed⟩
      exact not_authenticates_of_ended ended later token
  · exact fun e w' taken id row row' found found' => gate_of_step taken found found'

/-- Every character is a letter. -/
def letters : Unicode where
  category _ := .other
  nfkc t := t
  nfkc_nil := rfl
  nfkc_slash _ _ := iff_of_true rfl ⟨rfl, rfl⟩

theorem someLifetimes_positive : 1 ≤ 60 ∧ 1 ≤ 90 ∧ 1 ≤ 90 ∧ 1 ≤ 5 := by decide

def someLifetimes : SessionLifetimes := ⟨60, 90, 90, 5, someLifetimes_positive⟩

/-- A digest that tells short texts apart. -/
def sumOfText (t : Text) : TokenHash := t.foldl (fun sum c => sum * 131 + BitVec.ofNat 256 c) 0

theorem shaped_replicate (c : ℕ) (isChar : isTokenChar c = true) :
    (List.replicate sessionTokenLength c).length = sessionTokenLength ∧
      (List.replicate sessionTokenLength c).all isTokenChar = true :=
  ⟨length_replicate, by simp [isChar]⟩

def tokenOf (c : ℕ) (isChar : isTokenChar c = true) : SessionToken :=
  ⟨List.replicate sessionTokenLength c, shaped_replicate c isChar⟩

theorem isTokenChar_a : isTokenChar 97 = true := by decide

theorem isTokenChar_b : isTokenChar 98 = true := by decide

theorem isTokenChar_c : isTokenChar 99 = true := by decide

def firstToken : SessionToken := tokenOf 97 isTokenChar_a

def secondToken : SessionToken := tokenOf 98 isTokenChar_b

def emptyStore : SessionWorld where
  tables := ⟨Keyed.empty.put ⟨1, Text.lit "ann", .user, .active⟩, [], Keyed.empty⟩
  clock := 0
  issues := []
  calls := []

def twoRotations : List SessionEvent :=
  [.call (.create 7 1 firstToken false none .password .isOpen) 1 1 [],
    .call (.rotate 7 (hashSessionToken sumOfText firstToken) secondToken) 2 2 [],
    .call (.rotate 7 (hashSessionToken sumOfText firstToken) (tokenOf 99 isTokenChar_c)) 3 3 []]

theorem session_lifecycle_sample :
    ∃ w, (sessionMachine letters someLifetimes sumOfText).run emptyStore twoRotations = some w ∧
      w.issues.length = 2 ∧ Authenticates sumOfText w.tables 4 secondToken.val 7 ∧
      ¬Authenticates sumOfText w.tables 4 firstToken.val 7 := by
  have ran : ((sessionMachine letters someLifetimes sumOfText).run emptyStore twoRotations).isSome = true := by
    decide +kernel
  obtain ⟨w, isWorld⟩ := Option.isSome_iff_exists.mp ran
  have start : (sessionMachine letters someLifetimes sumOfText).initial emptyStore := ⟨rfl, rfl, rfl⟩
  have reach := (Machine.Reachable.start start).run isWorld
  have facts : ((sessionMachine letters someLifetimes sumOfText).run emptyStore twoRotations).any (fun w =>
      decide (w.issues.map Issue.token = [firstToken, secondToken] ∧
        (w.tables.sessions.get 7).any (fun row => row.validAt 4 && decide (row.userId = 1)) = true ∧
        (w.tables.users.get 1).any (fun user => decide (user.status = .active)) = true ∧
        (lastIssue w.issues 7).any (fun last => decide (last.token = secondToken)) = true)) = true := by
    decide +kernel
  rw [isWorld, Option.any_some, decide_eq_true_eq] at facts
  obtain ⟨tokens, isRow, isUser, isLast⟩ := facts
  obtain ⟨row, found, row_facts⟩ := (Option.any_eq_true _ _).mp isRow
  obtain ⟨user, foundUser, active⟩ := (Option.any_eq_true _ _).mp isUser
  obtain ⟨last, foundLast, second⟩ := (Option.any_eq_true _ _).mp isLast
  rw [Bool.and_eq_true, decide_eq_true_eq] at row_facts
  obtain ⟨last', isLast', -, issued⟩ := (session_lifecycle reach).1.2 7 row user 4 found row_facts.1
    (row_facts.2 ▸ foundUser) (of_decide_eq_true active)
  obtain rfl := Option.some.inj (isLast'.symm.trans foundLast)
  have lastToken : last'.token = secondToken := of_decide_eq_true second
  have firstIssue : ∃ issue ∈ w.issues, issue.token = firstToken := mem_map.mp (tokens ▸ (.head _))
  obtain ⟨issue, member, isFirst⟩ := firstIssue
  refine ⟨w, isWorld, by simpa using congrArg List.length tokens, ?_, ?_⟩
  · exact lastToken ▸ (issued last' (mem_of_lastIssue isLast').1).mpr rfl
  · rw [← isFirst, issued issue member, isFirst, lastToken]
    decide

end PawBackend.Auth
