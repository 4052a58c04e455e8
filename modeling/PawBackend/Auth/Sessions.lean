/-
**Server-side sessions** (`auth/sessions.py`, `auth/tokens.py`, the table of `auth/models.py`).

A session is a row of `auth_sessions` that holds the digest of the session id a browser has.
-/

import PawBackend.Lib.Checks
import PawBackend.Projects.Store

namespace PawBackend.Auth

open Lib
open Tools (Uuid Instant)
open Authz (SystemRole)
open Projects (UserStatus)

/-! ### Values -/

inductive AuthMethod
  | password
  | passkey
  | pairing
  deriving DecidableEq, Repr

/-- `STEP_UP_METHODS`: a pairing proves no Step-up. -/
def stepUpMethods : List AuthMethod := [.password, .passkey]

inductive RevokeReason
  | logout
  | revokedByUser
  | logoutOthers
  | passwordChanged
  | passwordReset
  | recovery
  | accountClosed
  | admin
  | replaced
  | passkeyRevoked
  deriving DecidableEq, Repr

/-- What a session may do until the Passkey the policy asks for is dealt with. -/
inductive PasskeyGate
  | isOpen
  | enrollmentRequired
  | assertionRequired
  deriving DecidableEq, Repr

inductive AuthError
  | invalidInput (field : String)
  | integrity
  deriving DecidableEq, Repr

/-- What `hashlib.sha256` answers. -/
abbrev TokenHash := BitVec 256

def sessionTokenLength : ℕ := 43

/-- A character of `[A-Za-z0-9_-]`. -/
def isTokenChar (c : ℕ) : Bool := Text.isUpper c || Text.isLower c || Text.isDigit c || decide (c = 95 ∨ c = 45)

/-- A text of the exact shape of a session id, which is what `new_session_token` answers. -/
abbrev SessionToken := { t : Text // t.length = sessionTokenLength ∧ t.all isTokenChar = true }

def parseSessionToken (value : Text) : Option SessionToken :=
  if shape : value.length = sessionTokenLength ∧ value.all isTokenChar = true then some ⟨value, shape⟩ else none

/-- `hash_session_token`, over `hashlib.sha256`. -/
def hashSessionToken (sha256 : Text → TokenHash) (token : SessionToken) : TokenHash :=
  sha256 (Text.lit "paw.session.v1" ++ 0 :: token.val)

/-- `interval '1 second'`, that many times. -/
def seconds (n : ℕ) : Instant := n * 1000000

/-- The lifetimes of new sessions, in seconds. -/
structure SessionLifetimes where
  idleSeconds : ℕ
  rememberSeconds : ℕ
  absoluteSeconds : ℕ
  touchIntervalSeconds : ℕ
  positive : 1 ≤ idleSeconds ∧ 1 ≤ rememberSeconds ∧ 1 ≤ absoluteSeconds ∧ 1 ≤ touchIntervalSeconds

def sessionRetentionSeconds : ℕ := 30 * 24 * 3600

def purgeBatch : ℕ := 50

def deviceLabelMaxLength : ℕ := 64

/-- `str.isprintable`, of one character. -/
def isPrintable (py : Unicode) (c : ℕ) : Bool := decide (c = 32 ∨ py.category c = .other)

def validateDeviceLabel (py : Unicode) : Option Text → Except AuthError (Option Text)
  | none => .ok none
  | some value =>
    let label := (value.dropWhile Text.isSpace).rdropWhile Text.isSpace
    if label = [] then .ok none
    else if deviceLabelMaxLength < label.length ∨ label.any (fun c => !isPrintable py c) then
      .error (.invalidInput "device_label")
    else .ok (some label)

/-! ### The tables -/

/-- A row of `auth_sessions`. -/
structure AuthSessionRow where
  id : Uuid
  userId : Uuid
  tokenHash : TokenHash
  rememberMe : Bool
  authMethod : AuthMethod
  deviceLabel : Option Text
  createdAt : Instant
  lastUsedAt : Instant
  idleTimeoutSeconds : ℕ
  idleExpiresAt : Instant
  absoluteExpiresAt : Instant
  stepupAt : Option Instant
  stepupMethod : Option AuthMethod
  rotatedAt : Option Instant
  revokedAt : Option Instant
  revokedReason : Option RevokeReason
  passkeyGate : PasskeyGate
  passkeyId : Option Uuid
  deriving DecidableEq

/-- What is read of a row of `users`. -/
structure AuthUser where
  id : Uuid
  loginName : Text
  systemRole : SystemRole
  status : UserStatus
  deriving DecidableEq

structure AuthTables where
  users : Keyed AuthUser.id
  passkeys : List Uuid
  sessions : Keyed AuthSessionRow.id

/-- The `CHECK` constraints of `auth_sessions`. -/
def AuthSessionRow.checks (row : AuthSessionRow) : Bool :=
  decide (row.idleExpiresAt ≤ row.absoluteExpiresAt ∧ row.createdAt < row.absoluteExpiresAt ∧
    0 < row.idleTimeoutSeconds) &&
  row.stepupMethod.all (decide <| · ∈ stepUpMethods) &&
  decide (row.stepupAt.isNone = row.stepupMethod.isNone ∧ row.revokedAt.isNone = row.revokedReason.isNone) &&
  (row.passkeyId.isNone || decide (row.passkeyGate = .isOpen)) &&
  row.deviceLabel.all fun label => decide (1 ≤ label.length ∧ label.length ≤ deviceLabelMaxLength)

/-- A row that the constraints let in, the unique ones apart. -/
def AuthTables.accepts (t : AuthTables) (row : AuthSessionRow) : Bool :=
  row.checks && (t.users.get row.userId).isSome && row.passkeyId.all (decide <| · ∈ t.passkeys)

/-- `_VALID`. -/
def AuthSessionRow.validAt (row : AuthSessionRow) (ts : Instant) : Bool :=
  row.revokedAt.isNone && decide (ts < row.idleExpiresAt) && decide (ts < row.absoluteExpiresAt)

section Statements

variable (t : AuthTables) (ts : Instant)

/-- `UPDATE auth_sessions ... RETURNING`: the rows a condition selects are rewritten. -/
def AuthTables.updateSessions (p : AuthSessionRow → Bool) (change : AuthSessionRow → AuthSessionRow)
    (keeps : ∀ row, p row = true → (change row).id = row.id) : Except AuthError (AuthTables × List AuthSessionRow) :=
  let changed := (t.sessions.rows.filter p).map change
  let sessions := t.sessions.update p change keeps
  if changed.all t.accepts ∧ (sessions.rows.map AuthSessionRow.tokenHash).Nodup then
    .ok ({ t with sessions := sessions }, changed)
  else .error .integrity

/-- `INSERT INTO auth_sessions`. -/
def AuthTables.insertSession (row : AuthSessionRow) : Except AuthError AuthTables :=
  if t.accepts row ∧ row.tokenHash ∉ t.sessions.rows.map AuthSessionRow.tokenHash then
    (orThrow (t.sessions.tryInsert row) .integrity).map fun sessions => { t with sessions := sessions }
  else .error .integrity

/-- `DELETE FROM auth_sessions WHERE id IN (SELECT ... LIMIT :batch)`: some of the rows a condition selects. -/
def AuthTables.deleteSessions (p : AuthSessionRow → Bool) (batch : ℕ) (chosen : List Uuid) : AuthTables × ℕ :=
  let ids := (((t.sessions.rows.filter p).map AuthSessionRow.id).filter (decide <| · ∈ chosen)).take batch
  ({ t with sessions := t.sessions.remove fun row => decide (row.id ∈ ids) }, ids.length)

/-! ### The operations -/

/-- A session that was just created, or has a new id. -/
structure IssuedSession where
  token : SessionToken
  record : AuthSessionRow

/-- A valid session, with the stored facts about its user. -/
structure AuthenticatedSession where
  record : AuthSessionRow
  loginName : Text
  systemRole : SystemRole
  checkedAt : Instant
  tokenHash : TokenHash

variable (py : Unicode) (lifetimes : SessionLifetimes) (sha256 : Text → TokenHash)

/-- `create`, up to its purge: `id` is what `uuid.uuid4()` answered, `token` what `new_session_token()` did. -/
def create (id userId : Uuid) (token : SessionToken) (rememberMe : Bool) (deviceLabel : Option Text)
    (authMethod : AuthMethod) (passkeyGate : PasskeyGate) : Except AuthError (AuthTables × IssuedSession) := do
  let label ← validateDeviceLabel py deviceLabel
  let idle := if rememberMe then lifetimes.rememberSeconds else lifetimes.idleSeconds
  let absolute := if rememberMe then lifetimes.rememberSeconds else lifetimes.absoluteSeconds
  let row : AuthSessionRow :=
    { id := id, userId := userId, tokenHash := hashSessionToken sha256 token, rememberMe := rememberMe
      authMethod := authMethod, deviceLabel := label, createdAt := ts, lastUsedAt := ts
      idleTimeoutSeconds := idle, idleExpiresAt := ts + seconds idle, absoluteExpiresAt := ts + seconds absolute
      stepupAt := none, stepupMethod := none, rotatedAt := none, revokedAt := none, revokedReason := none
      passkeyGate := passkeyGate, passkeyId := none }
  let after ← t.insertSession row
  .ok (after, ⟨token, row⟩)

/-- The first statement of `authenticate`: the valid session of a token and its active user. -/
def authenticate (token : Text) : Option AuthenticatedSession := do
  let parsed ← parseSessionToken token
  let row ← t.sessions.rows.find? fun row => decide (row.tokenHash = hashSessionToken sha256 parsed) && row.validAt ts
  let user ← (t.users.get row.userId).filter fun user => decide (user.status = .active)
  some ⟨row, user.loginName, user.systemRole, ts, row.tokenHash⟩

/-- The second: the idle expiry moves forward, at most once per touch interval. -/
def touch (found : AuthenticatedSession) : Except AuthError (AuthTables × AuthenticatedSession) := do
  let (after, touched) ← t.updateSessions
    (fun row => decide (row.id = found.record.id) && row.validAt ts &&
      decide (row.lastUsedAt ≤ ts - seconds lifetimes.touchIntervalSeconds))
    (fun row => { row with
      lastUsedAt := ts
      idleExpiresAt := min (ts + seconds row.idleTimeoutSeconds) row.absoluteExpiresAt })
    (fun _ _ => rfl)
  .ok (after, match touched.head? with
    | none => found
    | some row => { found with
        record := { found.record with lastUsedAt := row.lastUsedAt, idleExpiresAt := row.idleExpiresAt } })

/-- The condition of the three compare-and-swaps. -/
def AuthSessionRow.heldAt (row : AuthSessionRow) (id : Uuid) (old : TokenHash) : Bool :=
  decide (row.id = id ∧ row.tokenHash = old) && row.validAt ts

def rotate (id : Uuid) (old : TokenHash) (token : SessionToken) :
    Except AuthError (AuthTables × Option SessionToken) := do
  let (after, changed) ← t.updateSessions (·.heldAt ts id old)
    (fun row => { row with tokenHash := hashSessionToken sha256 token, rotatedAt := some ts }) (fun _ _ => rfl)
  .ok (after, changed.head?.map fun _ => token)

def recordStepUp (id : Uuid) (old : TokenHash) (token : SessionToken) (method : AuthMethod) (passkeyId : Option Uuid) :
    Except AuthError (AuthTables × Option IssuedSession) := do
  if passkeyId.isSome ∧ method ≠ .passkey then throw (.invalidInput "passkey_id")
  let (after, changed) ← t.updateSessions (·.heldAt ts id old)
    (fun row => { row with
      tokenHash := hashSessionToken sha256 token
      rotatedAt := some ts
      stepupAt := some ts
      stepupMethod := some method
      passkeyId := if passkeyId.isSome ∧ row.passkeyGate ≠ .isOpen then passkeyId else row.passkeyId
      passkeyGate := if passkeyId.isSome then .isOpen else row.passkeyGate })
    (fun _ _ => rfl)
  .ok (after, changed.head?.map (⟨token, ·⟩))

def openGate (id : Uuid) (old : TokenHash) (token : SessionToken) (passkeyId : Uuid) :
    Except AuthError (AuthTables × Option IssuedSession) := do
  let (after, changed) ← t.updateSessions
    (fun row => row.heldAt ts id old && decide (row.passkeyGate ≠ .isOpen))
    (fun row => { row with
      tokenHash := hashSessionToken sha256 token
      rotatedAt := some ts
      passkeyGate := .isOpen
      passkeyId := some passkeyId })
    (fun _ _ => rfl)
  .ok (after, changed.head?.map (⟨token, ·⟩))

/-- The `UPDATE` of the four revocations: the rows that are not revoked yet, of those a condition selects. -/
def AuthTables.revokeSessions (p : AuthSessionRow → Bool) (reason : RevokeReason) :
    Except AuthError (AuthTables × List Uuid) := do
  let (after, changed) ← t.updateSessions (fun row => p row && row.revokedAt.isNone)
    (fun row => { row with revokedAt := some ts, revokedReason := some reason }) (fun _ _ => rfl)
  .ok (after, changed.map AuthSessionRow.id)

def revokeBoundToPasskey (passkeyId : Uuid) : Except AuthError (AuthTables × List Uuid) :=
  t.revokeSessions ts (fun row => decide (row.passkeyId = some passkeyId)) .passkeyRevoked

def clearPasskeyStepUps (userId : Uuid) : Except AuthError (AuthTables × ℕ) := do
  let (after, changed) ← t.updateSessions
    (fun row => decide (row.userId = userId ∧ row.stepupMethod = some .passkey) && row.revokedAt.isNone)
    (fun row => { row with stepupAt := none, stepupMethod := none }) (fun _ _ => rfl)
  .ok (after, changed.length)

def revoke (id userId : Uuid) (reason : RevokeReason) : Except AuthError (AuthTables × Bool) := do
  let (after, ended) ← t.revokeSessions ts (fun row => decide (row.id = id ∧ row.userId = userId)) reason
  .ok (after, !ended.isEmpty)

def revokeByToken (token : Text) (reason : RevokeReason) : Except AuthError (AuthTables × Option Uuid) :=
  match parseSessionToken token with
  | none => .ok (t, none)
  | some parsed => do
    let (after, ended) ← t.revokeSessions ts
      (fun row => decide (row.tokenHash = hashSessionToken sha256 parsed)) reason
    .ok (after, ended.head?)

def revokeAll (userId : Uuid) (reason : RevokeReason) (exceptId : Option Uuid) :
    Except AuthError (AuthTables × ℕ) := do
  let (after, ended) ← t.revokeSessions ts
    (fun row => decide (row.userId = userId) && exceptId.all (decide <| row.id ≠ ·)) reason
  .ok (after, ended.length)

/-- The first statement of `purge`: sessions that went idle more than the retention period ago. -/
def purgeIdle (chosen : List Uuid) : AuthTables × ℕ :=
  t.deleteSessions (fun row => decide (row.idleExpiresAt < ts - seconds sessionRetentionSeconds)) purgeBatch chosen

/-- The second: sessions that were revoked before that, as many as the first left room for. -/
def purgeRevoked (deleted : ℕ) (chosen : List Uuid) : AuthTables × ℕ :=
  t.deleteSessions (fun row => row.revokedAt.any fun at_ => decide (at_ < ts - seconds sessionRetentionSeconds))
    (purgeBatch - deleted) chosen

end Statements

end PawBackend.Auth
