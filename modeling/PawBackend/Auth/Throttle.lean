/-
**The login throttle** (`auth/throttle.py`).

One counter for each scope and hashed key. An attempt is counted before it is judged, and takes the lock of its count;
a success resets the counter, gives the attempt back or leaves it, as the policy of the scope says.
-/

import PawBackend.Auth.Sessions
import PawBackend.Lib.Machine
import Mathlib.Data.List.GetD

namespace PawBackend.Auth

open Lib
open Tools (Instant)

inductive OnSuccess
  | reset
  | refund
  | keep
  deriving DecidableEq

structure ThrottlePolicy where
  freeAttempts : ℕ
  backoffSeconds : List ℕ
  decaySeconds : ℕ
  onSuccess : OnSuccess
  free_pos : 1 ≤ freeAttempts
  schedule : backoffSeconds ≠ [] ∧ ∀ s ∈ backoffSeconds, 1 ≤ s ∧ s ≤ 86400
  decay_pos : 1 ≤ decaySeconds

inductive ThrottleScope
  | loginAccount
  | loginSource
  | redeemSource
  | redeemGlobal
  | pairingSource
  | pairingGlobal
  deriving DecidableEq

/-- The primary key of `auth_throttles`. -/
structure ThrottleKey where
  scope : ThrottleScope
  keyHash : BitVec 256
  deriving DecidableEq

/-- What a row of `auth_throttles` says of its key. -/
structure Counter where
  attempts : ℕ
  lastAttemptAt : Instant
  lockedUntil : Option Instant
  deriving DecidableEq

/-- The table: at most one row for a key. -/
abbrev Throttles := ThrottleKey → Option Counter

structure Reservation where
  key : ThrottleKey
  attempts : ℕ
  lockedNow : Bool

/-! ### The statements -/

def Counter.decayed (c : Counter) (decay : ℕ) (ts : Instant) : Prop :=
  max c.lastAttemptAt (c.lockedUntil.getD c.lastAttemptAt) < ts - seconds decay

instance (c : Counter) (decay : ℕ) (ts : Instant) : Decidable (c.decayed decay ts) := inferInstanceAs (Decidable (_ < _))

def Counter.lockedAt (c : Counter) (ts : Instant) : Prop := ∃ until_ ∈ c.lockedUntil, ts < until_

instance (c : Counter) (ts : Instant) : Decidable (c.lockedAt ts) :=
  match h : c.lockedUntil with
  | none => isFalse (by simp [Counter.lockedAt, h])
  | some until_ => decidable_of_iff (ts < until_) (by simp [Counter.lockedAt, h])

section Policy

variable (policy : ThrottlePolicy)

def newAttempts (c : Counter) (ts : Instant) : ℕ := if c.decayed policy.decaySeconds ts then 1 else c.attempts + 1

/-- The entry of the schedule for a count, the last one repeating. -/
def ThrottlePolicy.lockSeconds (n : ℕ) : ℕ :=
  policy.backoffSeconds.getD (min (n - policy.freeAttempts + 1) policy.backoffSeconds.length - 1) 0

def lockFor (n : ℕ) (ts : Instant) : Option Instant :=
  if policy.freeAttempts ≤ n then some (ts + seconds (policy.lockSeconds n)) else none

/-- The row after an attempt that is its `n`-th. -/
def Counter.ofAttempt (n : ℕ) (ts : Instant) : Counter := ⟨n, ts, lockFor policy n ts⟩

/-- `_RESERVE`: the row of the key after it; `none` where a lock refuses the attempt. -/
def reserveRow (row : Option Counter) (ts : Instant) : Option Counter :=
  match row with
  | none => some (.ofAttempt policy 1 ts)
  | some c => if c.lockedAt ts then none else some (.ofAttempt policy (newAttempts policy c ts) ts)

/-- `_REFUND`, of one row. -/
def Counter.refunded (c : Counter) : Counter :=
  { c with
    attempts := c.attempts - 1
    lockedUntil := if c.attempts - 1 < policy.freeAttempts then none else c.lockedUntil }

end Policy

def Throttles.reset (t : Throttles) (key : ThrottleKey) : Throttles := Function.update t key none

section Policies

variable (policies : ThrottleScope → ThrottlePolicy)

/-- What `succeed_in` does to the table. -/
def Throttles.succeed (t : Throttles) (key : ThrottleKey) : Throttles :=
  match (policies key.scope).onSuccess with
  | .keep => t
  | .reset => t.reset key
  | .refund => Function.update t key ((t key).map (Counter.refunded (policies key.scope)))

def memorySeconds : ℕ :=
  [.loginAccount, .loginSource, .redeemSource, .redeemGlobal, .pairingSource, .pairingGlobal].foldl
    (fun longest scope => max longest (policies scope).decaySeconds) 0

/-- The rows `_PURGE` selects from, for a caller's clock. -/
def Counter.stale (c : Counter) (now : Instant) : Prop :=
  c.lastAttemptAt < now - seconds (memorySeconds policies) ∧
    ∀ until_ ∈ c.lockedUntil, until_ < now - seconds (memorySeconds policies)

instance (c : Counter) (now : Instant) : Decidable (c.stale policies now) := inferInstanceAs (Decidable (_ ∧ _))

/-- `_PURGE`, of the rows of a batch. -/
def Throttles.purge (t : Throttles) (batch : List ThrottleKey) : Throttles :=
  fun key => if key ∈ batch then none else t key

end Policies

/-! ### Any order of statements -/

/-- The table, the database's clock as it was last read, what the callers were given, and for each key the attempts
that count, by their places in `given`. -/
structure ThrottleWorld where
  table : Throttles
  clock : Instant
  given : List Reservation
  counted : ThrottleKey → List ℕ

/-- A statement; those with a clock of their own are judged at the later one of the caller's and the database's. -/
inductive ThrottleEvent
  | reserve (key : ThrottleKey) (caller database : Instant)
  | succeed (attempt : ℕ)
  | reset (key : ThrottleKey)
  | purge (caller : Instant) (batch : List ThrottleKey)

section Runs

variable (policies : ThrottleScope → ThrottlePolicy)

/-- The attempts that count once another one is granted: with it alone, the counter starts anew. -/
def countedAfter (row : Option Counter) (decay : ℕ) (ts : Instant) (counted : List ℕ) (attempt : ℕ) : List ℕ :=
  if ∀ c ∈ row, c.decayed decay ts then [attempt] else counted ++ [attempt]

namespace ThrottleWorld

variable (w : ThrottleWorld)

def granted (key : ThrottleKey) (ts database : Instant) (row : Counter) : ThrottleWorld where
  table := Function.update w.table key (some row)
  clock := database
  given := w.given ++ [⟨key, row.attempts, row.lockedUntil.isSome⟩]
  counted := Function.update w.counted key
    (countedAfter (w.table key) (policies key.scope).decaySeconds ts (w.counted key) w.given.length)

def settled (key : ThrottleKey) (attempt : ℕ) : List ℕ :=
  match (policies key.scope).onSuccess with
  | .keep => w.counted key
  | .reset => []
  | .refund => (w.counted key).erase attempt

def step : ThrottleEvent → Option ThrottleWorld
  | .reserve key caller database =>
    let ts := max caller database
    if w.clock ≤ database then
      some (match reserveRow (policies key.scope) (w.table key) ts with
        | none => { w with clock := database }
        | some row => w.granted policies key ts database row)
    else none
  | .succeed attempt =>
    w.given[attempt]?.map fun r =>
      { w with
        table := w.table.succeed policies r.key
        counted := Function.update w.counted r.key (w.settled policies r.key attempt) }
  | .reset key => some { w with table := w.table.reset key, counted := Function.update w.counted key [] }
  | .purge caller batch =>
    if batch.length ≤ purgeBatch ∧ ∀ key ∈ batch, ∃ c ∈ w.table key, c.stale policies caller then
      some { w with
        table := w.table.purge batch
        counted := fun key => if key ∈ batch then [] else w.counted key }
    else none

end ThrottleWorld

/-- The condition on a statement: a refund finds its own attempt counted, or no attempt at all; what a purge selects by
the caller's clock has decayed at the database's. -/
def Settles (w : ThrottleWorld) : ThrottleEvent → Prop
  | .succeed attempt => ∀ r ∈ w.given[attempt]?, (policies r.key.scope).onSuccess = .refund →
      attempt ∈ w.counted r.key ∨ w.counted r.key = []
  | .purge caller _ => ∀ key, ∀ c ∈ w.table key, c.stale policies caller →
      c.decayed (policies key.scope).decaySeconds w.clock
  | _ => True

def countOf (row : Option Counter) : ℕ := row.elim 0 Counter.attempts

def Counts (w : ThrottleWorld) : Prop := ∀ key, countOf (w.table key) = (w.counted key).length

/-- The lock a count leaves: that of its place in the schedule, the last entry repeating, from `freeAttempts` on. -/
structure LocksAs (policy : ThrottlePolicy) (ts : Instant) (c : Counter) : Prop where
  free : c.attempts < policy.freeAttempts → c.lockedUntil = none
  lock : ∀ i, c.attempts = policy.freeAttempts + i →
    ∃ s ∈ policy.backoffSeconds[min i (policy.backoffSeconds.length - 1)]?, c.lockedUntil = some (ts + seconds s)

/-- What a statement promises: an attempt is granted where no lock lies in the future, and leaves its lock; a purge
removes what no later attempt would have counted. -/
def Promises (w w' : ThrottleWorld) : ThrottleEvent → Prop
  | .reserve key caller database => w'.given ≠ w.given →
      (∀ c ∈ w.table key, ¬c.lockedAt (max caller database)) ∧
        ∃ c ∈ w'.table key, LocksAs (policies key.scope) (max caller database) c
  | .purge _ _ => ∀ key, ∀ c ∈ w.table key, w'.table key = none →
      ∀ ts, w.clock ≤ ts → c.decayed (policies key.scope).decaySeconds ts
  | _ => True

variable {policies} {w w' : ThrottleWorld} {policy : ThrottlePolicy}

theorem Counter.decayed.mono {c : Counter} {decay : ℕ} {ts later : Instant} (decayed : c.decayed decay ts)
    (notBefore : ts ≤ later) : c.decayed decay later :=
  lt_of_lt_of_le decayed (sub_le_sub_right notBefore _)

theorem ofAttempt_locksAs (n : ℕ) (ts : Instant) : LocksAs policy ts (.ofAttempt policy n ts) where
  free few := if_neg (Nat.not_le.mpr few)
  lock i isCount := by
    have isNumber : n = policy.freeAttempts + i := isCount
    have nonempty := List.length_pos_iff.mpr policy.schedule.1
    have place : min (n - policy.freeAttempts + 1) policy.backoffSeconds.length - 1 =
        min i (policy.backoffSeconds.length - 1) := by omega
    have within : min i (policy.backoffSeconds.length - 1) < policy.backoffSeconds.length := by omega
    refine ⟨policy.backoffSeconds[min i (policy.backoffSeconds.length - 1)], List.getElem?_eq_getElem within, ?_⟩
    show lockFor policy n ts = _
    unfold lockFor ThrottlePolicy.lockSeconds
    rw [if_pos (by omega), place, List.getD_eq_getElem _ _ within]

theorem reserveRow_eq_some {row : Option Counter} {ts : Instant} {c : Counter}
    (granted : reserveRow policy row ts = some c) :
    (∀ old ∈ row, ¬old.lockedAt ts) ∧ LocksAs policy ts c ∧
      ∀ counted : List ℕ, countOf row = counted.length → ∀ attempt,
        c.attempts = (countedAfter row policy.decaySeconds ts counted attempt).length := by
  unfold countedAfter
  cases row with
  | none =>
    cases granted
    exact ⟨by simp, ofAttempt_locksAs 1 ts, by simp [Counter.ofAttempt]⟩
  | some old =>
    change (if old.lockedAt ts then none else some _) = some c at granted
    split_ifs at granted with locked
    cases granted
    refine ⟨by simpa using locked, ofAttempt_locksAs _ ts, fun counted exact_ attempt => ?_⟩
    have number : old.attempts = counted.length := exact_
    by_cases forgotten : old.decayed policy.decaySeconds ts
    · simp [Counter.ofAttempt, newAttempts, forgotten]
    · simp [Counter.ofAttempt, newAttempts, forgotten, number]

theorem countOf_succeed (counts : Counts w) {attempt : ℕ} {r : Reservation} (isGiven : w.given[attempt]? = some r)
    (settles : Settles policies w (.succeed attempt)) (key : ThrottleKey) :
    countOf (w.table.succeed policies r.key key) =
      (Function.update w.counted r.key (w.settled policies r.key attempt) key).length := by
  have here := counts r.key
  unfold Throttles.succeed ThrottleWorld.settled
  cases on : (policies r.key.scope).onSuccess with
  | keep => simpa using counts key
  | reset =>
    by_cases same : key = r.key
    · simp [same, Throttles.reset, countOf]
    · simpa [same, Throttles.reset] using counts key
  | refund =>
    by_cases same : key = r.key
    · subst same
      have gone : countOf ((w.table r.key).map (Counter.refunded (policies r.key.scope))) =
          (w.counted r.key).length - 1 := by
        rw [← here]
        cases w.table r.key <;> simp [countOf, Counter.refunded]
      rcases settles r isGiven on with isCounted | none
      · simpa [List.length_erase_of_mem isCounted] using gone
      · simpa [none] using gone
    · simpa [same] using counts key

theorem Counts.step (counts : Counts w) {event : ThrottleEvent} (settles : Settles policies w event)
    (taken : w.step policies event = some w') : Counts w' := by
  intro key
  cases event with
  | reserve at_ caller database =>
    simp only [ThrottleWorld.step, Option.ite_none_right_eq_some, Option.some.injEq] at taken
    obtain ⟨-, rfl⟩ := taken
    cases judged : reserveRow (policies at_.scope) (w.table at_) (max caller database) with
    | none => exact counts key
    | some row =>
      by_cases same : key = at_
      · subst same
        simpa [ThrottleWorld.granted, countOf] using (reserveRow_eq_some judged).2.2 _ (counts key) w.given.length
      · simpa [ThrottleWorld.granted, same] using counts key
  | succeed attempt =>
    obtain ⟨r, isGiven, rfl⟩ := Option.map_eq_some_iff.mp taken
    exact countOf_succeed counts isGiven settles key
  | reset at_ =>
    cases taken
    by_cases same : key = at_
    · simp [same, Throttles.reset, countOf]
    · simpa [same, Throttles.reset] using counts key
  | purge caller batch =>
    simp only [ThrottleWorld.step, Option.ite_none_right_eq_some, Option.some.injEq] at taken
    obtain ⟨-, rfl⟩ := taken
    by_cases purged : key ∈ batch
    · simp [Throttles.purge, purged, countOf]
    · simpa [Throttles.purge, purged] using counts key

end Runs

end PawBackend.Auth
