/-
**A worker gives its lease up in time** (`orchestrator/orchestrator.py`: `Orchestrator._heartbeats`, `_within`).

Times are those of the injected clock, whose sleeps and timeouts end on time. A heartbeat ends with a result after a while,
or stalls; the state of the loop at an instant is the one after all that happens at it.
-/

import Mathlib.Tactic.Linarith
import PawBackend.Lib.Machine

namespace PawBackend.Orchestrator.Heartbeats

open Lib

def heartbeatFailuresToLose : ℕ := 3

def heartbeatTimeoutFraction : ℚ := 1 / 2

/-! ### The loop -/

/-- What the constructor accepts: the lease of the queue, and the interval it is given or computes. -/
structure HeartbeatConfig where
  leaseSeconds : ℚ
  heartbeatSeconds : ℚ
  accepted : 0 < heartbeatSeconds * heartbeatFailuresToLose ∧ heartbeatSeconds * heartbeatFailuresToLose < leaseSeconds

def HeartbeatConfig.loseAfter (config : HeartbeatConfig) : ℚ := config.heartbeatSeconds * heartbeatFailuresToLose

/-- `queue.heartbeat`: how it ends, and how long after it began. -/
inductive HeartbeatCall
  | renewed (seconds : ℚ)
  | failed (seconds : ℚ)
  | leaseLost (seconds : ℚ)
  | stalls

inductive HeartbeatResult
  | renewed
  | failed
  | leaseLost
  deriving DecidableEq

/-- `_within`: the result, a timeout being a failure, and how long it took. -/
def within (timeout : ℚ) : HeartbeatCall → HeartbeatResult × ℚ
  | .renewed seconds => if seconds ≤ timeout then (.renewed, seconds) else (.failed, timeout)
  | .failed seconds => (.failed, min seconds timeout)
  | .leaseLost seconds => if seconds ≤ timeout then (.leaseLost, seconds) else (.failed, timeout)
  | .stalls => (.failed, timeout)

/-- The variables of the loop; `proved` is the start of the last proof, and `results` those of the heartbeats, the newest
first. -/
structure HeartbeatLoop where
  now : ℚ
  proved : ℚ
  deadline : ℚ
  failures : ℕ
  lost : Bool
  results : List HeartbeatResult

variable (config : HeartbeatConfig) (loop : HeartbeatLoop)

def wake : ℚ := loop.now + max 0 (min config.heartbeatSeconds (loop.deadline - loop.now))

def callTimeout : ℚ := min (config.heartbeatSeconds * heartbeatTimeoutFraction) (loop.deadline - wake config loop)

def afterCall (started took : ℚ) (result : HeartbeatResult) : HeartbeatLoop :=
  let ended := { loop with now := started + took, results := result :: loop.results }
  match result with
  | .leaseLost => { ended with lost := true }
  | .failed =>
    { ended with
      failures := loop.failures + 1
      lost := heartbeatFailuresToLose ≤ loop.failures + 1 ∨ loop.deadline ≤ started + took }
  | .renewed => { ended with failures := 0, proved := started, deadline := started + config.loseAfter }

/-- One turn of `while True`. -/
def turn (call : HeartbeatCall) : HeartbeatLoop :=
  let started := wake config loop
  if loop.deadline - started ≤ 0 then { loop with now := started, lost := true }
  else
    let (result, took) := within (callTimeout config loop) call
    afterCall config loop started took result

/-- The loop of a run begins at any instant after the lease was proved, and runs until the lease is lost. -/
def heartbeats : Machine HeartbeatLoop HeartbeatCall where
  initial loop := loop.proved ≤ loop.now ∧ loop.deadline = loop.proved + config.loseAfter ∧ loop.failures = 0 ∧
    loop.lost = false ∧ loop.results = []
  step loop call := if loop.lost then none else some (turn config loop call)

/-! ### What the loop keeps -/

def failuresInARow : List HeartbeatResult → ℕ
  | .failed :: results => failuresInARow results + 1
  | _ => 0

structure Running : Prop where
  deadline : loop.deadline = loop.proved + config.loseAfter
  counted : failuresInARow loop.results ≤ loop.failures
  few : loop.lost = false → loop.failures < heartbeatFailuresToLose

variable {config loop}

theorem within_le (timeout : ℚ) (call : HeartbeatCall) : (within timeout call).2 ≤ timeout := by
  cases call with
  | failed seconds => exact min_le_right seconds timeout
  | stalls => exact le_refl timeout
  | renewed seconds | leaseLost seconds =>
    unfold within
    dsimp only
    split_ifs with inTime
    · exact inTime
    · exact le_refl timeout

theorem wake_le (early : loop.now ≤ loop.deadline) : wake config loop ≤ loop.deadline := by
  have notAfter := min_le_right config.heartbeatSeconds (loop.deadline - loop.now)
  have : max 0 (min config.heartbeatSeconds (loop.deadline - loop.now)) ≤ loop.deadline - loop.now :=
    max_le (by linarith) notAfter
  unfold wake
  linarith

/-- A loop that begins after its deadline is lost as it begins. -/
theorem wake_late (late : loop.deadline < loop.now) : wake config loop = loop.now := by
  have notAfter := min_le_right config.heartbeatSeconds (loop.deadline - loop.now)
  rw [wake, max_eq_left (by linarith), add_zero]

@[simp] theorem afterCall_now (started took : ℚ) (result : HeartbeatResult) :
    (afterCall config loop started took result).now = started + took := by
  cases result <;> rfl

theorem running_afterCall (running : Running config loop) (started took : ℚ) (result : HeartbeatResult) :
    Running config (afterCall config loop started took result) := by
  cases result with
  | renewed => exact ⟨rfl, le_refl 0, fun _ => Nat.succ_pos 2⟩
  | leaseLost => exact ⟨running.deadline, Nat.zero_le _, fun going => absurd going Bool.true_eq_false_eq_False.elim⟩
  | failed =>
    refine ⟨running.deadline, Nat.succ_le_succ running.counted, fun going => Nat.lt_of_not_le fun many => ?_⟩
    exact of_decide_eq_false going (.inl many)

theorem running_turn (running : Running config loop) (call : HeartbeatCall) : Running config (turn config loop call) := by
  unfold turn
  dsimp only
  split_ifs with late
  · exact ⟨running.deadline, running.counted, fun going => absurd going Bool.true_eq_false_eq_False.elim⟩
  · exact running_afterCall running _ _ _

theorem running_of_reachable (reach : (heartbeats config).Reachable loop) : Running config loop := by
  refine reach.invariant (P := Running config) (fun loop start => ?_) fun loop call loop' _ running taken => ?_
  · obtain ⟨-, deadline, noFailures, -, noResults⟩ := start
    refine ⟨deadline, ?_, fun _ => noFailures ▸ Nat.succ_pos 2⟩
    rw [noResults, noFailures]
    rfl
  · simp only [heartbeats] at taken
    split_ifs at taken
    exact Option.some.inj taken ▸ running_turn running call

/-- No turn that begins in time ends after the deadline. -/
theorem turn_now_le (early : loop.now ≤ loop.deadline) (call : HeartbeatCall) :
    (turn config loop call).now ≤ loop.deadline := by
  unfold turn
  dsimp only
  split_ifs with late
  · exact wake_le early
  · have inTime := (within_le (callTimeout config loop) call).trans (min_le_right _ _)
    rw [afterCall_now]
    linarith

theorem turn_now_late (late : loop.deadline < loop.now) (call : HeartbeatCall) :
    (turn config loop call).now = loop.now := by
  unfold turn
  dsimp only
  rw [wake_late late, if_pos (by linarith)]

/-- The loop goes on before the deadline only. -/
theorem turn_now_lt (call : HeartbeatCall) (going : (turn config loop call).lost = false) :
    (turn config loop call).now < (turn config loop call).deadline := by
  unfold turn at going ⊢
  dsimp only at going ⊢
  split_ifs at going ⊢ with late
  have inTime := within_le (callTimeout config loop) call
  have half : callTimeout config loop ≤ config.heartbeatSeconds * (1 / 2) := min_le_left _ _
  have positive := config.accepted.1
  generalize within (callTimeout config loop) call = answer at *
  obtain ⟨result, took⟩ := answer
  dsimp only at inTime
  cases result with
  | leaseLost => exact absurd going Bool.true_eq_false_eq_False.elim
  | failed => exact lt_of_not_ge fun late => of_decide_eq_false going (.inr late)
  | renewed =>
    simp only [heartbeatFailuresToLose, Nat.cast_ofNat] at positive
    simp only [afterCall, HeartbeatConfig.loseAfter, heartbeatFailuresToLose, Nat.cast_ofNat]
    linarith

/-- **A lease is given up before it can expire.** While the loop of a run that is not lost runs, the last proof of the lease
began less than the lease ago, and fewer than three heartbeats in a row have failed. -/
theorem lost_before_expiry (config : HeartbeatConfig) : ∀ loop, (heartbeats config).Reachable loop → loop.lost = false →
    failuresInARow loop.results < heartbeatFailuresToLose ∧ ∀ call, let after := turn config loop call
      (∀ instant, loop.now ≤ instant → instant < after.now → instant < loop.proved + config.leaseSeconds) ∧
      (after.lost = false → after.now < after.proved + config.leaseSeconds) := by
  intro loop reach going
  have running := running_of_reachable reach
  have margin : config.loseAfter < config.leaseSeconds := config.accepted.2
  refine ⟨running.counted.trans_lt (running.few going), fun call => ⟨fun instant began notYet => ?_, fun goesOn => ?_⟩⟩
  · rcases le_or_gt loop.now loop.deadline with early | late
    · have inTime : (turn config loop call).now ≤ loop.deadline := turn_now_le early call
      have := running.deadline
      linarith
    · have atOnce : (turn config loop call).now = loop.now := turn_now_late late call
      exact absurd notYet (not_lt.mpr (atOnce ▸ began))
  · have before := turn_now_lt call goesOn
    have := (running_turn running call).deadline
    linarith

def minuteLease : HeartbeatConfig := ⟨60, 15, by with_unfolding_all decide⟩

/-- A heartbeat that stalls is no reason to give the lease up. -/
theorem stalledOnce_before_expiry : (turn minuteLease ⟨0, 0, 45, 0, false, []⟩ .stalls).lost = false ∧
    failuresInARow (turn minuteLease ⟨0, 0, 45, 0, false, []⟩ .stalls).results < heartbeatFailuresToLose := by
  have begun : (heartbeats minuteLease).Reachable ⟨0, 0, 45, 0, false, []⟩ :=
    .start ⟨le_refl 0, by with_unfolding_all decide, rfl, rfl, rfl⟩
  have going : (turn minuteLease ⟨0, 0, 45, 0, false, []⟩ .stalls).lost = false := by with_unfolding_all decide
  exact ⟨going, (lost_before_expiry minuteLease _ (begun.next rfl) going).1⟩

end PawBackend.Orchestrator.Heartbeats
