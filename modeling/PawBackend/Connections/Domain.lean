/-
**What is counted of the shared connections, and over which windows** (`connections/domain.py`,
`tools/task_state.py`: `activity_of`).
-/

import PawBackend.Lib.Calendar
import PawBackend.Tasks.Domain

namespace PawBackend.Connections

open Lib
open Tools (Instant TaskActivity TaskRun Uuid maxCounter)
open Tasks (TaskState)

inductive ConnectionKind
  | codex
  | claude
  deriving DecidableEq, Repr

inductive ConnectionStatus
  | connected
  | unavailable
  | expired
  deriving DecidableEq, Repr

inductive UsageStatus
  | inFlight
  | succeeded
  | failed
  | cancelled
  deriving DecidableEq, Repr

inductive FailureCode
  | rateLimited
  | unavailable
  | expired
  | timeout
  | invalidResponse
  | internalError
  | modelFallback
  deriving DecidableEq, Repr

inductive QuotaMetric
  | requests
  | tasks
  | tokens
  | runtimeSeconds
  deriving DecidableEq, Repr

inductive QuotaPeriod
  | rolling5h
  | day
  | week
  | month
  deriving DecidableEq, Repr

inductive RefusalReason
  | taskNotFound
  | taskEnded
  | taskSuperseded
  | connectionUnavailable
  | quotaExceeded
  | taskBudgetNotConfigured
  | taskTokenFloor
  deriving DecidableEq, Repr

/-! ### Windows -/

/-- `ROLLING_WINDOW_HOURS`. -/
def rollingWindow : Instant := 5 * 60 * 60 * 10 ^ 6

/-- `_first_day` and the first day of what follows; a rolling window has neither. -/
def QuotaPeriod.calendar : QuotaPeriod → Option Periods
  | .rolling5h => none
  | .day => some days
  | .week => some weeks
  | .month => some months

def windowStart (period : QuotaPeriod) (now : Instant) (zone : Zone) : Instant :=
  match period.calendar with
  | none => now - rollingWindow
  | some periods => zone.windowStart periods now

def windowEnd (period : QuotaPeriod) (now : Instant) (zone : Zone) : Option Instant :=
  period.calendar.map fun periods => zone.windowEnd periods now

theorem windowStart_le {zone : Zone} (clean : zone.Clean) (period : QuotaPeriod) (now : Instant) :
    windowStart period now zone ≤ now := by
  unfold windowStart
  cases period.calendar with
  | none => exact sub_le_self now (by decide)
  | some periods => exact Zone.windowStart_le clean now

theorem windowEnd_spec {zone : Zone} (clean : zone.Clean) {period : QuotaPeriod} {now stop : Instant}
    (isEnd : windowEnd period now zone = some stop) : now < stop ∧ windowStart period stop zone = stop := by
  unfold windowEnd at isEnd
  rw [Option.map_eq_some_iff] at isEnd
  obtain ⟨periods, calendar, rfl⟩ := isEnd
  unfold windowStart
  rw [calendar]
  exact ⟨Zone.lt_windowEnd clean now, Zone.windowStart_windowEnd clean now⟩

theorem windowStart_eq {zone : Zone} (clean : zone.Clean) {period : QuotaPeriod} {now stop x : Instant}
    (isEnd : windowEnd period now zone = some stop) (start : windowStart period now zone ≤ x) (before : x < stop) :
    windowStart period x zone = windowStart period now zone := by
  unfold windowEnd at isEnd
  rw [Option.map_eq_some_iff] at isEnd
  obtain ⟨periods, calendar, rfl⟩ := isEnd
  unfold windowStart at start ⊢
  rw [calendar] at start ⊢
  exact Zone.windowStart_eq clean start before

/-! ### Tasks -/

def activityOf (state : TaskState) (attempt retryCount : ℕ) (run : TaskRun) : TaskActivity :=
  if ¬(1 ≤ attempt ∧ attempt ≤ maxCounter ∧ retryCount ≤ maxCounter) then .unknown
  else if state.isTerminal then .ended
  else if attempt = run.attempt ∧ retryCount = run.retryCount then .active
  else .superseded

end PawBackend.Connections
