/-
**The runtime timer of a task's budget** (`tasks/queueing/budget.py`, `tasks/queueing/models.py`).

A task's `runtime_seconds` row holds what was consumed, since when a run is in progress, which session
runs it and through when the runtime was settled. `start_runtime` and `stop_runtime` are one `UPDATE`
each; the clock reading of a statement is an argument, in no order with those of the other statements.
-/

import PawBackend.Lib.Machine
import PawBackend.Tools.ApprovalTypes
import Mathlib

namespace PawBackend.Tasks

open Lib List
open Tools (Instant)

/-! ### The row and its statements -/

def maxConsumed : ℤ := 10 ^ 15

/-- `MAX_RUNTIME_GENERATION`, the largest `BIGINT`. -/
def maxRuntimeGeneration : ℤ := 2 ^ 63 - 1

inductive BudgetPreset
  | standard
  | long
  | unlimited
  deriving DecidableEq, Repr

/-- The runtime item of `PRESET_LIMITS`. -/
def BudgetPreset.runtimeLimit : BudgetPreset → Option ℤ
  | .standard => some 3600
  | .long => some 14400
  | .unlimited => none

inductive BudgetError
  | invalidArgument (parameter : String)
  | budgetNotConfigured
  | staleRuntimeSession
  /-- The database's own refusal: `bigint out of range`. -/
  | outOfRange
  deriving DecidableEq, Repr

/-- The `runtime_seconds` row of a task in `budget_usages`. -/
structure BudgetUsageRow where
  preset : BudgetPreset
  limitValue : Option ℤ
  consumed : ℤ
  runningSince : Option Instant
  runtimeGeneration : ℤ
  settledThrough : Option Instant
  deriving DecidableEq, Repr

/-- `BudgetUsage` of the runtime. -/
structure BudgetUsage where
  consumed : ℤ
  limit : Option ℤ
  deriving DecidableEq, Repr

def wholeSeconds (since now : Instant) : ℤ := (now - since) / 10 ^ 6

/-- `_elapsed_seconds`, and the `elapsed` of `stop_runtime`. -/
def elapsedSeconds (now since : Instant) : ℤ := max (wholeSeconds since now) 0

/-- `greatest`, which ignores a `NULL`. -/
def greatest (now : Instant) : Option Instant → Instant
  | some settled => max now settled
  | none => now

/-- `set_preset`: the row is made, or its limits are replaced and the rest is kept. -/
def setPreset (row : Option BudgetUsageRow) (preset : BudgetPreset) : Option BudgetUsageRow :=
  match row with
  | none => some
      { preset := preset, limitValue := preset.runtimeLimit, consumed := 0, runningSince := none
        runtimeGeneration := 0, settledThrough := none }
  | some row => some { row with preset := preset, limitValue := preset.runtimeLimit }

/-- The values of `_start_statement`. -/
def BudgetUsageRow.start (row : BudgetUsageRow) (now : Instant) : BudgetUsageRow :=
  { row with
    runtimeGeneration := row.runtimeGeneration + 1
    runningSince := some (row.runningSince.getD (greatest now row.settledThrough)) }

def startRuntime (row : Option BudgetUsageRow) (now : Instant) :
    Except BudgetError ℤ × Option BudgetUsageRow :=
  match row with
  | none => (.error .budgetNotConfigured, none)
  | some row =>
    if maxRuntimeGeneration ≤ row.runtimeGeneration then (.error .outOfRange, some row)
    else (.ok (row.runtimeGeneration + 1), some (row.start now))

/-- The values of the `UPDATE` of `stop_runtime`: both read the old `running_since`. -/
def BudgetUsageRow.stop (row : BudgetUsageRow) (since now : Instant) : BudgetUsageRow :=
  { row with
    consumed := min (row.consumed + elapsedSeconds now since) maxConsumed
    runningSince := none
    settledThrough := some (max now since) }

/-- `_read_usage`, its runtime item. -/
def BudgetUsageRow.usage (row : BudgetUsageRow) (now : Instant) : BudgetUsage where
  consumed := row.consumed + (row.runningSince.elim 0 fun since => elapsedSeconds now since)
  limit := row.limitValue

/-- `stop_runtime`; `readAt` is the clock of the statement that reports a session stopped before. -/
def stopRuntime (row : Option BudgetUsageRow) (generation : ℤ) (now readAt : Instant) :
    Except BudgetError BudgetUsage × Option BudgetUsageRow :=
  if generation < 1 ∨ maxRuntimeGeneration < generation then (.error (.invalidArgument "generation"), row)
  else
    match row with
    | none => (.error .budgetNotConfigured, none)
    | some row =>
      if row.runtimeGeneration ≠ generation then (.error .staleRuntimeSession, some row)
      else
        match row.runningSince with
        | some since =>
          (.ok ⟨(row.stop since now).consumed, row.limitValue⟩, some (row.stop since now))
        | none => (.ok (row.usage readAt), some row)

/-! ### What was charged -/

structure Charge where
  generation : ℤ
  since : Instant
  cutoff : Instant
  deriving DecidableEq, Repr

def Charge.seconds (charge : Charge) : ℤ := wholeSeconds charge.since charge.cutoff

structure Ledger where
  row : Option BudgetUsageRow
  charges : List Charge
  deriving DecidableEq, Repr

/-- One transaction on the row. -/
inductive RuntimeCall
  | setPreset (preset : BudgetPreset)
  | start (now : Instant)
  | stop (generation : ℤ) (now readAt : Instant)
  deriving DecidableEq, Repr

/-- The interval a stop charges: it found a run of its own session in progress. -/
def chargeOf (row : Option BudgetUsageRow) (generation : ℤ) (now : Instant) : List Charge :=
  match row with
  | none => []
  | some row =>
    match row.runningSince with
    | some since => if row.runtimeGeneration = generation then [⟨generation, since, max now since⟩] else []
    | none => []

def Ledger.after (l : Ledger) : RuntimeCall → Ledger
  | .setPreset preset => { l with row := Tasks.setPreset l.row preset }
  | .start now => { l with row := (startRuntime l.row now).2 }
  | .stop generation now readAt =>
    if generation < 1 ∨ maxRuntimeGeneration < generation then l
    else
      { row := (stopRuntime l.row generation now readAt).2
        charges := l.charges ++ chargeOf l.row generation now }

/-- Every sequence of transactions on a task's runtime row. -/
def runtimeBudget : Machine Ledger RuntimeCall where
  initial l := l = ⟨none, []⟩
  step l call := some (l.after call)

/-! ### The invariant -/

structure RowCharged (row : BudgetUsageRow) (charges : List Charge) : Prop where
  settled : ∀ charge ∈ charges, ∃ through, row.settledThrough = some through ∧ charge.cutoff ≤ through
  notBefore : ∀ since through, row.runningSince = some since → row.settledThrough = some through →
    through ≤ since
  issued : ∀ charge ∈ charges, charge.generation ≤ row.runtimeGeneration
  unspent : ∀ since, row.runningSince = some since →
    ∀ charge ∈ charges, charge.generation < row.runtimeGeneration
  total : row.consumed = min (charges.map Charge.seconds).sum maxConsumed
  range : 0 ≤ row.runtimeGeneration ∧ row.runtimeGeneration ≤ maxRuntimeGeneration
  begun : ∀ since, row.runningSince = some since → 1 ≤ row.runtimeGeneration

structure Charged (l : Ledger) : Prop where
  unconfigured : l.row = none → l.charges = []
  proper : ∀ charge ∈ l.charges, charge.since ≤ charge.cutoff
  inOrder : l.charges.Pairwise fun earlier later => earlier.cutoff ≤ later.since
  once : l.charges.Pairwise fun earlier later => earlier.generation < later.generation
  row : ∀ row, l.row = some row → RowCharged row l.charges

theorem wholeSeconds_cutoff (since now : Instant) :
    wholeSeconds since (max now since) = elapsedSeconds now since := by
  unfold elapsedSeconds wholeSeconds
  rcases le_total since now with forward | backward
  · have nonneg : 0 ≤ (now - since) / 10 ^ 6 := Int.ediv_nonneg (sub_nonneg.mpr forward) (by decide)
    rw [show max now since = now from max_eq_left forward, max_eq_left nonneg]
  · have behind : (now - since) / 10 ^ 6 ≤ 0 :=
      Int.ediv_nonpos_of_nonpos_of_neg (sub_nonpos.mpr backward) (by decide)
    rw [show max now since = since from max_eq_right backward, sub_self, Int.zero_ediv,
      max_eq_right behind]

theorem elapsedSeconds_nonneg (now since : Instant) : 0 ≤ elapsedSeconds now since := le_max_right _ _

variable {row : BudgetUsageRow} {l : Ledger}

theorem chargeOf_running {since : Instant} (running : row.runningSince = some since) (now : Instant) :
    chargeOf (some row) row.runtimeGeneration now = [⟨row.runtimeGeneration, since, max now since⟩] := by
  simp [chargeOf, running]

theorem chargeOf_idle (idle : row.runningSince = none) (generation : ℤ)
    (now : Instant) : chargeOf (some row) generation now = [] := by
  simp [chargeOf, idle]

theorem chargeOf_stale {generation : ℤ} (stale : row.runtimeGeneration ≠ generation)
    (now : Instant) : chargeOf (some row) generation now = [] := by
  cases running : row.runningSince with
  | none => exact chargeOf_idle running generation now
  | some since => simp [chargeOf, running, stale]

theorem after_stop (l : Ledger) (generation : ℤ) (now readAt : Instant) :
    l.after (.stop generation now readAt) = l ∨
      ∃ row since, l.row = some row ∧ row.runningSince = some since ∧ row.runtimeGeneration = generation ∧
        l.after (.stop generation now readAt) =
          { row := some (row.stop since now)
            charges := l.charges ++ [⟨row.runtimeGeneration, since, max now since⟩] } := by
  obtain ⟨stored, charges⟩ := l
  unfold Ledger.after
  dsimp only
  split_ifs with invalid
  · exact .inl rfl
  cases stored with
  | none => exact .inl (by simp [stopRuntime, invalid, chargeOf])
  | some row =>
    by_cases stale : row.runtimeGeneration ≠ generation
    · exact .inl (by simp [stopRuntime, invalid, stale, chargeOf_stale stale])
    · rw [not_not] at stale
      subst stale
      cases running : row.runningSince with
      | none => exact .inl (by simp [stopRuntime, invalid, running, chargeOf_idle running])
      | some since =>
        refine .inr ⟨row, since, rfl, running, rfl, ?_⟩
        simp [stopRuntime, invalid, running, chargeOf_running running]

theorem after_start (l : Ledger) (now : Instant) :
    l.after (.start now) = l ∨
      ∃ row, l.row = some row ∧ row.runtimeGeneration < maxRuntimeGeneration ∧
        l.after (.start now) = { l with row := some (row.start now) } := by
  obtain ⟨stored, charges⟩ := l
  cases stored with
  | none => exact .inl rfl
  | some row =>
    by_cases full : maxRuntimeGeneration ≤ row.runtimeGeneration
    · exact .inl (by simp [Ledger.after, startRuntime, full])
    · exact .inr ⟨row, rfl, not_le.mp full, by simp [Ledger.after, startRuntime, full]⟩

theorem charged_setPreset (kept : Charged l) (preset : BudgetPreset) :
    Charged (l.after (.setPreset preset)) := by
  obtain ⟨stored, charges⟩ := l
  refine ⟨?_, kept.proper, kept.inOrder, kept.once, ?_⟩
  · intro gone
    cases stored <;> simp [Ledger.after, setPreset] at gone
  · intro row found
    cases stored with
    | none =>
      have empty : charges = [] := kept.unconfigured rfl
      simp only [Ledger.after, setPreset, Option.some.injEq] at found
      subst empty found
      exact ⟨by simp [Ledger.after], by simp, by simp [Ledger.after], by simp [Ledger.after],
        by simp [Ledger.after, maxConsumed], by simp [maxRuntimeGeneration], by simp⟩
    | some before =>
      simp only [Ledger.after, setPreset, Option.some.injEq] at found
      subst found
      obtain ⟨settled, notBefore, issued, unspent, total, range, begun⟩ := kept.row before rfl
      exact ⟨settled, notBefore, issued, unspent, total, range, begun⟩

theorem rowCharged_start {charges : List Charge} (kept : RowCharged row charges)
    (room : row.runtimeGeneration < maxRuntimeGeneration) (now : Instant) :
    RowCharged (row.start now) charges where
  settled := kept.settled
  notBefore := by
    intro since through begun settled
    replace settled : row.settledThrough = some through := settled
    rw [BudgetUsageRow.start, Option.some.injEq] at begun
    subst begun
    cases running : row.runningSince with
    | some since => exact kept.notBefore since through running settled
    | none =>
      rw [settled]
      exact le_max_right now through
  issued := fun charge mem => (kept.issued charge mem).trans (Int.le_of_lt (Int.lt_succ _))
  unspent := fun _ _ charge mem => Int.lt_add_one_of_le (kept.issued charge mem)
  total := kept.total
  range := ⟨Int.le_trans kept.range.1 (Int.le_of_lt (Int.lt_succ _)), Int.add_one_le_of_lt room⟩
  begun := fun _ _ => Int.le_add_of_nonneg_left kept.range.1

theorem rowCharged_stop {charges : List Charge} (kept : RowCharged row charges)
    {since : Instant} (running : row.runningSince = some since) (now : Instant) :
    RowCharged (row.stop since now) (charges ++ [⟨row.runtimeGeneration, since, max now since⟩]) where
  settled := by
    intro charge mem
    refine ⟨max now since, rfl, ?_⟩
    rcases mem_append.mp mem with earlier | this
    · obtain ⟨through, settled, before⟩ := kept.settled charge earlier
      exact (before.trans (kept.notBefore since through running settled)).trans (le_max_right now since)
    · rw [mem_singleton.mp this]
  notBefore := fun _ _ begun => by simp [BudgetUsageRow.stop] at begun
  issued := by
    intro charge mem
    rcases mem_append.mp mem with earlier | this
    · exact kept.issued charge earlier
    · rw [mem_singleton.mp this]
      exact le_refl row.runtimeGeneration
  unspent := fun _ begun => by simp [BudgetUsageRow.stop] at begun
  total := by
    show min (row.consumed + elapsedSeconds now since) maxConsumed = _
    have seconds : Charge.seconds ⟨row.runtimeGeneration, since, max now since⟩ = elapsedSeconds now since :=
      wholeSeconds_cutoff since now
    have elapsed := elapsedSeconds_nonneg now since
    rw [kept.total, map_append, sum_append, map_singleton, sum_singleton, seconds]
    omega
  range := kept.range
  begun := fun _ begun => by simp [BudgetUsageRow.stop] at begun

theorem charged_after (kept : Charged l) (call : RuntimeCall) : Charged (l.after call) := by
  cases call with
  | setPreset preset => exact charged_setPreset kept preset
  | start now =>
    rcases after_start l now with same | ⟨row, found, room, begun⟩
    · rwa [same]
    · rw [begun]
      refine ⟨fun gone => by simp at gone, kept.proper, kept.inOrder, kept.once, ?_⟩
      intro after stored
      rw [Option.some.injEq] at stored
      exact stored ▸ rowCharged_start (kept.row row found) room now
  | stop generation now readAt =>
    rcases after_stop l generation now readAt with same | ⟨row, since, found, running, -, settled⟩
    · rwa [same]
    · rw [settled]
      have before := kept.row row found
      refine ⟨fun gone => by simp at gone, ?_, ?_, ?_, ?_⟩
      · intro charge mem
        rcases mem_append.mp mem with earlier | this
        · exact kept.proper charge earlier
        · rw [mem_singleton.mp this]
          exact le_max_right now since
      · refine pairwise_append.mpr ⟨kept.inOrder, pairwise_singleton _ _, ?_⟩
        intro earlier mem later this
        obtain ⟨through, through_eq, reached⟩ := before.settled earlier mem
        rw [mem_singleton.mp this]
        exact reached.trans (before.notBefore since through running through_eq)
      · refine pairwise_append.mpr ⟨kept.once, pairwise_singleton _ _, ?_⟩
        intro earlier mem later this
        rw [mem_singleton.mp this]
        exact before.unspent since running earlier mem
      · intro after stored
        rw [Option.some.injEq] at stored
        exact stored ▸ rowCharged_stop before running now

theorem charged_of_reachable (reach : runtimeBudget.Reachable l) : Charged l := by
  refine reach.invariant ?_ ?_
  · rintro _ rfl
    exact ⟨fun _ => rfl, by simp, List.Pairwise.nil, List.Pairwise.nil, by simp⟩
  · intro before call after _ kept taken
    rw [runtimeBudget, Option.some.injEq] at taken
    exact taken ▸ charged_after kept call

/-! ### Every run -/

/-- No transaction takes back what was settled or consumed. -/
structure Settles (before after : Ledger) : Prop where
  settled : ∀ row through, before.row = some row → row.settledThrough = some through →
    ∃ row' through', after.row = some row' ∧ row'.settledThrough = some through' ∧ through ≤ through'
  consumed : ∀ row, before.row = some row → ∃ row', after.row = some row' ∧ row.consumed ≤ row'.consumed

theorem Settles.of_row {before after : Ledger} {row' : BudgetUsageRow} (found : before.row = some row)
    (stored : after.row = some row')
    (settled : ∀ through, row.settledThrough = some through →
      ∃ through', row'.settledThrough = some through' ∧ through ≤ through')
    (consumed : row.consumed ≤ row'.consumed) : Settles before after := by
  constructor
  · intro old through old_eq through_eq
    rw [found, Option.some.injEq] at old_eq
    subst old_eq
    obtain ⟨through', later, le⟩ := settled through through_eq
    exact ⟨row', through', stored, later, le⟩
  · intro old old_eq
    rw [found, Option.some.injEq] at old_eq
    subst old_eq
    exact ⟨row', stored, consumed⟩

theorem Settles.refl (l : Ledger) : Settles l l :=
  ⟨fun row through found settled => ⟨row, through, found, settled, le_refl _⟩,
    fun row found => ⟨row, found, le_refl _⟩⟩

theorem settles_after (kept : Charged l) (call : RuntimeCall) : Settles l (l.after call) := by
  cases call with
  | setPreset preset =>
    obtain ⟨stored, charges⟩ := l
    cases stored with
    | none => exact ⟨fun _ _ found => by simp at found, fun _ found => by simp at found⟩
    | some row => exact .of_row rfl rfl (fun through settled => ⟨through, settled, le_refl _⟩) (le_refl _)
  | start now =>
    rcases after_start l now with same | ⟨row, found, -, begun⟩
    · rw [same]
      exact .refl l
    · rw [begun]
      exact .of_row found rfl (fun through settled => ⟨through, settled, le_refl _⟩) (le_refl _)
  | stop generation now readAt =>
    rcases after_stop l generation now readAt with same | ⟨row, since, found, running, -, settled⟩
    · rw [same]
      exact .refl l
    · rw [settled]
      have before := kept.row row found
      refine .of_row found rfl ?_ ?_
      · intro through through_eq
        exact ⟨max now since, rfl,
          (before.notBefore since through running through_eq).trans (le_max_right now since)⟩
      · have capped : row.consumed ≤ maxConsumed := by
          rw [before.total]
          exact min_le_right _ _
        exact le_min (Int.le_add_of_nonneg_right (elapsedSeconds_nonneg now since)) capped

/-- **Runtime is charged exactly once.** After any statements the charged intervals are in order and meet in an
end point at most, each session is charged once, and consumed is the sum of their whole seconds up to the
cap. No statement takes back what was settled or consumed, a take-over keeps the start of the run, the stop of
the current session charges all of it, and a stop of another session changes nothing. -/
theorem runtime_charged_once {l : Ledger} (reach : runtimeBudget.Reachable l) :
    (∀ charge ∈ l.charges, charge.since ≤ charge.cutoff) ∧
    (l.charges.Pairwise fun earlier later =>
      earlier.cutoff ≤ later.since ∧ earlier.generation < later.generation ∧
        Disjoint (Set.Ico earlier.since earlier.cutoff) (Set.Ico later.since later.cutoff)) ∧
    (∀ row, l.row = some row →
      (∀ since through, row.runningSince = some since → row.settledThrough = some through →
        through ≤ since) ∧
      row.consumed ≤ maxConsumed ∧
      (row.consumed < maxConsumed → row.consumed = (l.charges.map Charge.seconds).sum) ∧
      (∀ since now readAt, row.runningSince = some since →
        (∃ row', (l.after (.start now)).row = some row' ∧ row'.runningSince = some since) ∧
        (l.after (.stop row.runtimeGeneration now readAt)).charges =
          l.charges ++ [⟨row.runtimeGeneration, since, max now since⟩]) ∧
      (∀ generation now readAt, generation ≠ row.runtimeGeneration →
        l.after (.stop generation now readAt) = l)) ∧
    ∀ call, Settles l (l.after call) := by
  have kept := charged_of_reachable reach
  refine ⟨kept.proper, ?_, ?_, settles_after kept⟩
  · refine (kept.inOrder.and kept.once).imp ?_
    rintro earlier later ⟨before, older⟩
    refine ⟨before, older, Set.disjoint_left.mpr fun instant first second => ?_⟩
    exact absurd (first.2.trans_le before) (not_lt.mpr second.1)
  · intro row found
    obtain ⟨settled, notBefore, issued, unspent, total, range, begun⟩ := kept.row row found
    refine ⟨notBefore, ?_, ?_, ?_, ?_⟩
    · rw [total]
      exact min_le_right _ _
    · intro below
      omega
    · intro since now readAt running
      constructor
      · rcases after_start l now with same | ⟨row', found', -, later⟩
        · exact ⟨row, by rw [same, found], running⟩
        · rw [found, Option.some.injEq] at found'
          subst found'
          exact ⟨row.start now, by rw [later], by simp [BudgetUsageRow.start, running]⟩
      · have valid : ¬(row.runtimeGeneration < 1 ∨ maxRuntimeGeneration < row.runtimeGeneration) :=
          not_or.mpr ⟨not_lt.mpr (begun since running), not_lt.mpr range.2⟩
        simp [Ledger.after, valid, found, chargeOf_running running]
    · intro generation now readAt other
      rcases after_stop l generation now readAt with same | ⟨row', since, found', -, named, -⟩
      · exact same
      · rw [found, Option.some.injEq] at found'
        subst found'
        exact absurd named.symm other

/-- A run that is taken over and stopped twice, then one that begins and ends at readings from before. -/
def takenOver : List RuntimeCall :=
  [.setPreset .standard, .start 5000000, .start 6000000, .stop 1 8000000 8000000, .stop 2 9500000 9500000,
    .stop 2 9900000 9900000, .start 3000000, .stop 3 2000000 2000000]

def takenOverLedger : Ledger where
  row := some
    { preset := .standard, limitValue := some 3600, consumed := 4, runningSince := none
      runtimeGeneration := 3, settledThrough := some 9500000 }
  charges := [⟨2, 5000000, 9500000⟩, ⟨3, 9500000, 9500000⟩]

theorem takenOver_charged_once : runtimeBudget.run ⟨none, []⟩ takenOver = some takenOverLedger ∧
    ∀ charge ∈ takenOverLedger.charges, charge.since ≤ charge.cutoff := by
  have ran : runtimeBudget.run ⟨none, []⟩ takenOver = some takenOverLedger := rfl
  exact ⟨ran, (runtime_charged_once (Machine.Reachable.run (.start rfl) ran)).1⟩

/-- Two runs one right after the other: their intervals share the instant one ends and the next begins. -/
theorem charged_intervals_meet : ¬ ∀ l, runtimeBudget.Reachable l →
    l.charges.Pairwise fun earlier later =>
      Disjoint (Set.Icc earlier.since earlier.cutoff) (Set.Icc later.since later.cutoff) := by
  intro claimed
  have ran : runtimeBudget.run ⟨none, []⟩
      [.setPreset .unlimited, .start 0, .stop 1 1000000 1000000, .start 1000000, .stop 2 2000000 2000000] =
      some
        { row := some
            { preset := .unlimited, limitValue := none, consumed := 2, runningSince := none
              runtimeGeneration := 2, settledThrough := some 2000000 }
          charges := [⟨1, 0, 1000000⟩, ⟨2, 1000000, 2000000⟩] } := rfl
  have apart := claimed _ (Machine.Reachable.run (.start rfl) ran)
  rw [pairwise_pair, Set.disjoint_left] at apart
  exact apart (by decide : (1000000 : ℤ) ∈ Set.Icc 0 1000000) (by decide : (1000000 : ℤ) ∈ Set.Icc 1000000 2000000)

end PawBackend.Tasks
