/-
**When a partition of `audit_events` is made, archived and purged** (`authz/retention/records.py`,
`authz/retention/rules.py`).

A partition holds the rows recorded in a half-open window.
-/

import PawBackend.Lib.Calendar
import PawBackend.Tools.Arguments

namespace PawBackend.Retention

open Lib List
open Tools (Instant decimal)

/-! ### Values -/

inductive PartitionStatus
  | live
  | archived
  | purged
  deriving DecidableEq, Repr

structure PartitionWindow where
  name : Text
  lower : Option Instant
  upper : Instant
  status : PartitionStatus
  deriving DecidableEq

/-- How long a partition stays live, then archived, and how far ahead to plan. -/
structure RetentionPolicy where
  archiveAfterDays : ℕ
  purgeAfterDays : Option ℕ
  horizonMonths : ℕ
  ordered : ∀ days ∈ purgeAfterDays, archiveAfterDays ≤ days
  ahead : 1 ≤ horizonMonths

inductive RetentionError
  | value
  | overflow
  | alreadyExists (name : Text)
  | notLive (name : Text)
  | notArchived (name : Text)
  | noPartition
  deriving DecidableEq

def PartitionWindow.Contains (window : PartitionWindow) (point : Instant) : Prop :=
  (∀ lower ∈ window.lower, lower ≤ point) ∧ point < window.upper

instance (window : PartitionWindow) (point : Instant) : Decidable (window.Contains point) :=
  inferInstanceAs (Decidable (_ ∧ _))

def Covered (windows : List PartitionWindow) (point : Instant) : Prop :=
  ∃ window ∈ windows, window.status = .live ∧ window.Contains point

/-! ### Months -/

def monthNumber (moment : Instant) : ℤ := monthOf (moment / dayLength)

def monthInstant (k : ℤ) : Instant := Lib.monthStart k * dayLength

/-- December 9999. -/
def lastMonth : ℤ := 12 * 9999 + 11

def monthStart (moment : Instant) : Instant := monthInstant (monthNumber moment)

def nextMonthStart (moment : Instant) : Except RetentionError Instant :=
  if lastMonth ≤ monthNumber moment then .error .value else .ok (monthInstant (monthNumber moment + 1))

/-- A number with zeros before it, up to a width. -/
def padded (width n : ℕ) : Text := List.replicate (width - (decimal n).length) 48 ++ decimal n

/-- `audit_events_p<YYYY>_<MM>`. -/
def monthName (k : ℤ) : Text :=
  Text.lit "audit_events_p" ++ padded 4 (k / 12).toNat ++ 95 :: padded 2 (k % 12 + 1).toNat

def legacyPartitionName : Text := Text.lit "audit_events_p_legacy"

def partitionName (periodStart : Instant) : Except RetentionError Text :=
  if periodStart ≠ monthStart periodStart then .error .value else .ok (monthName (monthNumber periodStart))

theorem monthInstant_strictMono : StrictMono monthInstant := by
  intro k k' less
  have days := monthStart_strictMono less
  exact mul_lt_mul_of_pos_right days (by decide)

theorem monthInstant_le (moment : Instant) : monthInstant (monthNumber moment) ≤ moment := by
  have spec := (monthOf_spec (moment / dayLength)).1
  unfold monthInstant monthNumber
  exact (Int.le_ediv_iff_mul_le (by decide)).mp spec

theorem lt_monthInstant (moment : Instant) : moment < monthInstant (monthNumber moment + 1) := by
  have spec := (monthOf_spec (moment / dayLength)).2
  unfold monthInstant monthNumber
  exact (Int.ediv_lt_iff_lt_mul (by decide)).mp spec

variable {k : ℤ} {live : List PartitionWindow} {point : Instant}

theorem monthNumber_eq {moment : Instant} (start : monthInstant k ≤ moment)
    (stop : moment < monthInstant (k + 1)) : monthNumber moment = k := by
  have above := monthInstant_strictMono.lt_iff_lt.mp (start.trans_lt (lt_monthInstant moment))
  have below := monthInstant_strictMono.lt_iff_lt.mp ((monthInstant_le moment).trans_lt stop)
  omega

@[simp]
theorem monthNumber_monthInstant (k : ℤ) : monthNumber (monthInstant k) = k :=
  monthNumber_eq le_rfl (monthInstant_strictMono (Int.lt_succ k))

theorem monthNumber_mono {early late : Instant} (later : early ≤ late) : monthNumber early ≤ monthNumber late := by
  have below := monthInstant_strictMono.lt_iff_lt.mp ((monthInstant_le early).trans_lt
    (later.trans_lt (lt_monthInstant late)))
  omega

theorem partitionName_monthInstant (k : ℤ) : partitionName (monthInstant k) = .ok (monthName k) := by
  unfold partitionName monthStart
  rw [monthNumber_monthInstant, if_neg (not_not_intro rfl)]

/-! ### The rules -/

section Rules

variable (now : Instant) (existing : List PartitionWindow) (policy : RetentionPolicy)

/-- The loop of `plan_missing_partitions`, from a month on. -/
def planFrom (already : List Text) : ℕ → Instant → Except RetentionError (List PartitionWindow)
  | 0, _ => .ok []
  | n + 1, periodStart => do
    let periodEnd ← nextMonthStart periodStart
    let name ← partitionName periodStart
    let rest ← planFrom already n periodEnd
    .ok (if name ∈ already then rest else ⟨name, some periodStart, periodEnd, .live⟩ :: rest)

def planMissingPartitions : Except RetentionError (List PartitionWindow) :=
  planFrom (existing.map PartitionWindow.name) (policy.horizonMonths + 1) (monthStart now)

/-- `now - timedelta(days=...)`: no `datetime` is before the year 1. -/
def daysBefore (days : ℕ) : Except RetentionError Instant :=
  if now - days * dayLength < dayLength then .error .overflow else .ok (now - days * dayLength)

/-- `due.sort(key=lambda window: window.upper)`. -/
def oldestFirst (windows : List PartitionWindow) : List PartitionWindow :=
  windows.insertionSort fun a b => a.upper ≤ b.upper

def partitionsDueForArchive : Except RetentionError (List PartitionWindow) := do
  let threshold ← daysBefore now policy.archiveAfterDays
  .ok (oldestFirst (existing.filter fun window => decide (window.status = .live ∧ window.upper ≤ threshold)))

def partitionsDueForPurge : Except RetentionError (List PartitionWindow) :=
  match policy.purgeAfterDays with
  | none => .ok []
  | some days => do
    let threshold ← daysBefore now days
    .ok (oldestFirst (existing.filter fun window => decide (window.status = .archived ∧ window.upper ≤ threshold)))

end Rules

/-! ### The coverage check -/

def latestEnd (live : List PartitionWindow) (point : Instant) : Option Instant :=
  ((live.filter fun window => decide (window.Contains point)).map PartitionWindow.upper).max?

theorem latestEnd_eq_none :
    latestEnd live point = none ↔ ∀ window ∈ live, ¬window.Contains point := by
  unfold latestEnd
  rw [max?_eq_none_iff, map_eq_nil_iff, filter_eq_nil_iff]
  simp

theorem latestEnd_eq_some {next : Instant} (latest : latestEnd live point = some next) :
    ∃ window ∈ live, window.Contains point ∧ window.upper = next := by
  obtain ⟨window, mem, isNext⟩ := mem_map.mp (max?_mem latest)
  rw [mem_filter, decide_eq_true_eq] at mem
  exact ⟨window, mem.1, mem.2, isNext⟩

def endsAfter (live : List PartitionWindow) (point : Instant) : ℕ :=
  live.countP fun window => decide (point < window.upper)

theorem endsAfter_lt {next : Instant} (latest : latestEnd live point = some next) :
    endsAfter live next < endsAfter live point := by
  obtain ⟨window, mem, ⟨-, before⟩, rfl⟩ := latestEnd_eq_some latest
  unfold endsAfter
  rw [countP_eq_length_filter, countP_eq_length_filter]
  have fewer : List.Sublist (live.filter fun other => decide (window.upper < other.upper))
      (live.filter fun other => decide (point < other.upper)) :=
    monotone_filter_right _ fun other later => by
      rw [decide_eq_true_eq] at later ⊢
      exact before.trans later
  refine lt_of_le_of_ne fewer.length_le fun same => ?_
  have inAfter : window ∈ live.filter fun other => decide (point < other.upper) :=
    mem_filter.mpr ⟨mem, decide_eq_true before⟩
  rw [← fewer.eq_of_length same, mem_filter, decide_eq_true_eq] at inAfter
  exact lt_irrefl _ inAfter.2

/-- The loop of `first_uncovered_moment`: from window to window, up to the end. -/
def firstGap (live : List PartitionWindow) (stop point : Instant) : Option Instant :=
  if point < stop then
    match _latest : latestEnd live point with
    | none => some point
    | some next => firstGap live stop next
  else none
  termination_by endsAfter live point
  decreasing_by exact endsAfter_lt _latest

def endOfMonthAhead : ℕ → Instant → Except RetentionError Instant
  | 0, moment => nextMonthStart moment
  | n + 1, moment => do nextMonthStart (← endOfMonthAhead n moment)

def firstUncoveredMoment (now : Instant) (existing : List PartitionWindow) (monthsAhead : ℤ) :
    Except RetentionError (Option Instant) := do
  if monthsAhead < 0 then throw .value
  let stop ← endOfMonthAhead monthsAhead.toNat now
  .ok (firstGap (existing.filter fun window => decide (window.status = .live)) stop now)

def IsFirstGap (covered : Instant → Prop) (start stop : Instant) : Option Instant → Prop
  | none => ∀ moment, start ≤ moment → moment < stop → covered moment
  | some gap => start ≤ gap ∧ gap < stop ∧ ¬covered gap ∧ ∀ moment, start ≤ moment → moment < gap → covered moment

theorem firstGap_spec (live : List PartitionWindow) (stop point : Instant) :
    IsFirstGap (fun moment => ∃ window ∈ live, window.Contains moment) point stop (firstGap live stop point) := by
  fun_induction firstGap live stop point with
  | case1 point before latest =>
    have uncovered : ¬∃ window ∈ live, window.Contains point := by
      rintro ⟨window, mem, inside⟩
      exact latestEnd_eq_none.mp latest window mem inside
    exact ⟨le_rfl, before, uncovered, fun moment from_ upTo => absurd upTo from_.not_gt⟩
  | case2 point before next latest ih =>
    obtain ⟨window, mem, ⟨starts, ends⟩, rfl⟩ := latestEnd_eq_some latest
    have here : ∀ moment, point ≤ moment → moment < window.upper → ∃ window ∈ live, window.Contains moment :=
      fun moment from_ upTo => ⟨window, mem, fun lower isLower => (starts lower isLower).trans from_, upTo⟩
    cases gap : firstGap live stop window.upper with
    | none =>
      rw [gap] at ih
      intro moment from_ upTo
      rcases lt_or_ge moment window.upper with inside | beyond
      · exact here moment from_ inside
      · exact ih moment beyond upTo
    | some found =>
      rw [gap] at ih
      obtain ⟨later, within, uncovered, covered⟩ := ih
      refine ⟨ends.le.trans later, within, uncovered, fun moment from_ upTo => ?_⟩
      rcases lt_or_ge moment window.upper with inside | beyond
      · exact here moment from_ inside
      · exact covered moment beyond upTo
  | case3 point notBefore => exact fun moment from_ upTo => absurd (from_.trans_lt upTo) notBefore

theorem endOfMonthAhead_eq (n : ℕ) (moment : Instant) :
    endOfMonthAhead n moment =
      if lastMonth ≤ monthNumber moment + n then .error .value else .ok (monthInstant (monthNumber moment + n + 1)) := by
  induction n with
  | zero =>
    rw [endOfMonthAhead, nextMonthStart, Nat.cast_zero, add_zero]
  | succ n ih =>
    rw [endOfMonthAhead, ih]
    push_cast
    split_ifs with already beyond beyond
    · rfl
    · omega
    · show nextMonthStart (monthInstant (monthNumber moment + n + 1)) = _
      rw [nextMonthStart, monthNumber_monthInstant, if_pos (by omega)]
    · show nextMonthStart (monthInstant (monthNumber moment + n + 1)) = _
      rw [nextMonthStart, monthNumber_monthInstant, if_neg (by omega)]
      rw [add_assoc (monthNumber moment)]

/-- **What the coverage check answers**, for every list of windows: the first uncovered moment up to the end of the
month it looks ahead to, or none; it raises where that is not a number of months, or lies past the last `datetime`. -/
theorem firstUncoveredMoment_spec (now : Instant) (existing : List PartitionWindow) (monthsAhead : ℤ) :
    (monthsAhead < 0 ∨ lastMonth ≤ monthNumber now + monthsAhead) ∧
        firstUncoveredMoment now existing monthsAhead = .error .value ∨
      0 ≤ monthsAhead ∧ ∃ answer, firstUncoveredMoment now existing monthsAhead = .ok answer ∧
        IsFirstGap (Covered existing) now (monthInstant (monthNumber now + monthsAhead + 1)) answer := by
  unfold firstUncoveredMoment
  split_ifs with negative
  · exact .inl ⟨.inl negative, rfl⟩
  · have months : (monthsAhead.toNat : ℤ) = monthsAhead := Int.toNat_of_nonneg (not_lt.mp negative)
    rw [endOfMonthAhead_eq, months]
    split_ifs with beyond
    · exact .inl ⟨.inr beyond, rfl⟩
    · refine .inr ⟨not_lt.mp negative, _, rfl, ?_⟩
      have spec := firstGap_spec (existing.filter fun window => decide (window.status = .live))
        (monthInstant (monthNumber now + monthsAhead + 1)) now
      have same : (fun moment => ∃ window ∈ existing.filter (fun window => decide (window.status = .live)),
          window.Contains moment) = Covered existing := by
        funext moment
        simp [Covered, and_assoc]
      rwa [same] at spec

/-! ### The plan -/

def monthWindow (k : ℤ) : PartitionWindow := ⟨monthName k, some (monthInstant k), monthInstant (k + 1), .live⟩

theorem planFrom_eq {already : List Text} {n : ℕ} {planned : List PartitionWindow}
    (plan : planFrom already n (monthInstant k) = .ok planned) :
    planned = ((List.range n).map fun i : ℕ => monthWindow (k + (i : ℤ))).filter fun window => decide (window.name ∉ already) := by
  induction n generalizing k planned with
  | zero => exact (Except.ok.inj plan).symm
  | succ n ih =>
    rw [planFrom] at plan
    obtain ⟨periodEnd, isEnd, plan⟩ := bind_eq_ok.mp plan
    obtain ⟨name, isName, plan⟩ := bind_eq_ok.mp plan
    obtain ⟨rest, isRest, plan⟩ := bind_eq_ok.mp plan
    rw [partitionName_monthInstant, Except.ok.injEq] at isName
    rw [nextMonthStart, monthNumber_monthInstant] at isEnd
    split_ifs at isEnd with beyond
    rw [Except.ok.injEq] at isEnd
    subst isName isEnd
    have later : (fun i : ℕ => monthWindow (k + 1 + (i : ℤ))) = (fun i : ℕ => monthWindow (k + (i : ℤ))) ∘ Nat.succ := by
      funext i
      rw [Function.comp_apply]
      congr 1
      push_cast
      ring
    have rest_eq := ih isRest
    rw [later, ← map_map] at rest_eq
    rw [range_succ_eq_map, map_cons, Nat.cast_zero, add_zero, ← Except.ok.inj plan]
    have name : (monthWindow k).name = monthName k := rfl
    rw [filter_cons, name, rest_eq]
    by_cases known : monthName k ∈ already
    · simp [known]
    · simp [known, monthWindow]

/-! ### Names -/

theorem toNat_padded (width n : ℕ) : Text.toNat 10 (padded width n) = n := by
  have zeros : ∀ m : ℕ, (List.replicate m 48).foldl (fun sum c => sum * 10 + Text.digit c) 0 = 0 := by
    intro m
    induction m with
    | zero => rfl
    | succ m ih => rw [replicate_succ, foldl_cons]; exact ih
  unfold padded
  show List.foldl _ 0 _ = n
  rw [foldl_append, zeros]
  exact PawBackend.Tools.toNat_decimal n

theorem isDigit_of_mem_padded {width n c : ℕ} (mem : c ∈ padded width n) : Text.isDigit c = true := by
  unfold padded at mem
  rcases mem_append.mp mem with zero | digit
  · rw [eq_of_mem_replicate zero]
    rfl
  · exact PawBackend.Tools.isDigit_of_mem_decimal digit

theorem monthName_injective {k' : ℤ} (nonneg : 0 ≤ k) (nonneg' : 0 ≤ k') (same : monthName k = monthName k') : k = k' := by
  unfold monthName at same
  rw [append_assoc, append_assoc, append_cancel_left_eq] at same
  have year : ∀ j : ℤ, (padded 4 (j / 12).toNat ++ 95 :: padded 2 (j % 12 + 1).toNat).takeWhile (fun c => decide (c ≠ 95)) =
      padded 4 (j / 12).toNat := by
    intro j
    rw [takeWhile_append_of_pos, takeWhile_cons_of_neg (by simp), append_nil]
    intro c mem
    have digit := isDigit_of_mem_padded mem
    simp only [Text.isDigit, decide_eq_true_eq] at digit ⊢
    omega
  have years : padded 4 (k / 12).toNat = padded 4 (k' / 12).toNat := by
    rw [← year k, same, year k']
  rw [years, append_cancel_left_eq, List.cons.injEq] at same
  have sameYear := congrArg (Text.toNat 10) years
  have sameMonth := congrArg (Text.toNat 10) same.2
  rw [toNat_padded, toNat_padded] at sameYear sameMonth
  omega

theorem legacy_ne_monthName (k : ℤ) : legacyPartitionName ≠ monthName k := by
  intro same
  obtain ⟨c, mem⟩ := exists_mem_of_ne_nil _ (PawBackend.Tools.decimal_ne_nil (k % 12 + 1).toNat)
  have digit := PawBackend.Tools.isDigit_of_mem_decimal mem
  have there : c ∈ legacyPartitionName := by
    rw [same]
    exact mem_append_right _ (mem_cons_of_mem _ (mem_append_right _ mem))
  have noDigits : ∀ c ∈ legacyPartitionName, Text.isDigit c = false := by decide
  exact Bool.eq_false_iff.mp (noDigits c there) digit

end PawBackend.Retention
