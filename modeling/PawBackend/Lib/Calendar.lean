/-
**Days, months and the clocks of a zone.**

A day is its ordinal in the proleptic Gregorian calendar (day 1 is the first of January of year 1) and an instant a
number of microseconds.
-/

import Mathlib.Data.Int.ConditionallyCompleteOrder
import Mathlib.Tactic.IntervalCases
import Mathlib.Tactic.Linarith

namespace PawBackend.Lib

/-! ### Runs of days -/

/-- The days cut into consecutive runs. -/
structure Periods where
  first : ℤ → ℤ
  following : ℤ → ℤ
  first_le : ∀ d, first d ≤ d
  lt_following : ∀ d, d < following d
  same : ∀ d d', first d ≤ d' → d' < following d → first d' = first d ∧ following d' = following d

namespace Periods

variable (p : Periods)

theorem first_following (d : ℤ) : p.first (p.following d) = p.following d := by
  by_contra other
  have below : p.first (p.following d) < p.following d := lt_of_le_of_ne (p.first_le _) other
  have before : p.following d - 1 < p.following d := by omega
  have atLeast : p.first d ≤ p.following d - 1 := by
    have := p.first_le d
    have := p.lt_following d
    omega
  have here := (p.same d (p.following d - 1) atLeast before).2
  have there := (p.same (p.following d) (p.following d - 1) (by omega)
    (before.trans (p.lt_following _))).2
  have := p.lt_following (p.following d)
  omega

theorem first_mono {d d' : ℤ} (le : d ≤ d') : p.first d ≤ p.first d' := by
  by_contra above
  rw [not_le] at above
  have below : d < p.following d' := le.trans_lt (p.lt_following d')
  have same := (p.same d' d (above.le.trans (p.first_le d)) below).1
  omega

end Periods

def days : Periods where
  first d := d
  following d := d + 1
  first_le _ := le_refl _
  lt_following _ := by omega
  same _ _ _ _ := ⟨by omega, by omega⟩

/-- `date.weekday`: Monday is 0. -/
def weekday (d : ℤ) : ℤ := (d + 6) % 7

/-- From Monday to Monday. -/
def weeks : Periods where
  first d := d - weekday d
  following d := d - weekday d + 7
  first_le d := by unfold weekday; omega
  lt_following d := by unfold weekday; omega
  same d d' := by unfold weekday; omega

/-! ### Months -/

def isLeap (year : ℤ) : Bool := decide (year % 4 = 0 ∧ (year % 100 ≠ 0 ∨ year % 400 = 0))

def daysBeforeYear (year : ℤ) : ℤ := (year - 1) * 365 + (year - 1) / 4 - (year - 1) / 100 + (year - 1) / 400

def daysBeforeMonth (year month : ℤ) : ℤ :=
  (match month with
    | 1 => 0 | 2 => 31 | 3 => 59 | 4 => 90 | 5 => 120 | 6 => 151
    | 7 => 181 | 8 => 212 | 9 => 243 | 10 => 273 | 11 => 304 | _ => 334) +
    if 2 < month ∧ isLeap year = true then 1 else 0

def monthStart (k : ℤ) : ℤ := daysBeforeYear (k / 12) + daysBeforeMonth (k / 12) (k % 12 + 1) + 1

/-- The first day of a month near a guess: the month itself, the one before or the one after. -/
def monthOf (d : ℤ) : ℤ :=
  let guess := (d - 1) * 4800 / 146097 + 12
  if d < monthStart guess then guess - 1 else if monthStart (guess + 1) ≤ d then guess + 1 else guess

theorem monthStart_eq (year : ℤ) {r : ℤ} (nonneg : 0 ≤ r) (small : r < 12) :
    monthStart (12 * year + r) = daysBeforeYear year + daysBeforeMonth year (r + 1) + 1 := by
  unfold monthStart
  rw [show (12 * year + r) / 12 = year by omega, show (12 * year + r) % 12 = r by omega]

theorem monthStart_bounds (k : ℤ) :
    146097 * (k - 12) - 19200 ≤ 4800 * (monthStart k - 1) ∧ 4800 * (monthStart k - 1) ≤ 146097 * (k - 12) + 19200 := by
  obtain ⟨year, r, nonneg, small, rfl⟩ : ∃ year r, 0 ≤ r ∧ r < 12 ∧ k = 12 * year + r :=
    ⟨k / 12, k % 12, by omega, by omega, by omega⟩
  rw [monthStart_eq year nonneg small]
  unfold daysBeforeYear daysBeforeMonth isLeap
  interval_cases r <;> split_ifs <;> simp_all <;> omega

theorem monthStart_lt (k : ℤ) : monthStart k < monthStart (k + 1) := by
  obtain ⟨year, r, nonneg, small, rfl⟩ : ∃ year r, 0 ≤ r ∧ r < 12 ∧ k = 12 * year + r :=
    ⟨k / 12, k % 12, by omega, by omega, by omega⟩
  rw [monthStart_eq year nonneg small]
  by_cases december : r = 11
  · rw [show 12 * year + r + 1 = 12 * (year + 1) + 0 by omega, monthStart_eq (year + 1) le_rfl (by decide), december]
    unfold daysBeforeYear daysBeforeMonth isLeap
    split_ifs <;> simp_all <;> omega
  · rw [show 12 * year + r + 1 = 12 * year + (r + 1) by omega, monthStart_eq year (by omega) (by omega)]
    unfold daysBeforeMonth
    interval_cases r <;> split_ifs <;> simp_all

theorem monthStart_strictMono : StrictMono monthStart := strictMono_int_of_lt_succ monthStart_lt

theorem monthOf_spec (d : ℤ) : monthStart (monthOf d) ≤ d ∧ d < monthStart (monthOf d + 1) := by
  unfold monthOf
  dsimp only
  have before := monthStart_bounds ((d - 1) * 4800 / 146097 + 12 - 1)
  have after := monthStart_bounds ((d - 1) * 4800 / 146097 + 12 + 1 + 1)
  split_ifs with early late
  · rw [sub_add_cancel]
    refine ⟨?_, early⟩
    omega
  · refine ⟨late, ?_⟩
    omega
  · exact ⟨not_lt.mp early, not_le.mp late⟩

theorem monthOf_eq {d k : ℤ} (start : monthStart k ≤ d) (stop : d < monthStart (k + 1)) : monthOf d = k := by
  obtain ⟨start', stop'⟩ := monthOf_spec d
  have above := monthStart_strictMono.lt_iff_lt.mp (start.trans_lt stop')
  have below := monthStart_strictMono.lt_iff_lt.mp (start'.trans_lt stop)
  omega

def months : Periods where
  first d := monthStart (monthOf d)
  following d := monthStart (monthOf d + 1)
  first_le d := (monthOf_spec d).1
  lt_following d := (monthOf_spec d).2
  same d d' start stop := by rw [monthOf_eq start stop]; exact ⟨rfl, rfl⟩

/-! ### Zones -/

def dayLength : ℤ := 24 * 60 * 60 * 10 ^ 6

theorem dayLength_eq : dayLength = 86400000000 := rfl

/-- An offset from UTC that changes at certain instants: `offset n` until the change `n`, `offset (n + 1)` from
it on. The changes come in the same order on the clocks (`wall`). -/
structure Zone where
  change : ℕ → ℤ
  offset : ℕ → ℤ
  increasing : StrictMono change
  bounded : ∀ n, -dayLength < offset n ∧ offset n < dayLength
  ordered : Monotone fun n => change n + max (offset n) (offset (n + 1))

namespace Zone

variable (zone : Zone)

/-- What the clocks show when the later of the two readings of a change is reached. -/
def wall (n : ℕ) : ℤ := zone.change n + max (zone.offset n) (zone.offset (n + 1))

theorem change_ge (n : ℕ) : zone.change 0 + n ≤ zone.change n := by
  induction n with
  | zero => simp
  | succ n ih =>
    have step := zone.increasing (Nat.lt_add_one n)
    push_cast
    omega

theorem exists_change (t : ℤ) : ∃ n, t < zone.change n :=
  ⟨(t - zone.change 0).toNat + 1, by
    have := zone.change_ge ((t - zone.change 0).toNat + 1)
    push_cast at this
    omega⟩

theorem exists_wall (w : ℤ) : ∃ n, w < zone.wall n :=
  ⟨(w + dayLength - zone.change 0).toNat + 1, by
    have := zone.change_ge ((w + dayLength - zone.change 0).toNat + 1)
    have := (zone.bounded ((w + dayLength - zone.change 0).toNat + 1)).1
    have := le_max_left (zone.offset ((w + dayLength - zone.change 0).toNat + 1))
      (zone.offset ((w + dayLength - zone.change 0).toNat + 1 + 1))
    unfold wall
    push_cast at *
    omega⟩

def changesBy (t : ℤ) : ℕ := Nat.find (zone.exists_change t)

def wallChangesBy (w : ℤ) : ℕ := Nat.find (zone.exists_wall w)

def clock (t : ℤ) : ℤ := t + zone.offset (zone.changesBy t)

def toUtc (w : ℤ) : ℤ := w - zone.offset (zone.wallChangesBy w)

def date (t : ℤ) : ℤ := zone.clock t / dayLength

def midnight (d : ℤ) : ℤ := zone.toUtc (d * dayLength)

/-- No change carries the clocks over a midnight. -/
def Clean : Prop :=
  ∀ (n : ℕ) (d : ℤ),
    ¬(zone.change n + min (zone.offset n) (zone.offset (n + 1)) < d * dayLength ∧ d * dayLength < zone.wall n)

variable {zone}

theorem lt_change (t : ℤ) : t < zone.change (zone.changesBy t) := Nat.find_spec (zone.exists_change t)

variable {t d : ℤ} {n : ℕ}

theorem change_le (past : n < zone.changesBy t) : zone.change n ≤ t :=
  not_lt.mp (Nat.find_min (zone.exists_change t) past)

theorem lt_wall (w : ℤ) : w < zone.wall (zone.wallChangesBy w) := Nat.find_spec (zone.exists_wall w)

theorem wall_le {w : ℤ} (past : n < zone.wallChangesBy w) : zone.wall n ≤ w :=
  not_lt.mp (Nat.find_min (zone.exists_wall w) past)

theorem le_clock_of_change (clean : zone.Clean) (later : zone.change n ≤ t)
    (below : d * dayLength < zone.wall n) : d * dayLength ≤ t + zone.offset (n + 1) := by
  have stays := clean n d
  unfold wall at below stays
  rcases le_total (zone.offset n) (zone.offset (n + 1)) with forward | back
  · rw [max_eq_right forward] at below
    omega
  · rw [min_eq_right back] at stays
    omega

/-- **A day has begun when the clocks have reached its midnight**, where no change carries them over one. -/
theorem toUtc_le_iff (clean : zone.Clean) (d t : ℤ) : zone.toUtc (d * dayLength) ≤ t ↔ d * dayLength ≤ zone.clock t := by
  unfold toUtc clock
  have now := zone.lt_change t
  have shown := zone.lt_wall (d * dayLength)
  have happened : ∀ n, n < zone.changesBy t → zone.change n ≤ t := fun n => zone.change_le
  have passed : ∀ n, n < zone.wallChangesBy (d * dayLength) → zone.wall n ≤ d * dayLength := fun n => zone.wall_le
  generalize zone.wallChangesBy (d * dayLength) = j at *
  generalize zone.changesBy t = k at *
  rcases lt_trichotomy j k with fewer | rfl | more
  · -- the change `j` is over, but the clocks did not show its later reading yet at that midnight
    have changed := happened j fewer
    constructor
    · intro _
      obtain ⟨m, rfl⟩ : ∃ m, k = m + 1 := ⟨k - 1, by omega⟩
      have later : zone.wall j ≤ zone.wall m := zone.ordered (Nat.lt_succ_iff.mp fewer)
      exact le_clock_of_change clean (happened m (Nat.lt_succ_self m)) (shown.trans_le later)
    · intro _
      have stays := clean j d
      unfold wall at shown stays
      rcases le_total (zone.offset j) (zone.offset (j + 1)) with forward | back
      · rw [min_eq_left forward] at stays
        omega
      · rw [max_eq_left back] at shown
        omega
  · constructor <;> intro <;> omega
  · have reached := passed k more
    have atLeast := le_max_left (zone.offset k) (zone.offset (k + 1))
    unfold wall at reached
    constructor
    · intro early
      obtain ⟨m, rfl⟩ : ∃ m, j = m + 1 := ⟨j - 1, by omega⟩
      have last := passed m (Nat.lt_succ_self m)
      have here := le_max_right (zone.offset m) (zone.offset (m + 1))
      have later : zone.change k ≤ zone.change m := zone.increasing.monotone (Nat.lt_succ_iff.mp more)
      unfold wall at last
      omega
    · intro _
      omega

theorem midnight_le_iff (clean : zone.Clean) (d t : ℤ) : zone.midnight d ≤ t ↔ d ≤ zone.date t := by
  unfold midnight date
  rw [toUtc_le_iff clean, Int.le_ediv_iff_mul_le (by decide)]

/-! ### Windows of a zone -/

variable (zone) (p : Periods)

/-- When the run of days began that holds an instant. -/
def windowStart (t : ℤ) : ℤ := zone.midnight (p.first (zone.date t))

/-- When it ends. -/
def windowEnd (t : ℤ) : ℤ := zone.midnight (p.following (zone.date t))

variable {zone p}

theorem windowStart_le (clean : zone.Clean) (t : ℤ) : zone.windowStart p t ≤ t :=
  (midnight_le_iff clean _ _).mpr (p.first_le _)

theorem lt_windowEnd (clean : zone.Clean) (t : ℤ) : t < zone.windowEnd p t := by
  rw [windowEnd, ← not_le, midnight_le_iff clean, not_le]
  exact p.lt_following _

theorem midnight_mono (clean : zone.Clean) {d' : ℤ} (le : d ≤ d') : zone.midnight d ≤ zone.midnight d' :=
  (midnight_le_iff clean _ _).mpr (le.trans ((midnight_le_iff clean _ _).mp le_rfl))

theorem windowStart_windowEnd (clean : zone.Clean) (t : ℤ) : zone.windowStart p (zone.windowEnd p t) = zone.windowEnd p t := by
  refine le_antisymm (windowStart_le clean _) ?_
  have reached : p.following (zone.date t) ≤ zone.date (zone.windowEnd p t) := (midnight_le_iff clean _ _).mp le_rfl
  exact midnight_mono clean ((p.first_following _).symm.le.trans (p.first_mono reached))

theorem windowStart_eq (clean : zone.Clean) {x : ℤ} (start : zone.windowStart p t ≤ x) (stop : x < zone.windowEnd p t) :
    zone.windowStart p x = zone.windowStart p t := by
  rw [windowStart, midnight_le_iff clean] at start
  rw [windowEnd, ← not_le, midnight_le_iff clean, not_le] at stop
  rw [windowStart, windowStart, (p.same _ _ start stop).1]

/-! ### Where days are windows -/

def Daily (zone : Zone) : Prop :=
  ∀ t, zone.windowStart days t ≤ t ∧ t < zone.windowEnd days t ∧
    zone.windowStart days (zone.windowEnd days t) = zone.windowEnd days t

/-- The change `n` carries the clocks over no midnight. -/
def CleanAt (zone : Zone) (n : ℕ) : Prop :=
  ∀ d : ℤ, ¬(zone.change n + min (zone.offset n) (zone.offset (n + 1)) < d * dayLength ∧ d * dayLength < zone.wall n)

theorem changesBy_change (n : ℕ) : zone.changesBy (zone.change n) = n + 1 := by
  refine (Nat.find_eq_iff _).mpr ⟨zone.increasing (Nat.lt_succ_self n), fun m less => ?_⟩
  exact not_lt.mpr (zone.increasing.monotone (Nat.lt_succ_iff.mp less))

theorem changesBy_before (n : ℕ) : zone.changesBy (zone.change n - 1) = n := by
  refine (Nat.find_eq_iff _).mpr ⟨by omega, fun m less => ?_⟩
  have earlier := zone.increasing less
  omega

theorem wallChangesBy_le {w : ℤ} (below : w < zone.wall n) : zone.wallChangesBy w ≤ n :=
  Nat.find_le below

theorem midnight_le_change (clean : zone.CleanAt n) (below : d * dayLength < zone.wall n) :
    d * dayLength ≤ zone.change n + zone.offset n ∧ d * dayLength ≤ zone.change n + zone.offset (n + 1) := by
  have reached := not_lt.mp fun early => clean d ⟨early, below⟩
  have first := min_le_left (zone.offset n) (zone.offset (n + 1))
  have second := min_le_right (zone.offset n) (zone.offset (n + 1))
  omega

theorem midnight_of_earlier (clean : ∀ m < n, zone.CleanAt m) (earlier : zone.wallChangesBy (d * dayLength) < n) :
    zone.midnight d < zone.change n := by
  have before := (midnight_le_change (clean _ earlier) (zone.lt_wall _)).1
  have later := zone.increasing earlier
  unfold midnight toUtc
  omega

theorem wallChangesBy_eq (clean : ∀ m < n, zone.CleanAt m)
    (after : zone.change n + zone.offset n ≤ d * dayLength) (below : d * dayLength < zone.wall n) :
    zone.wallChangesBy (d * dayLength) = n := by
  refine le_antisymm (wallChangesBy_le below) (not_lt.mp fun less => ?_)
  obtain ⟨m, rfl⟩ : ∃ m, n = m + 1 := ⟨n - 1, by omega⟩
  have early : d * dayLength < zone.wall m :=
    (zone.lt_wall _).trans_le (zone.ordered (Nat.lt_succ_iff.mp less))
  have before := (midnight_le_change (clean m (Nat.lt_succ_self m)) early).2
  have later := zone.increasing (Nat.lt_add_one m)
  omega

theorem clock_change (n : ℕ) : zone.clock (zone.change n) = zone.change n + zone.offset (n + 1) := by
  rw [clock, changesBy_change]

theorem not_daily_of_back (daily : zone.Daily) (earlier : ∀ m < n, zone.CleanAt m)
    (above : zone.change n + zone.offset (n + 1) < d * dayLength) (below : d * dayLength < zone.change n + zone.offset n)
    (shown : d * dayLength < zone.wall n) : False := by
  have stop : zone.change n < zone.midnight (zone.date (zone.change n) + 1) := (daily (zone.change n)).2.1
  have today : zone.date (zone.change n) + 1 ≤ d := by
    rw [date, clock_change]
    exact Int.add_one_le_iff.mpr (Int.ediv_lt_of_lt_mul (by decide) above)
  have before : (zone.date (zone.change n) + 1) * dayLength ≤ d * dayLength :=
    Int.mul_le_mul_of_nonneg_right today (by decide)
  rcases (wallChangesBy_le (before.trans_lt shown)).lt_or_eq with fewer | same
  · have := midnight_of_earlier earlier fewer
    omega
  · unfold midnight toUtc at stop
    rw [same] at stop
    omega

theorem not_daily_of_forward (daily : zone.Daily) (earlier : ∀ m < n, zone.CleanAt m)
    (above : zone.change n + zone.offset n < d * dayLength) (below : d * dayLength < zone.change n + zone.offset (n + 1))
    (wall : zone.wall n = zone.change n + zone.offset (n + 1)) : False := by
  have late : ∀ d : ℤ, zone.change n + zone.offset n < d * dayLength → d * dayLength < zone.wall n →
      zone.midnight d = d * dayLength - zone.offset n := fun d above below => by
    rw [midnight, toUtc, wallChangesBy_eq earlier above.le below]
  have start : zone.midnight (zone.date (zone.change n)) ≤ zone.change n := (daily (zone.change n)).1
  have isDate : zone.date (zone.change n) = (zone.change n + zone.offset (n + 1)) / dayLength := by
    rw [date, clock_change]
  have skipped := late d above (wall ▸ below)
  have short := (zone.bounded n).1
  have short' := (zone.bounded (n + 1)).2
  -- the change skips the next midnight as well, and ends on it
  obtain ⟨today, reached⟩ : zone.date (zone.change n) = d + 1 ∧ zone.wall n = (d + 1) * dayLength := by
    have notThat : zone.date (zone.change n) ≠ d := fun same => by
      rw [same, skipped] at start
      omega
    have isNext : zone.date (zone.change n) = d + 1 := by
      simp only [dayLength_eq] at *
      omega
    refine ⟨isNext, not_not.mp fun differs => ?_⟩
    have between : zone.change n + zone.offset n < (d + 1) * dayLength ∧ (d + 1) * dayLength < zone.wall n := by
      simp only [dayLength_eq] at *
      omega
    rw [isNext, late (d + 1) between.1 between.2] at start
    simp only [dayLength_eq] at *
    omega
  have before : zone.date (zone.change n - 1) = d - 1 := by
    rw [date, clock, changesBy_before]
    simp only [dayLength_eq] at *
    omega
  have stop : zone.windowEnd days (zone.change n - 1) = zone.midnight d := by
    show zone.midnight (zone.date (zone.change n - 1) + 1) = _
    rw [before, sub_add_cancel]
  have next : zone.midnight (zone.date (zone.midnight d)) = zone.midnight d := stop ▸ (daily (zone.change n - 1)).2.2
  have after : zone.midnight d < zone.midnight (zone.date (zone.midnight d) + 1) := (daily (zone.midnight d)).2.1
  rw [today] at start
  generalize zone.date (zone.midnight d) = k at next after
  have near : k = d - 1 ∨ k = d ∨ k = d + 1 := by
    have low := zone.bounded (zone.wallChangesBy (k * dayLength))
    have same : k * dayLength - zone.offset (zone.wallChangesBy (k * dayLength)) = d * dayLength - zone.offset n := by
      rw [← skipped, ← next, midnight, toUtc]
    have := zone.bounded n
    simp only [dayLength_eq] at *
    omega
  rcases near with rfl | rfl | rfl
  · have inside : (d - 1) * dayLength < zone.wall n := by
      simp only [dayLength_eq] at *
      omega
    rcases (wallChangesBy_le inside).lt_or_eq with fewer | same
    · have := midnight_of_earlier earlier fewer
      omega
    · have here : zone.midnight (d - 1) = (d - 1) * dayLength - zone.offset n := by rw [midnight, toUtc, same]
      simp only [dayLength_eq] at *
      omega
  · omega
  · omega

/-- **The days of a zone are windows exactly where no change carries the clocks over a midnight.** -/
theorem clean_of_daily (daily : zone.Daily) : zone.Clean := by
  have all : ∀ n, zone.CleanAt n := fun n => by
    induction n using Nat.strong_induction_on with
    | h n earlier =>
      intro d ⟨above, below⟩
      have shown := below
      unfold wall at below
      rcases le_total (zone.offset n) (zone.offset (n + 1)) with forward | back
      · rw [min_eq_left forward] at above
        rw [max_eq_right forward] at below
        exact not_daily_of_forward daily earlier above below (by rw [wall, max_eq_right forward])
      · rw [min_eq_right back] at above
        rw [max_eq_left back] at below
        exact not_daily_of_back daily earlier above below shown
  exact all

end Zone

end PawBackend.Lib
