/-
**KV-cache based admission** (`compute/concurrency.py`).

Each admitted request reserves its context in tokens out of its model's pool; a class may fill only its share.
-/

import PawBackend.Compute.Domain
import Mathlib.Algebra.Order.BigOperators.Group.List

namespace PawBackend.Compute

def epsilon : ℚ := 1 / 10 ^ 9

/-- The KV pool of a model as admission sees it; capacity 0 is a model without a pool. -/
structure KvState where
  capacityTokens : ℤ
  reservedTokens : ℤ
  sequences : ℕ
  maxSequences : ℕ
  observedFraction : Option ℚ
  reservedByClass : Option (ResourceClass → ℤ) := none

def usableTokens (state : KvState) (cls : ResourceClass) (safety : ℚ)
    (ceilings : ResourceClass → ℚ) : ℤ :=
  ⌊(state.capacityTokens : ℚ) * safety * ceilings cls + epsilon⌋

/-- The sums of `counted_tokens` over the shared classes. -/
structure Counted where
  counted : ℤ
  lower : ℤ
  lowerShare : ℤ

/-- One class's part: its own class and the ones above count as they are, a lower one up to its
share. -/
def Counted.add (state : KvState) (byClass : ResourceClass → ℤ) (rank : ℕ) (safety : ℚ)
    (ceilings : ResourceClass → ℚ) (sums : Counted) (cls : ResourceClass) : Counted :=
  let tokens := byClass cls
  if classRank cls ≤ rank then { sums with counted := sums.counted + tokens }
  else
    let share := usableTokens state cls safety ceilings
    { sums with
      lower := sums.lower + min tokens share
      lowerShare := max sums.lowerShare share }

def countedTokens (state : KvState) (cls : ResourceClass) (safety : ℚ)
    (ceilings : ResourceClass → ℚ) : ℤ :=
  match state.reservedByClass with
  | none => state.reservedTokens
  | some byClass =>
    let sums := sharedClasses.foldl (Counted.add state byClass (classRank cls) safety ceilings)
      ⟨0, 0, 0⟩
    sums.counted + min sums.lower sums.lowerShare

/-- What counts as used: the larger of the reservations and what the runtime reports. -/
def usedTokens (state : KvState) (cls : ResourceClass) (safety : ℚ)
    (ceilings : ResourceClass → ℚ) : ℤ :=
  let observed := match state.observedFraction with
    | none => 0
    | some fraction => ⌈(state.capacityTokens : ℚ) * fraction - epsilon⌉
  max (countedTokens state cls safety ceilings) observed

/-- `none` when a request of `tokens` fits now, else why not. -/
def kvRefusal (state : KvState) (tokens : ℤ) (cls : ResourceClass) (safety : ℚ)
    (ceilings : ResourceClass → ℚ) : Option Refusal :=
  if state.maxSequences ≤ state.sequences then some .sequencesFull
  else if state.capacityTokens = 0 then none
  else if usableTokens state cls safety ceilings <
      usedTokens state cls safety ceilings + tokens then some .kvFull
  else none

/-- A pool with at least as much reserved in every class and at least as many sequences. -/
structure KvState.Fuller (state later : KvState) : Prop where
  capacity : later.capacityTokens = state.capacityTokens
  maxSequences : later.maxSequences = state.maxSequences
  observed : later.observedFraction = state.observedFraction
  sequences : state.sequences ≤ later.sequences
  byClass : ∃ before after, state.reservedByClass = some before ∧
    later.reservedByClass = some after ∧ ∀ cls, before cls ≤ after cls

variable {state later : KvState}

theorem KvState.Fuller.refl {byClass : ResourceClass → ℤ}
    (given : state.reservedByClass = some byClass) : state.Fuller state :=
  ⟨rfl, rfl, rfl, le_rfl, byClass, byClass, given, given, fun _ => le_rfl⟩

theorem KvState.Fuller.trans {last : KvState} (first : state.Fuller later)
    (second : later.Fuller last) : state.Fuller last := by
  obtain ⟨before, middle, hBefore, hMiddle, le⟩ := first.byClass
  obtain ⟨middle', after, hMiddle', hAfter, le'⟩ := second.byClass
  obtain rfl := Option.some.inj (hMiddle.symm.trans hMiddle')
  exact ⟨second.capacity.trans first.capacity, second.maxSequences.trans first.maxSequences,
    second.observed.trans first.observed, first.sequences.trans second.sequences, before, after,
    hBefore, hAfter, fun cls => (le cls).trans (le' cls)⟩

theorem KvState.Fuller.usable (fuller : state.Fuller later)
    (cls : ResourceClass) (safety : ℚ) (ceilings : ResourceClass → ℚ) :
    usableTokens later cls safety ceilings = usableTokens state cls safety ceilings := by
  unfold usableTokens
  rw [fuller.capacity]

theorem foldl_counted_mono (fuller : state.Fuller later)
    {before after : ResourceClass → ℤ} (le : ∀ cls, before cls ≤ after cls) (rank : ℕ) (safety : ℚ)
    (ceilings : ResourceClass → ℚ) (classes : List ResourceClass) :
    ∀ first second : Counted, first.counted ≤ second.counted → first.lower ≤ second.lower →
      first.lowerShare = second.lowerShare →
      let one := classes.foldl (Counted.add state before rank safety ceilings) first
      let two := classes.foldl (Counted.add later after rank safety ceilings) second
      one.counted ≤ two.counted ∧ one.lower ≤ two.lower ∧ one.lowerShare = two.lowerShare := by
  induction classes with
  | nil => exact fun _ _ counted lower share => ⟨counted, lower, share⟩
  | cons cls classes ih =>
    intro first second counted lower share
    have step := le cls
    have usable := fuller.usable cls safety ceilings
    rw [List.foldl_cons, List.foldl_cons]
    apply ih
    · unfold Counted.add
      split_ifs <;> dsimp only <;> omega
    · unfold Counted.add
      split_ifs <;> dsimp only <;> omega
    · unfold Counted.add
      split_ifs <;> dsimp only
      · exact share
      · rw [share, usable]

theorem countedTokens_mono (fuller : state.Fuller later)
    (cls : ResourceClass) (safety : ℚ) (ceilings : ResourceClass → ℚ) :
    countedTokens state cls safety ceilings ≤ countedTokens later cls safety ceilings := by
  obtain ⟨before, after, hBefore, hAfter, le⟩ := fuller.byClass
  unfold countedTokens
  rw [hBefore, hAfter]
  have sums := foldl_counted_mono fuller le (classRank cls) safety ceilings sharedClasses
    ⟨0, 0, 0⟩ ⟨0, 0, 0⟩ le_rfl le_rfl rfl
  dsimp only at sums ⊢
  omega

theorem kvRefusal_capacity {tokens : ℤ} {cls : ResourceClass} {safety : ℚ}
    {ceilings : ResourceClass → ℚ} {refusal : Refusal}
    (refused : kvRefusal state tokens cls safety ceilings = some refusal) :
    refusal.capacity = true := by
  unfold kvRefusal at refused
  split_ifs at refused <;> cases refused <;> rfl

theorem kvRefusal_mono (fuller : state.Fuller later) (tokens : ℤ)
    (cls : ResourceClass) (safety : ℚ) (ceilings : ResourceClass → ℚ)
    (refused : kvRefusal state tokens cls safety ceilings ≠ none) :
    kvRefusal later tokens cls safety ceilings ≠ none := by
  have counted := countedTokens_mono fuller cls safety ceilings
  have used : usedTokens state cls safety ceilings ≤ usedTokens later cls safety ceilings := by
    unfold usedTokens
    rw [fuller.observed, fuller.capacity]
    exact max_le_max_right _ counted
  unfold kvRefusal at refused ⊢
  rw [fuller.capacity, fuller.maxSequences, fuller.usable cls safety ceilings]
  have sequences := fuller.sequences
  by_cases full : state.maxSequences ≤ later.sequences
  · rw [if_pos full]
    exact Option.some_ne_none _
  · have notFull : ¬ state.maxSequences ≤ state.sequences := fun h => full (h.trans sequences)
    rw [if_neg notFull] at refused
    rw [if_neg full]
    by_cases pool : state.capacityTokens = 0
    · rw [if_pos pool] at refused
      exact absurd rfl refused
    · rw [if_neg pool] at refused ⊢
      by_cases fits : usableTokens state cls safety ceilings <
          usedTokens state cls safety ceilings + tokens
      · rw [if_pos (by omega)]
        exact Option.some_ne_none _
      · rw [if_neg fits] at refused
        exact absurd rfl refused

end PawBackend.Compute
