/-
**Which entry is newer** (`memory/journal/rules.py`: `OrderKey`, `is_newer`).

Inside a conversation the sequence decides, across conversations the time (`OrderKey.moment`). Where the clock stepped
back inside a conversation, an entry of another one may lie between two of its entries: then each of the three is newer
than the next (`clock_cycle`), and which of them is the newest depends on how they are compared.
-/

import PawBackend.Memory.ConsolidationRuns

namespace PawBackend.Memory

open Lib
open Tools (Uuid Instant uuidText uuidText_injective)

structure EntryKeys where
  keys : Set OrderKey
  distinct : ∀ a ∈ keys, ∀ b ∈ keys, a.conversationId = b.conversationId → a.eventSequence = b.eventSequence → a = b

namespace EntryKeys

variable (entries : EntryKeys)

/-- `isNewer` orders the entries. -/
structure StrictTotal : Prop where
  irrefl : ∀ a ∈ entries.keys, isNewer a a = false
  asymm : ∀ a ∈ entries.keys, ∀ b ∈ entries.keys, isNewer a b = true → isNewer b a = false
  trans : ∀ a ∈ entries.keys, ∀ b ∈ entries.keys, ∀ c ∈ entries.keys,
    isNewer a b = true → isNewer b c = true → isNewer a c = true
  total : ∀ a ∈ entries.keys, ∀ b ∈ entries.keys, a ≠ b → isNewer a b = true ∨ isNewer b a = true

end EntryKeys

def OrderKey.moment (order : OrderKey) : ℤ ×ₗ Text := toLex (order.recordedAt, uuidText order.conversationId)

/-- An entry of another conversation lies between two entries of one whose times run against their sequence. -/
def EntryKeys.SteppedBack (entries : EntryKeys) : Prop :=
  ∃ a ∈ entries.keys, ∃ b ∈ entries.keys, ∃ c ∈ entries.keys, a.conversationId = b.conversationId ∧
    c.conversationId ≠ a.conversationId ∧ a.eventSequence < b.eventSequence ∧ b.moment < c.moment ∧ c.moment < a.moment

variable {a b c : OrderKey}

theorem isNewer_same (same : a.conversationId = b.conversationId) :
    isNewer a b = true ↔ b.eventSequence < a.eventSequence := by
  unfold isNewer
  rw [if_pos same, decide_eq_true_eq]

theorem isNewer_other (other : a.conversationId ≠ b.conversationId) : isNewer a b = true ↔ b.moment < a.moment := by
  unfold isNewer OrderKey.moment
  rw [if_neg other, decide_eq_true_eq, Prod.Lex.toLex_lt_toLex]

theorem moment_ne (other : a.conversationId ≠ b.conversationId) : a.moment ≠ b.moment := by
  intro same
  unfold OrderKey.moment at same
  exact other (uuidText_injective (Prod.mk.inj (toLex.injective same)).2)

theorem moment_lt_of_not (other : a.conversationId ≠ b.conversationId) (notNewer : ¬ isNewer a b = true) :
    a.moment < b.moment := by
  rw [isNewer_other other, not_lt] at notNewer
  exact lt_of_le_of_ne notNewer (moment_ne other)

theorem isNewer_asymm (newer : isNewer a b = true) : isNewer b a = false := by
  rw [← Bool.not_eq_true]
  by_cases same : a.conversationId = b.conversationId
  · rw [isNewer_same same] at newer
    rw [isNewer_same same.symm]
    exact Nat.lt_asymm newer
  · rw [isNewer_other same] at newer
    rw [isNewer_other (Ne.symm same)]
    exact lt_asymm newer

namespace EntryKeys

variable {entries : EntryKeys}

theorem total (isA : a ∈ entries.keys) (isB : b ∈ entries.keys) (ne : a ≠ b) :
    isNewer a b = true ∨ isNewer b a = true := by
  by_cases same : a.conversationId = b.conversationId
  · rw [isNewer_same same, isNewer_same same.symm]
    have apart : a.eventSequence ≠ b.eventSequence := fun equal => ne (entries.distinct a isA b isB same equal)
    exact (Nat.lt_or_gt_of_ne apart).symm
  · rw [isNewer_other same, isNewer_other (Ne.symm same)]
    exact (lt_or_gt_of_ne (moment_ne same)).symm

theorem trans_of_not_steppedBack (forward : ¬ entries.SteppedBack) (isA : a ∈ entries.keys) (isB : b ∈ entries.keys)
    (isC : c ∈ entries.keys) (first : isNewer a b = true) (second : isNewer b c = true) : isNewer a c = true := by
  by_contra notNewer
  by_cases ab : a.conversationId = b.conversationId
  · rw [isNewer_same ab] at first
    by_cases bc : b.conversationId = c.conversationId
    · rw [isNewer_same bc] at second
      exact notNewer ((isNewer_same (ab.trans bc)).mpr (Nat.lt_trans second first))
    · have ac : a.conversationId ≠ c.conversationId := fun same => bc (ab.symm.trans same)
      rw [isNewer_other bc] at second
      exact forward ⟨b, isB, a, isA, c, isC, ab.symm, Ne.symm bc, first, moment_lt_of_not ac notNewer, second⟩
  · rw [isNewer_other ab] at first
    by_cases bc : b.conversationId = c.conversationId
    · have ac : a.conversationId ≠ c.conversationId := fun same => ab (same.trans bc.symm)
      rw [isNewer_same bc] at second
      exact forward ⟨c, isC, b, isB, a, isA, bc.symm, ac, second, first, moment_lt_of_not ac notNewer⟩
    · rw [isNewer_other bc] at second
      by_cases ac : a.conversationId = c.conversationId
      · rw [isNewer_same ac, not_lt] at notNewer
        have apart : a.eventSequence ≠ c.eventSequence := by
          intro equal
          rw [entries.distinct a isA c isC ac equal] at first
          exact lt_asymm first second
        exact forward ⟨a, isA, c, isC, b, isB, ac, Ne.symm ab, Nat.lt_of_le_of_ne notNewer apart, second, first⟩
      · exact notNewer ((isNewer_other ac).mpr (lt_trans second first))

/-- **`isNewer` is a strict total order** on entries exactly where none of another conversation lies between two of one
whose times run against their sequence. -/
theorem isNewer_strictTotal_iff (entries : EntryKeys) : entries.StrictTotal ↔ ¬ entries.SteppedBack := by
  constructor
  · rintro ordered ⟨a, isA, b, isB, c, isC, ab, ca, sequence, first, second⟩
    have newer : isNewer b a = true := (isNewer_same ab.symm).mpr sequence
    have acNewer : isNewer a c = true := (isNewer_other (Ne.symm ca)).mpr second
    have cbNewer : isNewer c b = true := (isNewer_other (fun same => ca (same.trans ab.symm))).mpr first
    have back := ordered.trans a isA c isC b isB acNewer cbNewer
    rw [ordered.asymm b isB a isA newer] at back
    cases back
  · intro forward
    exact ⟨fun a _ => isNewer_self a, fun _ _ _ _ => isNewer_asymm,
      fun _ isA _ isB _ isC => trans_of_not_steppedBack forward isA isB isC, fun _ isA _ isB => total isA isB⟩

/-- Two entries of one conversation, the clock stepping back between them, and one of another in between. -/
def steppedEntries : EntryKeys where
  keys := {⟨1, 1, 10⟩, ⟨1, 2, 0⟩, ⟨2, 1, 5⟩}
  distinct := by
    rintro a (rfl | rfl | rfl) b (rfl | rfl | rfl) <;> simp

/-- Each of the three is newer than the next. -/
theorem clock_cycle : ¬ steppedEntries.StrictTotal := by
  intro ordered
  have first : isNewer ⟨1, 2, 0⟩ ⟨1, 1, 10⟩ = true := by decide
  have second : isNewer ⟨1, 1, 10⟩ ⟨2, 1, 5⟩ = true := by decide
  have third : isNewer ⟨2, 1, 5⟩ ⟨1, 2, 0⟩ = true := by decide
  have back := ordered.trans _ (.inr (.inl rfl)) _ (.inl rfl) _ (.inr (.inr rfl)) first second
  rw [ordered.asymm _ (.inr (.inr rfl)) _ (.inr (.inl rfl)) third] at back
  cases back

end EntryKeys

end PawBackend.Memory
