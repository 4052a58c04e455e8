/-
**What a slot and its row say of each other, in every run** (`connections/session_slot.py`, `connections/store.py`).

`session_slot_exclusive`: a slot that `confirm` would not refuse at once has its row, so two of them are never on one
connection; the row of a connection changes hands only by an acquisition of an expired unbound row and by a takeover
of an expired bound one; and a slot that was refused a `confirm` never confirms again.
-/

import PawBackend.Connections.SlotHolding

namespace PawBackend.Connections

open Lib
open Tools (Instant Uuid)

namespace SlotWorld

def confirming (w : SlotWorld) (holder : Uuid) : SlotEvent → Bool
  | .answer i => w.flights[i]?.any fun flight =>
      decide (flight.statement.holder = holder ∧ flight.errand = some .confirm) && flight.reply.any LeaseReply.found
  | _ => false

/-- A slot whose session may go on, as far as the slot itself can tell. -/
def Believes (w : SlotWorld) (slot : Slot) : Prop := slot.stage = .held ∧ ¬slot.Refuses (w.clock slot.toSlotSetup)

/-- A connection has one row, and a slot that believes to hold it does. -/
structure Exclusive (w : SlotWorld) : Prop where
  single : ∀ row ∈ w.tables.leases.rows, ∀ row' ∈ w.tables.leases.rows, row.kind = row'.kind → row = row'
  held : ∀ slot ∈ w.slots.rows, w.Believes slot →
    ∃ row ∈ w.tables.leases.rows, row.kind = slot.kind ∧ row.holder = slot.holder ∧ w.now < row.expiresAt
  apart : ∀ slot ∈ w.slots.rows, ∀ slot' ∈ w.slots.rows, w.Believes slot → w.Believes slot' → slot.kind = slot'.kind →
    slot = slot'

structure Follows (w : SlotWorld) (e : SlotEvent) (w' : SlotWorld) : Prop where
  handedOver : ∀ row ∈ w.tables.leases.rows, ∀ row' ∈ w'.tables.leases.rows, row.kind = row'.kind →
    row.holder ≠ row'.holder → row.expiresAt ≤ w.now ∧ ∃ s ttl, w.executing e = some s ∧ s.kind = row.kind ∧
      s.holder = row'.holder ∧ s.order = if row.binding = none then .acquire ttl else .takeOver row.holder ttl
  deleted : ∀ row ∈ w.tables.leases.rows, (∀ row' ∈ w'.tables.leases.rows, row'.kind ≠ row.kind) →
    ∃ s, w.executing e = some s ∧ s.kind = row.kind ∧ s.holder = row.holder ∧ s.order.drops = true
  /-- A statement of one who does not hold the row, and asks for no new lease, changes nothing. -/
  former : ∀ s, w.executing e = some s → s.order.seizes = false →
    (∀ row ∈ w.tables.leases.rows, row.kind = s.kind → row.holder ≠ s.holder) → w'.tables = w.tables
  /-- The expected version does not decrease while the row is there, and its session stays. -/
  versions : ∀ row ∈ w.tables.leases.rows, ∀ row' ∈ w'.tables.leases.rows, row.kind = row'.kind → row.Continues row'
  fenced : ∀ slot ∈ w.slots.rows, slot.fenced = true → w.confirming slot.holder e = false ∧
    ∃ slot' ∈ w'.slots.rows, slot'.holder = slot.holder ∧ slot'.fenced = true

section Rows

variable {w w' : SlotWorld} {e : SlotEvent}

theorem mem_leases {t : LeaseTables} {row : LeaseRow} : row ∈ t.leases.rows ↔ t.lease row.kind = some row :=
  ⟨fun mem => Keyed.get_self mem, fun found => Keyed.mem_of_get found⟩

theorem Fine.exclusive (fine : w.Fine) : w.Exclusive := by
  have single : ∀ row ∈ w.tables.leases.rows, ∀ row' ∈ w.tables.leases.rows, row.kind = row'.kind → row = row' :=
    fun row first row' second same => w.tables.leases.eq_of_key_eq first second same
  have held : ∀ slot ∈ w.slots.rows, w.Believes slot →
      ∃ row ∈ w.tables.leases.rows, row.kind = slot.kind ∧ row.holder = slot.holder ∧ w.now < row.expiresAt := by
    intro slot mem believes
    have covers := (fine.slot (Keyed.get_self mem)).covered believes.1
    obtain ⟨row, found, isHolder, lasts⟩ := covers.2 (lt_of_not_ge fun passed => believes.2 (.inr passed))
    refine ⟨row, Keyed.mem_of_get found, Keyed.key_of_get found, isHolder, ?_⟩
    have early : w.now + slot.offset < slot.confirmed + slot.timing.ttl :=
      lt_of_not_ge fun passed => believes.2 (.inr passed)
    linarith
  refine ⟨single, held, fun slot mem slot' member' believes believes' same => ?_⟩
  obtain ⟨row, isRow, isKind, isHolder, -⟩ := held slot mem believes
  obtain ⟨row', isRow', isKind', isHolder', -⟩ := held slot' member' believes'
  have sameRow := single row isRow row' isRow' (isKind.trans (same.trans isKind'.symm))
  exact w.slots.eq_of_key_eq mem member' (isHolder.symm.trans (sameRow ▸ isHolder'))

theorem Moves.row (moves : w.Moves e w') (kind : ConnectionKind) :
    w'.tables.lease kind = w.tables.lease kind ∨ ∃ s, w.executing e = some s ∧ s.kind = kind ∧
      LeaseChange w.now s (w.tables.lease kind) (w'.tables.lease kind) := by
  rcases moves.tables with ⟨-, same⟩ | ⟨s, executes, after⟩
  · exact .inl (by rw [same])
  rcases execute_spec s w.now w.tables with nothing | ⟨-, row, change, replaces⟩
  · exact .inl (by rw [after, nothing])
  by_cases isKind : s.kind = kind
  · have here := replaces kind
    rw [if_pos isKind.symm] at here
    refine .inr ⟨s, executes, isKind, ?_⟩
    rw [after, here, ← isKind]
    exact change
  · exact .inl (by rw [after, replaces, if_neg fun same => isKind same.symm])

theorem Moves.follows (moves : w.Moves e w') (fine : w.Fine) : w.Follows e w' where
  handedOver row mem row' member' same other := by
    have before := mem_leases.mp mem
    have after := mem_leases.mp member'
    rw [← same] at after
    rcases moves.row row.kind with alike | ⟨s, executes, isKind, change⟩
    · rw [alike, before] at after
      cases after
      exact absurd rfl other
    rw [before, after] at change
    cases change with
    | acquired order free =>
      obtain ⟨expired, unbound⟩ := free row rfl
      exact ⟨expired, s, _, executes, isKind, rfl, by rw [if_pos unbound]; exact order⟩
    | takenOver order expired bound =>
      exact ⟨expired, s, _, executes, isKind, rfl, by rw [if_neg (by rw [bound]; exact Option.some_ne_none _)]; exact order⟩
    | written named alike _ _ _ _ => exact absurd alike.symm other
  deleted row mem gone := by
    have before := mem_leases.mp mem
    rcases moves.row row.kind with alike | ⟨s, executes, isKind, change⟩
    · exact absurd rfl (gone row (Keyed.mem_of_get (alike.trans before)))
    have after : w'.tables.lease row.kind = none := by
      refine Keyed.get_eq_none.mpr fun row' member' => gone row' member'
    rw [before, after] at change
    cases change with
    | deleted named drops => exact ⟨s, executes, isKind, named.symm, drops⟩
  former s executes plain former := by
    rcases moves.tables with ⟨idle, -⟩ | ⟨s', executes', after⟩
    · rw [idle] at executes
      cases executes
    · rw [executes'] at executes
      cases executes
      rw [after]
      exact execute_of_former plain fun row found =>
        former row (Keyed.mem_of_get found) (Keyed.key_of_get found)
  versions row mem row' member' same := by
    have before := mem_leases.mp mem
    have after := mem_leases.mp member'
    rw [← same] at after
    rcases moves.row row.kind with alike | ⟨s, -, -, change⟩
    · rw [alike, before] at after
      cases after
      exact LeaseRow.continues_same rfl
    rw [before, after] at change
    cases change with
    | acquired _ free =>
      intro binding isBinding
      rw [(free row rfl).2] at isBinding
      cases isBinding
    | takenOver _ _ bound =>
      intro binding isBinding
      rw [bound] at isBinding
      cases isBinding
      exact ⟨_, rfl, rfl, le_rfl⟩
    | written _ _ _ _ _ continues => exact continues
  fenced slot mem isFenced := by
    have known : w.slots.get slot.holder = some slot := Keyed.get_self mem
    constructor
    · refine Bool.eq_false_iff.mpr fun confirms => ?_
      cases e with
      | answer i =>
        obtain ⟨flight, found, answers⟩ := (Option.any_eq_true _ _).mp confirms
        rw [Bool.and_eq_true, decide_eq_true_eq] at answers
        obtain ⟨⟨ofSlot, asked⟩, -⟩ := answers
        have open_ := (fine.flights flight (List.mem_of_getElem? found) slot (ofSlot ▸ known)).confirming asked
        rw [isFenced] at open_
        cases open_
      | _ => cases confirms
    · obtain ⟨slot', there, stays⟩ := moves.fenced slot.holder slot known isFenced
      exact ⟨slot', Keyed.mem_of_get there, holder_of_get there, stays⟩

end Rows

end SlotWorld

/-- At most one session uses an exclusive connection: in every run, a slot whose session may go on has the one row of
its connection, unexpired; the row changes hands only by an acquisition of it unbound and expired or a takeover of it
bound and expired; and a slot that was refused never confirms again. -/
theorem session_slot_exclusive {w : SlotWorld} (reach : slotMachine.Reachable w) :
    w.Exclusive ∧ ∀ e w', slotMachine.step w e = some w' → w.Follows e w' := by
  have fine := SlotWorld.fine_of_reachable reach
  exact ⟨fine.exclusive, fun e w' taken => (fine.step taken).follows fine⟩

/-! ### A slot that was lost and confirms -/

def serviceTiming : SlotTiming where
  ttl := 300 * 10 ^ 6
  heartbeat := 10 * 10 ^ 6
  margin := 240 * 10 ^ 6
  positive := by decide
  early := by decide

def noSlots : SlotWorld where
  tables := ⟨.empty, .empty⟩
  now := 0
  slots := .empty
  keepers := .empty
  flights := []

/-- A slot is acquired; no renewal is answered for a minute, the session is stopped, and its write-back confirms. -/
def lostEvents : List SlotEvent :=
  [.new 1 .codex serviceTiming 0, .acquire 1 (60 * 10 ^ 6), .execute 0, .answer 0, .tick (10 * 10 ^ 6), .beat 1,
    .tick (50 * 10 ^ 6), .fail 0 false, .beat 1, .confirm 1, .execute 1]

theorem initial_noSlots : slotMachine.initial noSlots := ⟨rfl, rfl, rfl, rfl⟩

theorem lost_ends : (slotMachine.run noSlots lostEvents).any (fun w =>
    (w.slots.get 1).any (fun slot =>
      slot.lost && decide (slot.stage = .held ∧ ¬slot.Refuses (w.clock slot.toSlotSetup)) &&
        w.confirming 1 (.answer 1)) &&
      (slotMachine.step w (.answer 1)).isSome) = true := by
  decide

theorem lost_run : ∃ w w' slot, slotMachine.Reachable w ∧ w.slots.get 1 = some slot ∧ slot.lost = true ∧ w.Believes slot ∧
    w.confirming 1 (.answer 1) = true ∧ slotMachine.step w (.answer 1) = some w' := by
  obtain ⟨w, ran, ends⟩ := (Option.any_eq_true _ _).mp lost_ends
  rw [Bool.and_eq_true] at ends
  obtain ⟨slot, there, state⟩ := (Option.any_eq_true _ _).mp ends.1
  rw [Bool.and_eq_true, Bool.and_eq_true, decide_eq_true_eq] at state
  obtain ⟨w', taken⟩ := Option.isSome_iff_exists.mp ends.2
  exact ⟨w, w', slot, Machine.Reachable.run (.start initial_noSlots) ran, there, state.1.1, state.1.2, state.2, taken⟩

theorem session_slot_exclusive_sample : ∃ w w' slot, slotMachine.Reachable w ∧ slot ∈ w.slots.rows ∧ w.Believes slot ∧
    w.Exclusive ∧ w.Follows (.answer 1) w' := by
  obtain ⟨w, w', slot, reach, there, -, believes, -, taken⟩ := lost_run
  have exclusive := session_slot_exclusive reach
  exact ⟨w, w', slot, reach, Keyed.mem_of_get there, believes, exclusive.1, exclusive.2 _ _ taken⟩

/-- A slot that reported `lost` may confirm once more: its deadline comes before the one that `confirm` asks for. -/
theorem lost_slot_confirms : ¬∀ w, slotMachine.Reachable w → ∀ slot ∈ w.slots.rows, slot.lost = true →
    ∀ e w', slotMachine.step w e = some w' → w.confirming slot.holder e = false := by
  intro never
  obtain ⟨w, w', slot, reach, there, isLost, -, confirms, taken⟩ := lost_run
  have refused := never w reach slot (Keyed.mem_of_get there) isLost _ w' taken
  rw [SlotWorld.holder_of_get there, confirms] at refused
  cases refused

end PawBackend.Connections
