/-
**At most one session uses an exclusive connection** (`connections/session_slot.py`, `connections/store.py`).

`Covers`: the row names the holder until what a statement sent at an instant of its clock asked for has passed.
-/

import PawBackend.Connections.SessionSlot
import PawBackend.Lib.Places

namespace PawBackend.Connections

open Lib List
open Tools (Instant Uuid)

def Errand.confirms : Errand → Bool
  | .acquire | .bind _ | .confirm | .beat => true
  | _ => false

/-- The calls of the session that holds the slot: at most one at a time. -/
def Errand.isCall : Errand → Bool
  | .bind _ | .confirm | .recordVersion | .mark | .release => true
  | _ => false

def Flight.callOf (flight : Flight) (holder : Uuid) : Prop :=
  flight.statement.holder = holder ∧ flight.errand.any Errand.isCall = true

def Flight.Apart (flight other : Flight) : Prop := ∀ holder, flight.callOf holder → ¬other.callOf holder

theorem Flight.Apart.symm (flight other : Flight) (apart : flight.Apart other) : other.Apart flight :=
  fun holder called calls => apart holder calls called

namespace SlotWorld

/-- The row names the holder until what was asked for at an instant of its clock has passed. -/
def Covers (w : SlotWorld) (setup : SlotSetup) (sent : ℤ) : Prop :=
  sent ≤ w.clock setup ∧
    (w.clock setup < sent + setup.timing.ttl →
      ∃ row, w.tables.lease setup.kind = some row ∧ row.holder = setup.holder ∧
        sent + setup.timing.ttl ≤ row.expiresAt + setup.offset)

/-- What a statement of a slot asks for while its session may still use it. -/
def Fits (setup : SlotSetup) (order : LeaseOrder) : Prop :=
  order.drops = false ∧ ∀ ttl ∈ order.ttl, ttl = setup.timing.ttl

structure FlightFine (w : SlotWorld) (slot : Slot) (flight : Flight) : Prop where
  kind : flight.statement.kind = slot.kind
  sent : flight.sent ≤ w.clock slot.toSlotSetup
  fits : slot.stage ≠ .released → Fits slot.toSlotSetup flight.statement.order
  asks : flight.errand.any Errand.confirms = true → flight.statement.order.ttl.isSome = true
  covered : slot.stage ≠ .released → flight.statement.order.ttl.isSome = true → flight.reply.any LeaseReply.found = true →
    w.Covers slot.toSlotSetup flight.sent
  calling : flight.callOf slot.holder → slot.calling = true
  confirming : flight.errand = some .confirm → slot.fenced = false
  marking : flight.errand = some .mark → slot.stage = .released

structure SlotFine (w : SlotWorld) (slot : Slot) : Prop where
  covered : slot.stage = .held → w.Covers slot.toSlotSetup slot.confirmed
  holding : slot.hold ≠ .off → slot.stage = .released

structure Fine (w : SlotWorld) : Prop where
  slots : ∀ holder slot, w.slots.get holder = some slot → w.SlotFine slot
  flights : ∀ flight ∈ w.flights, ∀ slot, w.slots.get flight.statement.holder = some slot → w.FlightFine slot flight
  known : ∀ flight ∈ w.flights, w.isFresh flight.statement.holder = false
  apart : ∀ holder slot, w.slots.get holder = some slot → w.keepers.get holder = none
  calls : w.flights.Pairwise Flight.Apart

/-! ### Worlds with the same rows at the same time -/

section Same

variable {w w' : SlotWorld} {slot : Slot}

theorem Covers.same {setup : SlotSetup} {sent : ℤ} (covers : w.Covers setup sent) (tables : w'.tables = w.tables)
    (now : w'.now = w.now) : w'.Covers setup sent := by
  unfold Covers clock at covers ⊢
  rwa [tables, now]

theorem SlotFine.same (fine : w.SlotFine slot) (tables : w'.tables = w.tables) (now : w'.now = w.now) :
    w'.SlotFine slot :=
  ⟨fun held => (fine.covered held).same tables now, fine.holding⟩

theorem FlightFine.same {flight : Flight} (fine : w.FlightFine slot flight) (tables : w'.tables = w.tables)
    (now : w'.now = w.now) : w'.FlightFine slot flight :=
  { fine with
    sent := by
      have before := fine.sent
      unfold clock at before ⊢
      rwa [now]
    covered := fun inUse asked granted => (fine.covered inUse asked granted).same tables now }

end Same

theorem holder_of_get {w : SlotWorld} {holder : Uuid} {slot : Slot} (there : w.slots.get holder = some slot) :
    slot.holder = holder :=
  Keyed.key_of_get (t := w.slots) there

/-! ### Statements -/

variable {setup : SlotSetup} {flight : Flight} {result : Slot × Sends}

theorem covers_of_le {w : SlotWorld} {a b : ℤ} (first : w.Covers setup a) (second : w.Covers setup b) :
    w.Covers setup (max a b) := by
  rcases max_choice a b with isFirst | isSecond
  · rwa [isFirst]
  · rwa [isSecond]

theorem Covers.tick {w : SlotWorld} {sent : ℤ} (covers : w.Covers setup sent) (elapsed : ℕ) :
    ({ w with now := w.now + elapsed } : SlotWorld).Covers setup sent := by
  have later : w.clock setup ≤ ({ w with now := w.now + elapsed } : SlotWorld).clock setup := by
    unfold clock
    dsimp only
    linarith [Int.natCast_nonneg elapsed]
  exact ⟨covers.1.trans later, fun early => covers.2 (later.trans_lt early)⟩

/-- **No statement takes the row from a holder early**, but one of its own that deletes it. -/
theorem Covers.executed {w : SlotWorld} {sent : ℤ} (covers : w.Covers setup sent)
    {s : LeaseStatement} {flights : List Flight}
    (own : s.holder = setup.holder → Fits setup s.order) :
    ({ w with tables := (s.execute w.now w.tables).1, flights := flights } : SlotWorld).Covers setup sent := by
  refine ⟨covers.1, fun early => ?_⟩
  obtain ⟨row, found, isHolder, lasts⟩ := covers.2 early
  have live : w.now < row.expiresAt := by
    have clock : w.now + setup.offset < sent + setup.timing.ttl := early
    linarith
  rcases execute_spec s w.now w.tables with nothing | ⟨-, after, change, replaces⟩
  · exact ⟨row, by rw [nothing]; exact found, isHolder, lasts⟩
  · by_cases same : setup.kind = s.kind
    · have here := replaces setup.kind
      rw [if_pos same] at here
      rw [← same, found] at change
      cases change with
      | acquired _ free =>
        exact absurd live (free row rfl).1.not_gt
      | takenOver _ expired _ => exact absurd live expired.not_gt
      | written named same' _ _ lasts' _ =>
        refine ⟨_, here, same'.trans isHolder, ?_⟩
        cases asked : s.order.ttl with
        | none =>
          rw [asked] at lasts'
          exact lasts.trans_eq (by rw [lasts']; rfl)
        | some ttl =>
          have isTtl := (own (named.symm.trans isHolder)).2 ttl asked
          have began : sent ≤ w.now + setup.offset := covers.1
          rw [asked] at lasts'
          have newly : _ = w.now + ttl := lasts'
          rw [newly, isTtl]
          linarith
      | deleted named drops =>
        rw [(own (named.symm.trans isHolder)).1] at drops
        cases drops
    · exact ⟨row, by rw [replaces, if_neg same]; exact found, isHolder, lasts⟩

theorem covers_of_execute {w : SlotWorld} {slot : Slot} {flights : List Flight}
    (fine : w.FlightFine slot flight) (isHolder : flight.statement.holder = slot.holder)
    (inUse : slot.stage ≠ .released) (asked : flight.statement.order.ttl.isSome = true)
    (found : (flight.statement.execute w.now w.tables).2.found = true) :
    ({ w with tables := (flight.statement.execute w.now w.tables).1, flights := flights } : SlotWorld).Covers
      slot.toSlotSetup flight.sent := by
  obtain ⟨ttl, isTtl⟩ := Option.isSome_iff_exists.mp asked
  obtain ⟨row, there, named, lasts⟩ := lease_of_execute isTtl found
  refine ⟨fine.sent, fun _ => ⟨row, fine.kind ▸ there, named.trans isHolder, ?_⟩⟩
  have began : flight.sent ≤ w.now + slot.offset := fine.sent
  rw [lasts, (fine.fits inUse).2 ttl isTtl]
  linarith

/-! ### Coroutines -/

def Unasked (w : SlotWorld) (holder : Uuid) : Prop := ∀ flight ∈ w.flights, ¬flight.callOf holder

/-- What a coroutine may do with its slot up to its next await. -/
structure Goes (w : SlotWorld) (slot : Slot) (result : Slot × Sends) : Prop where
  same : result.1.toSlotSetup = slot.toSlotSetup
  released : slot.stage = .released → result.1.stage = .released
  covered : result.1.stage = .held → w.Covers slot.toSlotSetup result.1.confirmed
  holding : result.1.hold ≠ .off → result.1.stage = .released
  fenced : slot.fenced = true → result.1.fenced = true
  fits : ∀ errand order, result.2 = some (errand, order) → result.1.stage ≠ .released → Fits slot.toSlotSetup order
  asks : ∀ errand order, result.2 = some (errand, order) → errand.confirms = true → order.ttl.isSome = true
  marks : ∀ order, result.2 = some (.mark, order) → result.1.stage = .released
  calls : (w.Unasked slot.holder ∧ ∀ errand order, result.2 = some (errand, order) → errand.isCall = true →
      result.1.calling = true ∧ (errand = .confirm → result.1.fenced = false)) ∨
    result.1.calling = slot.calling ∧ result.1.fenced = slot.fenced ∧
      ∀ errand order, result.2 = some (errand, order) → errand.isCall = false

section Goes

variable {w : SlotWorld} {slot next : Slot}

theorem goes_silent (same : next.toSlotSetup = slot.toSlotSetup)
    (released : slot.stage = .released → next.stage = .released)
    (covered : next.stage = .held → w.Covers slot.toSlotSetup next.confirmed)
    (holding : next.hold ≠ .off → next.stage = .released) (fenced : slot.fenced = true → next.fenced = true)
    (calls : w.Unasked slot.holder ∨ next.calling = slot.calling ∧ next.fenced = slot.fenced) :
    w.Goes slot (next, none) where
  same := same
  released := released
  covered := covered
  holding := holding
  fenced := fenced
  fits _ _ sends := nomatch sends
  asks _ _ sends := nomatch sends
  marks _ sends := nomatch sends
  calls := calls.imp (fun unasked => ⟨unasked, nofun⟩)
    fun alike => ⟨alike.1, alike.2, nofun⟩

theorem goes_self (fine : w.SlotFine slot) : w.Goes slot (slot, none) :=
  goes_silent rfl id fine.covered fine.holding id (.inr ⟨rfl, rfl⟩)

variable {errand : Errand} {clock : ℤ}

theorem Goes.send (goes : w.Goes slot (next, none)) {order : LeaseOrder}
    (fits : next.stage ≠ .released → Fits slot.toSlotSetup order)
    (asks : errand.confirms = true → order.ttl.isSome = true) (plain : errand.isCall = false) :
    w.Goes slot (next, some (errand, order)) where
  same := goes.same
  released := goes.released
  covered := goes.covered
  holding := goes.holding
  fenced := goes.fenced
  fits _ _ sends := by
    cases sends
    exact fits
  asks _ _ sends := by
    cases sends
    exact asks
  marks _ sends := by
    cases sends
    cases plain
  calls := by
    refine goes.calls.imp (fun unasked => ⟨unasked.1, fun _ _ sends isCall => ?_⟩)
      fun alike => ⟨alike.1, alike.2.1, fun _ _ sends => ?_⟩
    · cases sends
      rw [plain] at isCall
      cases isCall
    · cases sends
      exact plain

theorem Goes.call (goes : w.Goes slot (next, none)) (unasked : w.Unasked slot.holder)
    {order : LeaseOrder} (fits : next.stage ≠ .released → Fits slot.toSlotSetup order)
    (asks : errand.confirms = true → order.ttl.isSome = true) (calling : next.calling = true)
    (confirming : errand = .confirm → next.fenced = false) (marks : errand = .mark → next.stage = .released) : w.Goes slot (next, some (errand, order)) where
  same := goes.same
  released := goes.released
  covered := goes.covered
  holding := goes.holding
  fenced := goes.fenced
  fits _ _ sends := by
    cases sends
    exact fits
  asks _ _ sends := by
    cases sends
    exact asks
  marks _ sends := by
    cases sends
    exact marks rfl
  calls := .inl ⟨unasked, fun _ _ sends _ => by
    cases sends
    exact ⟨calling, confirming⟩⟩

theorem fits_renew (setup : SlotSetup) : Fits setup (.renew setup.timing.ttl) :=
  ⟨rfl, fun ttl asked => (Option.some.inj asked).symm⟩

theorem fits_acquire (setup : SlotSetup) : Fits setup (.acquire setup.timing.ttl) :=
  ⟨rfl, fun ttl asked => (Option.some.inj asked).symm⟩

theorem Goes.nextBeat (goes : w.Goes slot (next, none)) (clock : ℤ) : w.Goes slot (next.nextBeat clock, none) :=
  ⟨goes.same, goes.released, goes.covered, goes.holding, goes.fenced, goes.fits, goes.asks, goes.marks, goes.calls⟩

theorem Goes.stopHeartbeat (goes : w.Goes slot (next, none)) : w.Goes slot (next.stopHeartbeat, none) :=
  ⟨goes.same, goes.released, goes.covered, goes.holding, goes.fenced, goes.fits, goes.asks, goes.marks, goes.calls⟩

theorem Goes.held (goes : w.Goes slot (next, none)) (ended : next.stage = .released) (hold : Hold) :
    w.Goes slot ({ next with hold := hold }, none) :=
  ⟨goes.same, goes.released, goes.covered, fun _ => ended, goes.fenced, goes.fits, goes.asks, goes.marks, goes.calls⟩

theorem Goes.startHold (goes : w.Goes slot (next, none)) (ended : next.stage = .released) :
    w.Goes slot next.startHold := by
  unfold Slot.startHold
  split_ifs
  all_goals
    refine (goes.held ended _).send (fun inUse => absurd ended inUse) ?_ rfl
    intro confirms
    cases confirms

theorem goes_beatAwake (fine : w.SlotFine slot) {result : Slot × Sends}
    (awake : slot.beatAwake clock = some result) : w.Goes slot result := by
  unfold Slot.beatAwake at awake
  split at awake
  · split_ifs at awake
    · cases awake
      exact goes_silent rfl id fine.covered fine.holding id (.inr ⟨rfl, rfl⟩)
    · cases awake
      have renews : w.Goes slot ({ slot with beat := .renewing }, none) :=
        goes_silent rfl id fine.covered fine.holding id (.inr ⟨rfl, rfl⟩)
      exact renews.send (fun _ => fits_renew _) (fun _ => rfl) rfl
  · cases awake

theorem goes_holdAwake (fine : w.SlotFine slot) {result : Slot × Sends}
    (awake : slot.holdAwake clock = some result) : w.Goes slot result := by
  have ended : slot.hold ≠ .off → slot.stage = .released := fine.holding
  unfold Slot.holdAwake at awake
  split at awake
  · rename_i isHold
    split_ifs at awake
    cases awake
    exact (goes_self fine).startHold (ended (by simp [isHold]))
  · rename_i isHold
    have isOver := ended (by simp [isHold])
    split_ifs at awake
    cases awake
    refine ((goes_self fine).held isOver _).send (fun inUse => absurd isOver inUse) ?_ rfl
    intro confirms
    cases confirms
  · cases awake

theorem goes_release (unasked : w.Unasked slot.holder) :
    w.Goes slot slot.release := by
  have ends : w.Goes slot ({ slot with stage := .released }, none) :=
    goes_silent rfl (fun _ => rfl) nofun (fun _ => rfl) id (.inr ⟨rfl, rfl⟩)
  have waits : w.Goes slot ({ slot with stage := .released, calling := true }, none) :=
    goes_silent rfl (fun _ => rfl) nofun (fun _ => rfl) id (.inl unasked)
  unfold Slot.release
  dsimp only
  split_ifs
  · exact ends.stopHeartbeat
  · exact waits.call unasked (fun inUse => absurd rfl inUse) nofun rfl
      nofun fun _ => rfl
  · exact ends.stopHeartbeat.startHold rfl
  · exact waits.stopHeartbeat.call unasked (fun inUse => absurd rfl inUse) nofun rfl
      nofun fun _ => rfl

theorem goes_confirm (fine : w.SlotFine slot) (unasked : w.Unasked slot.holder) (clock : ℤ) :
    w.Goes slot (slot.confirm clock) := by
  unfold Slot.confirm
  split_ifs with refuses
  · exact goes_silent rfl id fine.covered fine.holding (fun _ => rfl) (.inl unasked)
  · have waits : w.Goes slot ({ slot with calling := true }, none) :=
      goes_silent rfl id fine.covered fine.holding id (.inl unasked)
    refine waits.call unasked (fun _ => fits_renew _) (fun _ => rfl) rfl (fun _ => ?_) nofun
    exact Bool.eq_false_iff.mpr fun fenced => refuses (.inl fenced)

theorem goes_recordVersion (fine : w.SlotFine slot) (unasked : w.Unasked slot.holder) (version : ℤ) :
    w.Goes slot (slot.recordVersion version) := by
  unfold Slot.recordVersion
  split_ifs
  · have waits : w.Goes slot ({ slot with calling := true }, none) :=
      goes_silent rfl id fine.covered fine.holding id (.inl unasked)
    exact waits.call unasked (fun _ => ⟨rfl, nofun⟩) nofun rfl
      nofun nofun
  · exact goes_self fine

theorem goes_ended (fine : w.SlotFine slot) (unasked : w.Unasked slot.holder) (same : next.toSlotSetup = slot.toSlotSetup)
    (stage : next.stage = slot.stage) (hold : next.hold = slot.hold)
    (covered : slot.stage = .held → w.Covers slot.toSlotSetup next.confirmed)
    (fenced : slot.fenced = true → next.fenced = true) : w.Goes slot (next, none) :=
  goes_silent same (fun ended => stage.trans ended) (fun held => covered (stage.symm.trans held))
    (fun off => stage.trans (fine.holding fun isOff => off (hold.trans isOff))) fenced (.inl unasked)

/-- **An answer**: those that confirm the slot were granted, and cover the instant they were asked for at. -/
theorem goes_answered (fine : w.SlotFine slot) {sent : ℤ} {reply : LeaseReply}
    (covered : errand.confirms = true → reply.found = true → slot.stage ≠ .released → w.Covers slot.toSlotSetup sent)
    (unasked : errand.isCall = true → w.Unasked slot.holder) (marks : errand = .mark → slot.stage = .released) :
    w.Goes slot (slot.answered clock errand sent reply) := by
  have held_used : slot.stage = .held → slot.stage ≠ .released := fun held ended => by
    rw [held] at ended
    cases ended
  cases errand with
  | acquire =>
    unfold Slot.answered
    dsimp only
    split
    · rename_i isStage
      have inUse : slot.stage ≠ .released := by
        rw [isStage]
        exact nofun
      have off : ∀ stage, slot.hold ≠ .off → stage = Stage.released :=
        fun _ holding => absurd (fine.holding holding) inUse
      split_ifs with granted
      · have takes : w.Goes slot ({ slot with confirmed := sent, stage := .held }, none) :=
          goes_silent rfl (fun ended => absurd ended inUse) (fun _ => covered rfl granted inUse) (off _) id
            (.inr ⟨rfl, rfl⟩)
        exact takes.nextBeat clock
      · exact goes_silent rfl (fun ended => absurd ended inUse) nofun (off _) id (.inr ⟨rfl, rfl⟩)
      · exact goes_silent rfl (fun ended => absurd ended inUse) nofun (off _) id (.inr ⟨rfl, rfl⟩)
    · exact goes_self fine
  | bind session =>
    unfold Slot.answered
    dsimp only
    split_ifs with granted
    · exact goes_ended fine (unasked rfl) rfl rfl rfl (fun held => covered rfl granted (held_used held)) id
    · exact goes_ended fine (unasked rfl) rfl rfl rfl fine.covered id
  | confirm =>
    unfold Slot.answered
    dsimp only
    split_ifs with granted
    · exact goes_ended fine (unasked rfl) rfl rfl rfl
        (fun held => covers_of_le (fine.covered held) (covered rfl granted (held_used held))) id
    · exact goes_ended fine (unasked rfl) rfl rfl rfl fine.covered fun _ => rfl
  | recordVersion | release => exact goes_ended fine (unasked rfl) rfl rfl rfl fine.covered id
  | mark =>
    have ends : w.Goes slot ({ slot with calling := false, keptSession := reply.session, marked := true }, none) :=
      goes_ended fine (unasked rfl) rfl rfl rfl fine.covered id
    exact ends.stopHeartbeat.startHold (marks rfl)
  | beat =>
    unfold Slot.answered
    dsimp only
    split
    · split_ifs with granted
      · have renews : w.Goes slot ({ slot with confirmed := sent }, none) :=
          goes_silent rfl id (fun held => covered rfl granted (held_used held)) fine.holding id (.inr ⟨rfl, rfl⟩)
        exact renews.nextBeat clock
      · exact goes_silent rfl id fine.covered fine.holding id (.inr ⟨rfl, rfl⟩)
    · exact goes_self fine
  | hold =>
    have ended : slot.hold ≠ .off → slot.stage = .released := fine.holding
    have self := goes_self fine
    unfold Slot.answered
    dsimp only
    split
    · rename_i isHold
      have isOver := ended (by simp [isHold])
      have marked : w.Goes slot ({ slot with marked := true }, none) :=
        goes_silent rfl id fine.covered fine.holding id (.inr ⟨rfl, rfl⟩)
      split_ifs
      · exact marked.startHold isOver
      · exact marked.held isOver _
    · rename_i isHold
      have isOver := ended (by simp [isHold])
      split_ifs
      · exact self.held isOver _
      · exact (self.held isOver _).send (fun inUse => absurd isOver inUse) (fun _ => rfl) rfl
    · rename_i isHold
      exact self.held (ended (by simp [isHold])) _
    · rename_i isHold
      have isOver := ended (by simp [isHold])
      split_ifs <;> exact self.held isOver _
    · exact self
  | collect => exact goes_self fine
  | takeOver => exact goes_self fine

theorem goes_failed (fine : w.SlotFine slot) {cancelled : Bool}
    (unasked : errand.isCall = true → w.Unasked slot.holder) (marks : errand = .mark → slot.stage = .released) :
    w.Goes slot (slot.failed clock errand cancelled) := by
  cases errand with
  | acquire =>
    unfold Slot.failed
    dsimp only
    split
    · rename_i isStage
      have inUse : slot.stage ≠ .released := by
        rw [isStage]
        exact nofun
      exact goes_silent rfl (fun ended => absurd ended inUse) nofun
        (fun holding => absurd (fine.holding holding) inUse) id (.inr ⟨rfl, rfl⟩)
    · exact goes_self fine
  | bind | recordVersion | release => exact goes_ended fine (unasked rfl) rfl rfl rfl fine.covered id
  | confirm =>
    refine goes_ended fine (unasked rfl) rfl rfl rfl fine.covered fun fenced => ?_
    show (slot.fenced || !cancelled) = true
    rw [fenced, Bool.true_or]
  | mark =>
    unfold Slot.failed
    dsimp only
    split_ifs
    · exact goes_ended fine (unasked rfl) rfl rfl rfl fine.covered id
    · have ends : w.Goes slot ({ slot with calling := false, keptSession := slot.session }, none) :=
        goes_ended fine (unasked rfl) rfl rfl rfl fine.covered id
      exact ends.stopHeartbeat.startHold (marks rfl)
  | beat =>
    unfold Slot.failed
    dsimp only
    split
    · split_ifs
      · exact (goes_self fine).stopHeartbeat
      · exact (goes_self fine).nextBeat clock
    · exact goes_self fine
  | hold =>
    have ended : slot.hold ≠ .off → slot.stage = .released := fine.holding
    have self := goes_self fine
    unfold Slot.failed
    dsimp only
    split
    all_goals first | exact self | skip
    all_goals
      rename_i isHold
      have isOver := ended (by simp [isHold])
      split_ifs <;> exact self.held isOver _
  | collect => exact goes_self fine
  | takeOver => exact goes_self fine

end Goes

/-! ### Steps -/

theorem get_ran {w : SlotWorld} {slot : Slot} (same : result.1.toSlotSetup = slot.toSlotSetup) (holder : Uuid) :
    (w.ran result).slots.get holder = if holder = slot.holder then some result.1 else w.slots.get holder := by
  show (w.slots.put result.1).get holder = _
  rw [Keyed.get_put, congrArg SlotSetup.holder same]

def sentFlight (w : SlotWorld) (result : Slot × Sends) : List Flight :=
  (result.2.map fun (errand, order) =>
    (⟨⟨result.1.kind, result.1.holder, order⟩, some errand, w.clock result.1.toSlotSetup, none⟩ : Flight)).toList

theorem mem_sentFlight {w : SlotWorld} (mem : flight ∈ w.sentFlight result) :
    ∃ errand order, result.2 = some (errand, order) ∧
      flight = ⟨⟨result.1.kind, result.1.holder, order⟩, some errand, w.clock result.1.toSlotSetup, none⟩ := by
  unfold sentFlight at mem
  rw [Option.mem_toList, Option.map_eq_some_iff] at mem
  obtain ⟨⟨errand, order⟩, sends, rfl⟩ := mem
  exact ⟨errand, order, sends, rfl⟩

theorem Goes.sentFine {w : SlotWorld} {slot : Slot} (goes : w.Goes slot result)
    (mem : flight ∈ w.sentFlight result) : (w.ran result).FlightFine result.1 flight := by
  obtain ⟨errand, order, sends, rfl⟩ := mem_sentFlight mem
  refine ⟨rfl, le_rfl, fun inUse => goes.same ▸ goes.fits errand order sends inUse,
    fun confirms => goes.asks errand order sends confirms, fun _ _ granted => absurd granted Bool.false_ne_true,
    fun calls => ?_, fun confirms => ?_, fun marks => ?_⟩
  · have isCall : errand.isCall = true := calls.2
    rcases goes.calls with ⟨-, asks⟩ | ⟨-, -, plain⟩
    · exact (asks errand order sends isCall).1
    · rw [plain errand order sends] at isCall
      cases isCall
  · cases confirms
    rcases goes.calls with ⟨-, asks⟩ | ⟨-, -, plain⟩
    · exact (asks _ order sends rfl).2 rfl
    · cases plain _ order sends
  · cases marks
    exact goes.marks order sends

/-- **A coroutine keeps every slot and every answer covered.** -/
theorem Fine.ran {w : SlotWorld} (fine : w.Fine) {slot : Slot} (found : w.slots.get slot.holder = some slot)
    (goes : w.Goes slot result) : (w.ran result).Fine := by
  have setup := goes.same
  have isHolder : result.1.holder = slot.holder := congrArg SlotSetup.holder setup
  have isKind : result.1.kind = slot.kind := congrArg SlotSetup.kind setup
  have used : result.1.stage ≠ .released → slot.stage ≠ .released := fun inUse ended => inUse (goes.released ended)
  -- the flights that were there
  have old : ∀ flight ∈ w.flights, flight.statement.holder = slot.holder → (w.ran result).FlightFine result.1 flight := by
    intro flight mem ofSlot
    have before := fine.flights flight mem slot (ofSlot ▸ found)
    refine ⟨before.kind.trans isKind.symm, ?_, fun inUse => setup ▸ before.fits (used inUse), before.asks,
      fun inUse asked granted => setup ▸ before.covered (used inUse) asked granted, fun calls => ?_, fun confirms => ?_,
      fun marks => goes.released (before.marking marks)⟩
    · rw [setup]
      exact before.sent
    · rcases goes.calls with ⟨unasked, -⟩ | ⟨calling, -⟩
      · exact absurd (isHolder ▸ calls) (unasked flight mem)
      · exact calling.trans (before.calling (isHolder ▸ calls))
    · rcases goes.calls with ⟨unasked, -⟩ | ⟨-, fenced, -⟩
      · exact absurd ⟨ofSlot, by rw [confirms]; rfl⟩ (unasked flight mem)
      · exact fenced.trans (before.confirming confirms)
  have flights : (w.ran result).flights = w.flights ++ w.sentFlight result := rfl
  constructor
  · intro holder other there
    rw [get_ran setup] at there
    split_ifs at there with same
    · cases there
      exact ⟨fun held => setup ▸ goes.covered held, goes.holding⟩
    · exact (fine.slots holder other there).same rfl rfl
  · intro flight mem other there
    rw [get_ran setup] at there
    rw [flights, mem_append] at mem
    split_ifs at there with same
    · cases there
      rcases mem with mem | mem
      · exact old flight mem same
      · exact goes.sentFine mem
    · rcases mem with mem | mem
      · exact (fine.flights flight mem other there).same rfl rfl
      · obtain ⟨errand, order, -, rfl⟩ := mem_sentFlight mem
        exact absurd isHolder same
  · intro flight mem
    rw [flights, mem_append] at mem
    unfold isFresh
    rw [get_ran setup]
    split_ifs with same
    · rfl
    · rcases mem with mem | mem
      · exact fine.known flight mem
      · obtain ⟨errand, order, -, rfl⟩ := mem_sentFlight mem
        exact absurd isHolder same
  · intro holder other there
    rw [get_ran setup] at there
    split_ifs at there with same
    · exact fine.apart holder slot (same ▸ found)
    · exact fine.apart holder other there
  · rw [flights, pairwise_append]
    refine ⟨fine.calls, ?_, fun flight mem sent isSent holder calls asks => ?_⟩
    · unfold sentFlight
      cases result.2 with
      | none => exact .nil
      | some _ => exact pairwise_singleton _ _
    · obtain ⟨errand, order, sends, rfl⟩ := mem_sentFlight isSent
      have isCall : errand.isCall = true := asks.2
      rcases goes.calls with ⟨unasked, -⟩ | ⟨-, -, plain⟩
      · have same : holder = slot.holder := asks.1.symm.trans isHolder
        exact unasked flight mem (same ▸ calls)
      · rw [plain errand order sends] at isCall
        cases isCall

/-! ### Events that run no coroutine -/

theorem isFresh_iff {w : SlotWorld} {holder : Uuid} :
    w.isFresh holder = true ↔ w.slots.get holder = none ∧ w.keepers.get holder = none := by
  unfold isFresh
  rw [Bool.and_eq_true, Option.isNone_iff_eq_none, Option.isNone_iff_eq_none]

theorem Fine.tick {w : SlotWorld} (fine : w.Fine) (elapsed : ℕ) :
    ({ w with now := w.now + elapsed } : SlotWorld).Fine where
  slots holder slot there := by
    have before := fine.slots holder slot there
    exact ⟨fun held => (before.covered held).tick elapsed, before.holding⟩
  flights flight mem slot there := by
    have before := fine.flights flight mem slot there
    have later : w.clock slot.toSlotSetup ≤ ({ w with now := w.now + elapsed } : SlotWorld).clock slot.toSlotSetup := by
      unfold clock
      dsimp only
      linarith [Int.natCast_nonneg elapsed]
    exact { before with
      sent := before.sent.trans later
      covered := fun inUse asked granted => (before.covered inUse asked granted).tick elapsed }
  known := fine.known
  apart := fine.apart
  calls := fine.calls

theorem Fine.new {w : SlotWorld} (fine : w.Fine) {slot : Slot} (isNew : slot.stage = .fresh ∧ slot.hold = .off)
    (fresh : w.isFresh slot.holder = true) : ({ w with slots := w.slots.put slot } : SlotWorld).Fine := by
  have known : ∀ flight ∈ w.flights, flight.statement.holder ≠ slot.holder := by
    intro flight mem same
    have isKnown := fine.known flight mem
    rw [same, fresh] at isKnown
    cases isKnown
  constructor
  · intro holder other there
    change (w.slots.put slot).get holder = some other at there
    rw [Keyed.get_put] at there
    split_ifs at there
    · cases there
      refine ⟨fun held => ?_, fun on => absurd isNew.2 on⟩
      rw [isNew.1] at held
      cases held
    · exact (fine.slots holder other there).same rfl rfl
  · intro flight mem other there
    change (w.slots.put slot).get _ = some other at there
    rw [Keyed.get_put, if_neg (known flight mem)] at there
    exact (fine.flights flight mem other there).same rfl rfl
  · intro flight mem
    show (((w.slots.put slot).get _).isNone && _) = false
    rw [Keyed.get_put, if_neg (known flight mem)]
    exact fine.known flight mem
  · intro holder other there
    change (w.slots.put slot).get holder = some other at there
    rw [Keyed.get_put] at there
    split_ifs at there with same
    · exact same ▸ (isFresh_iff.mp fresh).2
    · exact fine.apart holder other there
  · exact fine.calls

theorem Fine.keeper {w : SlotWorld} (fine : w.Fine) (keeper : Keeper) (other : w.slots.get keeper.holder = none) :
    ({ w with keepers := w.keepers.put keeper } : SlotWorld).Fine where
  slots holder slot there := (fine.slots holder slot there).same rfl rfl
  flights flight mem slot there := (fine.flights flight mem slot there).same rfl rfl
  known flight mem := by
    show (_ && ((w.keepers.put keeper).get _).isNone) = false
    rw [Keyed.get_put]
    split_ifs
    · exact Bool.and_false _
    · exact fine.known flight mem
  apart holder slot there := by
    show (w.keepers.put keeper).get holder = none
    rw [Keyed.get_put, if_neg]
    · exact fine.apart holder slot there
    · rintro rfl
      rw [other] at there
      cases there
  calls := fine.calls

theorem Fine.send {w : SlotWorld} (fine : w.Fine) {statement : LeaseStatement} {errand : Errand}
    (other : w.slots.get statement.holder = none) (known : w.keepers.get statement.holder ≠ none)
    (plain : errand.isCall = false) : (w.send statement errand).Fine where
  slots holder slot there := (fine.slots holder slot there).same rfl rfl
  flights flight mem slot there := by
    rcases mem_append.mp mem with mem | mem
    · exact (fine.flights flight mem slot there).same rfl rfl
    · rw [mem_singleton.mp mem] at there
      change w.slots.get statement.holder = some slot at there
      rw [other] at there
      cases there
  known flight mem := by
    rcases mem_append.mp mem with mem | mem
    · exact fine.known flight mem
    · rw [mem_singleton.mp mem]
      refine Bool.eq_false_iff.mpr fun fresh => known ?_
      exact (isFresh_iff (w := w).mp fresh).2
  apart := fine.apart
  calls := by
    show (w.flights ++ _).Pairwise _
    rw [pairwise_append]
    refine ⟨fine.calls, pairwise_singleton _ _, fun flight _ sent isSent holder _ asks => ?_⟩
    rw [mem_singleton.mp isSent] at asks
    have isCall : errand.isCall = true := asks.2
    rw [plain] at isCall
    cases isCall

theorem Fine.execute {w : SlotWorld} (fine : w.Fine) {i : ℕ} (found : w.flights[i]? = some flight) : ({ w with
        tables := (flight.statement.execute w.now w.tables).1
        flights := w.flights.set i { flight with reply := some (flight.statement.execute w.now w.tables).2 } } :
      SlotWorld).Fine := by
  have mem := mem_of_getElem? found
  -- what the statement asks for fits the slot it is of
  have own : ∀ slot, w.slots.get slot.holder = some slot → slot.stage ≠ .released →
      flight.statement.holder = slot.holder → Fits slot.toSlotSetup flight.statement.order :=
    fun slot there inUse same => (fine.flights flight mem slot (same ▸ there)).fits inUse
  have known : ∀ {holder slot}, w.slots.get holder = some slot → w.slots.get slot.holder = some slot := by
    intro holder slot there
    exact (holder_of_get there).symm ▸ there
  constructor
  · intro holder slot there
    have before := fine.slots holder slot there
    refine ⟨fun held => (before.covered held).executed fun same => own slot (known there) ?_ same, before.holding⟩
    rw [held]
    exact nofun
  · intro other isFlight slot there
    have isHolder : slot.holder = other.statement.holder := holder_of_get (w := w) there
    rcases mem_of_mem_set isFlight with rfl | isOld
    · have before := fine.flights flight mem slot there
      exact { before with
        sent := before.sent
        covered := fun inUse asked granted => covers_of_execute before isHolder.symm inUse asked granted
        calling := before.calling }
    · have before := fine.flights other (mem_of_mem_eraseIdx isOld) slot there
      exact { before with
        sent := before.sent
        covered := fun inUse asked granted =>
          (before.covered inUse asked granted).executed fun same => own slot (known there) inUse same
        calling := before.calling }
  · intro other isFlight
    rcases mem_of_mem_set isFlight with rfl | isOld
    · exact fine.known flight mem
    · exact fine.known other (mem_of_mem_eraseIdx isOld)
  · exact fine.apart
  · have apart := apart_of_eraseIdx Flight.Apart.symm fine.calls found
    exact pairwise_set Flight.Apart.symm fine.calls fun other isOld holder calls => apart other isOld holder calls

theorem Fine.abandon {w : SlotWorld} (fine : w.Fine) {i : ℕ} (found : w.flights[i]? = some flight) :
    ({ w with flights := w.flights.set i { flight with errand := none } } : SlotWorld).Fine := by
  have mem := mem_of_getElem? found
  constructor
  · exact fun holder slot there => (fine.slots holder slot there).same rfl rfl
  · intro other isFlight slot there
    rcases mem_of_mem_set isFlight with rfl | isOld
    · have before := fine.flights flight mem slot there
      exact ⟨before.kind, before.sent, before.fits, fun confirms => absurd confirms Bool.false_ne_true,
        fun inUse asked granted => (before.covered inUse asked granted).same rfl rfl,
        fun calls => absurd calls.2 Bool.false_ne_true, fun confirms => absurd confirms (Option.some_ne_none _).symm,
        fun marks => absurd marks (Option.some_ne_none _).symm⟩
    · exact (fine.flights other (mem_of_mem_eraseIdx isOld) slot there).same rfl rfl
  · intro other isFlight
    rcases mem_of_mem_set isFlight with rfl | isOld
    · exact fine.known flight mem
    · exact fine.known other (mem_of_mem_eraseIdx isOld)
  · exact fine.apart
  · exact pairwise_set Flight.Apart.symm fine.calls fun other _ holder calls => absurd calls.2 Bool.false_ne_true

theorem Fine.erase {w : SlotWorld} (fine : w.Fine) (i : ℕ) :
    ({ w with flights := w.flights.eraseIdx i } : SlotWorld).Fine where
  slots holder slot there := (fine.slots holder slot there).same rfl rfl
  flights flight mem slot there :=
    (fine.flights flight (mem_of_mem_eraseIdx mem) slot there).same rfl rfl
  known flight mem := fine.known flight (mem_of_mem_eraseIdx mem)
  apart := fine.apart
  calls := fine.calls.sublist (eraseIdx_sublist _ _)

/-! ### Every step -/

def executing (w : SlotWorld) : SlotEvent → Option LeaseStatement
  | .execute i => (w.flights[i]?.filter fun flight => flight.reply.isNone).map Flight.statement
  | _ => none

/-- What an event does: it keeps what is covered, it executes a statement or leaves the rows alone, and a slot that was
refused stays so. -/
structure Moves (w : SlotWorld) (e : SlotEvent) (w' : SlotWorld) : Prop where
  fine : w'.Fine
  tables : w.executing e = none ∧ w'.tables = w.tables ∨
    ∃ s, w.executing e = some s ∧ w'.tables = (s.execute w.now w.tables).1
  fenced : ∀ holder slot, w.slots.get holder = some slot → slot.fenced = true →
    ∃ slot', w'.slots.get holder = some slot' ∧ slot'.fenced = true

section Steps

variable {w w' : SlotWorld} {e : SlotEvent}

theorem Fine.moves (fine : w'.Fine) (idle : w.executing e = none) (tables : w'.tables = w.tables)
    (slots : w'.slots = w.slots) : w.Moves e w' :=
  ⟨fine, .inl ⟨idle, tables⟩, fun _ slot there isFenced => ⟨slot, slots ▸ there, isFenced⟩⟩

theorem Fine.moves_ran {base : SlotWorld} (fine : base.Fine) (idle : w.executing e = none)
    (tables : base.tables = w.tables) (slots : base.slots = w.slots) {slot : Slot}
    (known : base.slots.get slot.holder = some slot) {result : Slot × Sends} (goes : base.Goes slot result) :
    w.Moves e (base.ran result) where
  fine := fine.ran known goes
  tables := .inl ⟨idle, tables⟩
  fenced holder other there isFenced := by
    rw [get_ran goes.same]
    by_cases same : holder = slot.holder
    · rw [if_pos same]
      rw [same, ← slots, known] at there
      cases there
      exact ⟨_, rfl, goes.fenced isFenced⟩
    · rw [if_neg same, slots]
      exact ⟨other, there, isFenced⟩

theorem Fine.slot (fine : w.Fine) {slot : Slot} (found : w.slots.get slot.holder = some slot) : w.SlotFine slot :=
  fine.slots slot.holder slot found

theorem Fine.unasked (fine : w.Fine) {slot : Slot} (found : w.slots.get slot.holder = some slot)
    (calm : slot.calling = false) : w.Unasked slot.holder := by
  intro flight mem calls
  have calling := (fine.flights flight mem slot (calls.1.symm ▸ found)).calling calls
  rw [calm] at calling
  cases calling

theorem Fine.runs (fine : w.Fine) (idle : w.executing e = none) {holder : Uuid} {go : Slot → Option (Slot × Sends)}
    (taken : w.run holder go = some w') (goes : ∀ slot, w.slots.get slot.holder = some slot → ∀ result, go slot = some result →
      w.Goes slot result) : w.Moves e w' := by
  unfold run at taken
  rw [Option.bind_eq_some_iff] at taken
  obtain ⟨slot, found, went⟩ := taken
  rw [Option.map_eq_some_iff] at went
  obtain ⟨result, gone, rfl⟩ := went
  have known : w.slots.get slot.holder = some slot := (holder_of_get found).symm ▸ found
  exact fine.moves_ran idle rfl rfl known (goes slot known result gone)

theorem Fine.called (fine : w.Fine) (idle : w.executing e = none) {holder : Uuid} {go : Slot → Slot × Sends}
    (taken : w.call holder go = some w')
    (goes : ∀ slot, w.SlotFine slot → slot.stage = .held → w.Unasked slot.holder → w.Goes slot (go slot)) :
    w.Moves e w' := by
  refine fine.runs idle taken fun slot known result went => ?_
  split_ifs at went with idle
  cases went
  unfold Slot.idle at idle
  rw [Bool.and_eq_true, decide_eq_true_eq, Bool.not_eq_true'] at idle
  exact goes slot (fine.slot known) idle.1 (fine.unasked known idle.2)

theorem goes_acquire {slot : Slot} {stage : Stage} (fine : w.SlotFine slot) (begun : slot.stage ≠ .released)
    (begins : stage ≠ .held ∧ stage ≠ .released) :
    w.Goes slot ({ slot with stage := stage }, some (.acquire, .acquire slot.timing.ttl)) := by
  have takes : w.Goes slot ({ slot with stage := stage }, none) :=
    goes_silent rfl (fun ended => absurd ended begun) (fun held => absurd held begins.1)
      (fun holding => absurd (fine.holding holding) begun) id (.inr ⟨rfl, rfl⟩)
  exact takes.send (fun _ => fits_acquire _) (fun _ => rfl) rfl

theorem goes_bind {slot : Slot} {session handle : Uuid} {version : ℤ} (fine : w.SlotFine slot)
    (unasked : w.Unasked slot.holder) :
    w.Goes slot ({ slot with calling := true },
      some (.bind session, .bind session handle version slot.timing.ttl)) := by
  have waits : w.Goes slot ({ slot with calling := true }, none) :=
    goes_silent rfl id fine.covered fine.holding id (.inl unasked)
  exact waits.call unasked (fun _ => ⟨rfl, fun ttl asked => (Option.some.inj asked).symm⟩) (fun _ => rfl) rfl
    nofun nofun

theorem released_of_collectable {slot : Slot} (fine : w.SlotFine slot) (collectable : slot.collectable = true) :
    slot.stage = .released := by
  refine fine.holding fun off => ?_
  unfold Slot.collectable at collectable
  rw [off] at collectable
  cases collectable

theorem Fine.answer (fine : w.Fine) {i : ℕ} {flight : Flight} (found : w.flights[i]? = some flight) {errand : Errand}
    {reply : LeaseReply} (isErrand : flight.errand = some errand) (isReply : flight.reply = some reply) :
    w.Moves (.answer i) (({ w with flights := w.flights.eraseIdx i } : SlotWorld).deliver flight errand reply) := by
  have erased := fine.erase i
  have mem := mem_of_getElem? found
  unfold deliver
  cases there : w.slots.get flight.statement.holder with
  | some slot =>
    have isHolder := holder_of_get there
    have before := fine.flights flight mem slot there
    have known : w.slots.get slot.holder = some slot := isHolder.symm ▸ there
    refine erased.moves_ran (w := w) (e := .answer i) rfl rfl rfl known (goes_answered (erased.slot known) (fun confirms granted inUse => ?_) (fun isCall => ?_)
      fun marks => before.marking (marks ▸ isErrand))
    · have asked := before.asks (by rw [isErrand]; exact confirms)
      exact (before.covered inUse asked (by rw [isReply]; exact granted)).same rfl rfl
    · intro other isOther calls
      have callOf : flight.callOf slot.holder := ⟨isHolder.symm, by rw [isErrand]; exact isCall⟩
      exact apart_of_eraseIdx Flight.Apart.symm fine.calls found other isOther _ callOf calls
  | none =>
    dsimp only
    cases kept : w.keepers.get flight.statement.holder with
    | none => exact erased.moves rfl rfl rfl
    | some keeper =>
      dsimp only
      split_ifs
      · have isHolder : keeper.holder = flight.statement.holder := Keyed.key_of_get kept
        exact (erased.keeper { keeper with kept := true } (isHolder.symm ▸ there)).moves rfl rfl rfl
      · exact erased.moves rfl rfl rfl

theorem Fine.fail (fine : w.Fine) {i : ℕ} {flight : Flight} (found : w.flights[i]? = some flight) {errand : Errand}
    (isErrand : flight.errand = some errand) {slot : Slot} (there : w.slots.get flight.statement.holder = some slot)
    (cancelled : Bool) :
    w.Moves (.fail i cancelled) (({ w with flights := w.flights.set i { flight with errand := none } } : SlotWorld).ran
      (slot.failed (w.clock slot.toSlotSetup) errand cancelled)) := by
  have left := fine.abandon found
  have isHolder := holder_of_get there
  have known : w.slots.get slot.holder = some slot := isHolder.symm ▸ there
  have before := fine.flights flight (mem_of_getElem? found) slot there
  refine left.moves_ran (w := w) (e := .fail i cancelled) rfl rfl rfl known (goes_failed (left.slot known) (fun isCall => ?_) fun marks => before.marking (marks ▸ isErrand))
  intro other isOther calls
  have callOf : flight.callOf slot.holder := ⟨isHolder.symm, by rw [isErrand]; exact isCall⟩
  rcases mem_of_mem_set isOther with rfl | isOld
  · exact absurd calls.2 Bool.false_ne_true
  · exact apart_of_eraseIdx Flight.Apart.symm fine.calls found other isOld _ callOf calls

/-- **Every step keeps every slot and every answer covered.** -/
theorem Fine.step (fine : w.Fine) (taken : w.step e = some w') : w.Moves e w' := by
  cases e with
  | tick elapsed =>
    cases taken
    exact (fine.tick elapsed).moves rfl rfl rfl
  | new holder kind timing offset =>
    unfold SlotWorld.step at taken
    dsimp only at taken
    split_ifs at taken with fresh
    cases taken
    refine ⟨fine.new ⟨rfl, rfl⟩ fresh, .inl ⟨rfl, rfl⟩, fun other slot there isFenced => ⟨slot, ?_, isFenced⟩⟩
    show (w.slots.put _).get other = some slot
    rw [Keyed.get_put, if_neg, there]
    rintro rfl
    rw [(isFresh_iff.mp fresh).1] at there
    cases there
  | acquire holder wait =>
    refine fine.runs rfl taken fun slot known result went => ?_
    split_ifs at went with fresh
    cases went
    exact goes_acquire (fine.slot known) (by rw [fresh]; exact nofun)
      ⟨nofun, nofun⟩
  | acquireAgain holder =>
    refine fine.runs rfl taken fun slot known result went => ?_
    split at went
    · rename_i isStage
      split_ifs at went
      cases went
      exact goes_acquire (fine.slot known) (by rw [isStage]; exact nofun)
        ⟨nofun, nofun⟩
    · cases went
  | beat holder => exact fine.runs rfl taken fun slot known result went => goes_beatAwake (fine.slot known) went
  | bind holder session handle version => exact fine.called rfl taken fun slot own _ unasked => goes_bind own unasked
  | confirm holder => exact fine.called rfl taken fun slot own _ unasked => goes_confirm own unasked _
  | recordVersion holder version => exact fine.called rfl taken fun slot own _ unasked => goes_recordVersion own unasked _
  | keep holder =>
    refine fine.runs rfl taken fun slot known result went => ?_
    split_ifs at went
    cases went
    have own := fine.slot known
    exact goes_silent rfl id own.covered own.holding id (.inr ⟨rfl, rfl⟩)
  | release holder => exact fine.called rfl taken fun slot _ _ unasked => goes_release unasked
  | hold holder => exact fine.runs rfl taken fun slot known result went => goes_holdAwake (fine.slot known) went
  | collect holder order =>
    refine fine.runs rfl taken fun slot known result went => ?_
    split_ifs at went with may
    cases went
    have own := fine.slot known
    have isOver := released_of_collectable own (Bool.and_eq_true _ _ ▸ may).1
    exact (goes_self own).send (fun inUse => absurd isOver inUse) nofun rfl
  | collected holder =>
    refine fine.runs rfl taken fun slot known result went => ?_
    split_ifs at went with may
    cases went
    have own := fine.slot known
    exact (goes_self own).held (released_of_collectable own may) _
  | takeOver holder kind previous ttl =>
    unfold SlotWorld.step at taken
    dsimp only at taken
    split_ifs at taken with fresh
    cases taken
    obtain ⟨noSlot, -⟩ := isFresh_iff.mp fresh
    refine Fine.moves ((fine.keeper { holder := holder, kind := kind } noSlot).send noSlot ?_ rfl) rfl rfl rfl
    show (w.keepers.put _).get holder ≠ none
    rw [Keyed.get_put, if_pos rfl]
    exact Option.some_ne_none _
  | keeperSends holder order =>
    unfold SlotWorld.step at taken
    dsimp only at taken
    rw [Option.bind_eq_some_iff] at taken
    obtain ⟨keeper, found, sent⟩ := taken
    split_ifs at sent
    cases sent
    have known : w.keepers.get holder ≠ none := by
      rw [found]
      exact Option.some_ne_none _
    refine Fine.moves (fine.send ?_ known rfl) rfl rfl rfl
    cases there : w.slots.get holder with
    | none => rfl
    | some slot => exact absurd (fine.apart holder slot there) known
  | execute i =>
    unfold SlotWorld.step at taken
    dsimp only at taken
    rw [Option.bind_eq_some_iff] at taken
    obtain ⟨flight, found, executed⟩ := taken
    split_ifs at executed with waiting
    cases executed
    refine ⟨fine.execute found, .inr ⟨flight.statement, ?_, rfl⟩, fun _ slot there isFenced => ⟨slot, there, isFenced⟩⟩
    show (w.flights[i]?.filter _).map _ = _
    simp [found, Option.isNone_iff_eq_none.mp waiting]
  | answer i =>
    unfold SlotWorld.step at taken
    dsimp only at taken
    rw [Option.bind_eq_some_iff] at taken
    obtain ⟨flight, found, answered⟩ := taken
    split at answered
    · rename_i errand reply isErrand isReply
      cases answered
      exact fine.answer found isErrand isReply
    · cases answered
  | fail i cancelled =>
    unfold SlotWorld.step at taken
    dsimp only at taken
    rw [Option.bind_eq_some_iff] at taken
    obtain ⟨flight, found, failed⟩ := taken
    rw [Option.map_eq_some_iff] at failed
    obtain ⟨errand, isErrand, rfl⟩ := failed
    cases there : w.slots.get flight.statement.holder with
    | some slot => exact fine.fail found isErrand there cancelled
    | none => exact (fine.abandon found).moves rfl rfl rfl

end Steps

theorem fine_initial {w : SlotWorld} (init : slotMachine.initial w) : w.Fine := by
  obtain ⟨-, noSlots, -, noFlights⟩ := init
  have absent : ∀ holder, w.slots.get holder = none := fun holder =>
    Keyed.get_eq_none.mpr fun slot mem => absurd (noSlots ▸ mem) not_mem_nil
  constructor
  · intro holder slot there
    rw [absent] at there
    cases there
  · rw [noFlights]
    exact fun flight mem => absurd mem not_mem_nil
  · rw [noFlights]
    exact fun flight mem => absurd mem not_mem_nil
  · intro holder slot there
    rw [absent] at there
    cases there
  · rw [noFlights]
    exact .nil

theorem fine_of_reachable {w : SlotWorld} (reach : slotMachine.Reachable w) : w.Fine :=
  reach.invariant (fun _ init => fine_initial init) fun _ _ _ _ fine taken => (fine.step taken).fine

end SlotWorld

end PawBackend.Connections
