/-
**No VRAM is promised twice.** A run is followed with a ledger: the leases that ended and whose bytes no
reading has confirmed (`owed`), and those of them that ended before the reading in progress started
(`visible`). A reading that is published takes the leases it could see off the ledger, and nothing else
does.

`_release` puts the bytes of a shared lease on `pendingRelease`, and a reading carries what was pending when it
started.
-/

import PawBackend.Compute.Overtaking

namespace PawBackend.Compute

open Lib

/-! ### The ledger -/

/-- What a section makes of the reading its coroutine is in. -/
def Pc.reads (cfg : ComputeConfig) (hasControl : Bool) (now : Time) (s : State) (pc : Pc)
    (answer : Answer) : Option (State × Option Sampling) :=
  pc.sampling.bind fun at_ => s.sampleTurn cfg hasControl now at_ answer

def System.samplingOf (y : System) (task : TaskId) : Option Sampling := (y.tasks task).bind Pc.sampling

def System.reads (cfg : ComputeConfig) (hasControl : Bool) (y : System) (tick : Tick) :
    Option (State × Option Sampling) :=
  match tick.event with
  | .resume task answer => (y.tasks task).bind fun pc => pc.reads cfg hasControl tick.now y.sched answer
  | _ => none

def System.publishes (cfg : ComputeConfig) (hasControl : Bool) (y : System) (tick : Tick) : Bool :=
  match y.reads cfg hasControl tick with
  | some (s, none) => s.device.isSome
  | _ => false

def System.startsReading (cfg : ComputeConfig) (hasControl : Bool) (y y' : System) (tick : Tick) : Bool :=
  match tick.event with
  | .resume task _ =>
    match y'.samplingOf task with
    | some (.probe _) => (y.samplingOf task).isNone || (y.reads cfg hasControl tick).isSome
    | _ => false
  | _ => false

def State.ended (s t : State) : Finset LeaseId :=
  (Finset.range s.nextLease).filter fun id => (s.lease id).released = false ∧ (t.lease id).released = true

structure Ledger where
  owed : Finset LeaseId
  /-- Owed, and ended before the reading in progress started. -/
  visible : Finset LeaseId
  /-- No Exclusive lease has ended. -/
  clean : Bool

namespace Ledger

def opening : Ledger := ⟨∅, ∅, true⟩

def next (cfg : ComputeConfig) (hasControl : Bool) (ledger : Ledger) (y y' : System) (tick : Tick) :
    Ledger :=
  let kept := if y.publishes cfg hasControl tick then ledger.owed \ ledger.visible else ledger.owed
  let owed := kept ∪ y.sched.ended y'.sched
  { owed := owed
    visible := if y.startsReading cfg hasControl y' tick then owed else ledger.visible ∩ owed
    clean := ledger.clean &&
      decide (∀ id ∈ y.sched.ended y'.sched, (y.sched.lease id).resourceClass ≠ .exclusive) }

/-- The runs of the scheduler, followed with a ledger. -/
def machine (cfg : ComputeConfig) (hasControl : Bool) : Machine (System × Ledger) Tick where
  initial z := z = (.initial cfg, opening)
  step z tick := (z.1.step cfg hasControl tick).map fun y => (y, z.2.next cfg hasControl z.1 y tick)

end Ledger

def State.vramOf (s : State) (ids : Finset LeaseId) : ℤ := ∑ id ∈ ids, (s.lease id).vramBytes

/-! ### What a section does to the ledger -/

/-- A section ends some leases and takes `carried` bytes off the pending releases. -/
structure Closes (s t : State) (ended : Finset LeaseId) (carried : ℤ) : Prop where
  next : s.nextLease ≤ t.nextLease
  vram : ∀ id < s.nextLease, (t.lease id).vramBytes = (s.lease id).vramBytes
  released : ∀ id < s.nextLease,
    (t.lease id).released = true ↔ (s.lease id).released = true ∨ id ∈ ended
  live : ∀ id ∈ ended, id < s.nextLease ∧ (s.lease id).released = false
  pendingRelease : (∀ id ∈ ended, (s.lease id).resourceClass ≠ .exclusive) →
    t.pendingRelease = s.pendingRelease - carried + s.vramOf ended

section

variable {cfg : ComputeConfig} {hasControl : Bool} {clock : ℕ → Time} {now : Time} {s t u : State}

theorem Quiet.closes (quiet : Quiet s t) : Closes s t ∅ 0 where
  next := quiet.next
  vram id granted := (quiet.old id granted).2
  released id granted := by
    rw [(quiet.old id granted).1]
    simp
  live id none := absurd none (Finset.notMem_empty id)
  pendingRelease _ := by
    rw [quiet.pendingRelease, State.vramOf, Finset.sum_empty, add_zero, sub_zero]

namespace Closes

variable {ended : Finset LeaseId} {carried : ℤ}

theorem before (same : SameBook s t) (pending : t.pendingRelease = s.pendingRelease)
    (closes : Closes t u ended carried) : Closes s u ended carried := by
  have terms := same.terms_eq
  have next := same.nextLease
  refine ⟨next.ge.trans closes.next, fun id granted => ?_, fun id granted => ?_, fun id isEnded => ?_,
    fun shared => ?_⟩
  · obtain ⟨-, -, -, -, vram, -⟩ := terms id
    exact (closes.vram id (next ▸ granted)).trans vram
  · obtain ⟨-, -, -, -, -, released⟩ := terms id
    rw [closes.released id (next ▸ granted), released]
  · obtain ⟨-, -, -, -, -, released⟩ := terms id
    obtain ⟨granted, live⟩ := closes.live id isEnded
    exact ⟨next ▸ granted, released.symm.trans live⟩
  · have shared' : ∀ id ∈ ended, (t.lease id).resourceClass ≠ .exclusive := fun id isEnded =>
      (terms id).1 ▸ shared id isEnded
    rw [closes.pendingRelease shared', pending]
    congr 1
    refine Finset.sum_congr rfl fun id _ => ?_
    obtain ⟨-, -, -, -, vram, -⟩ := terms id
    exact vram

theorem after (closes : Closes s t ended carried) (quiet : Quiet t u) : Closes s u ended carried where
  next := closes.next.trans quiet.next
  vram id granted := (quiet.old id (granted.trans_le closes.next)).2.trans (closes.vram id granted)
  released id granted := by
    rw [(quiet.old id (granted.trans_le closes.next)).1]
    exact closes.released id granted
  live := closes.live
  pendingRelease shared := quiet.pendingRelease.trans (closes.pendingRelease shared)

theorem ended_eq (closes : Closes s t ended carried) : s.ended t = ended := by
  ext id
  unfold State.ended
  rw [Finset.mem_filter, Finset.mem_range]
  constructor
  · rintro ⟨granted, live, gone⟩
    rcases (closes.released id granted).mp gone with before | isEnded
    · rw [live] at before
      cases before
    · exact isEnded
  · intro isEnded
    obtain ⟨granted, live⟩ := closes.live id isEnded
    exact ⟨granted, live, (closes.released id granted).mpr (Or.inr isEnded)⟩

end Closes

theorem signalDrained_quiet (cfg : ComputeConfig) (s : State) : Quiet s (s.signalDrained cfg) := by
  unfold State.signalDrained
  split_ifs
  · exact ⟨le_rfl, fun _ _ => ⟨rfl, rfl⟩, rfl⟩
  · exact .refl s

theorem discard_closes (sound : Sound cfg s) {id : LeaseId} (live : (s.lease id).released = false) :
    Closes s (s.discard cfg id) {id} 0 := by
  have discards := discard_discards sound.book live
  have granted := sound.book.granted live
  refine ⟨discards.nextLease.ge, fun other _ => ?_, fun other _ => ?_, fun other isEnded => ?_,
    fun shared => ?_⟩
  · rw [discards.lease]
    by_cases this : other = id
    · rw [this, Function.update_self]
    · rw [Function.update_of_ne this]
  · rw [discards.lease, Finset.mem_singleton]
    by_cases this : other = id
    · rw [this, Function.update_self]
      simp
    · rw [Function.update_of_ne this]
      simp [this]
  · rw [Finset.mem_singleton.mp isEnded]
    exact ⟨granted, live⟩
  · have notSlot : s.exclusive ≠ some id := fun slot =>
      shared id (Finset.mem_singleton_self id) ((sound.book.slot id).mp slot).2
    rw [(State.discard_gives sound.book live notSlot).pendingRelease, State.vramOf,
      Finset.sum_singleton, sub_zero]

theorem release_closes (sound : Sound cfg s) (clock : ℕ → Time) (id : LeaseId) :
    ∃ ended, Closes s (s.release cfg clock id) ended 0 := by
  unfold State.release
  split_ifs with released
  · exact ⟨∅, (Quiet.refl s).closes⟩
  · rw [Bool.not_eq_true] at released
    have discarded := (discard_discards sound.book released).sound sound (sound.book.discard released)
    have told := (signalDrained_keeps discarded).1
    exact ⟨{id}, ((discard_closes sound released).after (signalDrained_quiet cfg _)).after
      (pump_admits clock told).2.toQuiet⟩

/-! ### What a reading does to the ledger -/

variable {at_ : Sampling} {request : ComputeRequest}

theorem nextInspection_inl {reading : Reading} {names : List String} {inspected : List (String × Inspection)}
    (found : s.nextInspection hasControl reading inspected names = .inl at_) :
    ∃ current rest inspected, at_ = .inspect reading current rest inspected := by
  induction names generalizing inspected with
  | nil => cases found
  | cons name names ih =>
    unfold State.nextInspection at found
    split_ifs at found
    · cases found
      exact ⟨_, _, _, rfl⟩
    · exact ih found
    · exact ih found

theorem sampleTurn_goesOn {next : Sampling} {answer : Answer}
    (taken : s.sampleTurn cfg hasControl now at_ answer = some (t, some next)) :
    t = s ∧ next.carried = at_.carried ∧ ∀ carried, next ≠ .probe carried := by
  have asked : ∀ reading inspected rest, s.advance cfg hasControl reading inspected rest =
      (t, some next) → t = s ∧ next.carried = reading.carried ∧ ∀ carried, next ≠ .probe carried := by
    intro reading inspected rest advanced
    unfold State.advance at advanced
    split at advanced
    · rename_i found
      obtain ⟨rfl, rfl⟩ : s = t ∧ _ = next := by simpa using advanced
      obtain ⟨current, rest, inspected, rfl⟩ := nextInspection_inl found
      exact ⟨rfl, rfl, nofun⟩
    · cases advanced
  unfold State.sampleTurn at taken
  split at taken
  · split at taken
    · cases taken
    · split at taken
      · cases taken
      · exact asked _ _ _ (Option.some.inj taken)
  · exact asked _ _ _ (Option.some.inj taken)
  · cases taken

theorem sampleTurn_ends {answer : Answer} (taken : s.sampleTurn cfg hasControl now at_ answer = some (t, none)) :
    t = s.loseSample ∨ ∃ reading inspected, reading.carried = at_.carried ∧
      t = s.publish cfg reading inspected := by
  have shown : ∀ reading inspected rest, s.advance cfg hasControl reading inspected rest = (t, none) →
      ∃ inspected, t = s.publish cfg reading inspected := by
    intro reading inspected rest advanced
    unfold State.advance at advanced
    split at advanced
    · cases advanced
    · rename_i inspected _
      cases advanced
      exact ⟨inspected, rfl⟩
  unfold State.sampleTurn at taken
  split at taken
  · split at taken
    · cases taken
      exact Or.inl rfl
    · split at taken
      · cases taken
        exact Or.inl rfl
      · obtain ⟨inspected, published⟩ := shown _ _ _ (Option.some.inj taken)
        exact Or.inr ⟨_, inspected, rfl, published⟩
  · obtain ⟨inspected, published⟩ := shown _ _ _ (Option.some.inj taken)
    exact Or.inr ⟨_, inspected, rfl, published⟩
  · cases taken

theorem publish_fields (cfg : ComputeConfig) (s : State) (reading : Reading)
    (inspected : List (String × Inspection)) :
    (s.publish cfg reading inspected).device = some reading.device ∧
      (s.publish cfg reading inspected).pendingRelease = s.pendingRelease - reading.carried := by
  unfold State.publish State.confirmReleases
  split_ifs with carries
  · exact ⟨rfl, rfl⟩
  · rw [not_not] at carries
    rw [carries, sub_zero]
    exact ⟨rfl, rfl⟩

theorem sampleTurn_closes {answer : Answer} (taken : s.sampleTurn cfg hasControl now at_ answer = some (t, none)) :
    Closes s t ∅ (if t.device.isSome then at_.carried else 0) := by
  rcases sampleTurn_ends taken with rfl | ⟨reading, inspected, carried, rfl⟩
  · exact Quiet.closes ⟨le_rfl, fun _ _ => ⟨rfl, rfl⟩, rfl⟩
  · obtain ⟨device, pending⟩ := publish_fields cfg s reading inspected
    have reads : Reads s (s.publish cfg reading inspected) := Reads.publish s reading inspected
    have same := reads.toSameBook
    rw [device, Option.isSome_some, if_pos rfl, ← carried]
    refine ⟨same.nextLease.ge, fun id _ => ?_, fun id _ => ?_, fun id none => ?_, fun _ => ?_⟩
    · obtain ⟨-, -, -, -, vram, -⟩ := same.terms_eq id
      exact vram
    · obtain ⟨-, -, -, -, -, released⟩ := same.terms_eq id
      rw [released]
      simp
    · exact absurd none (Finset.notMem_empty id)
    · rw [pending, State.vramOf, Finset.sum_empty, add_zero]

/-! ### What a coroutine does to the ledger -/

/-- A section of a coroutine, as the ledger sees it: what becomes of the reading it is in, and of the
pending releases. -/
def Tells (cfg : ComputeConfig) (hasControl : Bool) (now : Time) (s : State) (pc : Pc)
    (answer : Answer) (turn : Turn) : Prop :=
  match pc.reads cfg hasControl now s answer with
  | none => (∃ ended, Closes s turn.state ended 0) ∧ ∀ at_ ∈ turn.pc.bind Pc.sampling,
      pc.sampling = some at_ ∨ (pc.sampling = none ∧ at_ = .probe turn.state.pendingRelease)
  | some (t, some next) => turn.state = t ∧ turn.pc.bind Pc.sampling = some next
  | some (t, none) => Quiet t turn.state ∧
      ∀ at_ ∈ turn.pc.bind Pc.sampling, at_ = .probe turn.state.pendingRelease

variable {pc : Pc} {answer : Answer} {turn : Turn}

theorem Fine.tells {lock excl : Bool} (fine : Fine cfg lock excl s turn)
    (outside : pc.sampling = none) : Tells cfg hasControl now s pc answer turn := by
  unfold Tells Pc.reads
  rw [outside, Option.bind_none]
  refine ⟨⟨∅, fine.toQuiet.closes⟩, fun at_ mem => Or.inr ⟨rfl, ?_⟩⟩
  obtain ⟨next, isNext, sampling⟩ := Option.bind_eq_some_iff.mp mem
  exact fine.starts next isNext at_ sampling

theorem sampleInside_tells {around : Sampling → Pc} {sampled : State → Turn}
    (inside : pc.sampling = some at_) (around_sampling : ∀ at_, (around at_).sampling = some at_)
    (taken : s.sampleInside cfg hasControl now at_ answer around sampled = some turn)
    (sound : Sound cfg s)
    (ends : ∀ t, Reads s t → Sound cfg t → ∃ lock excl, Fine cfg lock excl t (sampled t)) :
    Tells cfg hasControl now s pc answer turn := by
  unfold State.sampleInside at taken
  obtain ⟨⟨t, next⟩, read, rfl⟩ := Option.map_eq_some_iff.mp taken
  unfold Tells Pc.reads
  rw [inside, Option.bind_some, read]
  cases next with
  | some next => exact ⟨rfl, around_sampling next⟩
  | none =>
    have reads := Reads.sampleTurn read
    obtain ⟨lock, excl, fine⟩ := ends t reads (reads.sound sound)
    refine ⟨fine.toQuiet, fun at_ mem => ?_⟩
    obtain ⟨pc, isPc, sampling⟩ := Option.bind_eq_some_iff.mp mem
    exact fine.starts pc isPc at_ sampling

theorem Tells.quiet (unread : ∀ at_, s.sampleTurn cfg hasControl now at_ answer = none)
    (quiet : Quiet s turn.state)
    (stays : ∀ next ∈ turn.pc.bind Pc.sampling, pc.sampling = some next) :
    Tells cfg hasControl now s pc answer turn := by
  have none : pc.reads cfg hasControl now s answer = none := by
    unfold Pc.reads
    cases pc.sampling with
    | none => rfl
    | some at_ => exact unread at_
  unfold Tells
  rw [none]
  exact ⟨⟨∅, quiet.closes⟩, fun next mem => Or.inl (stays next mem)⟩

theorem sampleTurn_other (probe : ∀ sample, answer ≠ .probed sample)
    (inspect : ∀ pids observed, answer ≠ .inspected pids observed) (at_ : Sampling) :
    s.sampleTurn cfg hasControl now at_ answer = none := by
  unfold State.sampleTurn
  split
  · exact absurd rfl (probe _)
  · exact absurd rfl (inspect _ _)
  · rfl

theorem actTurn_tells {action : Action} {child : Child} {position : Position} (sound : Sound cfg s)
    (taken : s.actTurn cfg hasControl clock now action child position answer = some turn) :
    Tells cfg hasControl now s (.refreshAct action child position) answer turn := by
  have pumped := fun t (sound : Sound cfg t) => (pump_admits clock sound).2.toQuiet
  unfold State.actTurn at taken
  split at taken
  · cases taken
    exact .quiet (sampleTurn_other (by simp) (by simp)) (Steers.performStart action s).quiet
      nofun
  · cases taken
    exact .quiet (sampleTurn_other (by simp) (by simp)) (Steers.performStart action s).quiet
      fun _ same => same
  · cases taken
    exact .quiet (sampleTurn_other (by simp) (by simp)) (Steers.acted action s _).quiet
      fun _ same => by cases position <;> exact same
  · cases taken
    exact .quiet (sampleTurn_other (by simp) (by simp)) (Steers.performFailed action cfg now s).quiet
      nofun
  · cases taken
    exact .quiet (sampleTurn_other (by simp) (by simp)) (.refl s) nofun
  · cases taken
    exact .quiet (sampleTurn_other (by simp) (by simp)) (.refl s) nofun
  · cases taken
    exact .quiet (sampleTurn_other (by simp) (by simp)) (pumped s sound) nofun
  · cases taken
    exact .quiet (sampleTurn_other (by simp) (by simp)) (pumped s sound) nofun
  · cases taken
    exact .quiet (sampleTurn_other (by simp) (by simp)) (.refl s) nofun
  · cases taken
    exact .quiet (sampleTurn_other (by simp) (by simp)) (.refl s) nofun
  · cases taken
    refine ⟨⟨∅, (Quiet.refl s).closes⟩, fun at_ mem => Or.inr ⟨rfl, ?_⟩⟩
    exact (Option.some.inj mem).symm
  · cases taken
    exact .quiet (sampleTurn_other (by simp) (by simp)) (.refl s) nofun
  · cases taken
    exact .quiet (sampleTurn_other (by simp) (by simp)) (.refl s) nofun
  · split at taken
    · cases taken
    · rename_i read
      cases taken
      unfold Tells Pc.reads
      rw [show Pc.sampling (.refreshAct action _ (.sampling _)) = some _ from rfl, Option.bind_some,
        read]
      exact ⟨rfl, rfl⟩
    · rename_i read
      have soundNow := (Reads.sampleTurn read).sound sound
      have admits := pump_admits clock soundNow
      unfold Tells Pc.reads
      rw [show Pc.sampling (.refreshAct action _ (.sampling _)) = some _ from rfl, Option.bind_some,
        read]
      dsimp only at taken ⊢
      split_ifs at taken <;> cases taken
      · exact ⟨admits.2.toQuiet.trans (pumped _ admits.1), nofun⟩
      · exact ⟨admits.2.toQuiet, nofun⟩
  · cases taken

theorem waitCancelled_tells {seq : ℕ} {placement : Placement} (sound : Sound cfg s) :
    Tells cfg hasControl now s (.acquireWait seq request placement) answer
      (s.waitCancelled cfg clock seq) := by
  have dropped := line_sound sound s.futures s.nextSeq (dropWaiter_queue sound seq)
  have same := line_book s (s.dropWaiter seq).waiters s.futures s.nextSeq
  unfold State.waitCancelled
  dsimp only
  split
  · rename_i id _
    obtain ⟨ended, closes⟩ := release_closes dropped clock id
    exact ⟨⟨ended, closes.before same rfl⟩, nofun⟩
  · exact ⟨⟨∅, Quiet.closes ⟨le_rfl, fun _ _ => ⟨rfl, rfl⟩, rfl⟩⟩, nofun⟩

theorem exclusiveCancelled_tells (sound : Sound cfg s) (asserts : pc.Asserts cfg s)
    (exclusive : pc.isExclusive = true) :
    Tells cfg hasControl now s pc .cancelled (s.exclusiveCancelled cfg clock now pc) := by
  have free := (Asked.not_exclusive asserts exclusive).2
  refine .quiet (sampleTurn_other (by simp) (by simp)) ?_ fun _ none => ?_
  · unfold State.exclusiveCancelled
    split
    · have failed : Fine cfg true true s
          (({ s with drained := none }).failExclusive cfg clock .cancelled) :=
        failDrain_fine sound free
      exact failed.toQuiet
    · exact (failAction_fine sound free).toQuiet
    · have failed : Fine cfg true true s (s.failExclusive cfg clock .cancelled) :=
        failExclusive_fine sound free
      exact failed.toQuiet
  · unfold State.exclusiveCancelled at none
    split at none <;> cases none

theorem turn_tells (sound : Sound cfg s) (asserts : pc.Asserts cfg s)
    (taken : s.turn cfg hasControl clock now pc answer = some turn) :
    Tells cfg hasControl now s pc answer turn := by
  have ended : ∀ {pc : Pc} {outcome : Outcome},
      Tells cfg hasControl now s pc .cancelled (.ends s outcome) :=
    .quiet (sampleTurn_other (by simp) (by simp)) (.refl s) nofun
  have starts : ∀ {pc next : Pc} {answer : Answer}, pc.sampling = none →
      next.sampling = some s.beginSample → Tells cfg hasControl now s pc answer (.waits s next) := by
    intro pc next answer outside begins
    unfold Tells Pc.reads
    rw [outside, Option.bind_none]
    refine ⟨⟨∅, (Quiet.refl s).closes⟩, fun at_ mem => Or.inr ⟨rfl, ?_⟩⟩
    have isNext : next.sampling = some at_ := mem
    exact Option.some.inj (isNext.symm.trans begins)
  unfold State.turn at taken
  split at taken
  · cases taken
    exact waitCancelled_tells sound
  · cases taken
    exact (waitEnded_fine sound asserts).tells rfl
  · split_ifs at taken
    cases taken
    exact (waitEnded_fine sound asserts).tells rfl
  · cases taken
    exact ended
  · cases taken
    exact starts rfl rfl
  · cases taken
    exact ended
  · exact sampleInside_tells rfl (fun _ => rfl) taken sound fun _ _ soundNow =>
      ⟨_, _, refreshSampled_fine soundNow⟩
  · exact actTurn_tells sound taken
  · rename_i notWait notRefresh notSample notAct
    cases taken
    have exclusive : pc.isExclusive = true := by
      cases pc <;> first | rfl | (exfalso; simp_all)
    exact exclusiveCancelled_tells sound asserts exclusive
  · cases taken
    exact starts rfl rfl
  · exact sampleInside_tells rfl (fun _ => rfl) taken sound fun _ reads soundNow =>
      ⟨_, _, startSampled_fine soundNow (Asked.stable_normal asserts reads.outside).1
        (Asked.stable_normal asserts reads.outside).2⟩
  · cases taken
    exact ⟨⟨∅, (Quiet.refl s).closes⟩, nofun⟩
  · cases taken
    exact starts rfl rfl
  · exact sampleInside_tells rfl (fun _ => rfl) taken sound fun _ reads soundNow =>
      ⟨_, _, roomSampled_fine soundNow (Asked.stable_normal asserts reads.outside).1
        (Asked.stable_normal asserts reads.outside).2⟩
  · split_ifs at taken with told
    cases taken
    exact (drained_fine sound asserts.1 asserts.2.1 (asserts.2.2 told)).tells rfl
  · cases taken
    have failed : ∀ outcome,
        Fine cfg false true s (({ s with drained := none }).failExclusive cfg clock outcome) :=
      fun _ => failDrain_fine sound (by rw [asserts.2.1]; decide)
    exact (failed _).tells rfl
  · cases taken
    exact starts rfl rfl
  · exact sampleInside_tells rfl (fun _ => rfl) taken sound fun _ reads soundNow =>
      ⟨_, _, drainSampled_fine soundNow (Emptied.stable asserts reads.outside)⟩
  · cases taken
    exact (emptyOn_fine sound asserts.1 asserts.2.1 asserts.2.2).tells rfl
  · cases taken
    exact (failAction_fine sound (by rw [asserts.1.mode]; decide)).tells rfl
  · exact sampleInside_tells rfl (fun _ => rfl) taken sound fun _ reads soundNow =>
      ⟨_, _, verifySampled_fine soundNow (asserts.1.stable reads.outside)
        (reads.noneCounts asserts.2)⟩
  · cases taken
    exact (freedAnswered_fine sound asserts.1 asserts.2).tells rfl
  · cases taken
    exact starts rfl rfl
  · cases taken

/-! ### What an event does to the ledger -/

variable {y y' : System} {tick : Tick}

theorem Pc.holdsLock_of_sampling (inside : pc.sampling = some at_) :
    pc.holdsLock = true := by
  cases pc with
  | refreshAct action child position => rfl
  | _ => first | rfl | cases inside

theorem SystemSound.sampling_unique (inv : SystemSound cfg y) {task other : TaskId}
    {otherAt : Sampling} (first : y.samplingOf task = some at_)
    (second : y.samplingOf other = some otherAt) : task = other := by
  obtain ⟨pc, here, inside⟩ := Option.bind_eq_some_iff.mp first
  obtain ⟨otherPc, there, otherInside⟩ := Option.bind_eq_some_iff.mp second
  have mine := inv.owner task pc here (Pc.holdsLock_of_sampling inside)
  have theirs := inv.owner other otherPc there (Pc.holdsLock_of_sampling otherInside)
  exact Option.some.inj (mine.symm.trans theirs)

/-- An event, as the ledger sees it. -/
structure Turns (cfg : ComputeConfig) (hasControl : Bool) (y y' : System) (tick : Tick) : Prop where
  /-- It ends leases, and takes what a published reading carried off the pending releases. -/
  closes : ∃ ended carried, Closes y.sched y'.sched ended carried ∧
    if y.publishes cfg hasControl tick then ∃ task at_, y.samplingOf task = some at_ ∧
      carried = at_.carried else carried = 0
  sampling : ∀ task at_, y'.samplingOf task = some at_ →
    if y.startsReading cfg hasControl y' tick then at_ = .probe y'.sched.pendingRelease
    else y.publishes cfg hasControl tick = false ∧
      ∃ before, y.samplingOf task = some before ∧ at_.carried = before.carried

theorem Turns.call {ended : Finset LeaseId} (closes : Closes y.sched y'.sched ended 0)
    (event : ∀ task answer, tick.event ≠ .resume task answer)
    (sampling : ∀ task at_, y'.samplingOf task = some at_ → y.samplingOf task = some at_) :
    Turns cfg hasControl y y' tick := by
  have notPublished : y.publishes cfg hasControl tick = false := by
    unfold System.publishes System.reads
    split
    · rename_i found
      split at found
      · exact absurd ‹_› (event _ _)
      · cases found
    · rfl
  have notStarted : y.startsReading cfg hasControl y' tick = false := by
    unfold System.startsReading
    split
    · exact absurd ‹_› (event _ _)
    · rfl
  refine ⟨⟨ended, 0, closes, ?_⟩, fun task at_ inside => ?_⟩
  · rw [notPublished, if_neg Bool.false_ne_true]
  · rw [notStarted, if_neg Bool.false_ne_true]
    exact ⟨notPublished, at_, sampling task at_ inside, rfl⟩

theorem put_samplingOf (y : System) (task other : TaskId) (turn : Turn) :
    (y.put task turn).samplingOf other =
      if other = task then turn.pc.bind Pc.sampling else y.samplingOf other := by
  unfold System.samplingOf System.put
  dsimp only
  split_ifs with same
  · rw [same, Function.update_self]
  · rw [Function.update_of_ne same]

structure Resumes (cfg : ComputeConfig) (hasControl : Bool) (y y' : System) (tick : Tick)
    (task : TaskId) (pc : Pc) (answer : Answer) (turn : Turn) : Prop where
  event : tick.event = .resume task answer
  here : y.tasks task = some pc
  taken : y.sched.turn cfg hasControl tick.clock tick.now pc answer = some turn
  after : y' = y.put task turn

namespace Resumes

variable {task : TaskId}

theorem samplingBefore (resumes : Resumes cfg hasControl y y' tick task pc answer turn) :
    y.samplingOf task = pc.sampling := by
  unfold System.samplingOf
  rw [resumes.here, Option.bind_some]

theorem samplingNow (resumes : Resumes cfg hasControl y y' tick task pc answer turn) :
    y'.samplingOf task = turn.pc.bind Pc.sampling := by
  rw [resumes.after, put_samplingOf, if_pos rfl]

theorem sched (resumes : Resumes cfg hasControl y y' tick task pc answer turn) :
    y'.sched = turn.state := by
  rw [resumes.after]
  rfl

theorem reads (resumes : Resumes cfg hasControl y y' tick task pc answer turn) :
    y.reads cfg hasControl tick = pc.reads cfg hasControl tick.now y.sched answer := by
  unfold System.reads
  rw [resumes.event]
  dsimp only
  rw [resumes.here, Option.bind_some]

theorem starts (resumes : Resumes cfg hasControl y y' tick task pc answer turn) :
    y.startsReading cfg hasControl y' tick =
      match turn.pc.bind Pc.sampling with
      | some (.probe _) =>
        pc.sampling.isNone || (pc.reads cfg hasControl tick.now y.sched answer).isSome
      | _ => false := by
  unfold System.startsReading
  rw [resumes.event]
  dsimp only
  rw [resumes.samplingNow, resumes.samplingBefore, resumes.reads]

theorem publishes (resumes : Resumes cfg hasControl y y' tick task pc answer turn) :
    y.publishes cfg hasControl tick =
      match pc.reads cfg hasControl tick.now y.sched answer with
      | some (s, none) => s.device.isSome
      | _ => false := by
  unfold System.publishes
  rw [resumes.reads]

theorem others (resumes : Resumes cfg hasControl y y' tick task pc answer turn)
    (inv : SystemSound cfg y) (inv' : SystemSound cfg y') {other : TaskId} {at_ : Sampling}
    (different : other ≠ task) (inside : y'.samplingOf other = some at_) :
    y.startsReading cfg hasControl y' tick = false ∧ y.publishes cfg hasControl tick = false ∧
      y.samplingOf other = some at_ := by
  have same : y.samplingOf other = some at_ := by
    rw [resumes.after, put_samplingOf, if_neg different] at inside
    exact inside
  have unread : pc.sampling = none := by
    cases sampling : pc.sampling with
    | none => rfl
    | some mine => exact absurd (inv.sampling_unique same (resumes.samplingBefore.trans sampling)) different
  have idle : turn.pc.bind Pc.sampling = none := by
    cases sampling : turn.pc.bind Pc.sampling with
    | none => rfl
    | some mine => exact absurd (inv'.sampling_unique inside (resumes.samplingNow.trans sampling)) different
  refine ⟨by rw [resumes.starts, idle], ?_, same⟩
  rw [resumes.publishes, Pc.reads, unread, Option.bind_none]

theorem turns (resumes : Resumes cfg hasControl y y' tick task pc answer turn)
    (inv : SystemSound cfg y) (inv' : SystemSound cfg y')
    (closes : ∃ ended carried, Closes y.sched y'.sched ended carried ∧
      if y.publishes cfg hasControl tick then ∃ task at_, y.samplingOf task = some at_ ∧
        carried = at_.carried else carried = 0)
    (own : ∀ at_, turn.pc.bind Pc.sampling = some at_ →
      if y.startsReading cfg hasControl y' tick then at_ = .probe y'.sched.pendingRelease
      else y.publishes cfg hasControl tick = false ∧
        ∃ before, pc.sampling = some before ∧ at_.carried = before.carried) :
    Turns cfg hasControl y y' tick := by
  refine ⟨closes, fun other at_ inside => ?_⟩
  by_cases same : other = task
  · rw [same, resumes.samplingNow] at inside
    rw [same, resumes.samplingBefore]
    exact own at_ inside
  · obtain ⟨still, unpublished, goesOn⟩ := resumes.others inv inv' same inside
    rw [still, if_neg Bool.false_ne_true]
    exact ⟨unpublished, at_, goesOn, rfl⟩

theorem follows (resumes : Resumes cfg hasControl y y' tick task pc answer turn)
    (inv : SystemSound cfg y) (inv' : SystemSound cfg y') : Turns cfg hasControl y y' tick := by
  have tells := turn_tells inv.sound (inv.asserts task pc resumes.here) resumes.taken
  have publishes := resumes.publishes
  have starts := resumes.starts
  unfold Tells at tells
  rw [← resumes.sched] at tells
  cases read : pc.reads cfg hasControl tick.now y.sched answer with
  | none =>
    rw [read] at tells publishes starts
    obtain ⟨⟨ended, closes⟩, sampling⟩ := tells
    refine resumes.turns inv inv'
      ⟨ended, 0, closes, by rw [publishes, if_neg Bool.false_ne_true]⟩ fun at_ inside => ?_
    rw [inside] at starts
    rcases sampling at_ inside with goesOn | ⟨outside, begins⟩
    · rw [goesOn] at starts
      have still : y.startsReading cfg hasControl y' tick = false := by
        rw [starts]
        cases at_ <;> rfl
      rw [still, if_neg Bool.false_ne_true]
      exact ⟨publishes, at_, goesOn, rfl⟩
    · rw [begins, outside] at starts
      rw [starts]
      exact begins
  | some result =>
    obtain ⟨t, next⟩ := result
    rw [read] at tells publishes starts
    obtain ⟨mine, isMine, answered⟩ := Option.bind_eq_some_iff.mp read
    cases next with
    | some next =>
      obtain ⟨same, goesOn⟩ := tells
      obtain ⟨rfl, carried, notProbe⟩ := sampleTurn_goesOn answered
      rw [goesOn] at starts
      have still : y.startsReading cfg hasControl y' tick = false := by
        rw [starts]
        cases next with
        | probe bytes => exact absurd rfl (notProbe bytes)
        | inspect => rfl
      have closes : Closes y.sched y'.sched ∅ 0 := by
        rw [same]
        exact (Quiet.refl _).closes
      refine resumes.turns inv inv' ⟨∅, 0, closes, by rw [publishes, if_neg Bool.false_ne_true]⟩
        fun at_ inside => ?_
      rw [goesOn, Option.some.injEq] at inside
      rw [still, if_neg Bool.false_ne_true, ← inside]
      exact ⟨publishes, mine, isMine, carried⟩
    | none =>
      obtain ⟨quiet, begins⟩ := tells
      refine resumes.turns inv inv' ⟨∅, _, (sampleTurn_closes answered).after quiet, ?_⟩
        fun at_ inside => ?_
      · rw [publishes]
        dsimp only
        split_ifs
        · exact ⟨task, mine, resumes.samplingBefore.trans isMine, rfl⟩
        · rfl
      · have begun := begins at_ inside
        rw [inside, begun, Option.isSome_some, Bool.or_true] at starts
        rw [starts, if_pos rfl]
        exact begun

end Resumes

theorem acquire_sampling {waitSeconds cloudAfter : Time} {drainSeconds : Option Time} :
    (s.acquire cfg now request waitSeconds cloudAfter drainSeconds).pc.bind Pc.sampling = none := by
  unfold State.acquire
  split_ifs
  · unfold State.beginExclusive
    split_ifs <;> rfl
  · unfold State.acquireShared
    split
    · rfl
    · split_ifs <;> rfl
  · rfl

theorem acquire_quiet {waitSeconds cloudAfter : Time} {drainSeconds : Option Time} (sound : Sound cfg s) :
    Quiet s (s.acquire cfg now request waitSeconds cloudAfter drainSeconds).state := by
  unfold State.acquire
  split_ifs with known exclusive
  · unfold State.beginExclusive
    split_ifs with busy
    · exact .refl s
    · exact ⟨le_rfl, fun _ _ => ⟨rfl, rfl⟩, rfl⟩
  · exact (acquireShared_fine sound ⟨known, exclusive⟩).toQuiet
  · exact .refl s

theorem step_turns (inv : SystemSound cfg y) (taken : y.step cfg hasControl tick = some y') :
    Turns cfg hasControl y y' tick := by
  have inv' := inv.step taken
  have releases : ∀ id, (∀ task answer, tick.event ≠ .resume task answer) →
      Turns cfg hasControl y { y with sched := y.sched.release cfg tick.clock id } tick := by
    intro id event
    obtain ⟨ended, closes⟩ := release_closes inv.sound tick.clock id
    exact .call closes event fun _ _ inside => inside
  have stays : ∀ t, Quiet y.sched t → (∀ task answer, tick.event ≠ .resume task answer) →
      Turns cfg hasControl y { y with sched := t } tick := fun _ quiet event =>
    .call quiet.closes event fun _ _ inside => inside
  unfold System.step at taken
  dsimp only at taken
  split at taken
  all_goals rename_i event
  · split_ifs at taken
    cases taken
    refine .call (acquire_quiet inv.sound).closes (by simp [event]) fun other at_ inside => ?_
    rw [put_samplingOf] at inside
    split_ifs at inside
    · rw [acquire_sampling] at inside
      cases inside
    · exact inside
  · split_ifs at taken with shared
    cases taken
    exact stays _ (tryAcquire_fine tick.now inv.sound shared).toQuiet (by simp [event])
  · split_ifs at taken
    cases taken
    refine .call (Quiet.refl y.sched).closes (by simp [event]) fun other at_ inside => ?_
    rw [put_samplingOf] at inside
    split_ifs at inside
    · cases inside
    · exact inside
  · cases taken
    unfold State.releaseLease
    split
    · split_ifs
      · exact releases _ (by simp [event])
      · exact stays _ (.refl _) (by simp [event])
    · exact releases _ (by simp [event])
  · split at taken
    · rename_i resized
      cases taken
      exact stays _ (resize_admits inv.sound resized).2.toQuiet (by simp [event])
    · cases taken
      exact stays _ (.refl _) (by simp [event])
  · rename_i id work
    cases taken
    refine stays _ ?_ (by simp [event])
    unfold State.holdUntil
    split_ifs
    · exact .refl _
    · have same := SameBook.setLease y.sched id { y.sched.lease id with held := some work } rfl
      exact SameControl.quiet ⟨rfl, rfl, rfl, rfl⟩
        ⟨same.leases, same.reservedTokens, same.reservedByClass, same.terms, rfl, rfl, rfl⟩
  · cases taken
    exact stays _ ⟨le_rfl, fun _ _ => ⟨rfl, rfl⟩, rfl⟩ (by simp [event])
  · split_ifs at taken
    cases taken
    exact releases _ (by simp [event])
  · cases taken
    unfold State.forceReleaseExclusive
    split
    · exact stays _ (.refl _) (by simp [event])
    · rename_i id _
      have same := SameBook.setLease y.sched id { y.sched.lease id with revoked := true } rfl
      have marked := inv.sound.of_same same rfl rfl fun _ none => none
      obtain ⟨ended, closes⟩ := release_closes marked tick.clock id
      exact .call (closes.before same rfl) (by simp [event]) fun _ _ inside => inside
  · cases taken
    exact stays _ (Steers.revoke cfg y.sched _).quiet (by simp [event])
  · unfold System.resume at taken
    split at taken
    · cases taken
    · rename_i here
      split at taken
      · split_ifs at taken
        obtain ⟨turn, ran, after⟩ := Option.map_eq_some_iff.mp taken
        exact Resumes.follows ⟨event, here, ran, after.symm⟩ inv inv'
      · obtain ⟨turn, ran, after⟩ := Option.map_eq_some_iff.mp taken
        exact Resumes.follows ⟨event, here, ran, after.symm⟩ inv inv'

end

/-! ### The books keep the ledger -/

/-- The pending releases are the leases owed, and a reading in progress carries those it can see, so
long as no Exclusive lease has ended. -/
structure Tracked (y : System) (ledger : Ledger) : Prop where
  ended : ∀ id ∈ ledger.owed, id < y.sched.nextLease ∧ (y.sched.lease id).released = true
  visible : ledger.visible ⊆ ledger.owed
  pendingRelease : ledger.clean = true → y.sched.pendingRelease = y.sched.vramOf ledger.owed
  carried : ledger.clean = true → ∀ task at_, y.samplingOf task = some at_ →
    at_.carried = y.sched.vramOf ledger.visible

namespace Tracked

variable {cfg : ComputeConfig} {hasControl : Bool} {y y' : System} {tick : Tick} {ledger : Ledger}

theorem initial (cfg : ComputeConfig) : Tracked (.initial cfg) .opening where
  ended id none := absurd none (Finset.notMem_empty id)
  visible := subset_rfl
  pendingRelease _ := rfl
  carried _ _ _ none := nomatch none

theorem vramOf_congr {s t : State} {ids : Finset LeaseId}
    (same : ∀ id ∈ ids, (t.lease id).vramBytes = (s.lease id).vramBytes) :
    t.vramOf ids = s.vramOf ids :=
  Finset.sum_congr rfl same

theorem step (tracked : Tracked y ledger) (inv : SystemSound cfg y)
    (taken : y.step cfg hasControl tick = some y') :
    Tracked y' (ledger.next cfg hasControl y y' tick) := by
  obtain ⟨⟨ended, carried, closes, published⟩, sampling⟩ := step_turns inv taken
  have isEnded := closes.ended_eq
  have keptOwed : (if y.publishes cfg hasControl tick then ledger.owed \ ledger.visible
      else ledger.owed) ⊆ ledger.owed := by
    split_ifs
    · exact Finset.sdiff_subset
    · exact subset_rfl
  have old : ∀ id ∈ ledger.owed ∪ ended, (y'.sched.lease id).vramBytes = (y.sched.lease id).vramBytes := by
    intro id mem
    rcases Finset.mem_union.mp mem with owed | new
    · exact closes.vram id (tracked.ended id owed).1
    · exact closes.vram id (closes.live id new).1
  unfold Ledger.next
  rw [isEnded]
  dsimp only
  set kept := if y.publishes cfg hasControl tick then ledger.owed \ ledger.visible else ledger.owed
    with keptIs
  have inside : kept ∪ ended ⊆ ledger.owed ∪ ended := Finset.union_subset_union_left keptOwed
  -- What is pending after the event is what the ledger owes then.
  have pending : (ledger.clean && decide (∀ id ∈ ended,
      (y.sched.lease id).resourceClass ≠ .exclusive)) = true →
      y'.sched.pendingRelease = y'.sched.vramOf (kept ∪ ended) := by
    intro clean
    rw [Bool.and_eq_true, decide_eq_true_iff] at clean
    have apart : Disjoint kept ended := Finset.disjoint_left.mpr fun id owed new => by
      have gone := (tracked.ended id (keptOwed owed)).2
      rw [(closes.live id new).2] at gone
      cases gone
    rw [vramOf_congr fun id mem => old id (inside mem), closes.pendingRelease clean.2,
      tracked.pendingRelease clean.1]
    unfold State.vramOf
    rw [Finset.sum_union apart]
    congr 1
    split_ifs at published keptIs with publishes
    · obtain ⟨task, at_, reading, rfl⟩ := published
      rw [tracked.carried clean.1 task at_ reading, keptIs]
      exact (Finset.sum_sdiff_eq_sub tracked.visible).symm
    · rw [published, sub_zero, keptIs]
  refine ⟨fun id mem => ?_, ?_, pending, fun clean task at_ reading => ?_⟩
  · rcases Finset.mem_union.mp (inside mem) with owed | new
    · obtain ⟨granted, gone⟩ := tracked.ended id owed
      exact ⟨granted.trans_le closes.next, (closes.released id granted).mpr (Or.inl gone)⟩
    · obtain ⟨granted, -⟩ := closes.live id new
      exact ⟨granted.trans_le closes.next, (closes.released id granted).mpr (Or.inr new)⟩
  · split_ifs
    · exact subset_rfl
    · exact Finset.inter_subset_right
  · have goesOn := sampling task at_ reading
    split_ifs at goesOn ⊢
    · rw [goesOn]
      exact pending clean
    · obtain ⟨unpublished, before, was, same⟩ := goesOn
      rw [Bool.and_eq_true] at clean
      have all : ledger.visible ∩ (kept ∪ ended) = ledger.visible := by
        rw [keptIs, unpublished, if_neg Bool.false_ne_true]
        exact Finset.inter_eq_left.mpr (tracked.visible.trans Finset.subset_union_left)
      rw [same, tracked.carried clean.1 task before was, all]
      exact (vramOf_congr fun id mem =>
        old id (Finset.mem_union_left _ (tracked.visible mem))).symm

end Tracked

theorem reachable_tracked {cfg : ComputeConfig} {hasControl : Bool} {z : System × Ledger}
    (reach : (Ledger.machine cfg hasControl).Reachable z) :
    SystemSound cfg z.1 ∧ Tracked z.1 z.2 := by
  refine reach.invariant (P := fun z => SystemSound cfg z.1 ∧ Tracked z.1 z.2) ?_ ?_
  · rintro _ rfl
    exact ⟨.initial cfg, .initial cfg⟩
  · rintro z tick z' - ⟨inv, tracked⟩ taken
    obtain ⟨y', step, rfl⟩ := Option.map_eq_some_iff.mp taken
    exact ⟨inv.step step, tracked.step inv step⟩

/-! ### The result -/

section

variable {cfg : ComputeConfig} {hasControl : Bool} {s : State} {z : System × Ledger} {device : GpuDevice}

theorem available_pump_le (sound : Sound cfg s) (clock : ℕ → Time) (reading : s.device = some device) :
    ((s.pump cfg clock).vram cfg device).available ≤ (s.vram cfg device).available := by
  have follows := (State.turns_follow clock s.served (show Sound cfg s.opening.state from sound)
    (State.served_shared sound)).2
  have committed := follows.state.committed device reading
  rw [State.vram_available, State.vram_available]
  exact sub_le_sub_left committed _

theorem signalDrained_vram (cfg : ComputeConfig) (s : State) (device : GpuDevice) :
    (s.signalDrained cfg).vram cfg device = s.vram cfg device ∧
      (s.signalDrained cfg).device = s.device := by
  unfold State.signalDrained
  split_ifs <;> exact ⟨rfl, rfl⟩

theorem available_release_le (sound : Sound cfg s) (nonneg : 0 ≤ s.extraReserved cfg)
    (clock : ℕ → Time) {id : LeaseId} (live : (s.lease id).released = false)
    (shared : (s.lease id).resourceClass ≠ .exclusive) (reading : s.device = some device) :
    ((s.release cfg clock id).vram cfg device).available ≤ (s.vram cfg device).available := by
  have notSlot : s.exclusive ≠ some id := fun slot => shared ((sound.book.slot id).mp slot).2
  have discarded := (discard_discards sound.book live).sound sound (sound.book.discard live)
  have told := (signalDrained_keeps discarded).1
  obtain ⟨sameView, sameDevice⟩ := signalDrained_vram cfg (s.discard cfg id) device
  have device_ := (State.discard_gives sound.book live notSlot).device
  have absorbed : 0 ≤ min (s.lease id).vramBytes (s.vram cfg device).extraUse := by
    refine le_min (sound.book.wellFormed id (sound.book.granted live)).vram ?_
    rw [State.vram_extraUse]
    exact Reservation.use_nonneg nonneg
  unfold State.release
  rw [if_neg (by rw [live]; exact Bool.false_ne_true)]
  calc _ ≤ (((s.discard cfg id).signalDrained cfg).vram cfg device).available :=
        available_pump_le told clock (sameDevice.trans (device_.trans reading))
    _ = (s.vram cfg device).available - min (s.lease id).vramBytes (s.vram cfg device).extraUse := by
        rw [sameView, State.available_discard sound nonneg live notSlot reading]
    _ ≤ (s.vram cfg device).available := sub_le_self _ absorbed

/-- No VRAM is promised twice: what is promised is the VRAM of the live leases and of the leases
owed. -/
structure Promises (cfg : ComputeConfig) (s : State) (sampling : TaskId → Option Sampling)
    (ledger : Ledger) : Prop where
  /-- The bytes of an ended lease stay promised until a reading that started since is published. -/
  counted : s.extraReserved cfg = s.liveVram + s.vramOf ledger.owed
  /-- A grant costs exactly the bytes of its lease. -/
  grant : ∀ now request queue placement device, Shared cfg request →
    s.judge cfg now request queue = (none, placement) → s.device = some device →
    ((s.grantLocal cfg request placement now).vram cfg device).available =
      (s.vram cfg device).available - if placement = .localGpu then request.vramBytes else 0
  release : ∀ clock id device, (s.lease id).released = false →
    (s.lease id).resourceClass ≠ .exclusive → s.device = some device →
    ((s.release cfg clock id).vram cfg device).available ≤ (s.vram cfg device).available
  /-- A reading frees, of the leases that ended before it started, the part it does not show
  absorbed. -/
  publish : ∀ task at_, sampling task = some at_ → ∀ reading inspected,
    reading.carried = at_.carried →
    let shown := s.showReading cfg reading inspected
    ((s.publish cfg reading inspected).vram cfg reading.device).available =
      (shown.vram cfg reading.device).available + (s.vramOf ledger.visible -
        min (s.vramOf ledger.visible) (shown.vram cfg reading.device).extraUse)

theorem vramOf_nonneg (book : LeaseBook cfg s) {ids : Finset LeaseId}
    (granted : ∀ id ∈ ids, id < s.nextLease) : 0 ≤ s.vramOf ids :=
  Finset.sum_nonneg fun id mem => (book.wellFormed id (granted id mem)).vram

theorem showReading_extraReserved (s : State) (reading : Reading)
    (inspected : List (String × Inspection)) :
    (s.showReading cfg reading inspected).extraReserved cfg = s.extraReserved cfg := by
  have leases : ∀ name, ((s.showReading cfg reading inspected).deployments name).leases =
      (s.deployments name).leases := by
    intro name
    unfold State.showReading
    dsimp only
    split_ifs
    · exact (Reads.publishEntry_keeps _ _ _ _).1
    · rfl
  have shared : (s.showReading cfg reading inspected).sharedVram cfg = s.sharedVram cfg := by
    refine congrArg List.sum (List.map_congr_left fun name _ => ?_)
    rw [leases]
    rfl
  unfold State.extraReserved
  rw [shared]
  rfl

/-- In every state of a run in which no Exclusive lease has ended, no VRAM is promised twice. -/
theorem vram_promised_once (reach : (Ledger.machine cfg hasControl).Reachable z)
    (clean : z.2.clean = true) : Promises cfg z.1.sched z.1.samplingOf z.2 := by
  obtain ⟨inv, tracked⟩ := reachable_tracked reach
  have sound := inv.sound
  have counted : z.1.sched.extraReserved cfg = z.1.sched.liveVram + z.1.sched.vramOf z.2.owed := by
    rw [State.extraReserved_eq sound, tracked.pendingRelease clean, add_comm]
  have live := State.liveVram_nonneg sound.book
  have owed := vramOf_nonneg sound.book fun id member => (tracked.ended id member).1
  have nonneg : 0 ≤ z.1.sched.extraReserved cfg := by
    rw [counted]
    exact add_nonneg live owed
  refine ⟨counted, fun now request queue placement device shared judged reading => ?_,
    fun clock id device live shared reading => available_release_le sound nonneg clock live shared
      reading, fun task at_ inside reading inspected carried => ?_⟩
  · exact State.available_grantLocal sound nonneg shared (State.judge_admits judged) reading
  · have seen : reading.carried = z.1.sched.vramOf z.2.visible :=
      carried.trans (tracked.carried clean task at_ inside)
    have seenNonneg : 0 ≤ reading.carried := by
      rw [seen]
      exact vramOf_nonneg sound.book fun id member => (tracked.ended id (tracked.visible member)).1
    have within : reading.carried ≤
        (z.1.sched.showReading cfg reading inspected).extraReserved cfg := by
      rw [showReading_extraReserved, counted, seen]
      have part : z.1.sched.vramOf z.2.visible ≤ z.1.sched.vramOf z.2.owed :=
        Finset.sum_le_sum_of_subset_of_nonneg tracked.visible fun id member _ =>
          (sound.book.wellFormed id (tracked.ended id member).1).vram
      omega
    rw [← seen]
    exact State.available_confirmReleases seenNonneg within

end

/-! ### A run that releases a shared lease, and one that releases an Exclusive one -/

def gpuConfig : ComputeConfig :=
  { soloConfig with
    deployments := [
      { name := "memory", role := .memoryWorker, weightsBytes := 8, runtimeBytes := 2, kvBytesPerToken := 7,
        maxSequences := 2, maxContextTokens := 256, initial := .gpu }]
    deployments_given := by decide
    names_nodup := by decide }

/-- A reading is published, a lease of 5 bytes is granted and released, and a reading starts. -/
def gpuTicks : List Tick :=
  [Event.refresh 0, .resume 0 .proceed, .resume 0 (.probed (some ⟨[⟨0, "gpu", 100, 9⟩], []⟩)),
    .tryAcquire
      { resourceClass := .interactive, deployment := some "memory", contextTokens := 6, vramBytes := 5 },
    .release 0, .refresh 0, .resume 0 .proceed].map fun event => ⟨0, fun _ => 0, event⟩

def gpuReleased : System × Ledger :=
  ((Ledger.machine gpuConfig false).run (.initial gpuConfig, .opening) gpuTicks).getD
    (.initial gpuConfig, .opening)

/-- There the bytes of the released lease are promised still, and the reading in progress can see
them. -/
theorem gpuReleased_promised :
    gpuReleased.2.owed = {0} ∧ gpuReleased.2.visible = {0} ∧
      gpuReleased.1.sched.extraReserved gpuConfig = 5 ∧
      Promises gpuConfig gpuReleased.1.sched gpuReleased.1.samplingOf gpuReleased.2 := by
  have ran : ((Ledger.machine gpuConfig false).run (.initial gpuConfig, .opening) gpuTicks).isSome =
      true := by with_unfolding_all decide
  have start : (Ledger.machine gpuConfig false).Reachable (.initial gpuConfig, .opening) := .start rfl
  have reach : (Ledger.machine gpuConfig false).Reachable gpuReleased :=
    start.run (Option.getD_of_ne_none (Option.isSome_iff_ne_none.mp ran) _).symm
  refine ⟨?_, ?_, ?_, vram_promised_once reach ?_⟩ <;> with_unfolding_all decide

/-- A release of the Exclusive lease frees its bytes at once: 4 bytes of a device of 10 with a headroom
of 2 were available over the reading, and 8 are over the same one after it. -/
theorem soloHeld_freed :
    (System.machine soloConfig false).Reachable soloHeld ∧
      (soloHeld.sched.lease 1).released = false ∧ (soloHeld.sched.lease 1).vramBytes = 4 ∧
      ∃ device, soloHeld.sched.device = some device ∧
        (soloHeld.sched.release soloConfig (fun _ => 0) 1).device = some device ∧
        (soloHeld.sched.release soloConfig (fun _ => 0) 1).sampledAt = soloHeld.sched.sampledAt ∧
        (soloHeld.sched.vram soloConfig device).available = 4 ∧
        ((soloHeld.sched.release soloConfig (fun _ => 0) 1).vram soloConfig device).available = 8 := by
  refine ⟨soloHeld_reachable, ?_, ?_, ⟨0, "gpu", 10, 0⟩, ?_⟩ <;> with_unfolding_all decide

end PawBackend.Compute
