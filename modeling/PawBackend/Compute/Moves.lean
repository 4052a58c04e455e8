/-
**Releases, model moves and readings as sections.** The counterpart of `Sections` for what is not an
admission: a release (`release_keeps`), a resize (`resize_admits`), the decisions and the actions about
the models, which never touch the books (`Steers`), and a reading, after which no model counts on the
GPU that did not before (`Reads`).
-/

import PawBackend.Compute.Sections
import PawBackend.Compute.Coroutines

namespace PawBackend.Compute

variable {cfg : ComputeConfig} {s t u : State}

/-! ### Releases -/

structure Discards (s t : State) (id : LeaseId) : Prop where
  lease : t.lease = Function.update s.lease id { s.lease id with released := true }
  nextLease : t.nextLease = s.nextLease
  counts : ∀ name, (t.deployments name).countsOnGpu = (s.deployments name).countsOnGpu
  pending : t.exclusivePending = s.exclusivePending
  drained : t.drained = s.drained
  line : t.line = s.line
  slot : (t.mode = s.mode ∧ t.exclusive = s.exclusive ∧ s.exclusive ≠ some id) ∨
    (s.exclusive = some id ∧ t.mode = .normal ∧ t.exclusive = none)

theorem countsOnGpu_withoutLease (s : State) (id : LeaseId) (name : String) :
    (Function.update s.deployments (s.lease id).target (s.withoutLease id) name).countsOnGpu =
      (s.deployments name).countsOnGpu := by
  by_cases same : name = (s.lease id).target
  · rw [same, Function.update_self]
    rfl
  · rw [Function.update_of_ne same]

theorem discard_discards (book : LeaseBook cfg s) {id : LeaseId}
    (live : (s.lease id).released = false) : Discards s (s.discard cfg id) id := by
  rcases s.discard_cases cfg id with ⟨inCloud, after⟩ | ⟨local_, slot, after⟩ | ⟨local_, notSlot, after⟩
  · rw [after]
    refine ⟨rfl, rfl, fun _ => rfl, rfl, rfl, rfl, Or.inl ⟨rfl, rfl, fun slot => ?_⟩⟩
    have gpu := ((book.wellFormed id (book.granted live)).exclusive ((book.slot id).mp slot).2).2
    exact absurd (inCloud.symm.trans gpu) (by decide)
  · rw [after]
    exact ⟨rfl, rfl, fun _ => rfl, rfl, rfl, rfl, Or.inr ⟨slot, rfl, rfl⟩⟩
  · have target := s.markReleased_target id
    obtain ⟨baseline, given⟩ := State.giveBack_eq cfg (s.markReleased id) id
      (target ▸ book.mem_target live local_ notSlot)
    rw [after, given]
    exact ⟨rfl, rfl, countsOnGpu_withoutLease (s.markReleased id) id, rfl, rfl, rfl,
      Or.inl ⟨rfl, rfl, notSlot⟩⟩

namespace Discards

variable {id : LeaseId}

theorem noGpu (discards : Discards s t id) (noGpu : NoGpu s) : NoGpu t := by
  intro i live gpu
  rw [discards.lease] at live gpu ⊢
  by_cases this : i = id
  · rw [this, Function.update_self] at live
    cases live
  · rw [Function.update_of_ne this] at live gpu ⊢
    exact noGpu i live gpu

theorem outside (discards : Discards s t id) (sound : Sound cfg s) : Outside s t := by
  refine ⟨discards.pending, ?_, Or.inl discards.drained, fun _ => discards.noGpu⟩
  rcases discards.slot with ⟨mode, -, -⟩ | ⟨slot, mode, -⟩
  · exact Or.inl mode
  · exact Or.inr ⟨sound.slotMode.mpr (by rw [slot]; rfl), mode⟩

theorem unlocked (discards : Discards s t id) : Unlocked s t := by
  refine ⟨discards.counts, ?_⟩
  rcases discards.slot with ⟨mode, -, -⟩ | ⟨-, mode, -⟩
  · exact Or.inl mode
  · exact Or.inr mode

theorem sound (discards : Discards s t id) (sound : Sound cfg s) (book : LeaseBook cfg t) :
    Sound cfg t := by
  refine ⟨book, discards.line ▸ sound.queue, ?_, ?_⟩
  · rcases discards.slot with ⟨mode, slot, -⟩ | ⟨-, mode, slot⟩
    · rw [mode, slot]
      exact sound.slotMode
    · rw [mode, slot]
      exact iff_of_false (by decide) (by decide)
  · intro taken
    rcases discards.slot with ⟨-, slot, -⟩ | ⟨-, -, slot⟩
    · obtain ⟨noGpu, noneCounts⟩ := sound.alone (slot ▸ taken)
      exact ⟨discards.noGpu noGpu, fun name configured =>
        (discards.counts name).trans (noneCounts name configured)⟩
    · rw [slot] at taken
      cases taken

end Discards

theorem signalDrained_keeps (sound : Sound cfg s) :
    Sound cfg (s.signalDrained cfg) ∧ Outside s (s.signalDrained cfg) ∧
      Unlocked s (s.signalDrained cfg) := by
  unfold State.signalDrained
  split_ifs with told
  · have same : SameBook s { s with drained := some true } :=
      ⟨fun _ => rfl, fun _ => rfl, fun _ => rfl, fun _ => rfl, rfl, rfl, rfl⟩
    exact ⟨sound.of_same same rfl rfl fun _ none => none,
      ⟨rfl, Or.inl rfl, Or.inr ⟨told.1, rfl, fun _ => NoGpu.of_same same (noGpu_of_localGpuLeases sound.book told.2)⟩,
        fun _ => NoGpu.of_same same⟩,
      ⟨fun _ => rfl, Or.inl rfl⟩⟩
  · exact ⟨sound, .refl s, .refl s⟩

theorem release_keeps (sound : Sound cfg s) (clock : ℕ → Time) (id : LeaseId) :
    Sound cfg (s.release cfg clock id) ∧ Outside s (s.release cfg clock id) ∧
      Unlocked s (s.release cfg clock id) := by
  unfold State.release
  split_ifs with released
  · exact ⟨sound, .refl s, .refl s⟩
  · rw [Bool.not_eq_true] at released
    have discards := discard_discards sound.book released
    have discarded := discards.sound sound (sound.book.discard released)
    obtain ⟨told, tellsOutside, tellsUnlocked⟩ := signalDrained_keeps discarded
    obtain ⟨pumped, admits⟩ := pump_admits clock told
    exact ⟨pumped, ((discards.outside sound).trans tellsOutside).trans admits.outside,
      (discards.unlocked.trans tellsUnlocked).trans admits.unlocked⟩

/-! ### Resizing -/

theorem resize_admits (sound : Sound cfg s) {clock : ℕ → Time} {id : LeaseId} {tokens : ℤ}
    (resized : s.resize cfg clock id tokens = .ok t) : Sound cfg t ∧ Admits s t := by
  unfold State.resize at resized
  dsimp only at resized
  split_ifs at resized with bound gone cloud long home shrinks
  · cases resized
    exact ⟨sound, .refl s⟩
  · cases resized
    exact ⟨sound, .refl s⟩
  all_goals
    cases resized
    simp only [not_or, not_not] at bound home
    have book := sound.book.retoken bound.1 home.1
    set after := (s.setLease id { s.lease id with tokens := tokens }).setEntry (s.lease id).target
      ((s.deployments (s.lease id).target).reserve (s.lease id).resourceClass
        (tokens - (s.lease id).tokens)) with afterIs
    have old : ∀ i, (after.lease i).released = (s.lease i).released ∧
        (after.lease i).vramBytes = (s.lease i).vramBytes ∧
        (after.lease i).placement = (s.lease i).placement ∧
        (after.lease i).resourceClass = (s.lease i).resourceClass := by
      intro i
      rw [afterIs, State.setEntry, State.setLease]
      dsimp only
      by_cases this : i = id
      · rw [this, Function.update_self]
        exact ⟨rfl, rfl, rfl, rfl⟩
      · rw [Function.update_of_ne this]
        exact ⟨rfl, rfl, rfl, rfl⟩
    have admits : Admits s after := by
      refine ⟨⟨rfl, rfl, rfl, rfl⟩, le_rfl, fun i _ => ⟨(old i).1, (old i).2.1⟩, rfl, fun name => ?_,
        fun _ noGpu i live gpu => ?_⟩
      · rw [afterIs, State.setEntry]
        dsimp only
        by_cases same : name = (s.lease id).target
        · rw [same, Function.update_self]
          rfl
        · rw [Function.update_of_ne same]
          rfl
      · rw [(old i).2.2.2]
        exact noGpu i ((old i).1 ▸ live) ((old i).2.2.1 ▸ gpu)
    have resizedSound := admits.sound sound book sound.queue
  · obtain ⟨pumped, pumpAdmits⟩ := pump_admits clock resizedSound
    exact ⟨pumped, admits.trans pumpAdmits⟩
  · exact ⟨resizedSound, admits⟩

/-! ### Decisions and actions about the models -/

/-- A section that changes what is kept about the models, and neither the books nor the line. -/
structure Steers (s t : State) : Prop extends SameBook s t, SameControl s t where
  line : t.line = s.line

namespace Steers

theorem refl (s : State) : Steers s s := ⟨.refl s, .refl s, rfl⟩

theorem trans (first : Steers s t) (second : Steers t u) : Steers s u :=
  ⟨first.toSameBook.trans second.toSameBook, first.toSameControl.trans second.toSameControl,
    second.line.trans first.line⟩

theorem outside (steers : Steers s t) : Outside s t := steers.toSameControl.outside steers.toSameBook

theorem quiet (steers : Steers s t) : Quiet s t := steers.toSameControl.quiet steers.toSameBook

theorem sound (steers : Steers s t) (sound : Sound cfg s) (mode : s.mode ≠ .exclusive) :
    Sound cfg t :=
  sound.of_same steers.toSameBook steers.line steers.mode fun exclusive => absurd exclusive mode

theorem setEntry {name : String} {entry : Deployment}
    (leases : entry.leases = (s.deployments name).leases)
    (reservedTokens : entry.reservedTokens = (s.deployments name).reservedTokens)
    (reservedByClass : entry.reservedByClass = (s.deployments name).reservedByClass) :
    Steers s (s.setEntry name entry) :=
  ⟨.setEntry leases reservedTokens reservedByClass, ⟨rfl, rfl, rfl, rfl⟩, rfl⟩

theorem withRelief (s : State) (relief : Relief) : Steers s { s with relief := relief } :=
  ⟨⟨fun _ => rfl, fun _ => rfl, fun _ => rfl, fun _ => rfl, rfl, rfl, rfl⟩, ⟨rfl, rfl, rfl, rfl⟩, rfl⟩

theorem withRevoked (s : State) (asked : LeaseId → Prop) [DecidablePred asked] :
    Steers s
      { s with
        lease := fun id => if asked id then { s.lease id with revoked := true } else s.lease id } := by
  refine ⟨⟨fun _ => rfl, fun _ => rfl, fun _ => rfl, fun id => ?_, rfl, rfl, rfl⟩,
    ⟨rfl, rfl, rfl, rfl⟩, rfl⟩
  dsimp only
  split_ifs <;> rfl

theorem revoke (cfg : ComputeConfig) (s : State) (asked : Lease → Bool) : Steers s (s.revoke cfg asked) :=
  withRevoked s fun id =>
    (∃ name ∈ cfg.names, id ∈ (s.deployments name).leases) ∧ asked (s.lease id) = true

theorem startDraining (s : State) (name : String) : Steers s (s.startDraining name) := by
  unfold State.startDraining
  dsimp only
  split_ifs
  · exact refl s
  · have drains : Steers s (s.setEntry name { s.deployments name with draining := true }) :=
      setEntry rfl rfl rfl
    exact drains.trans (withRevoked _ fun id => id ∈ (s.deployments name).leases)

theorem foldl_startDraining (names : List String) (s : State) :
    Steers s (names.foldl State.startDraining s) := by
  induction names generalizing s with
  | nil => exact refl s
  | cons name names ih => exact (startDraining s name).trans (ih _)

variable {hasControl : Bool} {device : GpuDevice} {view : VramView} {roles : List ModelRole}
  {after : Relief} {now : Time}

theorem displace (s : State) : Steers s (s.displace cfg hasControl roles after).1 := by
  unfold State.displace
  dsimp only
  split_ifs
  · exact withRelief s after
  · split
    · exact foldl_startDraining _ s
    · exact foldl_startDraining _ s

theorem relieve (s : State) : Steers s (s.relieve cfg hasControl).1 := by
  unfold State.relieve
  split
  · dsimp only
    exact (withRelief s .backgroundStopped).trans (revoke cfg _ _)
  · exact displace s
  · exact displace s
  · split_ifs
    · exact withRelief s _
    · exact refl s

theorem bringBack (s : State) : Steers s (s.bringBack cfg hasControl device roles view after).1 := by
  unfold State.bringBack
  split
  · exact withRelief s after
  · split
    · exact withRelief s after
    · split_ifs <;> exact refl s

theorem restore (s : State) : Steers s (s.restore cfg hasControl device view).1 := by
  unfold State.restore
  split_ifs
  · exact refl s
  · exact withRelief s _
  · exact bringBack s
  · exact bringBack s
  · exact withRelief s _

theorem fillFrom (s : State) (names : List String) :
    Steers s (s.fillFrom cfg device view now names).1 := by
  induction names with
  | nil => exact refl s
  | cons name names ih =>
    unfold State.fillFrom
    by_cases here : (s.deployments name).busy = true ∨ (s.deployments name).state = .gpu
    · rw [if_pos here]
      exact ih
    · rw [if_neg here]
      split
      · exact ih
      · extract_lets need room always floor
        split
        · exact setEntry rfl rfl rfl
        · split
          · exact refl s
          · exact ih

theorem stopDraining (cfg : ComputeConfig) (s : State) : Steers s (s.stopDraining cfg) := by
  refine ⟨⟨fun name => ?_, fun name => ?_, fun name => ?_, fun _ => rfl, rfl, rfl, rfl⟩,
    ⟨rfl, rfl, rfl, rfl⟩, rfl⟩ <;>
  · unfold State.stopDraining
    dsimp only
    split_ifs <;> rfl

theorem decideAction (cfg : ComputeConfig) (hasControl : Bool) (device : GpuDevice) (now : Time)
    (s : State) : Steers s (s.decideAction cfg hasControl device now).1 := by
  unfold State.decideAction
  dsimp only
  split_ifs
  · exact relieve s
  · exact (stopDraining cfg s).trans (restore _)
  · refine (stopDraining cfg s).trans ?_
    unfold State.fill
    split_ifs
    · exact fillFrom _ _
    · exact refl _

variable (action : Action)

theorem performStart (s : State) : Steers s (s.performStart action) := setEntry rfl rfl rfl

theorem performOk (s : State) : Steers s (s.performOk action) := setEntry rfl rfl rfl

theorem performFailed (cfg : ComputeConfig) (now : Time) (s : State) :
    Steers s (s.performFailed cfg action now) := setEntry rfl rfl rfl

theorem whenDone (moved : Steers s t) (done : Prop) [Decidable done] (relief : Relief) :
    Steers s (if done then { t with relief := relief } else t) := by
  split_ifs
  · exact moved.trans (withRelief t relief)
  · exact moved

theorem runAfter (s : State) : Steers s (s.runAfter cfg action) := by
  unfold State.runAfter
  cases action.after with
  | nothing => exact refl s
  | displaced roles relief =>
    refine whenDone ?_ (State.targets cfg _ roles = []) relief
    split_ifs
    · exact setEntry rfl rfl rfl
    · exact refl s
  | broughtBack roles relief =>
    have back : Steers s (s.setEntry action.deployment
        { s.deployments action.deployment with displaced := false }) := setEntry rfl rfl rfl
    exact whenDone back (State.awaitingReturn cfg _ roles = []) relief

theorem acted (s : State) (ok : Bool) : Steers s (s.acted cfg now action ok) := by
  unfold State.acted
  split_ifs
  · exact (performOk action s).trans (runAfter action _)
  · exact (performFailed action cfg now s).trans (runAfter action _)

end Steers

/-! ### Readings -/

structure Reads (s t : State) : Prop extends SameBook s t where
  mode : t.mode = s.mode
  pending : t.exclusivePending = s.exclusivePending
  drained : t.drained = s.drained
  line : t.line = s.line
  counts : ∀ name, (t.deployments name).countsOnGpu = true → (s.deployments name).countsOnGpu = true

namespace Reads

theorem refl (s : State) : Reads s s := ⟨.refl s, rfl, rfl, rfl, rfl, fun _ counts => counts⟩

theorem noneCounts (reads : Reads s t) (none : NoneCounts cfg s) : NoneCounts cfg t := by
  intro name configured
  by_contra counts
  rw [Bool.not_eq_false] at counts
  exact absurd (reads.counts name counts) (by rw [none name configured]; decide)

theorem outside (reads : Reads s t) : Outside s t :=
  ⟨reads.pending, Or.inl reads.mode, Or.inl reads.drained, fun _ => NoGpu.of_same reads.toSameBook⟩

theorem sound (reads : Reads s t) (sound : Sound cfg s) : Sound cfg t :=
  sound.of_same reads.toSameBook reads.line reads.mode fun _ => reads.noneCounts

theorem loseSample (s : State) : Reads s s.loseSample :=
  ⟨⟨fun _ => rfl, fun _ => rfl, fun _ => rfl, fun _ => rfl, rfl, rfl, rfl⟩, rfl, rfl, rfl, rfl,
    fun _ counts => counts⟩

theorem reconcile_keeps (entry : Deployment) :
    (State.reconcile entry).leases = entry.leases ∧
      (State.reconcile entry).reservedTokens = entry.reservedTokens ∧
      (State.reconcile entry).reservedByClass = entry.reservedByClass ∧
      ((State.reconcile entry).countsOnGpu = true → entry.countsOnGpu = true) := by
  unfold State.reconcile
  split_ifs with vanished
  · refine ⟨rfl, rfl, rfl, fun _ => ?_⟩
    simp [Deployment.countsOnGpu, vanished.1]
  · exact ⟨rfl, rfl, rfl, fun counts => counts⟩

theorem publishEntry_keeps (processes : List GpuProcess) (inspected : List (String × Inspection))
    (name : String) (entry : Deployment) :
    let after := State.publishEntry processes inspected name entry
    after.leases = entry.leases ∧ after.reservedTokens = entry.reservedTokens ∧
      after.reservedByClass = entry.reservedByClass ∧
      (after.countsOnGpu = true → entry.countsOnGpu = true) := by
  unfold State.publishEntry
  dsimp only
  split_ifs
  · exact ⟨rfl, rfl, rfl, fun counts => counts⟩
  · exact ⟨rfl, rfl, rfl, fun counts => counts⟩
  · split
    · exact ⟨rfl, rfl, rfl, fun counts => counts⟩
    · exact reconcile_keeps _

theorem publish (s : State) (reading : Reading) (inspected : List (String × Inspection)) :
    Reads s (s.publish cfg reading inspected) := by
  have shown : Reads s (s.showReading cfg reading inspected) := by
    have entry : ∀ name, let after := (s.showReading cfg reading inspected).deployments name
        after.leases = (s.deployments name).leases ∧
          after.reservedTokens = (s.deployments name).reservedTokens ∧
          after.reservedByClass = (s.deployments name).reservedByClass ∧
          (after.countsOnGpu = true → (s.deployments name).countsOnGpu = true) := by
      intro name
      unfold State.showReading
      dsimp only
      split_ifs
      · exact publishEntry_keeps _ _ _ _
      · exact ⟨rfl, rfl, rfl, fun counts => counts⟩
    exact ⟨⟨fun name => (entry name).1, fun name => (entry name).2.1, fun name => (entry name).2.2.1,
      fun _ => rfl, rfl, rfl, rfl⟩, rfl, rfl, rfl, rfl, fun name => (entry name).2.2.2⟩
  unfold State.publish State.confirmReleases
  split_ifs
  · exact ⟨⟨shown.leases, shown.reservedTokens, shown.reservedByClass, shown.terms, shown.nextLease,
      shown.exclusive, shown.cloud⟩, shown.mode, shown.pending, shown.drained, shown.line,
      shown.counts⟩
  · exact shown

theorem advance {hasControl : Bool} (s : State) (reading : Reading)
    (inspected : List (String × Inspection)) (rest : List String) :
    Reads s (s.advance cfg hasControl reading inspected rest).1 := by
  unfold State.advance
  split
  · exact refl s
  · exact publish s _ _

theorem sampleTurn {hasControl : Bool} {now : Time} {at_ : Sampling} {answer : Answer}
    {result : State × Option Sampling}
    (taken : s.sampleTurn cfg hasControl now at_ answer = some result) : Reads s result.1 := by
  unfold State.sampleTurn at taken
  split at taken
  · split at taken
    · cases taken
      exact loseSample s
    · split at taken
      · cases taken
        exact loseSample s
      · cases taken
        exact advance s _ _ _
  · cases taken
    exact advance s _ _ _
  · cases taken

end Reads

end PawBackend.Compute
