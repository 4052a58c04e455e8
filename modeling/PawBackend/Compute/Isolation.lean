/-
**Exclusive isolation and exact books in every run.**

The invariant of a run (`SystemSound`): the state is sound, every suspended coroutine's assertion holds,
whoever is inside the control lock holds it, and at most one Exclusive request is served. A section of
one coroutine keeps its own assertion (`turn_kept`), and leaves the others' alone (`Pc.Asserts.stable`).
-/

import PawBackend.Compute.Turns

namespace PawBackend.Compute

open Lib

/-! ### The assertions are left alone -/

section

variable {cfg : ComputeConfig} {s t : State} {job : Job}

theorem Asked.stable (asked : Asked s job) (pending : t.exclusivePending = s.exclusivePending) :
    Asked t job :=
  ⟨asked.exclusive, pending.trans asked.pending⟩

theorem Emptied.stable (emptied : Emptied s job) (outside : Outside s t) : Emptied t job := by
  have mode : t.mode = .draining := by
    rcases outside.mode with same | ended
    · exact same.trans emptied.mode
    · rw [emptied.mode] at ended
      exact absurd ended.1 (by decide)
  exact ⟨emptied.toAsked.stable outside.pending, mode,
    outside.gpu (by rw [mode]; decide) emptied.noGpu⟩

theorem Asked.stable_normal (asked : Asked s job ∧ s.mode = .normal) (outside : Outside s t) :
    Asked t job ∧ t.mode = .normal := by
  refine ⟨asked.1.stable outside.pending, ?_⟩
  rcases outside.mode with same | ended
  · exact same.trans asked.2
  · exact ended.2

theorem NoneCounts.unlocked (none : NoneCounts cfg s) (unlocked : Unlocked s t) : NoneCounts cfg t :=
  fun name configured => (unlocked.counts name).trans (none name configured)

theorem Pc.Asserts.stable {pc : Pc} (asserts : pc.Asserts cfg s)
    (outside : pc.isExclusive = true → Outside s t) (unlocked : pc.holdsLock = true → Unlocked s t) :
    pc.Asserts cfg t := by
  cases pc with
  | acquireWait => exact asserts
  | refreshLock => trivial
  | refreshSample => trivial
  | refreshAct =>
    rcases (unlocked rfl).mode with same | normal
    · exact same.trans asserts
    · exact normal
  | startLock | startSample | roomSleep | roomLock | roomSample => exact Asked.stable_normal asserts (outside rfl)
  | drainWait drain =>
    obtain ⟨asked, draining, told⟩ := asserts
    have mode : t.mode = .draining := by
      rcases (outside rfl).mode with same | ended
      · exact same.trans draining
      · rw [draining] at ended
        exact absurd ended.1 (by decide)
    have notNormal : t.mode ≠ .normal := by
      rw [mode]
      decide
    refine ⟨asked.stable (outside rfl).pending, mode, fun now => ?_⟩
    rcases (outside rfl).drained with same | signalled
    · exact (outside rfl).gpu notNormal (told (same ▸ now))
    · exact signalled.2.2 notNormal
  | drainedLock | drainedSample => exact Emptied.stable asserts (outside rfl)
  | emptying job action rest moved =>
    refine ⟨asserts.1.stable (outside rfl), asserts.2.1, fun name configured counts => ?_⟩
    rw [(unlocked rfl).counts] at counts
    exact asserts.2.2 name configured counts
  | verifySample | freedAsk | verifySleep => exact ⟨asserts.1.stable (outside rfl), asserts.2.unlocked (unlocked rfl)⟩

end

/-! ### Every section -/

section

variable {cfg : ComputeConfig} {hasControl : Bool} {clock : ℕ → Time} {now : Time} {s : State}
  {turn : Turn}

theorem Kept.stays {lock excl : Bool} {pc : Pc} (sound : Sound cfg s) (asserts : pc.Asserts cfg s)
    (locks : pc.holdsLock = true → lock = true) (exclusive : pc.isExclusive = true → excl = true) :
    Kept cfg lock excl s (.waits s pc) := by
  refine ⟨sound, fun _ => .refl s, fun _ => .refl s, fun _ this => ?_, fun _ this => ?_,
    fun _ this => ?_⟩ <;> cases this
  · exact asserts
  · exact locks
  · exact exclusive

theorem Kept.acts {t : State} {action : Action} {child : Child} {position : Position}
    (sound : Sound cfg t) (mode : t.mode = .normal) (outside : Outside s t) :
    Kept cfg true false s (.waits t (.refreshAct action child position)) := by
  have stays : Kept cfg true false t (.waits t (.refreshAct action child position)) :=
    .stays sound mode (fun _ => rfl) nofun
  exact stays.after (fun _ => outside) nofun

theorem sampleInside_kept {excl : Bool} {at_ : Sampling} {answer : Answer} {pc : Sampling → Pc}
    {sampled : State → Turn} (sound : Sound cfg s)
    (taken : s.sampleInside cfg hasControl now at_ answer pc sampled = some turn)
    (goesOn : ∀ t at_, Reads s t → (pc at_).Asserts cfg t)
    (exclusive : ∀ at_, (pc at_).isExclusive = true → excl = true)
    (ends : ∀ t, Reads s t → Sound cfg t → Fine cfg true excl t (sampled t)) :
    Kept cfg true excl s turn := by
  unfold State.sampleInside at taken
  obtain ⟨result, read, rfl⟩ := Option.map_eq_some_iff.mp taken
  have reads := Reads.sampleTurn read
  have soundNow := reads.sound sound
  split
  · rename_i at_ _
    exact (Kept.stays soundNow (goesOn _ at_ reads) (fun _ => rfl) (exclusive at_)).after
      (fun _ => reads.outside) nofun
  · exact (ends _ reads soundNow).toKept.after (fun _ => reads.outside) nofun

theorem actTurn_kept {action : Action} {child : Child} {position : Position} {answer : Answer}
    (sound : Sound cfg s) (mode : s.mode = .normal)
    (taken : s.actTurn cfg hasControl clock now action child position answer = some turn) :
    Kept cfg true false s turn := by
  have free : s.mode ≠ .exclusive := by
    rw [mode]
    decide
  have steered : ∀ {t : State} {child : Child} {position : Position}, Steers s t →
      Kept cfg true false s (.waits t (.refreshAct action child position)) := fun steers =>
    .acts (steers.sound sound free) (steers.mode.trans mode) steers.outside
  have ended : ∀ {outcome : Outcome}, Kept cfg true false s (.ends s outcome) :=
    (Fine.admits sound (.refl s)).toKept
  unfold State.actTurn at taken
  split at taken
  · cases taken
    exact steered (.performStart action s)
  · cases taken
    exact steered (.performStart action s)
  · cases taken
    exact steered (.acted action s _)
  · cases taken
    exact steered (.performFailed action cfg now s)
  · cases taken
    exact steered (.refl s)
  · cases taken
    exact ended
  · cases taken
    exact (finishRefresh_fine sound).toKept
  · cases taken
    exact (finishRefresh_fine sound).toKept
  · cases taken
    exact ended
  · cases taken
    exact ended
  · cases taken
    exact steered (.refl s)
  · cases taken
    exact steered (.refl s)
  · cases taken
    exact steered (.refl s)
  · split at taken
    · cases taken
    · rename_i read
      cases taken
      have reads := Reads.sampleTurn read
      exact .acts (reads.sound sound) (reads.mode.trans mode) reads.outside
    · rename_i read
      have reads := Reads.sampleTurn read
      obtain ⟨pumped, admits⟩ := pump_admits clock (reads.sound sound)
      have outside := reads.outside.trans admits.outside
      dsimp only at taken
      split_ifs at taken <;> cases taken
      · exact (finishRefresh_fine pumped).toKept.after (fun _ => outside) nofun
      · exact .acts pumped (admits.mode.trans (reads.mode.trans mode)) outside
  · cases taken

/-- Whether a section runs inside the control lock. -/
def Pc.locked (pc : Pc) : Answer → Bool
  | .proceed => pc.holdsLock || pc.asksLock
  | _ => pc.holdsLock

theorem Pc.locked_of_holdsLock {pc : Pc} (holds : pc.holdsLock = true) (answer : Answer) :
    pc.locked answer = true := by
  unfold locked
  split
  · rw [holds, Bool.true_or]
  · exact holds

theorem exclusiveCancelled_kept {pc : Pc} (sound : Sound cfg s) (asserts : pc.Asserts cfg s)
    (exclusive : pc.isExclusive = true) :
    Kept cfg pc.holdsLock true s (s.exclusiveCancelled cfg clock now pc) := by
  have free := (Asked.not_exclusive asserts exclusive).2
  unfold State.exclusiveCancelled
  split
  · exact (failDrain_fine sound free).toKept
  · exact (failAction_fine sound free).toKept
  · exact (failExclusive_fine sound free).toKept

theorem turn_kept {pc : Pc} {answer : Answer} (sound : Sound cfg s) (asserts : pc.Asserts cfg s)
    (taken : s.turn cfg hasControl clock now pc answer = some turn) :
    Kept cfg (pc.locked answer) pc.isExclusive s turn := by
  unfold State.turn at taken
  split at taken
  · cases taken
    exact waitCancelled_kept sound
  · cases taken
    exact (waitEnded_fine sound asserts).toKept
  · split_ifs at taken
    cases taken
    exact (waitEnded_fine sound asserts).toKept
  · cases taken
    exact (Fine.admits sound (.refl s)).toKept
  · cases taken
    exact .stays sound trivial (fun _ => rfl) nofun
  · cases taken
    exact (Fine.admits sound (.refl s)).toKept
  · rw [Pc.locked_of_holdsLock rfl]
    exact sampleInside_kept sound taken (fun _ _ _ => trivial) nofun
      fun _ _ soundNow => refreshSampled_fine soundNow
  · rw [Pc.locked_of_holdsLock rfl]
    exact actTurn_kept sound asserts taken
  · rename_i notWait notRefresh notSample notAct
    cases taken
    have exclusive : pc.isExclusive = true := by
      cases pc <;> first | rfl | (exfalso; simp_all)
    rw [exclusive]
    exact exclusiveCancelled_kept sound asserts exclusive
  · cases taken
    exact .stays sound asserts (fun _ => rfl) fun _ => rfl
  · rw [Pc.locked_of_holdsLock rfl]
    exact sampleInside_kept sound taken
      (fun _ _ reads => Asked.stable_normal asserts reads.outside) (fun _ _ => rfl)
      fun _ reads soundNow => startSampled_fine soundNow
        (Asked.stable_normal asserts reads.outside).1 (Asked.stable_normal asserts reads.outside).2
  · cases taken
    exact .stays sound asserts nofun fun _ => rfl
  · cases taken
    exact .stays sound asserts (fun _ => rfl) fun _ => rfl
  · rw [Pc.locked_of_holdsLock rfl]
    exact sampleInside_kept sound taken
      (fun _ _ reads => Asked.stable_normal asserts reads.outside) (fun _ _ => rfl)
      fun _ reads soundNow => roomSampled_fine soundNow
        (Asked.stable_normal asserts reads.outside).1 (Asked.stable_normal asserts reads.outside).2
  · split_ifs at taken with told
    cases taken
    exact (drained_fine sound asserts.1 asserts.2.1 (asserts.2.2 told)).toKept
  · cases taken
    exact (failDrain_fine sound (by rw [asserts.2.1]; decide)).toKept
  · cases taken
    exact .stays sound asserts (fun _ => rfl) fun _ => rfl
  · rw [Pc.locked_of_holdsLock rfl]
    exact sampleInside_kept sound taken (fun _ _ reads => Emptied.stable asserts reads.outside)
      (fun _ _ => rfl) fun _ reads soundNow =>
        drainSampled_fine soundNow (Emptied.stable asserts reads.outside)
  · cases taken
    exact (emptyOn_fine sound asserts.1 asserts.2.1 asserts.2.2).toKept
  · cases taken
    exact (failAction_fine sound (by rw [asserts.1.mode]; decide)).toKept
  · rw [Pc.locked_of_holdsLock rfl]
    exact sampleInside_kept sound taken
      (fun _ _ reads => ⟨asserts.1.stable reads.outside, reads.noneCounts asserts.2⟩) (fun _ _ => rfl)
      fun _ reads soundNow => verifySampled_fine soundNow (asserts.1.stable reads.outside)
        (reads.noneCounts asserts.2)
  · cases taken
    exact (freedAnswered_fine sound asserts.1 asserts.2).toKept
  · cases taken
    exact .stays sound asserts (fun _ => rfl) fun _ => rfl
  · cases taken

end

/-! ### The invariant of a run -/

structure SystemSound (cfg : ComputeConfig) (y : System) : Prop where
  sound : Sound cfg y.sched
  asserts : ∀ task pc, y.tasks task = some pc → pc.Asserts cfg y.sched
  owner : ∀ task pc, y.tasks task = some pc → pc.holdsLock = true → y.lock = some task
  single : ∀ task other pc pc', y.tasks task = some pc → y.tasks other = some pc' →
    pc.isExclusive = true → pc'.isExclusive = true → task = other

namespace SystemSound

variable {cfg : ComputeConfig} {hasControl : Bool} {y : System} {lock excl : Bool}

theorem initial (cfg : ComputeConfig) : SystemSound cfg (.initial cfg) where
  sound := .initial cfg
  asserts _ _ none := nomatch none
  owner _ _ none := nomatch none
  single _ _ _ _ none := nomatch none

theorem call (inv : SystemSound cfg y) {t : State} (sound : Sound cfg t) (outside : Outside y.sched t)
    (unlocked : Unlocked y.sched t) : SystemSound cfg { y with sched := t } :=
  ⟨sound, fun task pc at_ => (inv.asserts task pc at_).stable (fun _ => outside) fun _ => unlocked,
    inv.owner, inv.single⟩

theorem put (inv : SystemSound cfg y) {task : TaskId} {turn : Turn}
    (kept : Kept cfg lock excl y.sched turn)
    (owns : lock = true → y.lock = some task ∨ y.lock = none)
    (alone : excl = true → ∀ other pc, other ≠ task → y.tasks other = some pc →
      pc.isExclusive = false) : SystemSound cfg (y.put task turn) := by
  have others : ∀ other pc, other ≠ task → (y.put task turn).tasks other = some pc →
      y.tasks other = some pc := by
    intro other pc different at_
    exact (Function.update_of_ne different _ _).symm.trans at_
  have own : ∀ pc, (y.put task turn).tasks task = some pc → turn.pc = some pc := by
    intro pc at_
    exact (Function.update_self task _ y.tasks).symm.trans at_
  have unowned : ∀ other pc, other ≠ task → y.tasks other = some pc → pc.holdsLock = true →
      lock = false := by
    intro other pc different at_ holds
    rw [Bool.eq_false_iff]
    intro locked
    have owner := inv.owner other pc at_ holds
    rcases owns locked with mine | free
    · exact different (Option.some.inj (owner.symm.trans mine))
    · exact absurd (owner.symm.trans free) (by simp)
  refine ⟨kept.sound, fun other pc at_ => ?_, fun other pc at_ holds => ?_,
    fun first second pc pc' at_ at' exclusive exclusive' => ?_⟩
  · by_cases same : other = task
    · exact kept.asserts pc (own pc (same ▸ at_))
    · have before := others other pc same at_
      refine (inv.asserts other pc before).stable (fun exclusive => kept.outside ?_)
        fun holds => kept.unlocked (unowned other pc same before holds)
      rw [Bool.eq_false_iff]
      intro served
      rw [alone served other pc same before] at exclusive
      cases exclusive
  · by_cases same : other = task
    · rw [same] at at_ ⊢
      have here := own pc at_
      rw [System.put]
      dsimp only
      rw [here, Option.any_some, holds, if_pos rfl]
    · have before := others other pc same at_
      have owner := inv.owner other pc before holds
      have free : turn.pc.any Pc.holdsLock = false := by
        rw [Bool.eq_false_iff]
        intro taken
        obtain ⟨pc', here, locked⟩ := (Option.any_eq_true _ _).mp taken
        have := kept.locks pc' here locked
        rw [unowned other pc same before holds] at this
        cases this
      rw [System.put]
      dsimp only
      rw [free, if_neg (by decide), owner, if_neg fun mine => same (Option.some.inj mine)]
  · by_cases firstMine : first = task <;> by_cases secondMine : second = task
    · rw [firstMine, secondMine]
    · have served := kept.exclusive pc (own pc (firstMine ▸ at_)) exclusive
      have := alone served second pc' secondMine (others second pc' secondMine at')
      rw [this] at exclusive'
      cases exclusive'
    · have served := kept.exclusive pc' (own pc' (secondMine ▸ at')) exclusive'
      have := alone served first pc firstMine (others first pc firstMine at_)
      rw [this] at exclusive
      cases exclusive
    · exact inv.single first second pc pc' (others first pc firstMine at_)
        (others second pc' secondMine at') exclusive exclusive'

theorem callAdmits (inv : SystemSound cfg y) {t : State} (sound : Sound cfg t)
    (admits : Admits y.sched t) : SystemSound cfg { y with sched := t } :=
  inv.call sound admits.outside admits.unlocked

theorem callSame (inv : SystemSound cfg y) {t : State} (same : SameBook y.sched t)
    (control : SameControl y.sched t) (line : t.line = y.sched.line)
    (counts : ∀ name, (t.deployments name).countsOnGpu = (y.sched.deployments name).countsOnGpu) :
    SystemSound cfg { y with sched := t } := by
  refine inv.callAdmits (inv.sound.of_same same line control.mode fun _ none name configured => ?_)
    (.of_same same control counts)
  rw [counts]
  exact none name configured

theorem acquire {s : State} (sound : Sound cfg s) (now : Time) (request : ComputeRequest)
    (waitSeconds cloudAfter : Time) (drainSeconds : Option Time) :
    ∃ excl, Kept cfg false excl s (s.acquire cfg now request waitSeconds cloudAfter drainSeconds) ∧
      (excl = true → s.exclusivePending = false) := by
  have ended : ∀ outcome, Kept cfg false false s (.ends s outcome) := fun _ =>
    (Fine.admits sound (.refl s)).toKept
  unfold State.acquire
  split_ifs with known exclusive
  · unfold State.beginExclusive
    split_ifs with busy
    · exact ⟨false, ended _, nofun⟩
    · rw [not_or, not_not, Bool.not_eq_true] at busy
      exact ⟨true, (served_fine sound exclusive busy.1).toKept, fun _ => busy.2⟩
  · exact ⟨false, (acquireShared_fine sound ⟨known, exclusive⟩).toKept, nofun⟩
  · exact ⟨false, ended _, nofun⟩

theorem resume (inv : SystemSound cfg y) {now : Time} {clock : ℕ → Time} {task : TaskId}
    {answer : Answer} {y' : System}
    (taken : y.resume cfg hasControl now clock task answer = some y') : SystemSound cfg y' := by
  unfold System.resume at taken
  cases here : y.tasks task with
  | none =>
    rw [here] at taken
    cases taken
  | some pc =>
    rw [here] at taken
    have moves : ∀ turn, y.sched.turn cfg hasControl clock now pc answer = some turn →
        (pc.locked answer = true → y.lock = some task ∨ y.lock = none) →
        SystemSound cfg (y.put task turn) := by
      intro turn taken owns
      refine inv.put (turn_kept inv.sound (inv.asserts task pc here) taken) owns ?_
      intro exclusive other pc' different at_
      rw [Bool.eq_false_iff]
      exact fun exclusive' => different (inv.single other task pc' pc at_ here exclusive' exclusive)
    dsimp only at taken
    split at taken
    · split_ifs at taken with waits
      obtain ⟨turn, ran, rfl⟩ := Option.map_eq_some_iff.mp taken
      refine moves turn ran fun locked => ?_
      rw [Pc.locked, Bool.or_eq_true] at locked
      rcases locked with holds | asks
      · exact Or.inl (inv.owner task pc here holds)
      · rw [not_and, not_not] at waits
        exact Or.inr (waits asks)
    · rename_i notProceed
      obtain ⟨turn, ran, rfl⟩ := Option.map_eq_some_iff.mp taken
      refine moves turn ran fun locked => Or.inl (inv.owner task pc here ?_)
      unfold Pc.locked at locked
      split at locked
      · exact absurd rfl notProceed
      · exact locked

theorem step (inv : SystemSound cfg y) {tick : Tick} {y' : System}
    (taken : y.step cfg hasControl tick = some y') : SystemSound cfg y' := by
  have releases : ∀ id, SystemSound cfg { y with sched := y.sched.release cfg tick.clock id } := by
    intro id
    obtain ⟨sound, outside, unlocked⟩ := release_keeps inv.sound tick.clock id
    exact inv.call sound outside unlocked
  have unserved : y.sched.exclusivePending = false → ∀ other pc, y.tasks other = some pc →
      pc.isExclusive = false := by
    intro idle other pc at_
    rw [Bool.eq_false_iff]
    intro exclusive
    have := (Asked.not_exclusive (inv.asserts other pc at_) exclusive).1
    rw [idle] at this
    cases this
  unfold System.step at taken
  dsimp only at taken
  split at taken
  · rename_i task request waitSeconds cloudAfter drainSeconds _
    split_ifs at taken
    cases taken
    obtain ⟨excl, kept, idle⟩ := acquire inv.sound tick.now request waitSeconds cloudAfter
      drainSeconds
    exact inv.put kept nofun fun exclusive other pc _ =>
      unserved (idle exclusive) other pc
  · split_ifs at taken with shared
    cases taken
    have fine := tryAcquire_fine tick.now inv.sound shared
    exact inv.call fine.sound (fine.outside rfl) (fine.unlocked rfl)
  · split_ifs at taken
    cases taken
    have stays : Kept cfg false false y.sched (.waits y.sched .refreshLock) :=
      .stays inv.sound trivial nofun nofun
    exact inv.put stays nofun nofun
  · cases taken
    unfold State.releaseLease
    split
    · split_ifs
      · exact releases _
      · exact inv
    · exact releases _
  · split at taken
    · rename_i resized
      cases taken
      obtain ⟨sound, admits⟩ := resize_admits inv.sound resized
      exact inv.callAdmits sound admits
    · cases taken
      exact inv
  · rename_i id work _
    cases taken
    unfold State.holdUntil
    split_ifs
    · exact inv
    · have same := SameBook.setLease y.sched id { y.sched.lease id with held := some work } rfl
      exact inv.callSame ⟨same.leases, same.reservedTokens, same.reservedByClass, same.terms, rfl, rfl,
        rfl⟩ ⟨rfl, rfl, rfl, rfl⟩ rfl fun _ => rfl
  · cases taken
    exact inv.callSame ⟨fun _ => rfl, fun _ => rfl, fun _ => rfl, fun _ => rfl, rfl, rfl, rfl⟩
      ⟨rfl, rfl, rfl, rfl⟩ rfl fun _ => rfl
  · split_ifs at taken
    cases taken
    exact releases _
  · cases taken
    unfold State.forceReleaseExclusive
    split
    · exact inv
    · rename_i id _
      have same := SameBook.setLease y.sched id { y.sched.lease id with revoked := true } rfl
      have marked := inv.sound.of_same same rfl rfl fun _ none => none
      have admits : Admits y.sched (y.sched.setLease id { y.sched.lease id with revoked := true }) :=
        .of_same same ⟨rfl, rfl, rfl, rfl⟩ fun _ => rfl
      obtain ⟨sound, outside, unlocked⟩ := release_keeps marked tick.clock id
      exact inv.call sound (admits.outside.trans outside) (admits.unlocked.trans unlocked)
  · cases taken
    have steers := Steers.revoke cfg y.sched
      fun lease => decide (lease.placement = .localGpu) && !lease.released
    exact inv.callSame steers.toSameBook steers.toSameControl steers.line fun _ => rfl
  · exact inv.resume taken

end SystemSound

theorem reachable_systemSound {cfg : ComputeConfig} {hasControl : Bool} {y : System}
    (reach : (System.machine cfg hasControl).Reachable y) : SystemSound cfg y :=
  reach.invariant (fun _ init => init ▸ .initial cfg) fun _ _ _ _ inv taken => inv.step taken

/-! ### The results -/

section

variable {cfg : ComputeConfig} {hasControl : Bool} {y : System}

/-- In every reachable state: while an Exclusive lease is held, the mode is exclusive, it is the only
Exclusive lease, no model has a local GPU lease and none counts on the GPU; and in exclusive mode an
Exclusive lease is held. -/
theorem exclusive_isolated (reach : (System.machine cfg hasControl).Reachable y) :
    (∀ id, (y.sched.lease id).released = false → (y.sched.lease id).resourceClass = .exclusive →
      y.sched.mode = .exclusive ∧ y.sched.exclusive = some id ∧
      (∀ other, (y.sched.lease other).released = false →
        (y.sched.lease other).resourceClass = .exclusive → other = id) ∧
      (∀ name, ∀ other ∈ (y.sched.deployments name).leases,
        (y.sched.lease other).placement ≠ .localGpu) ∧
      ∀ name ∈ cfg.names, (y.sched.deployments name).countsOnGpu = false ∧
        (y.sched.deployments name).busy = false ∧ (y.sched.deployments name).state ≠ .gpu ∧
        (y.sched.deployments name).state ≠ .failed) ∧
    (y.sched.mode = .exclusive → ∃ id, y.sched.exclusive = some id ∧
      (y.sched.lease id).released = false ∧ (y.sched.lease id).resourceClass = .exclusive) := by
  have sound := (reachable_systemSound reach).sound
  refine ⟨fun id live exclusive => ?_, fun mode => ?_⟩
  · have slot := (sound.book.slot id).mpr ⟨live, exclusive⟩
    have taken : y.sched.exclusive.isSome = true := by rw [slot, Option.isSome_some]
    obtain ⟨noGpu, noneCounts⟩ := sound.alone taken
    refine ⟨sound.slotMode.mpr taken, slot, fun other otherLive otherExclusive => ?_,
      fun name other held gpu => ?_, fun name configured => ⟨noneCounts name configured, ?_⟩⟩
    · have := (sound.book.slot other).mpr ⟨otherLive, otherExclusive⟩
      exact Option.some.inj (this.symm.trans slot)
    · obtain ⟨otherLive, named, -⟩ := (sound.book.mem name other).mp held
      have shape := sound.book.wellFormed other (sound.book.granted otherLive)
      rw [(shape.exclusive (noGpu other otherLive gpu)).1] at named
      cases named
    · simpa [Deployment.countsOnGpu, and_assoc] using noneCounts name configured
  · obtain ⟨id, slot⟩ := Option.isSome_iff_exists.mp (sound.slotMode.mp mode)
    exact ⟨id, slot, (sound.book.slot id).mp slot⟩

/-- Where a lease can be kept. -/
inductive Home
  | deployment (name : String)
  | cloud
  | exclusive

def State.Keeps (s : State) (id : LeaseId) : Home → Prop
  | .deployment name => id ∈ (s.deployments name).leases
  | .cloud => id ∈ s.cloud
  | .exclusive => s.exclusive = some id

namespace LeaseBook

variable {s : State}

theorem keeps_unique (book : LeaseBook cfg s) {id : LeaseId} (live : (s.lease id).released = false) :
    ∃! home, s.Keeps id home := by
  have shape := book.wellFormed id (book.granted live)
  by_cases exclusive : (s.lease id).resourceClass = .exclusive
  · obtain ⟨unnamed, gpu⟩ := shape.exclusive exclusive
    refine ⟨.exclusive, (book.slot id).mpr ⟨live, exclusive⟩, fun home kept => ?_⟩
    cases home with
    | deployment name => exact absurd (unnamed.symm.trans ((book.mem name id).mp kept).2.1) (by simp)
    | cloud => exact absurd (gpu.symm.trans ((book.cloud id).mp kept).2) (by decide)
    | exclusive => rfl
  · obtain ⟨name, -, named⟩ := shape.named exclusive
    by_cases cloud : (s.lease id).placement = .cloud
    · refine ⟨.cloud, (book.cloud id).mpr ⟨live, cloud⟩, fun home kept => ?_⟩
      cases home with
      | deployment name => exact absurd cloud ((book.mem name id).mp kept).2.2
      | cloud => rfl
      | exclusive => exact absurd ((book.slot id).mp kept).2 exclusive
    · refine ⟨.deployment name, (book.mem name id).mpr ⟨live, named, cloud⟩, fun home kept => ?_⟩
      cases home with
      | deployment other =>
        exact congrArg _ (Option.some.inj (((book.mem other id).mp kept).2.1.symm.trans named))
      | cloud => exact absurd ((book.cloud id).mp kept).2 cloud
      | exclusive => exact absurd ((book.slot id).mp kept).2 exclusive

theorem live_of_keeps (book : LeaseBook cfg s) {id : LeaseId} {home : Home}
    (kept : s.Keeps id home) : (s.lease id).released = false := by
  cases home with
  | deployment name => exact ((book.mem name id).mp kept).1
  | cloud => exact ((book.cloud id).mp kept).1
  | exclusive => exact ((book.slot id).mp kept).1

theorem byClass_sum (book : LeaseBook cfg s) (name : String) :
    (sharedClasses.map (s.deployments name).reservedByClass).sum =
      (s.deployments name).reservedTokens := by
  have parts : ∀ id ∈ (s.deployments name).leases,
      (s.lease id).tokensOf .interactive + ((s.lease id).tokensOf .coding +
        ((s.lease id).tokensOf .support + (s.lease id).tokensOf .background)) =
      (s.lease id).tokens := by
    intro id held
    have shape := book.wellFormed id (book.granted ((book.mem name id).mp held).1)
    have named := ((book.mem name id).mp held).2.1
    unfold Lease.tokensOf
    cases cls : (s.lease id).resourceClass with
    | exclusive =>
      rw [(shape.exclusive cls).1] at named
      cases named
    | _ => simp
  rw [book.tokens]
  unfold State.sumOver
  rw [← Finset.sum_congr rfl parts, Finset.sum_add_distrib, Finset.sum_add_distrib,
    Finset.sum_add_distrib]
  simp [sharedClasses, book.byClass, State.sumOver]

end LeaseBook

/-- In every reachable state the reservations of a model are the sums over its live leases, at most
`maxSequences` of them, each granted and unreleased lease is kept in exactly one place, and a released
one in none. -/
theorem leases_balance (reach : (System.machine cfg hasControl).Reachable y) :
    (∀ name,
      (y.sched.deployments name).reservedTokens =
        ∑ id ∈ (y.sched.deployments name).leases, (y.sched.lease id).tokens ∧
      (∀ cls, (y.sched.deployments name).reservedByClass cls =
        ∑ id ∈ (y.sched.deployments name).leases with (y.sched.lease id).resourceClass = cls,
          (y.sched.lease id).tokens) ∧
      (∀ cls, 0 ≤ (y.sched.deployments name).reservedByClass cls) ∧
      (sharedClasses.map (y.sched.deployments name).reservedByClass).sum =
        (y.sched.deployments name).reservedTokens ∧
      (y.sched.deployments name).leases.card ≤ (cfg.spec name).maxSequences) ∧
    (∀ id < y.sched.nextLease, (y.sched.lease id).released = false →
      ∃! home, y.sched.Keeps id home) ∧
    (∀ id name, y.sched.Keeps id (.deployment name) → (y.sched.lease id).deployment = some name) ∧
    ∀ id home, (y.sched.lease id).released = true → ¬ y.sched.Keeps id home := by
  have book := (reachable_systemSound reach).sound.book
  have byClass : ∀ name cls, (y.sched.deployments name).reservedByClass cls =
      ∑ id ∈ (y.sched.deployments name).leases with (y.sched.lease id).resourceClass = cls,
        (y.sched.lease id).tokens := by
    intro name cls
    rw [book.byClass, State.sumOver, Finset.sum_filter]
    rfl
  refine ⟨fun name => ⟨book.tokens name, byClass name, fun cls => ?_, book.byClass_sum name,
    book.sequences name⟩, fun id _ live => book.keeps_unique live, fun id name kept => ?_,
    fun id home released kept => ?_⟩
  · rw [byClass]
    refine Finset.sum_nonneg fun id member => ?_
    have held := (book.mem name id).mp (Finset.mem_filter.mp member).1
    exact (book.wellFormed id (book.granted held.1)).tokens
  · exact ((book.mem name id).mp kept).2.1
  · rw [book.live_of_keeps kept] at released
    cases released

/-! ### A run to an Exclusive lease -/

/-- One embedding model, on its CPU copy. -/
def soloConfig : ComputeConfig where
  deployments := [
    { name := "embed", role := .embedding, weightsBytes := 6, runtimeBytes := 1, kvBytesPerToken := 1,
      maxSequences := 4, maxContextTokens := 512, cpuFallback := true, initial := .cpu }]
  headroomMinBytes := 2
  headroomFraction := 0
  classCeilings _ := 1
  deployments_given := by decide
  names_nodup := by decide
  headroomMin_bound := by decide
  headroomFraction_bound := by with_unfolding_all decide
  kvSafety_bound := by with_unfolding_all decide
  ceilings_bound _ _ := by decide
  ceilings_ordered := by decide
  probeMaxAge_bound := by decide
  restoreMargin_bound := by decide
  pressureContext_bound := by with_unfolding_all decide
  maxWaiters_bound := by decide
  seconds_bound := by decide

/-- An embedding call on the CPU, and an Exclusive request that drains, empties and verifies. -/
def soloTicks : List Tick :=
  let sample : GpuSample := ⟨[⟨0, "gpu", 10, 0⟩], []⟩
  [.tryAcquire
      { resourceClass := .support, deployment := some "embed", contextTokens := 5, vramBytes := 1 },
    .acquire 0 { resourceClass := .exclusive, vramBytes := 4 } 60 0 none,
    .resume 0 .proceed, .resume 0 (.probed sample), .resume 0 .proceed, .resume 0 (.probed sample),
    .resume 0 (.probed sample)].map fun event => ⟨0, fun _ => 0, event⟩

def soloHeld : System :=
  ((System.machine soloConfig false).run (.initial soloConfig) soloTicks).getD (.initial soloConfig)

theorem soloHeld_reachable : (System.machine soloConfig false).Reachable soloHeld := by
  have ran : ((System.machine soloConfig false).run (.initial soloConfig) soloTicks).isSome = true := by
    with_unfolding_all decide
  have start : (System.machine soloConfig false).Reachable (.initial soloConfig) := .start rfl
  exact start.run (Option.getD_of_ne_none (Option.isSome_iff_ne_none.mp ran) _).symm

/-- That run ends with the Exclusive lease held, beside a lease on the CPU copy. -/
theorem soloHeld_isolated :
    soloHeld.sched.mode = .exclusive ∧ (soloHeld.sched.lease 1).released = false ∧
      (soloHeld.sched.lease 1).resourceClass = .exclusive ∧
      ∀ name ∈ soloConfig.names, (soloHeld.sched.deployments name).countsOnGpu = false := by
  have live : (soloHeld.sched.lease 1).released = false := by with_unfolding_all decide
  have exclusive : (soloHeld.sched.lease 1).resourceClass = .exclusive := by with_unfolding_all decide
  obtain ⟨mode, -, -, -, none⟩ := (exclusive_isolated soloHeld_reachable).1 1 live exclusive
  exact ⟨mode, live, exclusive, fun name configured => (none name configured).1⟩

theorem soloHeld_balance :
    (soloHeld.sched.deployments "embed").leases = {0} ∧
      ∃! home, soloHeld.sched.Keeps 0 home := by
  have held : (soloHeld.sched.deployments "embed").leases = {0} := by with_unfolding_all decide
  have granted : 0 < soloHeld.sched.nextLease := by with_unfolding_all decide
  have live : (soloHeld.sched.lease 0).released = false := by with_unfolding_all decide
  exact ⟨held, (leases_balance soloHeld_reachable).2.1 0 granted live⟩

end

end PawBackend.Compute
