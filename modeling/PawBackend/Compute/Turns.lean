/-
**What each coroutine asserts where it is suspended.** `Pc.Asserts` is the assertion at each await: an
Exclusive request knows that it alone is served; once it has drained, no local GPU lease is live; while
it empties the GPU, every model that counts on it is still to be moved; and while it verifies, none
counts. A section run from a sound state where its coroutine's assertion holds ends in a sound state
where the assertion of the next await holds, and keeps what the other coroutines rely on (`Fine`).
-/

import PawBackend.Compute.Moves

namespace PawBackend.Compute

open List

/-! ### The assertions -/

structure Asked (s : State) (job : Job) : Prop where
  exclusive : job.request.resourceClass = .exclusive
  pending : s.exclusivePending = true

structure Emptied (s : State) (job : Job) : Prop extends Asked s job where
  mode : s.mode = .draining
  noGpu : NoGpu s

/-- What a coroutine knows where it is suspended. -/
def Pc.Asserts (cfg : ComputeConfig) (s : State) : Pc → Prop
  | .acquireWait _ request _ => Shared cfg request
  | .refreshLock => True
  | .refreshSample _ => True
  | .refreshAct _ _ _ => s.mode = .normal
  | .startLock job => Asked s job ∧ s.mode = .normal
  | .startSample job _ => Asked s job ∧ s.mode = .normal
  | .roomSleep job => Asked s job ∧ s.mode = .normal
  | .roomLock job => Asked s job ∧ s.mode = .normal
  | .roomSample job _ => Asked s job ∧ s.mode = .normal
  | .drainWait drain =>
    Asked s drain.job ∧ s.mode = .draining ∧ (s.drained = some true → NoGpu s)
  | .drainedLock drain => Emptied s drain.job
  | .drainedSample drain _ => Emptied s drain.job
  | .emptying job action rest _ =>
    Emptied s job ∧ action.operation ≠ .gpu ∧
      ∀ name ∈ cfg.names, (s.deployments name).countsOnGpu = true →
        name = action.deployment ∨ name ∈ rest
  | .verifySample verify _ => Emptied s verify.job ∧ NoneCounts cfg s
  | .freedAsk verify _ _ _ => Emptied s verify.job ∧ NoneCounts cfg s
  | .verifySleep verify => Emptied s verify.job ∧ NoneCounts cfg s

/-- What a section of a coroutine keeps, with (`lock`) or without the control lock, inside (`excl`) or
outside an Exclusive request. -/
structure Kept (cfg : ComputeConfig) (lock excl : Bool) (s : State) (turn : Turn) : Prop where
  sound : Sound cfg turn.state
  outside : excl = false → Outside s turn.state
  unlocked : lock = false → Unlocked s turn.state
  asserts : ∀ pc ∈ turn.pc, pc.Asserts cfg turn.state
  locks : ∀ pc ∈ turn.pc, pc.holdsLock = true → lock = true
  exclusive : ∀ pc ∈ turn.pc, pc.isExclusive = true → excl = true

/-- A section that also ends no lease and publishes no reading; a reading it starts carries the
releases so far. -/
structure Fine (cfg : ComputeConfig) (lock excl : Bool) (s : State) (turn : Turn) : Prop
    extends Kept cfg lock excl s turn, Quiet s turn.state where
  starts : ∀ pc ∈ turn.pc, ∀ at_ ∈ pc.sampling, at_ = .probe turn.state.pendingRelease

section

variable {cfg : ComputeConfig} {lock excl : Bool} {s t : State} {turn : Turn}

theorem Kept.after (kept : Kept cfg lock excl t turn) (outside : excl = false → Outside s t)
    (unlocked : lock = false → Unlocked s t) : Kept cfg lock excl s turn :=
  ⟨kept.sound, fun no => (outside no).trans (kept.outside no),
    fun no => (unlocked no).trans (kept.unlocked no), kept.asserts, kept.locks, kept.exclusive⟩

theorem Fine.after (fine : Fine cfg lock excl t turn) (outside : excl = false → Outside s t)
    (unlocked : lock = false → Unlocked s t) (quiet : Quiet s t) : Fine cfg lock excl s turn where
  toKept := fine.toKept.after outside unlocked
  next := (quiet.trans fine.toQuiet).next
  old := (quiet.trans fine.toQuiet).old
  pendingRelease := (quiet.trans fine.toQuiet).pendingRelease
  starts := fine.starts

theorem Fine.ends {outcome : Outcome} (sound : Sound cfg t) (outside : excl = false → Outside s t)
    (unlocked : lock = false → Unlocked s t) (quiet : Quiet s t) :
    Fine cfg lock excl s (.ends t outcome) :=
  ⟨⟨sound, outside, unlocked, fun _ none => (nomatch none), fun _ none => (nomatch none),
    fun _ none => (nomatch none)⟩, quiet, fun _ none => (nomatch none)⟩

theorem Fine.waits {pc : Pc} (sound : Sound cfg t) (outside : excl = false → Outside s t)
    (unlocked : lock = false → Unlocked s t) (quiet : Quiet s t) (asserts : pc.Asserts cfg t)
    (locks : pc.holdsLock = true → lock = true) (exclusive : pc.isExclusive = true → excl = true)
    (starts : ∀ at_ ∈ pc.sampling, at_ = .probe t.pendingRelease) :
    Fine cfg lock excl s (.waits t pc) := by
  refine ⟨⟨sound, outside, unlocked, fun _ this => ?_, fun _ this => ?_, fun _ this => ?_⟩, quiet,
    fun _ this => ?_⟩ <;> cases this
  · exact asserts
  · exact locks
  · exact exclusive
  · exact starts

theorem Fine.admits {outcome : Outcome} (sound : Sound cfg t) (admits : Admits s t) :
    Fine cfg lock excl s (.ends t outcome) :=
  .ends sound (fun _ => admits.outside) (fun _ => admits.unlocked) admits.toQuiet

end

/-! ### Shared requests -/

section

variable {cfg : ComputeConfig} {s : State} {request : ComputeRequest} {placement : Placement}
  {refusal : Refusal} {now : Time}

theorem toCloud_fine (sound : Sound cfg s) (shared : Shared cfg request) :
    Fine cfg false false s (s.toCloud now request) :=
  .admits (grantCloud_sound sound shared) (grantCloud_admits s request now)

theorem noteRefused_admits (request : ComputeRequest) (placement : Placement) (refusal : Refusal)
    (sound : Sound cfg s) :
    Sound cfg (s.noteRefused request placement refusal) ∧
      Admits s (s.noteRefused request placement refusal) := by
  unfold State.noteRefused
  split
  · split_ifs
    · have same : ∀ tasks, SameBook s { s with refusedTasks := tasks } :=
        fun _ => ⟨fun _ => rfl, fun _ => rfl, fun _ => rfl, fun _ => rfl, rfl, rfl, rfl⟩
      exact ⟨sound.of_same (same _) rfl rfl fun _ none => none,
        .of_same (same _) ⟨rfl, rfl, rfl, rfl⟩ fun _ => rfl⟩
    · exact ⟨sound, .refl s⟩
  · exact ⟨sound, .refl s⟩

theorem refuse_fine (sound : Sound cfg s) :
    Fine cfg false false s (s.refuse request placement refusal) := by
  obtain ⟨noted, admits⟩ := noteRefused_admits request placement refusal sound
  exact .admits noted admits

theorem tryAcquire_fine (now : Time) (sound : Sound cfg s) (shared : Shared cfg request) :
    Fine cfg false false s (s.tryAcquire cfg now request) := by
  unfold State.tryAcquire
  split
  · rename_i placement judged
    have admitted := State.judge_admits judged
    exact .admits (grantLocal_sound sound shared admitted) (grantLocal_admits admitted)
  · exact refuse_fine sound

theorem enqueue_fine (sound : Sound cfg s) (shared : Shared cfg request) :
    Fine cfg false false s (s.enqueue request placement refusal) := by
  have queue : Line cfg
      (s.waiters ++ [Waiter.new request s.nextSeq (s.queuedReason request refusal)], s.nextSeq + 1) := by
    refine ⟨fun waiter mem => ?_, ?_, fun waiter mem => ?_⟩
    · rcases mem_append.mp mem with old | new
      · exact sound.queue.shared waiter old
      · rw [mem_singleton.mp new]
        exact shared
    · rw [map_append, nodup_append]
      refine ⟨sound.queue.distinct, nodup_singleton _, fun seq old next new => ?_⟩
      obtain ⟨waiter, mem, rfl⟩ := mem_map.mp old
      rw [map_singleton, mem_singleton] at new
      exact new ▸ Nat.ne_of_lt (sound.queue.arrived waiter mem)
    · rcases mem_append.mp mem with old | new
      · exact Nat.lt_succ_of_lt (sound.queue.arrived waiter old)
      · rw [mem_singleton.mp new]
        exact Nat.lt_succ_self _
  have admits := line_admits s
    (s.waiters ++ [Waiter.new request s.nextSeq (s.queuedReason request refusal)])
    (Function.update s.futures s.nextSeq .pending) (s.nextSeq + 1)
  exact .waits (line_sound sound _ _ queue) (fun _ => admits.outside) (fun _ => admits.unlocked)
    admits.toQuiet shared (fun no => nomatch no) (fun no => nomatch no) fun _ none => (nomatch none)

theorem acquireShared_fine {timeout cloudAfter : Time} (sound : Sound cfg s)
    (shared : Shared cfg request) :
    Fine cfg false false s (s.acquireShared cfg now request timeout cloudAfter) := by
  unfold State.acquireShared
  split
  · rename_i placement judged
    have admitted := State.judge_admits judged
    exact .admits (grantLocal_sound sound shared admitted) (grantLocal_admits admitted)
  · split_ifs
    · exact toCloud_fine sound shared
    · exact refuse_fine sound
    · exact refuse_fine sound
    · exact toCloud_fine sound shared
    · exact refuse_fine sound
    · exact enqueue_fine sound shared

theorem waitEnded_fine {seq : ℕ} (sound : Sound cfg s) (shared : Shared cfg request) :
    Fine cfg false false s (s.waitEnded now seq request placement) := by
  have dropped : ∀ futures, Sound cfg { s.dropWaiter seq with futures := futures } ∧
      Admits s { s.dropWaiter seq with futures := futures } := fun futures =>
    ⟨line_sound sound futures s.nextSeq (dropWaiter_queue sound seq),
      line_admits s _ futures s.nextSeq⟩
  unfold State.waitEnded
  dsimp only
  split
  · exact .admits (dropped s.futures).1 (dropped s.futures).2
  · obtain ⟨soundNow, admits⟩ := dropped (Function.update s.futures seq .cancelled)
    split_ifs
    · exact (toCloud_fine soundNow shared).after (fun _ => admits.outside) (fun _ => admits.unlocked)
        admits.toQuiet
    · exact (refuse_fine soundNow).after (fun _ => admits.outside) (fun _ => admits.unlocked)
        admits.toQuiet

theorem waitCancelled_kept {clock : ℕ → Time} {seq : ℕ} (sound : Sound cfg s) :
    Kept cfg false false s (s.waitCancelled cfg clock seq) := by
  have dropped := line_sound sound s.futures s.nextSeq
    (dropWaiter_queue sound seq)
  have admits := line_admits s (s.dropWaiter seq).waiters s.futures s.nextSeq
  unfold State.waitCancelled
  dsimp only
  split
  · rename_i id _
    obtain ⟨soundNow, outside, unlocked⟩ := release_keeps dropped clock id
    exact ⟨soundNow, fun _ => admits.outside.trans outside, fun _ => admits.unlocked.trans unlocked,
      fun _ none => (nomatch none), fun _ none => (nomatch none), fun _ none => (nomatch none)⟩
  · exact (Fine.admits dropped admits).toKept

end

/-! ### Refresh -/

section

variable {cfg : ComputeConfig} {hasControl : Bool} {clock : ℕ → Time} {now : Time} {s : State}

theorem finishRefresh_fine {lock excl : Bool} (sound : Sound cfg s) :
    Fine cfg lock excl s (s.finishRefresh cfg clock) :=
  .admits (pump_admits clock sound).1 (pump_admits clock sound).2

theorem refreshSampled_fine (sound : Sound cfg s) :
    Fine cfg true false s (s.refreshSampled cfg hasControl clock now) := by
  unfold State.refreshSampled
  split
  · rename_i device mode _
    have steers := Steers.decideAction cfg hasControl device now s
    have soundNow := steers.sound sound (by rw [mode]; decide)
    split
    · rename_i decided action result
      rw [result] at steers soundNow
      exact .waits soundNow (fun _ => steers.outside) (fun no => nomatch no) steers.quiet
        (steers.mode.trans mode) (fun _ => rfl) (fun no => nomatch no) fun _ none => (nomatch none)
    · rename_i decided result
      rw [result] at steers soundNow
      exact (finishRefresh_fine soundNow).after (fun _ => steers.outside) (fun no => nomatch no)
        steers.quiet
  · exact finishRefresh_fine sound

end

/-! ### Exclusive requests -/

section

variable {cfg : ComputeConfig} {hasControl : Bool} {clock : ℕ → Time} {now : Time} {s : State}
  {job : Job}

theorem steer_book (s : State) (mode : SchedulerMode) (pending waits : Bool) (drained : Option Bool) :
    SameBook s { s with
      mode := mode, exclusivePending := pending, exclusiveWaitsForVram := waits, drained := drained } :=
  ⟨fun _ => rfl, fun _ => rfl, fun _ => rfl, fun _ => rfl, rfl, rfl, rfl⟩

theorem steer_sound (sound : Sound cfg s) (free : s.mode ≠ .exclusive) {mode : SchedulerMode}
    (shared : mode ≠ .exclusive) {pending waits : Bool} {drained : Option Bool} :
    Sound cfg { s with
      mode := mode, exclusivePending := pending, exclusiveWaitsForVram := waits,
      drained := drained } := by
  have slot := sound.slot_free free
  refine ⟨(steer_book s mode pending waits drained).keeps sound.book, sound.queue, ?_, ?_⟩
  · rw [slot]
    exact iff_of_false shared (by decide)
  · rw [slot]
    exact fun taken => (nomatch taken)

theorem steer_quiet (s : State) (mode : SchedulerMode) (pending waits : Bool)
    (drained : Option Bool) :
    Quiet s { s with
      mode := mode, exclusivePending := pending, exclusiveWaitsForVram := waits,
      drained := drained } :=
  ⟨le_rfl, fun _ _ => ⟨rfl, rfl⟩, rfl⟩

variable {outcome : Outcome} {action : Action} {rest : List String}

theorem failExclusive_fine {lock : Bool} (sound : Sound cfg s) (free : s.mode ≠ .exclusive) :
    Fine cfg lock true s (s.failExclusive cfg clock outcome) := by
  have normal : Sound cfg { s with mode := .normal } := steer_sound sound free (by decide)
  obtain ⟨pumped, admits⟩ := pump_admits clock normal
  have ended := pumped.of_same
    (steer_book (State.pump cfg clock { s with mode := .normal })
      (State.pump cfg clock { s with mode := .normal }).mode false false
      (State.pump cfg clock { s with mode := .normal }).drained) rfl rfl fun _ none => none
  refine .ends ended (fun no => nomatch no) (fun _ => ⟨admits.counts, Or.inr admits.mode⟩)
    ⟨admits.next, admits.old, admits.pendingRelease⟩

theorem failDrain_fine {lock : Bool} (sound : Sound cfg s) (free : s.mode ≠ .exclusive) :
    Fine cfg lock true s (({ s with drained := none }).failExclusive cfg clock outcome) := by
  have undrained : Sound cfg { s with drained := none } := steer_sound sound free free
  exact (failExclusive_fine undrained free).after (fun no => (nomatch no))
    (fun _ => ⟨fun _ => rfl, Or.inl rfl⟩)
    (steer_quiet s s.mode s.exclusivePending s.exclusiveWaitsForVram none)

theorem failAction_fine (sound : Sound cfg s) (free : s.mode ≠ .exclusive) :
    Fine cfg true true s ((s.performFailed cfg action now).failExclusive cfg clock outcome) := by
  have steers := Steers.performFailed action cfg now s
  exact (failExclusive_fine (steers.sound sound free) (by rw [steers.mode]; exact free)).after
    (fun no => (nomatch no)) (fun no => (nomatch no)) steers.quiet

theorem Asked.not_exclusive {pc : Pc} (asserts : pc.Asserts cfg s) (isExclusive : pc.isExclusive = true) :
    s.exclusivePending = true ∧ s.mode ≠ .exclusive := by
  cases pc with
  | acquireWait | refreshLock | refreshSample | refreshAct => cases isExclusive
  | startLock | startSample | roomSleep | roomLock | roomSample => exact ⟨asserts.1.pending, by rw [asserts.2]; decide⟩
  | drainWait => exact ⟨asserts.1.pending, by rw [asserts.2.1]; decide⟩
  | drainedLock | drainedSample => exact ⟨asserts.pending, by rw [asserts.mode]; decide⟩
  | emptying | verifySample | freedAsk | verifySleep => exact ⟨asserts.1.pending, by rw [asserts.1.mode]; decide⟩

theorem served_fine (sound : Sound cfg s) (exclusive : job.request.resourceClass = .exclusive)
    (mode : s.mode = .normal) :
    Fine cfg false true s (.waits { s with exclusivePending := true } (.startLock job)) := by
  have free : s.mode ≠ .exclusive := by
    rw [mode]
    decide
  exact .waits (steer_sound sound free free) (fun no => (nomatch no))
    (fun _ => ⟨fun _ => rfl, Or.inl rfl⟩)
    (steer_quiet s s.mode true s.exclusiveWaitsForVram s.drained) ⟨⟨exclusive, rfl⟩, mode⟩
    (fun no => (nomatch no)) (fun _ => rfl) fun _ none => (nomatch none)

theorem beginDrain_fine (sound : Sound cfg s) (asked : Asked s job) (mode : s.mode = .normal) :
    Fine cfg true true s (s.beginDrain cfg now job) := by
  have free : s.mode ≠ .exclusive := by
    rw [mode]
    decide
  have draining : Sound cfg { s with mode := .draining } := steer_sound sound free (by decide)
  unfold State.beginDrain
  dsimp only
  split
  · rename_i none
    exact .waits draining (fun no => nomatch no) (fun no => nomatch no)
      (steer_quiet s .draining s.exclusivePending s.exclusiveWaitsForVram s.drained)
      ⟨⟨asked.exclusive, asked.pending⟩, rfl, noGpu_of_localGpuLeases draining.book none⟩
      (fun _ => rfl) (fun _ => rfl) fun _ none => (nomatch none)
  · exact .waits (steer_sound sound free (by decide)) (fun no => nomatch no) (fun no => nomatch no)
      (steer_quiet s .draining s.exclusivePending s.exclusiveWaitsForVram (some false))
      ⟨⟨asked.exclusive, asked.pending⟩, rfl, fun told => (nomatch told)⟩
      (fun _ => rfl) (fun _ => rfl) fun _ none => (nomatch none)

theorem awaitRoom_fine (sound : Sound cfg s) (asked : Asked s job) (mode : s.mode = .normal) :
    Fine cfg true true s (s.awaitRoom cfg clock now job) := by
  have free : s.mode ≠ .exclusive := by
    rw [mode]
    decide
  have waiting : ∀ waits, Sound cfg { s with exclusiveWaitsForVram := waits } := fun _ =>
    steer_sound sound free free
  have quiet : ∀ waits, Quiet s { s with exclusiveWaitsForVram := waits } := fun waits =>
    steer_quiet s s.mode s.exclusivePending waits s.drained
  unfold State.awaitRoom
  dsimp only
  split_ifs
  · exact (beginDrain_fine (waiting false) ⟨asked.exclusive, asked.pending⟩ mode).after
      (fun no => nomatch no) (fun no => nomatch no) (quiet false)
  · exact (failExclusive_fine (waiting true) free).after (fun no => nomatch no)
      (fun no => nomatch no) (quiet true)
  · exact .waits (waiting true) (fun no => nomatch no) (fun no => nomatch no) (quiet true)
      ⟨⟨asked.exclusive, asked.pending⟩, mode⟩ (fun _ => rfl) (fun _ => rfl)
      fun _ none => (nomatch none)

theorem startSampled_fine (sound : Sound cfg s) (asked : Asked s job) (mode : s.mode = .normal) :
    Fine cfg true true s (s.startSampled cfg hasControl clock now job) := by
  have free : s.mode ≠ .exclusive := by
    rw [mode]
    decide
  unfold State.startSampled
  split_ifs
  · exact failExclusive_fine sound free
  · exact failExclusive_fine sound free
  · exact awaitRoom_fine sound asked mode

theorem roomSampled_fine (sound : Sound cfg s) (asked : Asked s job) (mode : s.mode = .normal) :
    Fine cfg true true s (s.roomSampled cfg clock now job) := by
  unfold State.roomSampled
  split_ifs
  · exact failExclusive_fine sound (by rw [mode]; decide)
  · exact awaitRoom_fine sound asked mode

theorem countsOnGpu_setEntry {name other : String} {entry : Deployment} (different : other ≠ name) :
    ((s.setEntry name entry).deployments other).countsOnGpu = (s.deployments other).countsOnGpu :=
  congrArg Deployment.countsOnGpu (Function.update_of_ne different _ _)

theorem emptyNext_fine {moved : List String} (rest : List String) (sound : Sound cfg s)
    (emptied : Emptied s job)
    (left : ∀ name ∈ cfg.names, (s.deployments name).countsOnGpu = true → name ∈ rest) :
    Fine cfg true true s (s.emptyNext cfg now job moved rest) := by
  induction rest with
  | nil =>
    refine .waits sound (fun no => nomatch no) (fun no => nomatch no) (.refl s)
      ⟨emptied, fun name configured => ?_⟩ (fun _ => rfl) (fun _ => rfl) fun at_ this => ?_
    · rw [Bool.eq_false_iff]
      exact fun counts => absurd (left name configured counts) not_mem_nil
    · cases this
      rfl
  | cons name rest ih =>
    unfold State.emptyNext
    by_cases counts : (s.deployments name).countsOnGpu = true
    · rw [if_pos counts]
      have kept : Steers s (s.setEntry name { s.deployments name with displaced := false }) :=
        Steers.setEntry rfl rfl rfl
      have steers := kept.trans (Steers.performStart
        ⟨name, if (cfg.spec name).cpuFallback then .cpu else .unload, .nothing⟩ _)
      have mode := emptied.mode
      refine .waits (steers.sound sound (by rw [mode]; decide)) (fun no => nomatch no)
        (fun no => nomatch no) steers.quiet ⟨?_, ?_, fun other configured counts => ?_⟩
        (fun _ => rfl) (fun _ => rfl) fun _ none => (nomatch none)
      · exact ⟨⟨emptied.exclusive, steers.pending.trans emptied.pending⟩, steers.mode.trans mode,
          emptied.noGpu.of_same steers.toSameBook⟩
      · dsimp only
        split_ifs <;> decide
      · by_cases same : other = name
        · exact Or.inl same
        · rw [State.performStart, countsOnGpu_setEntry same, countsOnGpu_setEntry same] at counts
          exact Or.inr ((mem_cons.mp (left other configured counts)).resolve_left same)
    · rw [if_neg counts]
      refine ih fun other configured otherCounts => ?_
      rcases mem_cons.mp (left other configured otherCounts) with same | later
      · exact absurd (same ▸ otherCounts) counts
      · exact later

theorem performOk_counts (off : action.operation ≠ .gpu)
    (left : ∀ name ∈ cfg.names, (s.deployments name).countsOnGpu = true →
      name = action.deployment ∨ name ∈ rest) :
    ∀ name ∈ cfg.names, ((s.performOk action).deployments name).countsOnGpu = true →
      name ∈ rest := by
  intro name configured counts
  by_cases same : name = action.deployment
  · rw [same, State.performOk, State.setEntry] at counts
    dsimp only at counts
    rw [Function.update_self] at counts
    cases operation : action.operation with
    | gpu => exact absurd operation off
    | cpu | unload => simp [Deployment.countsOnGpu, operation, Operation.state] at counts
  · rw [State.performOk, countsOnGpu_setEntry same] at counts
    exact (left name configured counts).resolve_left same

theorem emptyOn_fine {moved : List String} (sound : Sound cfg s)
    (emptied : Emptied s job) (off : action.operation ≠ .gpu)
    (left : ∀ name ∈ cfg.names, (s.deployments name).countsOnGpu = true →
      name = action.deployment ∨ name ∈ rest) :
    Fine cfg true true s ((s.performOk action).emptyNext cfg now job moved rest) := by
  have steers := Steers.performOk action s
  have mode := emptied.mode
  refine (emptyNext_fine rest (steers.sound sound (by rw [mode]; decide)) ?_
    (performOk_counts off left)).after (fun no => (nomatch no)) (fun no => (nomatch no)) steers.quiet
  exact ⟨⟨emptied.exclusive, steers.pending.trans emptied.pending⟩, steers.mode.trans mode,
    emptied.noGpu.of_same steers.toSameBook⟩

theorem drained_fine {drain : Drain} (sound : Sound cfg s) (asked : Asked s drain.job)
    (mode : s.mode = .draining) (noGpu : NoGpu s) :
    Fine cfg false true s (.waits { s with drained := none } (.drainedLock drain)) := by
  have free : s.mode ≠ .exclusive := by
    rw [mode]
    decide
  exact .waits (steer_sound sound free free) (fun no => (nomatch no))
    (fun _ => ⟨fun _ => rfl, Or.inl rfl⟩)
    (steer_quiet s s.mode s.exclusivePending s.exclusiveWaitsForVram none)
    ⟨⟨asked.exclusive, asked.pending⟩, mode, noGpu⟩ (fun no => (nomatch no)) (fun _ => rfl)
    fun _ none => (nomatch none)

theorem drainSampled_fine {drain : Drain} (sound : Sound cfg s) (emptied : Emptied s drain.job) :
    Fine cfg true true s (s.drainSampled cfg clock now drain) := by
  have free : s.mode ≠ .exclusive := by
    rw [emptied.mode]
    decide
  unfold State.drainSampled
  split_ifs
  · exact failExclusive_fine sound free
  · exact emptyNext_fine _ sound emptied fun name configured _ =>
      ComputeConfig.mem_emptyingOrder.mpr configured
  · have normal : Sound cfg { s with mode := .normal } := steer_sound sound free (by decide)
    obtain ⟨pumped, admits⟩ := pump_admits clock normal
    extract_lets deadline
    have room : Fine cfg true true _ (State.awaitRoom cfg clock now _
        { drain.job with deadline := deadline }) :=
      awaitRoom_fine pumped ⟨emptied.exclusive, admits.pending.trans emptied.pending⟩ admits.mode
    exact room.after (fun no => nomatch no) (fun no => nomatch no)
      ⟨admits.next, admits.old, admits.pendingRelease⟩

variable {verify : Verify}

theorem notFreedYet_fine (sound : Sound cfg s) (emptied : Emptied s verify.job)
    (none : NoneCounts cfg s) : Fine cfg true true s (s.notFreedYet cfg clock now verify) := by
  unfold State.notFreedYet
  split_ifs
  · exact failExclusive_fine sound (by rw [emptied.mode]; decide)
  · exact .waits sound (fun no => nomatch no) (fun no => nomatch no) (.refl s) ⟨emptied, none⟩
      (fun _ => rfl) (fun _ => rfl) fun _ none => (nomatch none)

theorem startExclusive_fine {device : GpuDevice} (sound : Sound cfg s)
    (emptied : Emptied s verify.job) (none : NoneCounts cfg s) :
    Fine cfg true true s (s.startExclusive cfg now device verify) := by
  have free := sound.slot_free (by rw [emptied.mode]; decide)
  have book : LeaseBook cfg (s.grantExclusive cfg device verify.job.request now) :=
    sound.book.grantExclusive emptied.exclusive free
  refine .ends ⟨?_, sound.queue, iff_of_true rfl rfl, fun _ => ⟨?_, none⟩⟩ (fun no => nomatch no)
    (fun no => nomatch no) ⟨Nat.le_succ _, fun id old => ?_, rfl⟩
  · exact SameBook.keeps (s := s.grantExclusive cfg device verify.job.request now)
      ⟨fun _ => rfl, fun _ => rfl, fun _ => rfl, fun _ => rfl, rfl, rfl, rfl⟩ book
  · exact newLease_noGpu (s := s) (.new verify.job.request .localGpu 0 now) rfl
      (fun _ => emptied.exclusive) emptied.noGpu
  · dsimp only [State.grantExclusive, State.newLease]
    rw [newLease_quiet _ id old]
    exact ⟨rfl, rfl⟩

theorem concludeFreed_fine (sound : Sound cfg s) (emptied : Emptied s verify.job)
    (none : NoneCounts cfg s) : Fine cfg true true s (s.concludeFreed cfg clock now verify) := by
  unfold State.concludeFreed
  split
  · exact failExclusive_fine sound (by rw [emptied.mode]; decide)
  · split_ifs
    · exact startExclusive_fine sound emptied none
    · exact notFreedYet_fine sound emptied none

theorem askNext_fine {onGpu : Finset ℕ} (sound : Sound cfg s)
    (emptied : Emptied s verify.job) (none : NoneCounts cfg s) :
    Fine cfg true true s (s.askNext cfg clock now verify onGpu rest) := by
  cases rest with
  | nil => exact concludeFreed_fine sound emptied none
  | cons name rest =>
    exact .waits sound (fun no => nomatch no) (fun no => nomatch no) (.refl s) ⟨emptied, none⟩
      (fun _ => rfl) (fun _ => rfl) fun _ none => (nomatch none)

theorem verifySampled_fine (sound : Sound cfg s) (emptied : Emptied s verify.job)
    (none : NoneCounts cfg s) :
    Fine cfg true true s (s.verifySampled cfg hasControl clock now verify) := by
  unfold State.verifySampled
  split_ifs
  · exact notFreedYet_fine sound emptied none
  · exact askNext_fine sound emptied none
  · exact concludeFreed_fine sound emptied none

theorem freedAnswered_fine {current : String} {onGpu : Finset ℕ}
    {pids : Option (Finset ℕ)} (sound : Sound cfg s) (emptied : Emptied s verify.job)
    (none : NoneCounts cfg s) :
    Fine cfg true true s (s.freedAnswered cfg clock now verify current rest onGpu pids) := by
  unfold State.freedAnswered
  split <;> split_ifs
  · exact notFreedYet_fine sound emptied none
  · exact askNext_fine sound emptied none
  · exact notFreedYet_fine sound emptied none
  · exact askNext_fine sound emptied none

end

end PawBackend.Compute
