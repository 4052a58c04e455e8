/-
**What a synchronous section may do to the others.** A section of one coroutine runs while others are
suspended. What they rely on is said here as relations between the state before and after it:

* `Outside` — a section that is not an Exclusive request's: it leaves the mode alone, but for the end of
  the Exclusive lease, and grants no local GPU lease out of normal mode;
* `Unlocked` — a section without the control lock: no model begins or stops to count on the GPU, and
  the mode stays or goes back to normal.

`Sound` is what every state between two sections satisfies: the books are exact, the waiting line holds
known shared requests, and the Exclusive slot is taken exactly in exclusive mode, with nothing else on
the GPU.
-/

import PawBackend.Compute.LeaseBook

namespace PawBackend.Compute

/-! ### The state between two sections -/

def NoGpu (s : State) : Prop :=
  ∀ id, (s.lease id).released = false → (s.lease id).placement = .localGpu →
    (s.lease id).resourceClass = .exclusive

/-- No model's footprint is reserved. -/
def NoneCounts (cfg : ComputeConfig) (s : State) : Prop :=
  ∀ name ∈ cfg.names, (s.deployments name).countsOnGpu = false

def Shared (cfg : ComputeConfig) (request : ComputeRequest) : Prop :=
  request.known cfg = true ∧ request.resourceClass ≠ .exclusive

def State.line (s : State) : List Waiter × ℕ := (s.waiters, s.nextSeq)

structure Line (cfg : ComputeConfig) (line : List Waiter × ℕ) : Prop where
  shared : ∀ waiter ∈ line.1, Shared cfg waiter.request
  distinct : (line.1.map (·.seq)).Nodup
  arrived : ∀ waiter ∈ line.1, waiter.seq < line.2

structure Sound (cfg : ComputeConfig) (s : State) : Prop where
  book : LeaseBook cfg s
  queue : Line cfg s.line
  slotMode : s.mode = .exclusive ↔ s.exclusive.isSome = true
  alone : s.exclusive.isSome = true → NoGpu s ∧ NoneCounts cfg s

namespace Sound

variable {cfg : ComputeConfig} {s : State}

theorem initial (cfg : ComputeConfig) : Sound cfg (.initial cfg) where
  book := .initial cfg
  queue := ⟨fun _ mem => absurd mem List.not_mem_nil, List.nodup_nil,
    fun _ mem => absurd mem List.not_mem_nil⟩
  slotMode := iff_of_false (fun mode => nomatch mode) fun slot => nomatch slot
  alone slot := nomatch slot

theorem slot_free (sound : Sound cfg s) (mode : s.mode ≠ .exclusive) : s.exclusive = none := by
  cases slot : s.exclusive with
  | none => rfl
  | some id => exact absurd (sound.slotMode.mpr (by rw [slot]; rfl)) mode

theorem of_same {t : State} (sound : Sound cfg s) (same : SameBook s t) (line : t.line = s.line)
    (mode : t.mode = s.mode)
    (counts : s.mode = .exclusive → NoneCounts cfg s → NoneCounts cfg t) : Sound cfg t where
  book := same.keeps sound.book
  queue := line ▸ sound.queue
  slotMode := by
    rw [mode, same.exclusive]
    exact sound.slotMode
  alone slot := by
    rw [same.exclusive] at slot
    obtain ⟨noGpu, noneCounts⟩ := sound.alone slot
    refine ⟨fun id live gpu => ?_, counts (sound.slotMode.mpr slot) noneCounts⟩
    obtain ⟨cls, -, placement, -, -, released⟩ := same.terms_eq id
    rw [cls]
    exact noGpu id (released ▸ live) (placement ▸ gpu)

end Sound

theorem NoGpu.of_same {s t : State} (same : SameBook s t) (noGpu : NoGpu s) : NoGpu t := by
  intro id live gpu
  obtain ⟨cls, -, placement, -, -, released⟩ := same.terms_eq id
  rw [cls]
  exact noGpu id (released ▸ live) (placement ▸ gpu)

theorem noGpu_of_localGpuLeases {cfg : ComputeConfig} {s : State} (book : LeaseBook cfg s)
    (none : s.localGpuLeases cfg = 0) : NoGpu s := by
  intro id live gpu
  by_contra shared
  obtain ⟨name, configured, named⟩ := (book.wellFormed id (book.granted live)).named shared
  have held : id ∈ (s.deployments name).leases :=
    (book.mem name id).mpr ⟨live, named, by rw [gpu]; decide⟩
  have zero := List.sum_eq_zero_iff.mp none _
    (List.mem_map_of_mem (f := fun name => ((s.deployments name).leases.filter fun id =>
      (s.lease id).placement = .localGpu).card) configured)
  rw [Finset.card_eq_zero, Finset.filter_eq_empty_iff] at zero
  exact zero held gpu

/-! ### What the others rely on -/

structure Outside (s t : State) : Prop where
  pending : t.exclusivePending = s.exclusivePending
  mode : t.mode = s.mode ∨ (s.mode = .exclusive ∧ t.mode = .normal)
  drained : t.drained = s.drained ∨
    (s.drained.isSome = true ∧ t.drained = some true ∧ (t.mode ≠ .normal → NoGpu t))
  gpu : t.mode ≠ .normal → NoGpu s → NoGpu t

/-- A section without the control lock. -/
structure Unlocked (s t : State) : Prop where
  counts : ∀ name, (t.deployments name).countsOnGpu = (s.deployments name).countsOnGpu
  mode : t.mode = s.mode ∨ t.mode = .normal

/-- A section that ends no lease and publishes no reading. -/
structure Quiet (s t : State) : Prop where
  next : s.nextLease ≤ t.nextLease
  old : ∀ id, id < s.nextLease → (t.lease id).released = (s.lease id).released ∧
    (t.lease id).vramBytes = (s.lease id).vramBytes
  pendingRelease : t.pendingRelease = s.pendingRelease

section

variable {s t u : State}

theorem Outside.refl (s : State) : Outside s s := ⟨rfl, Or.inl rfl, Or.inl rfl, fun _ noGpu => noGpu⟩

theorem Outside.mode_ne (first : Outside s t) (mode : t.mode ≠ .normal) : t.mode = s.mode := by
  rcases first.mode with same | ended
  · exact same
  · exact absurd ended.2 mode

theorem Outside.trans (first : Outside s t) (second : Outside t u) : Outside s u where
  pending := second.pending.trans first.pending
  mode := by
    rcases second.mode with same | ended
    · rw [same]
      exact first.mode
    · refine Or.inr ⟨?_, ended.2⟩
      rw [← ended.1]
      exact (first.mode_ne (by rw [ended.1]; decide)).symm
  drained := by
    rcases second.drained with same | told
    · rw [same]
      rcases first.drained with same | told
      · exact Or.inl same
      · refine Or.inr ⟨told.1, told.2.1, fun mode => second.gpu mode (told.2.2 ?_)⟩
        rw [← second.mode_ne mode]
        exact mode
    · refine Or.inr ⟨?_, told.2⟩
      rcases first.drained with same | earlier
      · rw [← same]
        exact told.1
      · exact earlier.1
  gpu mode noGpu := second.gpu mode (first.gpu (second.mode_ne mode ▸ mode) noGpu)

theorem Unlocked.refl (s : State) : Unlocked s s := ⟨fun _ => rfl, Or.inl rfl⟩

theorem Unlocked.trans (first : Unlocked s t) (second : Unlocked t u) : Unlocked s u where
  counts name := (second.counts name).trans (first.counts name)
  mode := by
    rcases second.mode with same | normal
    · rw [same]
      exact first.mode
    · exact Or.inr normal

theorem Quiet.refl (s : State) : Quiet s s := ⟨le_rfl, fun _ _ => ⟨rfl, rfl⟩, rfl⟩

theorem Quiet.trans (first : Quiet s t) (second : Quiet t u) : Quiet s u where
  next := first.next.trans second.next
  old id granted := by
    obtain ⟨released, vram⟩ := second.old id (granted.trans_le first.next)
    obtain ⟨released', vram'⟩ := first.old id granted
    exact ⟨released.trans released', vram.trans vram'⟩
  pendingRelease := second.pendingRelease.trans first.pendingRelease

structure SameControl (s t : State) : Prop where
  mode : t.mode = s.mode
  pending : t.exclusivePending = s.exclusivePending
  drained : t.drained = s.drained
  pendingRelease : t.pendingRelease = s.pendingRelease

theorem SameControl.refl (s : State) : SameControl s s := ⟨rfl, rfl, rfl, rfl⟩

theorem SameControl.trans (first : SameControl s t) (second : SameControl t u) : SameControl s u :=
  ⟨second.mode.trans first.mode, second.pending.trans first.pending,
    second.drained.trans first.drained, second.pendingRelease.trans first.pendingRelease⟩

theorem SameControl.outside (control : SameControl s t) (same : SameBook s t) : Outside s t :=
  ⟨control.pending, Or.inl control.mode, Or.inl control.drained, fun _ => NoGpu.of_same same⟩

theorem SameControl.quiet (control : SameControl s t) (same : SameBook s t) : Quiet s t where
  next := same.nextLease.ge
  old id _ := by
    obtain ⟨-, -, -, -, vram, released⟩ := same.terms_eq id
    exact ⟨released, vram⟩
  pendingRelease := control.pendingRelease

end

/-! ### Grants and the waiting line -/

/-- A section that admits requests and changes the waiting line. -/
structure Admits (s t : State) : Prop extends SameControl s t, Quiet s t where
  exclusive : t.exclusive = s.exclusive
  counts : ∀ name, (t.deployments name).countsOnGpu = (s.deployments name).countsOnGpu
  gpu : s.mode ≠ .normal → NoGpu s → NoGpu t

namespace Admits

variable {cfg : ComputeConfig} {s t u : State}

theorem refl (s : State) : Admits s s :=
  ⟨.refl s, le_rfl, fun _ _ => ⟨rfl, rfl⟩, rfl, fun _ => rfl, fun _ noGpu => noGpu⟩

theorem trans (first : Admits s t) (second : Admits t u) : Admits s u where
  toSameControl := first.toSameControl.trans second.toSameControl
  next := (first.toQuiet.trans second.toQuiet).next
  old := (first.toQuiet.trans second.toQuiet).old
  exclusive := second.exclusive.trans first.exclusive
  counts name := (second.counts name).trans (first.counts name)
  gpu mode noGpu := second.gpu (first.mode ▸ mode) (first.gpu mode noGpu)

theorem outside (admits : Admits s t) : Outside s t :=
  ⟨admits.pending, Or.inl admits.mode, Or.inl admits.drained,
    fun mode => admits.gpu (admits.mode ▸ mode)⟩

theorem unlocked (admits : Admits s t) : Unlocked s t := ⟨admits.counts, Or.inl admits.mode⟩

theorem of_same (same : SameBook s t) (control : SameControl s t)
    (counts : ∀ name, (t.deployments name).countsOnGpu = (s.deployments name).countsOnGpu) :
    Admits s t where
  toSameControl := control
  next := (control.quiet same).next
  old := (control.quiet same).old
  exclusive := same.exclusive
  counts := counts
  gpu _ := NoGpu.of_same same

theorem sound (admits : Admits s t) (sound : Sound cfg s) (book : LeaseBook cfg t)
    (queue : Line cfg t.line) : Sound cfg t where
  book := book
  queue := queue
  slotMode := by
    rw [admits.mode, admits.exclusive]
    exact sound.slotMode
  alone slot := by
    rw [admits.exclusive] at slot
    obtain ⟨noGpu, noneCounts⟩ := sound.alone slot
    have mode : s.mode ≠ .normal := by
      rw [sound.slotMode.mpr slot]
      decide
    exact ⟨admits.gpu mode noGpu, fun name configured =>
      (admits.counts name).trans (noneCounts name configured)⟩

end Admits

section

variable {cfg : ComputeConfig} {s : State} {request : ComputeRequest} {placement : Placement}
  {now : Time}

theorem newLease_quiet (lease : Lease) (id : LeaseId) (granted : id < s.nextLease) :
    Function.update s.lease s.nextLease lease id = s.lease id :=
  Function.update_of_ne (Nat.ne_of_lt granted) _ _

theorem newLease_noGpu {t : State} (lease : Lease)
    (object : t.lease = Function.update s.lease s.nextLease lease)
    (place : lease.placement = .localGpu → lease.resourceClass = .exclusive) (noGpu : NoGpu s) :
    NoGpu t := by
  intro id live gpu
  rw [object] at live gpu ⊢
  by_cases new : id = s.nextLease
  · rw [new, Function.update_self] at gpu ⊢
    exact place gpu
  · rw [Function.update_of_ne new] at live gpu ⊢
    exact noGpu id live gpu

theorem countsOnGpu_withLease (cfg : ComputeConfig) (s : State) (request : ComputeRequest)
    (placement : Placement) (name : String) :
    (Function.update s.deployments request.target (s.withLease cfg request placement)
      name).countsOnGpu = (s.deployments name).countsOnGpu := by
  by_cases same : name = request.target
  · rw [same, Function.update_self]
    rfl
  · rw [Function.update_of_ne same]

theorem grantLocal_admits (admitted : s.Admitted cfg now request placement) :
    Admits s (s.grantLocal cfg request placement now) := by
  obtain ⟨baseline, granted⟩ := State.grantLocal_eq cfg s request placement now
  rw [granted]
  refine ⟨⟨rfl, rfl, rfl, rfl⟩, Nat.le_succ _, fun id old => ?_, rfl,
    countsOnGpu_withLease cfg s request placement, fun mode => newLease_noGpu _ rfl fun gpu => ?_⟩
  · dsimp only
    rw [newLease_quiet _ id old]
    exact ⟨rfl, rfl⟩
  · have onGpu : placement = .localGpu := gpu
    rcases admitted.place with ⟨onCpu, -⟩ | ⟨-, -, normal, -⟩
    · exact absurd (onCpu.symm.trans onGpu) (by decide)
    · exact absurd normal mode

theorem grantLocal_sound (sound : Sound cfg s) (shared : Shared cfg request)
    (admitted : s.Admitted cfg now request placement) :
    Sound cfg (s.grantLocal cfg request placement now) := by
  refine (grantLocal_admits admitted).sound sound
    (sound.book.grantLocal shared.1 shared.2 admitted) ?_
  obtain ⟨baseline, granted⟩ := State.grantLocal_eq cfg s request placement now
  rw [granted]
  exact sound.queue

theorem grantCloud_admits (s : State) (request : ComputeRequest) (now : Time) :
    Admits s (s.grantCloud request now) := by
  refine ⟨⟨rfl, rfl, rfl, rfl⟩, Nat.le_succ _, fun id old => ?_, rfl, fun _ => rfl,
    fun _ => newLease_noGpu _ rfl fun gpu => ?_⟩
  · dsimp only [State.grantCloud, State.newLease]
    rw [newLease_quiet _ id old]
    exact ⟨rfl, rfl⟩
  · cases gpu

theorem grantCloud_sound (sound : Sound cfg s) (shared : Shared cfg request) :
    Sound cfg (s.grantCloud request now) :=
  (grantCloud_admits s request now).sound sound (sound.book.grantCloud shared.1 shared.2) sound.queue

theorem line_book (s : State) (waiters : List Waiter) (futures : ℕ → Future) (nextSeq : ℕ) :
    SameBook s { s with waiters := waiters, futures := futures, nextSeq := nextSeq } :=
  ⟨fun _ => rfl, fun _ => rfl, fun _ => rfl, fun _ => rfl, rfl, rfl, rfl⟩

theorem line_admits (s : State) (waiters : List Waiter) (futures : ℕ → Future) (nextSeq : ℕ) :
    Admits s { s with waiters := waiters, futures := futures, nextSeq := nextSeq } :=
  .of_same (line_book s waiters futures nextSeq) ⟨rfl, rfl, rfl, rfl⟩ fun _ => rfl

theorem line_sound (sound : Sound cfg s) (futures : ℕ → Future) (nextSeq : ℕ) {waiters : List Waiter}
    (queue : Line cfg (waiters, nextSeq)) :
    Sound cfg { s with waiters := waiters, futures := futures, nextSeq := nextSeq } :=
  (line_admits s waiters futures nextSeq).sound sound
    ((line_book s waiters futures nextSeq).keeps sound.book) queue

theorem dropWaiter_queue (sound : Sound cfg s) (seq : ℕ) :
    Line cfg ((s.dropWaiter seq).waiters, s.nextSeq) where
  shared waiter mem := sound.queue.shared waiter (List.mem_of_mem_filter mem)
  distinct := sound.queue.distinct.sublist (List.filter_sublist.map _)
  arrived waiter mem := sound.queue.arrived waiter (List.mem_of_mem_filter mem)

theorem noteWaiter_seqs (s : State) (seq : ℕ) (refusal : Refusal) :
    (s.noteWaiter seq refusal).waiters.map (·.seq) = s.waiters.map (·.seq) := by
  unfold State.noteWaiter
  rw [List.map_map]
  refine List.map_congr_left fun waiter _ => ?_
  rw [Function.comp_apply]
  split_ifs <;> rfl

theorem noteWaiter_queue (sound : Sound cfg s) (seq : ℕ) (refusal : Refusal) :
    Line cfg ((s.noteWaiter seq refusal).waiters, s.nextSeq) := by
  have old : ∀ waiter ∈ (s.noteWaiter seq refusal).waiters, ∃ before ∈ s.waiters,
      waiter.request = before.request ∧ waiter.seq = before.seq := by
    intro waiter mem
    obtain ⟨before, wasIn, rfl⟩ := List.mem_map.mp mem
    refine ⟨before, wasIn, ?_⟩
    split_ifs <;> exact ⟨rfl, rfl⟩
  refine ⟨fun waiter mem => ?_, ?_, fun waiter mem => ?_⟩
  · obtain ⟨before, wasIn, request, -⟩ := old waiter mem
    rw [request]
    exact sound.queue.shared before wasIn
  · rw [noteWaiter_seqs]
    exact sound.queue.distinct
  · obtain ⟨before, wasIn, -, number⟩ := old waiter mem
    rw [number]
    exact sound.queue.arrived before wasIn

theorem pump_admits (clock : ℕ → Time) (sound : Sound cfg s) :
    Sound cfg (s.pump cfg clock) ∧ Admits s (s.pump cfg clock) := by
  refine State.pump_rule (P := fun t => Sound cfg t ∧ Admits s t) ?_ ?_ ⟨sound, .refl s⟩
  · rintro t seq refusal ⟨soundNow, admits⟩
    exact ⟨line_sound soundNow t.futures t.nextSeq (noteWaiter_queue soundNow seq refusal),
      admits.trans (line_admits t _ t.futures t.nextSeq)⟩
  · rintro t waiter placement mem ⟨soundNow, admits⟩ - judged
    have dropped := line_sound soundNow t.futures t.nextSeq
      (dropWaiter_queue soundNow waiter.seq)
    have dropAdmits := line_admits t (t.dropWaiter waiter.seq).waiters t.futures t.nextSeq
    have admitted : (t.dropWaiter waiter.seq).Admitted cfg (clock waiter.seq) waiter.request
        placement := by
      obtain ⟨sequences, place⟩ := State.judge_admits judged
      exact ⟨sequences, place⟩
    have granted := grantLocal_sound dropped (sound.queue.shared waiter mem) admitted
    exact ⟨line_sound granted _ _ granted.queue,
      ((admits.trans dropAdmits).trans (grantLocal_admits admitted)).trans (line_admits _ _ _ _)⟩

end

end PawBackend.Compute
