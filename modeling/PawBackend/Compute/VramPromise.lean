/-
**What a grant, a release and a reading do to the available VRAM, exactly.**

The view of a reading is the models' part and a promise (`State.promise`).
-/

import PawBackend.Compute.Moves

namespace PawBackend.Compute

open Lib

namespace State

/-! ### The live leases' VRAM -/

def liveVram (s : State) : ℤ :=
  ∑ id ∈ Finset.range s.nextLease, if (s.lease id).released then 0 else (s.lease id).vramBytes

def sharedIds (cfg : ComputeConfig) (s : State) : Finset LeaseId :=
  cfg.names.toFinset.biUnion fun name => (s.deployments name).leases

variable {cfg : ComputeConfig} {s : State}

theorem mem_sharedIds (book : LeaseBook cfg s) {id : LeaseId} :
    id ∈ s.sharedIds cfg ↔ (s.lease id).released = false ∧ (s.lease id).placement ≠ .cloud ∧
      (s.lease id).resourceClass ≠ .exclusive := by
  unfold sharedIds
  rw [Finset.mem_biUnion]
  constructor
  · rintro ⟨name, -, held⟩
    obtain ⟨live, named, local_⟩ := (book.mem name id).mp held
    refine ⟨live, local_, fun exclusive => ?_⟩
    rw [((book.wellFormed id (book.granted live)).exclusive exclusive).1] at named
    cases named
  · rintro ⟨live, local_, shared⟩
    obtain ⟨name, configured, named⟩ := (book.wellFormed id (book.granted live)).named shared
    exact ⟨name, List.mem_toFinset.mpr configured, (book.mem name id).mpr ⟨live, named, local_⟩⟩

theorem sharedVram_eq_sum (book : LeaseBook cfg s) :
    s.sharedVram cfg = ∑ id ∈ s.sharedIds cfg, (s.lease id).vramBytes := by
  unfold sharedVram sharedIds
  rw [Finset.sum_biUnion]
  · exact (List.sum_toFinset _ cfg.names_nodup).symm
  · intro name _ other _ different
    refine Finset.disjoint_left.mpr fun id first second => ?_
    exact different (book.mem_unique first second)

theorem sharedIds_subset (book : LeaseBook cfg s) :
    s.sharedIds cfg ⊆ Finset.range s.nextLease := by
  intro id mem
  exact Finset.mem_range.mpr (book.granted ((mem_sharedIds book).mp mem).1)

theorem liveVram_eq (book : LeaseBook cfg s) :
    s.liveVram = s.sharedVram cfg +
      match s.exclusive with
      | some id => (s.lease id).vramBytes
      | none => 0 := by
  have inSets : ∑ id ∈ s.sharedIds cfg,
      (if (s.lease id).released then 0 else (s.lease id).vramBytes) = s.sharedVram cfg := by
    rw [sharedVram_eq_sum book]
    refine Finset.sum_congr rfl fun id mem => ?_
    rw [((mem_sharedIds book).mp mem).1, if_neg Bool.false_ne_true]
  have elsewhere : ∀ id ∈ Finset.range s.nextLease \ s.sharedIds cfg, s.exclusive ≠ some id →
      (if (s.lease id).released then 0 else (s.lease id).vramBytes) = 0 := by
    intro id mem notSlot
    obtain ⟨granted, outside⟩ := Finset.mem_sdiff.mp mem
    split_ifs with released
    · rfl
    · rw [Bool.not_eq_true] at released
      refine (book.wellFormed id (Finset.mem_range.mp granted)).elsewhere fun gpu => outside ?_
      refine (mem_sharedIds book).mpr ⟨released, by rw [gpu]; decide, fun exclusive => ?_⟩
      exact notSlot ((book.slot id).mpr ⟨released, exclusive⟩)
  unfold liveVram
  rw [← Finset.sum_sdiff (sharedIds_subset book), inSets, add_comm]
  congr 1
  cases slot : s.exclusive with
  | none => exact Finset.sum_eq_zero fun id mem => elsewhere id mem (by rw [slot]; simp)
  | some id =>
    obtain ⟨live, exclusive⟩ := (book.slot id).mp slot
    rw [Finset.sum_eq_single id]
    · rw [live, if_neg Bool.false_ne_true]
    · intro other mem different
      refine elsewhere other mem fun taken => different ?_
      exact Option.some.inj (taken.symm.trans slot)
    · intro outside
      refine absurd (Finset.mem_sdiff.mpr ⟨Finset.mem_range.mpr (book.granted live), ?_⟩) outside
      exact fun shared => ((mem_sharedIds book).mp shared).2.2 exclusive

theorem sharedVram_of_noGpu (book : LeaseBook cfg s) (noGpu : NoGpu s) : s.sharedVram cfg = 0 := by
  rw [sharedVram_eq_sum book]
  refine Finset.sum_eq_zero fun id mem => ?_
  obtain ⟨live, -, shared⟩ := (mem_sharedIds book).mp mem
  exact (book.wellFormed id (book.granted live)).elsewhere fun gpu => shared (noGpu id live gpu)

theorem extraReserved_eq (sound : Sound cfg s) :
    s.extraReserved cfg = s.pendingRelease + s.liveVram := by
  rw [liveVram_eq sound.book]
  unfold extraReserved
  cases slot : s.exclusive with
  | none => simp
  | some id =>
    have taken : s.exclusive.isSome = true := by rw [slot, Option.isSome_some]
    simp [sharedVram_of_noGpu sound.book (sound.alone taken).1]

theorem liveVram_nonneg (book : LeaseBook cfg s) : 0 ≤ s.liveVram := by
  refine Finset.sum_nonneg fun id mem => ?_
  split_ifs
  · exact le_rfl
  · exact (book.wellFormed id (Finset.mem_range.mp mem)).vram

/-! ### The promise -/

variable (cfg s) in
def promise (device : GpuDevice) : Reservation :=
  ⟨foreignUse device s.processes (s.usages cfg), s.extraReserved cfg, s.extraBaseline⟩

variable (cfg s) in
def ownCommitted (device : GpuDevice) : ℤ :=
  (modelTally device s.processes (s.usages cfg)).committedOwn

theorem promise_rest_nonneg (device : GpuDevice) : 0 ≤ (s.promise cfg device).rest :=
  foreignUse_nonneg _ _ _

theorem vram_external (device : GpuDevice) :
    (s.vram cfg device).external = (s.promise cfg device).external := by
  unfold vram
  rw [account_eq]
  rfl

theorem vram_extraUse (device : GpuDevice) :
    (s.vram cfg device).extraUse = (s.promise cfg device).use := by
  unfold vram
  rw [account_eq]
  rfl

theorem vram_committed (device : GpuDevice) :
    (s.vram cfg device).committed = s.ownCommitted cfg device + (s.promise cfg device).committed := by
  unfold vram
  rw [account_eq]
  rfl

theorem vram_available (device : GpuDevice) :
    (s.vram cfg device).available =
      device.totalBytes - headroom cfg device - (s.vram cfg device).committed :=
  rfl

theorem usages_congr {t : State}
    (counts : ∀ name, (t.deployments name).countsOnGpu = (s.deployments name).countsOnGpu)
    (pids : ∀ name, (t.deployments name).pids = (s.deployments name).pids) :
    t.usages cfg = s.usages cfg := by
  unfold usages
  have models : (fun name => (t.deployments name).countsOnGpu) =
      fun name => (s.deployments name).countsOnGpu := funext counts
  rw [models]
  refine List.map_congr_left fun name _ => ?_
  rw [pids]

theorem vram_committed_congr {t : State} (usages : t.usages cfg = s.usages cfg)
    (processes : t.processes = s.processes) (device : GpuDevice) :
    (t.vram cfg device).committed = s.ownCommitted cfg device +
      Reservation.committed ⟨(s.promise cfg device).rest, t.extraReserved cfg, t.extraBaseline⟩ := by
  rw [vram_committed]
  unfold ownCommitted promise
  rw [usages, processes]

/-! ### A grant -/

variable {request : ComputeRequest} {placement : Placement} {now : Time} {device : GpuDevice}

theorem rebase_baseline (reading : s.device = some device) (released : ℤ) :
    (s.rebase cfg released).extraBaseline =
      (s.promise cfg device).external + min released (s.promise cfg device).use := by
  rw [← vram_external, ← vram_extraUse]
  unfold rebase
  rw [reading]

theorem grantLocal_baseline (reading : s.device = some device) :
    (s.grantLocal cfg request placement now).extraBaseline =
      if (Lease.new request placement (grantTokens cfg request placement) now).vramBytes ≠ 0 then
        (s.promise cfg device).external + min 0 (s.promise cfg device).use
      else s.extraBaseline := by
  unfold grantLocal
  dsimp only
  split_ifs
  · exact rebase_baseline reading 0
  · rfl

theorem grantLocal_usages :
    (s.grantLocal cfg request placement now).usages cfg = s.usages cfg := by
  obtain ⟨baseline, granted⟩ := grantLocal_eq cfg s request placement now
  rw [granted]
  refine usages_congr (countsOnGpu_withLease cfg s request placement) fun name => ?_
  dsimp only
  by_cases same : name = request.target
  · rw [same, Function.update_self]
    rfl
  · rw [Function.update_of_ne same]

theorem liveVram_newLease {t : State} {lease : Lease} (live : lease.released = false)
    (object : t.lease = Function.update s.lease s.nextLease lease)
    (next : t.nextLease = s.nextLease + 1) : t.liveVram = s.liveVram + lease.vramBytes := by
  unfold liveVram
  rw [next, Finset.sum_range_succ, object, Function.update_self, live, if_neg Bool.false_ne_true]
  congr 1
  refine Finset.sum_congr rfl fun id mem => ?_
  rw [newLease_quiet _ id (Finset.mem_range.mp mem)]

theorem grantLocal_extraReserved (sound : Sound cfg s) (shared : Shared cfg request)
    (admitted : s.Admitted cfg now request placement) :
    (s.grantLocal cfg request placement now).extraReserved cfg = s.extraReserved cfg +
      (Lease.new request placement (grantTokens cfg request placement) now).vramBytes := by
  rw [extraReserved_eq (grantLocal_sound sound shared admitted), extraReserved_eq sound,
    (grantLocal_admits admitted).pendingRelease, add_assoc]
  obtain ⟨baseline, granted⟩ := grantLocal_eq cfg s request placement now
  rw [granted]
  rw [liveVram_newLease (s := s) rfl rfl rfl]

theorem new_vramBytes_nonneg (request : ComputeRequest) (placement : Placement) (tokens : ℤ)
    (now : Time) : 0 ≤ (Lease.new request placement tokens now).vramBytes := by
  unfold Lease.new
  dsimp only
  split_ifs
  · exact request.vram_bound.1
  · exact le_rfl

theorem grantLocal_reading (cfg : ComputeConfig) (s : State) (request : ComputeRequest)
    (placement : Placement) (now : Time) :
    (s.grantLocal cfg request placement now).processes = s.processes ∧
      (s.grantLocal cfg request placement now).device = s.device := by
  obtain ⟨baseline, granted⟩ := grantLocal_eq cfg s request placement now
  rw [granted]
  exact ⟨rfl, rfl⟩

theorem committed_grantLocal (sound : Sound cfg s) (shared : Shared cfg request)
    (admitted : s.Admitted cfg now request placement) (reading : s.device = some device) :
    let v := (Lease.new request placement (grantTokens cfg request placement) now).vramBytes
    let p := s.promise cfg device
    ((s.grantLocal cfg request placement now).vram cfg device).committed =
      s.ownCommitted cfg device + if v ≠ 0 then
        Reservation.committed ⟨p.rest, p.reserved + v, p.external + min 0 p.use⟩
      else p.committed := by
  intro v p
  rw [vram_committed_congr grantLocal_usages (grantLocal_reading cfg s request placement now).1,
    grantLocal_extraReserved sound shared admitted, grantLocal_baseline reading]
  congr 1
  by_cases none : v = 0
  · rw [if_neg (not_not.mpr none), if_neg (not_not.mpr none)]
    have same : s.extraReserved cfg + v = s.extraReserved cfg := by rw [none, add_zero]
    exact congrArg (fun reserved => Reservation.committed ⟨p.rest, reserved, s.extraBaseline⟩) same
  · rw [if_pos none, if_pos none]
    rfl

theorem available_grantLocal (sound : Sound cfg s) (nonneg : 0 ≤ s.extraReserved cfg)
    (shared : Shared cfg request) (admitted : s.Admitted cfg now request placement)
    (reading : s.device = some device) :
    ((s.grantLocal cfg request placement now).vram cfg device).available =
      (s.vram cfg device).available -
        (Lease.new request placement (grantTokens cfg request placement) now).vramBytes := by
  have more := new_vramBytes_nonneg request placement (grantTokens cfg request placement) now
  have cost := (s.promise cfg device).grant (promise_rest_nonneg device) nonneg more
  rw [vram_available, vram_available, committed_grantLocal sound shared admitted reading,
    vram_committed]
  split_ifs with some
  · rw [cost]
    ring
  · rw [not_not] at some
    rw [some, sub_zero]

theorem committed_grantLocal_le (sound : Sound cfg s) (shared : Shared cfg request)
    (admitted : s.Admitted cfg now request placement) (reading : s.device = some device) :
    (s.vram cfg device).committed ≤
      ((s.grantLocal cfg request placement now).vram cfg device).committed := by
  have more := new_vramBytes_nonneg request placement (grantTokens cfg request placement) now
  have cost := (s.promise cfg device).grant_le (promise_rest_nonneg device) more
  rw [committed_grantLocal sound shared admitted reading, vram_committed]
  split_ifs
  · exact add_le_add_right cost _
  · exact le_rfl

/-! ### A release -/

variable {id : LeaseId}

theorem extraReserved_markReleased :
    (s.markReleased id).extraReserved cfg = s.extraReserved cfg := by
  have bytes : ∀ i, ((s.markReleased id).lease i).vramBytes = (s.lease i).vramBytes := by
    intro i
    by_cases this : i = id
    · rw [this, markReleased_self]
    · rw [markReleased, setLease]
      dsimp only
      rw [Function.update_of_ne this]
  have shared : (s.markReleased id).sharedVram cfg = s.sharedVram cfg :=
    congrArg List.sum (List.map_congr_left fun name _ => Finset.sum_congr rfl fun i _ => bytes i)
  unfold extraReserved
  rw [shared]
  have slot : (s.markReleased id).exclusive = s.exclusive := rfl
  rw [slot]
  cases s.exclusive with
  | none => rfl
  | some other =>
    dsimp only
    rw [bytes]
    rfl

theorem liveVram_discards {t : State} (discards : Discards s t id) (granted : id < s.nextLease)
    (live : (s.lease id).released = false) : t.liveVram = s.liveVram - (s.lease id).vramBytes := by
  have mem := Finset.mem_range.mpr granted
  unfold liveVram
  rw [discards.nextLease, discards.lease, ← Finset.add_sum_erase _ _ mem,
    ← Finset.add_sum_erase _ _ mem, Function.update_self, live, if_pos rfl,
    if_neg Bool.false_ne_true]
  have rest : ∑ i ∈ (Finset.range s.nextLease).erase id,
        (if (Function.update s.lease id { s.lease id with released := true } i).released then 0
          else (Function.update s.lease id { s.lease id with released := true } i).vramBytes) =
      ∑ i ∈ (Finset.range s.nextLease).erase id,
        if (s.lease i).released then 0 else (s.lease i).vramBytes :=
    Finset.sum_congr rfl fun i other => by rw [Function.update_of_ne (Finset.ne_of_mem_erase other)]
  rw [rest]
  ring

/-- What a release of a shared lease leaves of the promise: its bytes are pending, and what it can
have absorbed is external. -/
structure Gives (cfg : ComputeConfig) (s t : State) (id : LeaseId) : Prop where
  usages : t.usages cfg = s.usages cfg
  processes : t.processes = s.processes
  device : t.device = s.device
  pendingRelease : t.pendingRelease = s.pendingRelease + (s.lease id).vramBytes
  baseline : ∀ device, s.device = some device → t.extraBaseline =
    if (s.lease id).vramBytes ≠ 0 then
      (s.promise cfg device).external + min (s.lease id).vramBytes (s.promise cfg device).use
    else s.extraBaseline

theorem giveBack_baseline {device : GpuDevice} (reading : s.device = some device)
    (held : id ∈ (s.deployments (s.lease id).target).leases) :
    (s.giveBack cfg id).extraBaseline =
      if (s.lease id).vramBytes ≠ 0 then
        (s.promise cfg device).external + min (s.lease id).vramBytes (s.promise cfg device).use
      else s.extraBaseline := by
  unfold giveBack
  dsimp only
  rw [if_pos held]
  split_ifs
  · exact rebase_baseline reading _
  · rfl

theorem promise_markReleased (device : GpuDevice) :
    (s.markReleased id).promise cfg device = s.promise cfg device := by
  unfold promise
  rw [extraReserved_markReleased]
  rfl

theorem discard_gives (book : LeaseBook cfg s) (live : (s.lease id).released = false)
    (notSlot : s.exclusive ≠ some id) : Gives cfg s (s.discard cfg id) id := by
  rcases s.discard_cases cfg id with ⟨inCloud, after⟩ | ⟨-, slot, -⟩ | ⟨local_, -, after⟩
  · have none : (s.lease id).vramBytes = 0 :=
      (book.wellFormed id (book.granted live)).elsewhere (by rw [inCloud]; decide)
    rw [after]
    refine ⟨rfl, rfl, rfl, ?_, fun device _ => ?_⟩
    · rw [none, add_zero]
      rfl
    · rw [if_neg (not_not.mpr none)]
      rfl
  · exact absurd slot notSlot
  · have target := s.markReleased_target id
    have object := s.markReleased_self id
    have held : id ∈ ((s.markReleased id).deployments ((s.markReleased id).lease id).target).leases :=
      target ▸ book.mem_target live local_ notSlot
    obtain ⟨baseline, given⟩ := giveBack_eq cfg (s.markReleased id) id held
    have counts := countsOnGpu_withoutLease (s.markReleased id) id
    have bytes : ((s.markReleased id).lease id).vramBytes = (s.lease id).vramBytes := by rw [object]
    refine ⟨?_, ?_, ?_, ?_, fun device reading => ?_⟩
    · rw [after, given]
      refine usages_congr counts fun name => ?_
      dsimp only
      by_cases same : name = ((s.markReleased id).lease id).target
      · rw [same, Function.update_self]
        rfl
      · rw [Function.update_of_ne same]
        rfl
    · rw [after, given]
      rfl
    · rw [after, given]
      rfl
    · rw [after, given]
      dsimp only
      rw [bytes]
      rfl
    · rw [after, giveBack_baseline (s := s.markReleased id) reading held, bytes, promise_markReleased]
      rfl

theorem discard_extraReserved (sound : Sound cfg s) (live : (s.lease id).released = false)
    (notSlot : s.exclusive ≠ some id) :
    (s.discard cfg id).extraReserved cfg = s.extraReserved cfg := by
  have discards := discard_discards sound.book live
  rw [extraReserved_eq (discards.sound sound (sound.book.discard live)), extraReserved_eq sound,
    (discard_gives sound.book live notSlot).pendingRelease,
    liveVram_discards discards (sound.book.granted live) live]
  ring

theorem available_discard (sound : Sound cfg s) (nonneg : 0 ≤ s.extraReserved cfg)
    (live : (s.lease id).released = false) (notSlot : s.exclusive ≠ some id)
    (reading : s.device = some device) :
    ((s.discard cfg id).vram cfg device).available = (s.vram cfg device).available -
      min (s.lease id).vramBytes (s.vram cfg device).extraUse := by
  have gives := discard_gives sound.book live notSlot
  have released := (sound.book.wellFormed id (sound.book.granted live)).vram
  have cost := (s.promise cfg device).release (promise_rest_nonneg device) nonneg released
  have use := Reservation.use_nonneg (p := s.promise cfg device) nonneg
  rw [vram_available, vram_available, vram_committed_congr gives.usages gives.processes,
    discard_extraReserved sound live notSlot, gives.baseline device reading, vram_extraUse,
    vram_committed]
  split_ifs with some
  · have kept : Reservation.committed ⟨(s.promise cfg device).rest, s.extraReserved cfg,
        (s.promise cfg device).external + min (s.lease id).vramBytes (s.promise cfg device).use⟩ =
        (s.promise cfg device).committed + min (s.lease id).vramBytes (s.promise cfg device).use :=
      cost
    rw [kept]
    ring
  · rw [not_not] at some
    rw [some, min_eq_left use, sub_zero]
    rfl

/-! ### A reading -/

variable {reading : Reading} {inspected : List (String × Inspection)}

theorem confirmReleases_extraReserved (s : State) (reading : Reading) :
    (s.confirmReleases cfg reading).extraReserved cfg = s.extraReserved cfg - reading.carried := by
  unfold confirmReleases
  split_ifs with carries
  · unfold extraReserved
    dsimp only
    cases s.exclusive with
    | none =>
      show s.pendingRelease - reading.carried + s.sharedVram cfg =
        s.pendingRelease + s.sharedVram cfg - reading.carried
      ring
    | some id =>
      dsimp only
      ring
  · rw [not_not] at carries
    rw [carries, sub_zero]

theorem available_confirmReleases (nonneg : 0 ≤ reading.carried)
    (within : reading.carried ≤ s.extraReserved cfg) :
    ((s.confirmReleases cfg reading).vram cfg reading.device).available =
      (s.vram cfg reading.device).available + (reading.carried -
        min reading.carried (s.vram cfg reading.device).extraUse) := by
  have freed := (s.promise cfg reading.device).confirm (promise_rest_nonneg _) nonneg within
  have use := Reservation.use_nonneg (p := s.promise cfg reading.device) (nonneg.trans within)
  have usages : (s.confirmReleases cfg reading).usages cfg = s.usages cfg := by
    unfold confirmReleases
    split_ifs <;> rfl
  have processes : (s.confirmReleases cfg reading).processes = s.processes := by
    unfold confirmReleases
    split_ifs <;> rfl
  rw [vram_available, vram_available, vram_committed_congr usages processes,
    confirmReleases_extraReserved, vram_extraUse, vram_committed]
  by_cases carries : reading.carried = 0
  · have same : (s.confirmReleases cfg reading).extraBaseline = s.extraBaseline := by
      unfold confirmReleases
      rw [if_neg (not_not.mpr carries)]
    rw [same, carries, sub_zero, min_eq_left use, sub_zero, add_zero]
    rfl
  · have rebased : (s.confirmReleases cfg reading).extraBaseline =
        (s.promise cfg reading.device).external +
          min reading.carried (s.promise cfg reading.device).use := by
      unfold confirmReleases
      rw [if_pos carries, ← vram_external, ← vram_extraUse]
    rw [rebased]
    have kept : Reservation.committed ⟨(s.promise cfg reading.device).rest,
        s.extraReserved cfg - reading.carried, (s.promise cfg reading.device).external +
          min reading.carried (s.promise cfg reading.device).use⟩ =
        (s.promise cfg reading.device).committed - (reading.carried -
          min reading.carried (s.promise cfg reading.device).use) := freed
    rw [kept]
    ring

end State

end PawBackend.Compute
