/-
**What the synchronous operations do, said once.** A grant, a release and a pass over the waiting
line change a few fields of the state; the lemmas here give each of them in one equation, up to the
baseline of the VRAM promise, and every later result reads the operations through these.
-/

import PawBackend.Compute.Scheduler

namespace PawBackend.Compute

namespace State

variable {cfg : ComputeConfig} {s : State}

/-! ### Admission -/

/-- An admitted request has a sequence left, and is placed on the CPU copy its model is on, or on the
GPU its model is resident on while no Exclusive request drains or holds it. -/
structure Admitted (cfg : ComputeConfig) (s : State) (now : Time) (request : ComputeRequest)
    (placement : Placement) : Prop where
  sequences : (s.deployments request.target).leases.card < (cfg.spec request.target).maxSequences
  place : (placement = .localCpu ∧ (s.deployments request.target).onCpu = true) ∨
    (placement = .localGpu ∧ (s.deployments request.target).onCpu = false ∧ s.mode = .normal ∧
      ((s.deployments request.target).busy = false ∧ (s.deployments request.target).draining = false ∧
        (s.deployments request.target).state = .gpu) ∧
      ∃ device, s.freshDevice cfg now = some device ∧ s.judgeReading cfg device request = none)

theorem kvRefusal_none_sequences {state : KvState} {tokens : ℤ} {cls : ResourceClass} {safety : ℚ}
    {ceilings : ResourceClass → ℚ} (fits : kvRefusal state tokens cls safety ceilings = none) :
    state.sequences < state.maxSequences := by
  unfold kvRefusal at fits
  by_contra full
  rw [if_pos (not_lt.mp full)] at fits
  exact absurd fits (Option.some_ne_none _)

theorem judgeReading_none_kv {device : GpuDevice} {request : ComputeRequest}
    (admitted : s.judgeReading cfg device request = none) :
    kvRefusal (s.kv cfg request.target) request.contextTokens request.resourceClass cfg.kvSafety
      cfg.classCeilings = none := by
  unfold judgeReading at admitted
  cases fits : kvRefusal (s.kv cfg request.target) request.contextTokens request.resourceClass
      cfg.kvSafety cfg.classCeilings with
  | none => rfl
  | some refusal =>
    simp only [fits] at admitted
    split_ifs at admitted

theorem judge_admits {now : Time} {request : ComputeRequest} {queue : Bool} {placement : Placement}
    (admitted : s.judge cfg now request queue = (none, placement)) :
    s.Admitted cfg now request placement := by
  unfold judge at admitted
  dsimp only at admitted
  by_cases onCpu : (s.deployments request.target).onCpu
  · simp only [onCpu, Bool.not_true, Bool.false_eq_true, false_and, if_false, if_true] at admitted
    split_ifs at admitted with long queued full <;>
      simp only [Prod.mk.injEq, reduceCtorEq, false_and, true_and] at admitted
    exact ⟨not_le.mp full, Or.inl ⟨admitted.symm, onCpu⟩⟩
  · rw [Bool.not_eq_true] at onCpu
    simp only [onCpu, Bool.false_eq_true, if_false] at admitted
    split_ifs at admitted with long pool mode resident queued <;>
      try simp only [Prod.mk.injEq, reduceCtorEq, false_and] at admitted
    simp only [not_or, not_not, Bool.not_eq_true] at mode resident
    cases fresh : s.freshDevice cfg now with
    | none =>
      rw [fresh] at admitted
      simp only [Prod.mk.injEq, reduceCtorEq, false_and] at admitted
    | some device =>
      rw [fresh] at admitted
      obtain ⟨reading, rfl⟩ := Prod.mk.injEq _ _ _ _ ▸ admitted
      exact ⟨kvRefusal_none_sequences (judgeReading_none_kv reading),
        Or.inr ⟨rfl, onCpu, mode, resident, device, fresh, reading⟩⟩

/-! ### Grants and releases -/

theorem rebase_eq (cfg : ComputeConfig) (s : State) (released : ℤ) :
    ∃ baseline, s.rebase cfg released =
      { s with extraBaseline := baseline, pendingRelease := s.pendingRelease + released } := by
  unfold rebase
  cases s.device with
  | none => exact ⟨s.extraBaseline, rfl⟩
  | some device => exact ⟨_, rfl⟩

def withLease (cfg : ComputeConfig) (s : State) (request : ComputeRequest) (placement : Placement) :
    Deployment :=
  { s.deployments request.target with
    leases := insert s.nextLease (s.deployments request.target).leases }.reserve
    request.resourceClass (grantTokens cfg request placement)

theorem grantLocal_eq (cfg : ComputeConfig) (s : State) (request : ComputeRequest)
    (placement : Placement) (now : Time) :
    ∃ baseline, s.grantLocal cfg request placement now =
      { s with
        extraBaseline := baseline
        lease := Function.update s.lease s.nextLease
          (Lease.new request placement (grantTokens cfg request placement) now)
        nextLease := s.nextLease + 1
        deployments := Function.update s.deployments request.target
          (s.withLease cfg request placement) } := by
  obtain ⟨baseline, rebased⟩ := rebase_eq cfg s 0
  rw [add_zero] at rebased
  unfold grantLocal
  dsimp only
  split_ifs
  · rw [rebased]
    exact ⟨baseline, rfl⟩
  · exact ⟨s.extraBaseline, rfl⟩

def withoutLease (s : State) (id : LeaseId) : Deployment :=
  { s.deployments (s.lease id).target with
    leases := (s.deployments (s.lease id).target).leases.erase id }.reserve
    (s.lease id).resourceClass (-(s.lease id).tokens)

theorem giveBack_eq (cfg : ComputeConfig) (s : State) (id : LeaseId)
    (held : id ∈ (s.deployments (s.lease id).target).leases) :
    ∃ baseline, s.giveBack cfg id =
      { s with
        extraBaseline := baseline
        pendingRelease := s.pendingRelease + (s.lease id).vramBytes
        deployments := Function.update s.deployments (s.lease id).target (s.withoutLease id) } := by
  obtain ⟨baseline, rebased⟩ := rebase_eq cfg s (s.lease id).vramBytes
  unfold giveBack
  dsimp only
  rw [if_pos held]
  split_ifs with vram
  · rw [rebased]
    exact ⟨baseline, rfl⟩
  · rw [not_not] at vram
    refine ⟨s.extraBaseline, ?_⟩
    rw [vram, add_zero]
    rfl

def markReleased (s : State) (id : LeaseId) : State :=
  s.setLease id { s.lease id with released := true }

theorem markReleased_self (s : State) (id : LeaseId) :
    (s.markReleased id).lease id = { s.lease id with released := true } :=
  Function.update_self ..

theorem markReleased_target (s : State) (id : LeaseId) :
    ((s.markReleased id).lease id).target = (s.lease id).target := by
  rw [markReleased_self]
  rfl

theorem discard_cases (cfg : ComputeConfig) (s : State) (id : LeaseId) :
    ((s.lease id).placement = .cloud ∧
        s.discard cfg id = { s.markReleased id with cloud := s.cloud.erase id }) ∨
      ((s.lease id).placement ≠ .cloud ∧ s.exclusive = some id ∧
        s.discard cfg id =
          { s.markReleased id with exclusive := none, mode := .normal, refusedTasks := ∅ }) ∨
      ((s.lease id).placement ≠ .cloud ∧ s.exclusive ≠ some id ∧
        s.discard cfg id = (s.markReleased id).giveBack cfg id) := by
  unfold discard
  dsimp only
  by_cases cloud : (s.lease id).placement = .cloud
  · exact Or.inl ⟨cloud, if_pos cloud⟩
  · rw [if_neg cloud]
    by_cases slot : s.exclusive = some id
    · exact Or.inr (Or.inl ⟨cloud, slot, if_pos slot⟩)
    · exact Or.inr (Or.inr ⟨cloud, slot, if_neg slot⟩)

/-! ### A pass over the waiting line -/

theorem pump_rule {clock : ℕ → Time} {P : State → Prop}
    (note : ∀ s seq refusal, P s → P (s.noteWaiter seq refusal))
    (admits : ∀ t waiter placement, waiter ∈ s.waiters → P t → t.futures waiter.seq = .pending →
      t.judge cfg (clock waiter.seq) waiter.request false = (none, placement) →
      P (t.admitWaiter cfg waiter placement (clock waiter.seq)))
    (base : P s) : P (s.pump cfg clock) := by
  have turn : ∀ (pass : Pass) (waiter : Waiter), waiter ∈ s.waiters → P pass.state →
      P (pumpWaiter cfg clock pass waiter).state := by
    intro pass waiter mem kept
    unfold pumpWaiter
    dsimp only
    split_ifs with undone skip
    · exact kept
    · split
      · exact note _ _ _ kept
      · exact note _ _ _ kept
    · split
      · exact note _ _ _ kept
      · split
        · rename_i placement judged
          exact admits _ _ _ mem kept (not_not.mp undone) judged
        · split_ifs <;> exact note _ _ _ kept
  have line : ∀ (waiters : List Waiter) (pass : Pass), (∀ waiter ∈ waiters, waiter ∈ s.waiters) →
      P pass.state → P (waiters.foldl (pumpWaiter cfg clock) pass).state := by
    intro waiters
    induction waiters with
    | nil => exact fun _ _ kept => kept
    | cons waiter waiters ih =>
      intro pass members kept
      exact ih _ (fun other mem => members other (.tail _ mem))
        (turn pass waiter (members waiter (.head _)) kept)
  exact line _ _ (fun _ mem => (List.mem_insertionSort _).mp mem) base

end State

end PawBackend.Compute
