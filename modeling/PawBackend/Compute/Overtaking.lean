/-
**No overtaking in the waiting line.** A pass of `pump` gives each waiter its turn, in the order of the
classes and of arrival. What it decides there is the waiter's `Verdict`, and `pumpWaiter` is that verdict
carried out (`pumpWaiter_eq`).

A pass only ever takes capacity away (`Later`): a request refused at its turn is refused in the state the pass ends in
(`Later.refuses`).
-/

import PawBackend.Compute.Isolation
import PawBackend.Compute.VramPromise
import PawBackend.Lib.Line

namespace PawBackend.Compute

open Lib List

/-! ### The order of the line -/

namespace Waiter

instance : Std.Total le where
  total first second := by
    unfold le
    omega

instance : IsTrans Waiter le where
  trans first second third := by
    unfold le
    omega

theorem not_le_of_le {first second : Waiter} (earlier : first.le second)
    (different : first.seq ≠ second.seq) : ¬ second.le first := by
  unfold le at earlier ⊢
  omega

end Waiter

/-! ### Capacity only shrinks -/

/-- Where a model is, and what its runtime reported. -/
def Deployment.place (entry : Deployment) :
    DeploymentState × Bool × Bool × Option (Finset ℕ) × Option ℚ :=
  (entry.state, entry.busy, entry.draining, entry.pids, entry.observed)

structure Later (cfg : ComputeConfig) (s t : State) : Prop where
  place : ∀ name, (t.deployments name).place = (s.deployments name).place
  mode : t.mode = s.mode
  relief : t.relief = s.relief
  device : t.device = s.device
  sampledAt : t.sampledAt = s.sampledAt
  fuller : ∀ name, (s.kv cfg name).Fuller (t.kv cfg name)
  committed : ∀ device, s.device = some device →
    (s.vram cfg device).committed ≤ (t.vram cfg device).committed

namespace Later

variable {cfg : ComputeConfig} {s t u : State}

theorem refl (s : State) : Later cfg s s :=
  ⟨fun _ => rfl, rfl, rfl, rfl, rfl, fun _ => .refl rfl, fun _ _ => le_rfl⟩

theorem trans (first : Later cfg s t) (second : Later cfg t u) : Later cfg s u where
  place name := (second.place name).trans (first.place name)
  mode := second.mode.trans first.mode
  relief := second.relief.trans first.relief
  device := second.device.trans first.device
  sampledAt := second.sampledAt.trans first.sampledAt
  fuller name := (first.fuller name).trans (second.fuller name)
  committed device reading := (first.committed device reading).trans
    (second.committed device (first.device.trans reading))

theorem entry (later : Later cfg s t) (name : String) :
    (t.deployments name).state = (s.deployments name).state ∧
      (t.deployments name).busy = (s.deployments name).busy ∧
      (t.deployments name).draining = (s.deployments name).draining := by
  have place := later.place name
  unfold Deployment.place at place
  simp only [Prod.mk.injEq] at place
  exact ⟨place.1, place.2.1, place.2.2.1⟩

theorem onCpu (later : Later cfg s t) (name : String) :
    (t.deployments name).onCpu = (s.deployments name).onCpu := by
  obtain ⟨state, busy, draining⟩ := later.entry name
  unfold Deployment.onCpu
  rw [state, busy, draining]

theorem needsVram (later : Later cfg s t) (request : ComputeRequest) :
    t.needsVram request = s.needsVram request := by
  unfold State.needsVram
  rw [later.onCpu]

theorem line (s : State) (waiters : List Waiter) (futures : ℕ → Future) :
    Later cfg s { s with waiters := waiters, futures := futures } :=
  ⟨fun _ => rfl, rfl, rfl, rfl, rfl, fun _ => .refl rfl, fun _ _ => le_rfl⟩

variable {request : ComputeRequest} {placement : Placement} {now : Time}

theorem grantLocal_kv (cfg : ComputeConfig) (s : State) (request : ComputeRequest)
    (placement : Placement) (now : Time) (name : String) :
    (s.kv cfg name).Fuller ((s.grantLocal cfg request placement now).kv cfg name) := by
  obtain ⟨baseline, granted⟩ := State.grantLocal_eq cfg s request placement now
  rw [granted]
  have tokens := LeaseBook.grantTokens_nonneg cfg request placement
  by_cases same : name = request.target
  · subst same
    unfold State.kv
    dsimp only
    rw [Function.update_self]
    refine ⟨rfl, rfl, rfl, Finset.card_le_card (Finset.subset_insert _ _), _, _, rfl, rfl,
      fun cls => ?_⟩
    unfold State.withLease Deployment.reserve
    dsimp only
    by_cases ofClass : cls = request.resourceClass
    · rw [ofClass, Function.update_self]
      omega
    · rw [Function.update_of_ne ofClass]
  · unfold State.kv
    dsimp only
    rw [Function.update_of_ne same]
    exact .refl rfl

theorem grantLocal (sound : Sound cfg s) (shared : Shared cfg request)
    (admitted : s.Admitted cfg now request placement) :
    Later cfg s (s.grantLocal cfg request placement now) := by
  have kv := grantLocal_kv cfg s request placement now
  have committed := fun device (reading : s.device = some device) =>
    State.committed_grantLocal_le sound shared admitted reading
  obtain ⟨baseline, granted⟩ := State.grantLocal_eq cfg s request placement now
  rw [granted] at kv committed ⊢
  refine ⟨fun name => ?_, rfl, rfl, rfl, rfl, kv, committed⟩
  dsimp only
  by_cases same : name = request.target
  · rw [same, Function.update_self]
    rfl
  · rw [Function.update_of_ne same]

end Later

/-! ### What is refused stays refused -/

section

variable {cfg : ComputeConfig} {s t : State} {request : ComputeRequest} {now later_ : Time}

theorem judgeReading_none_iff {device : GpuDevice} :
    s.judgeReading cfg device request = none ↔
      ¬ (request.resourceClass = .background ∧ Relief.backgroundStopped.level ≤ s.relief.level) ∧
      ¬ (Relief.admissionSuppressed.level ≤ s.relief.level ∧ request.resourceClass ≠ .interactive) ∧
      ¬ (Relief.contextReduced.level ≤ s.relief.level ∧
        ⌊((cfg.spec request.target).maxContextTokens : ℚ) * cfg.pressureContextFraction⌋ <
          request.contextTokens) ∧
      kvRefusal (s.kv cfg request.target) request.contextTokens request.resourceClass cfg.kvSafety
        cfg.classCeilings = none ∧
      freeVramAdmits (s.vram cfg device) request.vramBytes = true := by
  unfold State.judgeReading
  dsimp only
  cases kvRefusal (s.kv cfg request.target) request.contextTokens request.resourceClass cfg.kvSafety
      cfg.classCeilings with
  | some refusal => split_ifs <;> simp
  | none => split_ifs <;> simp_all

theorem judge_none_iff :
    (s.judge cfg now request false).1 = none ↔
      request.contextTokens ≤ (cfg.spec request.target).maxContextTokens ∧
      if (s.deployments request.target).onCpu then
        (s.deployments request.target).leases.card < (cfg.spec request.target).maxSequences
      else
        ¬ ((cfg.spec request.target).kvCapacityTokens ≠ 0 ∧
          usableTokens (s.kv cfg request.target) request.resourceClass cfg.kvSafety
            cfg.classCeilings < request.contextTokens) ∧
        s.mode = .normal ∧
        ¬ ((s.deployments request.target).busy = true ∨
          (s.deployments request.target).draining = true ∨
          (s.deployments request.target).state ≠ .gpu) ∧
        ∃ device, s.freshDevice cfg now = some device ∧ s.judgeReading cfg device request = none := by
  unfold State.judge
  dsimp only
  cases onCpu : (s.deployments request.target).onCpu with
  | true =>
    simp only [Bool.not_true, Bool.false_eq_true, false_and, if_false, if_true]
    split_ifs with long full
    · exact iff_of_false not_false fun fits => absurd long (not_lt.mpr fits.1)
    · exact iff_of_false not_false fun fits => absurd fits.2 (not_lt.mpr full)
    · exact iff_of_true rfl ⟨not_lt.mp long, not_le.mp full⟩
  | false =>
    simp only [Bool.not_false, Bool.false_eq_true, false_and, if_false, true_and]
    split_ifs with long pool mode resident
    · exact iff_of_false not_false fun fits => absurd long (not_lt.mpr fits.1)
    · exact iff_of_false not_false fun fits => absurd pool fits.2.1
    · exact iff_of_false not_false fun fits => absurd fits.2.2.1 mode
    · exact iff_of_false not_false fun fits => absurd resident fits.2.2.2.1
    · cases fresh : s.freshDevice cfg now with
      | none => simp
      | some device =>
        simp only [Option.some.injEq, exists_eq_left']
        exact ⟨fun fits => ⟨not_lt.mp long, pool, not_not.mp mode, resident, fits⟩,
          fun fits => fits.2.2.2.2⟩

theorem freshDevice_mono (later : Later cfg s t) (clock : now ≤ later_) {device : GpuDevice}
    (fresh : t.freshDevice cfg later_ = some device) : s.freshDevice cfg now = some device := by
  unfold State.freshDevice at fresh ⊢
  rw [later.device, later.sampledAt] at fresh
  split at fresh
  · split_ifs at fresh with young
    rw [if_pos ((sub_le_sub_right clock _).trans young)]
    exact fresh
  · cases fresh

theorem freshDevice_device {device : GpuDevice} (fresh : s.freshDevice cfg now = some device) :
    s.device = some device := by
  unfold State.freshDevice at fresh
  split at fresh
  · rename_i given
    split_ifs at fresh
    exact given.trans fresh
  · cases fresh

theorem Later.refuses (later : Later cfg s t) (clock : now ≤ later_)
    (refused : (s.judge cfg now request false).1 ≠ none) :
    (t.judge cfg later_ request false).1 ≠ none := by
  intro admitted
  refine refused ((judge_none_iff).mpr ?_)
  obtain ⟨short, place⟩ := (judge_none_iff).mp admitted
  refine ⟨short, ?_⟩
  rw [later.onCpu] at place
  obtain ⟨state, busy, draining⟩ := later.entry request.target
  split_ifs with onCpu
  · rw [if_pos onCpu] at place
    exact (later.fuller request.target).sequences.trans_lt place
  · rw [if_neg onCpu, state, busy, draining, later.mode,
      (later.fuller request.target).usable] at place
    obtain ⟨pool, mode, resident, device, fresh, reading⟩ := place
    refine ⟨pool, mode, resident, device, freshDevice_mono later clock fresh, ?_⟩
    rw [judgeReading_none_iff, later.relief] at reading
    obtain ⟨background, suppressed, reduced, kv, vram⟩ := reading
    refine (judgeReading_none_iff).mpr ⟨background, suppressed, reduced, ?_, ?_⟩
    · by_contra full
      exact kvRefusal_mono (later.fuller request.target) _ _ _ _ full kv
    · have given := freshDevice_device (freshDevice_mono later clock fresh)
      have committed := later.committed device given
      rw [freeVramAdmits_iff] at vram ⊢
      have total : (t.vram cfg device).total = (s.vram cfg device).total ∧
          (t.vram cfg device).actual = (s.vram cfg device).actual ∧
          (t.vram cfg device).headroom = (s.vram cfg device).headroom := ⟨rfl, rfl, rfl⟩
      omega

end

/-! ### The turns of a pass -/

namespace State

/-- What a pass decides about a waiter at its turn. -/
inductive Verdict
  | done
  | skipped (refusal : Refusal)
  | refused (refusal : Refusal)
  | granted (placement : Placement)
  deriving DecidableEq, Repr

variable (cfg : ComputeConfig) (clock : ℕ → Time)

def verdict (pass : Pass) (waiter : Waiter) : Verdict :=
  if pass.state.futures waiter.seq ≠ .pending then .done
  else
    match pass.blocked waiter.request.target with
    | some refusal => .skipped refusal
    | none =>
      if pass.state.needsVram waiter.request ∧ pass.vramBlocked then .skipped .insufficientFreeVram
      else
        match pass.state.judge cfg (clock waiter.seq) waiter.request false with
        | (none, placement) => .granted placement
        | (some refusal, _) => .refused refusal

def Pass.settle (pass : Pass) (waiter : Waiter) : Verdict → Pass
  | .done => pass
  | .skipped refusal => { pass with state := pass.state.noteWaiter waiter.seq refusal }
  | .refused refusal =>
    { state := pass.state.noteWaiter waiter.seq refusal
      blocked :=
        if refusal.capacity then Function.update pass.blocked waiter.request.target (some refusal)
        else pass.blocked
      vramBlocked := pass.vramBlocked || decide (refusal = .insufficientFreeVram) }
  | .granted placement =>
    { pass with state := pass.state.admitWaiter cfg waiter placement (clock waiter.seq) }

theorem pumpWaiter_eq (pass : Pass) (waiter : Waiter) :
    pumpWaiter cfg clock pass waiter =
      Pass.settle cfg clock pass waiter (verdict cfg clock pass waiter) := by
  unfold pumpWaiter verdict
  dsimp only
  by_cases undone : pass.state.futures waiter.seq = .pending
  · rw [if_neg (not_not.mpr undone), if_neg (not_not.mpr undone)]
    cases pass.blocked waiter.request.target with
    | some refusal => rfl
    | none =>
      dsimp only
      by_cases skip : pass.state.needsVram waiter.request ∧ pass.vramBlocked
      · rw [if_pos skip, if_pos skip]
        rfl
      · rw [if_neg skip, if_neg skip]
        cases pass.state.judge cfg (clock waiter.seq) waiter.request false with
        | mk refusal placement =>
          cases refusal with
          | none => rfl
          | some refusal => cases refusal <;> simp [Pass.settle, Refusal.capacity]
  · rw [if_pos undone, if_pos undone]
    rfl

def served (s : State) : List Waiter := s.waiters.insertionSort Waiter.le

/-- The pass before the first turn. -/
def opening (s : State) : Pass := ⟨s, fun _ => none, false⟩

def turnOf (s : State) (waiter : Waiter) : Pass :=
  (before Waiter.seq s.served waiter).foldl (pumpWaiter cfg clock) s.opening

def RefusedInPass (s : State) (waiter : Waiter) (refusal : Refusal) : Prop :=
  verdict cfg clock (turnOf cfg clock s waiter) waiter = .refused refusal

instance (s : State) (waiter : Waiter) (refusal : Refusal) :
    Decidable (RefusedInPass cfg clock s waiter refusal) :=
  inferInstanceAs (Decidable (_ = _))

end State

structure Follows (cfg : ComputeConfig) (pass later : State.Pass) : Prop where
  state : Later cfg pass.state later.state
  blocked : ∀ name refusal, pass.blocked name = some refusal → later.blocked name = some refusal
  vramBlocked : pass.vramBlocked = true → later.vramBlocked = true

namespace Follows

variable {cfg : ComputeConfig} {pass later last : State.Pass}

theorem refl (pass : State.Pass) : Follows cfg pass pass :=
  ⟨.refl _, fun _ _ blocked => blocked, fun blocked => blocked⟩

theorem trans (first : Follows cfg pass later) (second : Follows cfg later last) :
    Follows cfg pass last where
  state := first.state.trans second.state
  blocked name refusal blocked := second.blocked name refusal (first.blocked name refusal blocked)
  vramBlocked blocked := second.vramBlocked (first.vramBlocked blocked)

end Follows

namespace State

variable {cfg : ComputeConfig} {clock : ℕ → Time} {s : State} {pass : Pass} {waiter : Waiter}
  {refusal : Refusal} {placement : Placement}

theorem verdict_spec (cfg : ComputeConfig) (clock : ℕ → Time) (pass : Pass) (waiter : Waiter) :
    match verdict cfg clock pass waiter with
    | .done => pass.state.futures waiter.seq ≠ .pending
    | .skipped refusal => pass.blocked waiter.request.target = some refusal ∨
        (pass.state.needsVram waiter.request = true ∧ pass.vramBlocked = true)
    | .refused refusal => pass.state.futures waiter.seq = .pending ∧
        pass.blocked waiter.request.target = none ∧
        (pass.state.judge cfg (clock waiter.seq) waiter.request false).1 = some refusal
    | .granted placement =>
        pass.state.judge cfg (clock waiter.seq) waiter.request false = (none, placement) := by
  unfold verdict
  by_cases undone : pass.state.futures waiter.seq = .pending
  · rw [if_neg (not_not.mpr undone)]
    cases blocked : pass.blocked waiter.request.target with
    | some refusal => exact Or.inl rfl
    | none =>
      dsimp only
      by_cases skip : pass.state.needsVram waiter.request ∧ pass.vramBlocked
      · rw [if_pos skip]
        exact Or.inr skip
      · rw [if_neg skip]
        cases judged : pass.state.judge cfg (clock waiter.seq) waiter.request false with
        | mk refusal placement =>
          cases refusal with
          | none => rfl
          | some refusal => exact ⟨undone, rfl, rfl⟩
  · rw [if_pos undone]
    exact undone

theorem verdict_blocked (undone : pass.state.futures waiter.seq = .pending)
    (blocked : pass.blocked waiter.request.target = some refusal) :
    verdict cfg clock pass waiter = .skipped refusal := by
  unfold verdict
  rw [if_neg (not_not.mpr undone), blocked]

theorem verdict_vramBlocked (cfg : ComputeConfig) (clock : ℕ → Time)
    (undone : pass.state.futures waiter.seq = .pending)
    (needs : pass.state.needsVram waiter.request = true) (blocked : pass.vramBlocked = true) :
    ∃ refusal, verdict cfg clock pass waiter = .skipped refusal := by
  unfold verdict
  rw [if_neg (not_not.mpr undone)]
  cases pass.blocked waiter.request.target with
  | some refusal => exact ⟨refusal, rfl⟩
  | none =>
    dsimp only
    rw [if_pos ⟨needs, blocked⟩]
    exact ⟨_, rfl⟩

theorem pumpWaiter_futures {seq : ℕ} (other : seq ≠ waiter.seq) :
    (pumpWaiter cfg clock pass waiter).state.futures seq = pass.state.futures seq := by
  rw [pumpWaiter_eq]
  cases verdict cfg clock pass waiter with
  | granted placement => exact Function.update_of_ne other _ _
  | _ => rfl

theorem pumpWaiter_futures_self
    (notGranted : ∀ placement, verdict cfg clock pass waiter ≠ .granted placement) :
    (pumpWaiter cfg clock pass waiter).state.futures = pass.state.futures := by
  rw [pumpWaiter_eq]
  cases judged : verdict cfg clock pass waiter with
  | granted placement => exact absurd judged (notGranted placement)
  | _ => rfl

theorem admitted_after_drop
    (judged : s.judge cfg (clock waiter.seq) waiter.request false = (none, placement)) :
    (s.dropWaiter waiter.seq).Admitted cfg (clock waiter.seq) waiter.request placement := by
  obtain ⟨sequences, place⟩ := judge_admits judged
  exact ⟨sequences, place⟩

theorem pumpWaiter_follows (clock : ℕ → Time) (sound : Sound cfg pass.state)
    (shared : Shared cfg waiter.request) :
    Sound cfg (pumpWaiter cfg clock pass waiter).state ∧
      Follows cfg pass (pumpWaiter cfg clock pass waiter) := by
  have noted : ∀ refusal, Sound cfg (pass.state.noteWaiter waiter.seq refusal) ∧
      Later cfg pass.state (pass.state.noteWaiter waiter.seq refusal) := fun refusal =>
    ⟨line_sound sound pass.state.futures pass.state.nextSeq
      (noteWaiter_queue sound waiter.seq refusal), .line _ _ _⟩
  have spec := verdict_spec cfg clock pass waiter
  rw [pumpWaiter_eq]
  cases judged : verdict cfg clock pass waiter with
  | done => exact ⟨sound, .refl pass⟩
  | skipped refusal =>
    exact ⟨(noted refusal).1, (noted refusal).2, fun _ _ blocked => blocked, fun blocked => blocked⟩
  | refused refusal =>
    rw [judged] at spec
    refine ⟨(noted refusal).1, (noted refusal).2, fun name earlier blocked => ?_, fun blocked => ?_⟩
    · unfold Pass.settle
      dsimp only
      split_ifs
      · have other : name ≠ waiter.request.target := by
          rintro rfl
          rw [spec.2.1] at blocked
          cases blocked
        rw [Function.update_of_ne other]
        exact blocked
      · exact blocked
    · show (pass.vramBlocked || decide (refusal = .insufficientFreeVram)) = true
      rw [blocked, Bool.true_or]
  | granted placement =>
    rw [judged] at spec
    have admitted := admitted_after_drop spec
    have dropped := line_sound sound pass.state.futures pass.state.nextSeq
      (dropWaiter_queue sound waiter.seq)
    have granted := grantLocal_sound dropped shared admitted
    have later := Later.grantLocal dropped shared admitted
    refine ⟨line_sound granted _ _ granted.queue, ?_, fun _ _ blocked => blocked,
      fun blocked => blocked⟩
    exact ((Later.line pass.state _ pass.state.futures).trans later).trans (.line _ _ _)

/-! ### Whole passes -/

theorem turns_follow (clock : ℕ → Time) (waiters : List Waiter) (sound : Sound cfg pass.state)
    (shared : ∀ waiter ∈ waiters, Shared cfg waiter.request) :
    Sound cfg (waiters.foldl (pumpWaiter cfg clock) pass).state ∧
      Follows cfg pass (waiters.foldl (pumpWaiter cfg clock) pass) := by
  induction waiters generalizing pass with
  | nil => exact ⟨sound, .refl pass⟩
  | cons waiter rest ih =>
    obtain ⟨soundThen, follows⟩ :=
      pumpWaiter_follows clock sound (shared waiter (.head _))
    obtain ⟨soundLast, followsThen⟩ :=
      ih soundThen fun other mem => shared other (.tail _ mem)
    exact ⟨soundLast, follows.trans followsThen⟩

theorem turns_futures (waiters : List Waiter) {seq : ℕ}
    (others : ∀ waiter ∈ waiters, waiter.seq ≠ seq) :
    (waiters.foldl (pumpWaiter cfg clock) pass).state.futures seq = pass.state.futures seq := by
  induction waiters generalizing pass with
  | nil => rfl
  | cons waiter rest ih =>
    rw [foldl_cons, ih fun other mem => others other (.tail _ mem)]
    exact pumpWaiter_futures (others waiter (.head _)).symm

theorem exists_turn {σ α : Type} {f : σ → α → σ} {P : σ → Prop} {init : σ} {l : List α} (start : ¬P init)
    (holds : P (l.foldl f init)) :
    ∃ front a rest, l = front ++ a :: rest ∧ ¬P (front.foldl f init) ∧ P (f (front.foldl f init) a) := by
  induction l generalizing init with
  | nil => exact absurd holds start
  | cons a l ih =>
    by_cases here : P (f init a)
    · exact ⟨[], a, l, rfl, start, here⟩
    · obtain ⟨front, b, rest, split, before, now⟩ := ih here holds
      exact ⟨a :: front, b, rest, congrArg (a :: ·) split, before, now⟩

theorem turns_blocked (waiters : List Waiter) {name : String}
    (blocked : (waiters.foldl (pumpWaiter cfg clock) s.opening).blocked name = some refusal) :
    ∃ front waiter rest, waiters = front ++ waiter :: rest ∧ waiter.request.target = name ∧
      refusal.capacity = true ∧
      verdict cfg clock (front.foldl (pumpWaiter cfg clock) s.opening) waiter = .refused refusal := by
  obtain ⟨front, waiter, rest, split, notYet, now⟩ :=
    exists_turn (P := fun pass : Pass => pass.blocked name = some refusal) (fun wrong => by cases wrong) blocked
  refine ⟨front, waiter, rest, split, ?_⟩
  rw [pumpWaiter_eq] at now
  cases judged : verdict cfg clock (front.foldl (pumpWaiter cfg clock) s.opening) waiter with
  | refused given =>
    rw [judged] at now
    unfold Pass.settle at now
    dsimp only at now
    split_ifs at now with capacity
    · by_cases same : name = waiter.request.target
      · rw [same, Function.update_self, Option.some.injEq] at now
        subst now
        exact ⟨same.symm, capacity, rfl⟩
      · rw [Function.update_of_ne same] at now
        exact absurd now notYet
    · exact absurd now notYet
  | _ =>
    rw [judged] at now
    exact absurd now notYet

theorem turns_vramBlocked (waiters : List Waiter)
    (blocked : (waiters.foldl (pumpWaiter cfg clock) s.opening).vramBlocked = true) :
    ∃ front waiter rest, waiters = front ++ waiter :: rest ∧
      verdict cfg clock (front.foldl (pumpWaiter cfg clock) s.opening) waiter =
        .refused .insufficientFreeVram := by
  obtain ⟨front, waiter, rest, split, notYet, now⟩ :=
    exists_turn (P := fun pass : Pass => pass.vramBlocked = true) (fun wrong => by cases wrong) blocked
  refine ⟨front, waiter, rest, split, ?_⟩
  rw [pumpWaiter_eq] at now
  cases judged : verdict cfg clock (front.foldl (pumpWaiter cfg clock) s.opening) waiter with
  | refused given =>
    rw [judged] at now
    unfold Pass.settle at now
    rw [Bool.or_eq_true, decide_eq_true_iff] at now
    rw [now.resolve_left notYet]
  | _ =>
    rw [judged] at now
    exact absurd now notYet

/-! ### Who is left in the line -/

theorem pump_waiters (cfg : ComputeConfig) (clock : ℕ → Time) (s : State) :
    ∀ left ∈ (s.pump cfg clock).waiters, ∃ waiter ∈ s.waiters,
      waiter.seq = left.seq ∧ waiter.request = left.request := by
  refine pump_rule (P := fun t => ∀ left ∈ t.waiters, ∃ waiter ∈ s.waiters,
    waiter.seq = left.seq ∧ waiter.request = left.request) ?_ ?_ fun left mem =>
      ⟨left, mem, rfl, rfl⟩
  · intro t seq refusal kept left mem
    obtain ⟨before, wasIn, rfl⟩ := mem_map.mp mem
    obtain ⟨waiter, original, number, request⟩ := kept before wasIn
    refine ⟨waiter, original, ?_⟩
    split_ifs <;> exact ⟨number, request⟩
  · intro t waiter placement _ kept _ _ left mem
    obtain ⟨baseline, granted⟩ := grantLocal_eq cfg (t.dropWaiter waiter.seq) waiter.request placement
      (clock waiter.seq)
    unfold admitWaiter at mem
    rw [granted] at mem
    exact kept left (mem_of_mem_filter mem)

theorem pump_leaves (cfg : ComputeConfig) (clock : ℕ → Time) (s : State) :
    ∀ waiter ∈ s.waiters, (s.pump cfg clock).futures waiter.seq = .pending →
      ∃ left ∈ (s.pump cfg clock).waiters, left.seq = waiter.seq ∧ left.request = waiter.request := by
  refine pump_rule (P := fun t => ∀ waiter ∈ s.waiters, t.futures waiter.seq = .pending →
    ∃ left ∈ t.waiters, left.seq = waiter.seq ∧ left.request = waiter.request) ?_ ?_
      fun waiter mem _ => ⟨waiter, mem, rfl, rfl⟩
  · intro t seq refusal kept waiter mem undone
    obtain ⟨left, isIn, number, request⟩ := kept waiter mem undone
    refine ⟨_, mem_map_of_mem isIn, ?_⟩
    split_ifs <;> exact ⟨number, request⟩
  · intro t granted placement _ kept _ _ waiter mem undone
    obtain ⟨baseline, given⟩ := grantLocal_eq cfg (t.dropWaiter granted.seq) granted.request placement
      (clock granted.seq)
    unfold admitWaiter at undone ⊢
    rw [given]
    have other : waiter.seq ≠ granted.seq := by
      intro same
      rw [same] at undone
      dsimp only at undone
      rw [Function.update_self] at undone
      cases undone
    dsimp only at undone
    rw [Function.update_of_ne other] at undone
    obtain ⟨left, isIn, number, request⟩ := kept waiter mem undone
    refine ⟨left, mem_filter.mpr ⟨isIn, ?_⟩, number, request⟩
    rw [number]
    exact decide_eq_true other

section

variable (sound : Sound cfg s)

include sound

theorem served_distinct : (s.served.map Waiter.seq).Nodup :=
  (((perm_insertionSort Waiter.le s.waiters).map Waiter.seq).nodup_iff).mpr sound.queue.distinct

theorem served_shared : ∀ waiter ∈ s.served, Shared cfg waiter.request := fun waiter mem =>
  sound.queue.shared waiter ((mem_insertionSort _).mp mem)

theorem pump_split (clock : ℕ → Time) (mem : waiter ∈ s.waiters) :
    ∃ after : List Waiter, (∀ other ∈ after, other.seq ≠ waiter.seq) ∧
      (∀ other ∈ after, Shared cfg other.request) ∧
      s.pump cfg clock = (after.foldl (pumpWaiter cfg clock)
        (pumpWaiter cfg clock (turnOf cfg clock s waiter) waiter)).state := by
  have distinct := served_distinct sound
  obtain ⟨after, split⟩ := before_split distinct ((mem_insertionSort Waiter.le).mpr mem)
  refine ⟨after, fun other behind same => ?_, fun other behind => ?_, ?_⟩
  · rw [split, map_append, map_cons, nodup_append, nodup_cons] at distinct
    exact distinct.2.1.1 (same ▸ mem_map_of_mem behind)
  · refine served_shared sound other ?_
    rw [split]
    exact mem_append_right _ (.tail _ behind)
  · unfold pump turnOf
    rw [show s.waiters.insertionSort Waiter.le = s.served from rfl]
    conv_lhs => rw [split]
    rw [foldl_append, foldl_cons]
    rfl

theorem turnOf_follows (clock : ℕ → Time) (waiter : Waiter) :
    Sound cfg (turnOf cfg clock s waiter).state ∧
      Follows cfg s.opening (turnOf cfg clock s waiter) ∧
      (turnOf cfg clock s waiter).state.futures waiter.seq = s.futures waiter.seq := by
  obtain ⟨soundThen, follows⟩ := turns_follow clock (before Waiter.seq s.served waiter)
    (show Sound cfg s.opening.state from sound) fun other mem =>
      served_shared sound other (mem_of_mem_before mem)
  exact ⟨soundThen, follows, turns_futures _ fun other mem => key_ne_of_mem_before mem⟩

theorem pump_follows (clock : ℕ → Time) (mem : waiter ∈ s.waiters) :
    Later cfg (turnOf cfg clock s waiter).state (s.pump cfg clock) ∧
      ((∀ placement, verdict cfg clock (turnOf cfg clock s waiter) waiter ≠ .granted placement) →
        (s.pump cfg clock).futures waiter.seq = s.futures waiter.seq) := by
  obtain ⟨after, others, shared, cut⟩ := pump_split sound clock mem
  obtain ⟨soundThen, -, undone⟩ := turnOf_follows sound clock waiter
  obtain ⟨soundNext, turn⟩ := pumpWaiter_follows clock soundThen
    (sound.queue.shared waiter mem)
  rw [cut]
  refine ⟨turn.state.trans (turns_follow clock after soundNext shared).2.state, fun notGranted => ?_⟩
  rw [turns_futures after others, pumpWaiter_futures_self notGranted, undone]

theorem pump_grants (mem : waiter ∈ s.waiters)
    (granted : verdict cfg clock (turnOf cfg clock s waiter) waiter = .granted placement) :
    (s.pump cfg clock).futures waiter.seq ≠ .pending := by
  obtain ⟨after, others, -, cut⟩ := pump_split sound clock mem
  rw [cut, turns_futures after others, pumpWaiter_eq, granted]
  unfold Pass.settle admitWaiter
  dsimp only
  rw [Function.update_self]
  exact nofun

variable {first second : Waiter}

theorem turnOf_later (clock : ℕ → Time) (isFirst : first ∈ s.waiters)
    (isSecond : second ∈ s.waiters) (earlier : first.le second) (different : first.seq ≠ second.seq) :
    Follows cfg (pumpWaiter cfg clock (turnOf cfg clock s first) first)
      (turnOf cfg clock s second) := by
  obtain ⟨between, cut⟩ := before_before (served_distinct sound)
    (pairwise_insertionSort Waiter.le s.waiters) ((mem_insertionSort _).mpr isFirst)
    ((mem_insertionSort _).mpr isSecond) (Waiter.not_le_of_le earlier different) different
  obtain ⟨soundThen, -, -⟩ := turnOf_follows sound clock first
  obtain ⟨soundNext, -⟩ := pumpWaiter_follows clock soundThen
    (sound.queue.shared first isFirst)
  have behind : ∀ waiter ∈ between, Shared cfg waiter.request := by
    intro waiter mem
    have inFront : waiter ∈ before Waiter.seq s.served second := by
      rw [cut]
      exact mem_append_right _ (.tail _ mem)
    exact served_shared sound waiter (mem_of_mem_before inFront)
  have follows := (turns_follow clock between soundNext behind).2
  have turn : turnOf cfg clock s second = between.foldl (pumpWaiter cfg clock)
      (pumpWaiter cfg clock (turnOf cfg clock s first) first) := by
    unfold turnOf
    rw [cut, foldl_append, foldl_cons]
  rw [turn]
  exact follows

theorem RefusedInPass.left {now : Time} (refused : RefusedInPass cfg clock s waiter refusal)
    (mem : waiter ∈ s.waiters) (clockAt : clock waiter.seq ≤ now) :
    (s.pump cfg clock).futures waiter.seq = .pending ∧
      ((s.pump cfg clock).judge cfg now waiter.request false).1 ≠ none := by
  obtain ⟨later, futures⟩ := pump_follows sound clock mem
  have spec := verdict_spec cfg clock (turnOf cfg clock s waiter) waiter
  rw [refused] at spec
  obtain ⟨undone, -, judged⟩ := spec
  rw [(turnOf_follows sound clock waiter).2.2] at undone
  refine ⟨(futures fun placement granted => ?_).trans undone, later.refuses clockAt ?_⟩
  · rw [RefusedInPass, granted] at refused
    cases refused
  · rw [judged]
    exact Option.some_ne_none _

theorem pump_skips (mem : waiter ∈ s.waiters) (undone : s.futures waiter.seq = .pending)
    (skipped : verdict cfg clock (turnOf cfg clock s waiter) waiter = .skipped refusal) :
    (s.pump cfg clock).futures waiter.seq = .pending := by
  refine ((pump_follows sound clock mem).2 fun placement granted => ?_).trans undone
  rw [skipped] at granted
  cases granted

theorem RefusedInPass.blocks_model (refused : RefusedInPass cfg clock s first refusal)
    (capacity : refusal.capacity = true) (isFirst : first ∈ s.waiters) (isSecond : second ∈ s.waiters)
    (earlier : first.le second) (different : first.seq ≠ second.seq)
    (same : first.request.target = second.request.target)
    (undone : s.futures second.seq = .pending) :
    (s.pump cfg clock).futures second.seq = .pending := by
  have follows := turnOf_later sound clock isFirst isSecond earlier different
  obtain ⟨-, -, futures⟩ := turnOf_follows sound clock second
  refine pump_skips sound isSecond undone (verdict_blocked (futures.trans undone)
    (follows.blocked _ refusal ?_))
  rw [pumpWaiter_eq, refused, ← same]
  unfold Pass.settle
  dsimp only
  rw [if_pos capacity, Function.update_self]

theorem RefusedInPass.blocks_vram
    (refused : RefusedInPass cfg clock s first .insufficientFreeVram) (isFirst : first ∈ s.waiters)
    (isSecond : second ∈ s.waiters) (earlier : first.le second) (different : first.seq ≠ second.seq)
    (needs : s.needsVram second.request = true) (undone : s.futures second.seq = .pending) :
    (s.pump cfg clock).futures second.seq = .pending := by
  have follows := turnOf_later sound clock isFirst isSecond earlier different
  obtain ⟨-, since, futures⟩ := turnOf_follows sound clock second
  have blocked : (turnOf cfg clock s second).vramBlocked = true := by
    refine follows.vramBlocked ?_
    rw [pumpWaiter_eq, refused]
    exact Bool.or_true _
  obtain ⟨refusal, skipped⟩ := verdict_vramBlocked cfg clock (futures.trans undone)
    ((since.state.needsVram _).trans needs) blocked
  exact pump_skips sound isSecond undone skipped

end

theorem judge_vram {now : Time} {request : ComputeRequest}
    (refused : (s.judge cfg now request false).1 = some .insufficientFreeVram) :
    s.needsVram request = true := by
  unfold judge at refused
  dsimp only at refused
  have onGpu : (s.deployments request.target).onCpu = false := by
    by_contra onCpu
    rw [Bool.not_eq_false] at onCpu
    simp only [onCpu, Bool.not_true, Bool.false_eq_true, false_and, if_false, if_true] at refused
    split_ifs at refused <;> cases refused
  simp only [onGpu, Bool.not_false, Bool.false_eq_true, false_and, if_false, true_and] at refused
  split_ifs at refused
  all_goals try cases refused
  cases fresh : s.freshDevice cfg now with
  | none =>
    rw [fresh] at refused
    cases refused
  | some device =>
    rw [fresh] at refused
    dsimp only at refused
    have needs : ¬ request.vramBytes ≤ 0 := by
      intro small
      have admits : freeVramAdmits (s.vram cfg device) request.vramBytes = true :=
        freeVramAdmits_iff.mpr (Or.inl small)
      unfold judgeReading at refused
      simp only [admits, if_true] at refused
      cases kv : kvRefusal (s.kv cfg request.target) request.contextTokens request.resourceClass
          cfg.kvSafety cfg.classCeilings with
      | none =>
        rw [kv] at refused
        split_ifs at refused <;> cases refused
      | some refusal =>
        rw [kv] at refused
        split_ifs at refused
        all_goals try cases refused
        exact absurd (kvRefusal_capacity kv) (by decide)
    unfold needsVram
    rw [onGpu, decide_eq_true (not_le.mp needs)]
    rfl

theorem RefusedInPass.congr {copy : Waiter} (number : waiter.seq = copy.seq)
    (request : waiter.request = copy.request) (refused : RefusedInPass cfg clock s waiter refusal) :
    RefusedInPass cfg clock s copy refusal := by
  unfold RefusedInPass turnOf verdict at refused ⊢
  rw [← before_congr number, ← number, ← request]
  exact refused

end State

/-! ### The result -/

/-- A waiter stands behind another that a pass refused: one of its model refused for capacity, or one
refused for VRAM where both need it. -/
def Behind (cfg : ComputeConfig) (clock : ℕ → Time) (s : State) (blocker waiter : Waiter) : Prop :=
  blocker.le waiter ∧ blocker.seq ≠ waiter.seq ∧
    ((blocker.request.target = waiter.request.target ∧
        ∃ refusal, refusal.capacity = true ∧ s.RefusedInPass cfg clock blocker refusal) ∨
      (s.needsVram blocker.request = true ∧ s.needsVram waiter.request = true ∧
        s.RefusedInPass cfg clock blocker .insufficientFreeVram))

theorem Behind.congr {cfg : ComputeConfig} {clock : ℕ → Time} {s : State}
    {blocker waiter blockerCopy copy : Waiter} (behind : Behind cfg clock s blocker waiter)
    (blockerNumber : blocker.seq = blockerCopy.seq)
    (blockerRequest : blocker.request = blockerCopy.request) (number : waiter.seq = copy.seq)
    (request : waiter.request = copy.request) : Behind cfg clock s blockerCopy copy := by
  obtain ⟨earlier, different, why⟩ := behind
  unfold Waiter.le at earlier
  rw [blockerNumber, blockerRequest, number, request] at earlier
  rw [blockerNumber, number] at different
  rw [blockerRequest, request] at why
  refine ⟨earlier, different, ?_⟩
  rcases why with ⟨same, refusal, capacity, refused⟩ | ⟨blockerNeeds, needs, refused⟩
  · exact Or.inl ⟨same, refusal, capacity, refused.congr blockerNumber blockerRequest⟩
  · exact Or.inr ⟨blockerNeeds, needs, refused.congr blockerNumber blockerRequest⟩

structure FairPass (cfg : ComputeConfig) (clock : ℕ → Time) (s : State) : Prop where
  /-- Nobody is granted behind a waiter that was refused. -/
  order : ∀ first ∈ s.waiters, ∀ second ∈ s.waiters, s.futures first.seq = .pending →
    s.futures second.seq = .pending → Behind cfg clock s first second →
    (s.pump cfg clock).futures second.seq = .pending
  /-- Whoever is left undone is refused now, or stands behind one that is. -/
  rest : ∀ now, (∀ waiter ∈ s.waiters, clock waiter.seq ≤ now) →
    ∀ left ∈ (s.pump cfg clock).waiters, (s.pump cfg clock).futures left.seq = .pending →
    ((s.pump cfg clock).judge cfg now left.request false).1 ≠ none ∨
      ∃ blocker ∈ (s.pump cfg clock).waiters,
        (s.pump cfg clock).futures blocker.seq = .pending ∧
        ((s.pump cfg clock).judge cfg now blocker.request false).1 ≠ none ∧
        Behind cfg clock s blocker left

section

variable {cfg : ComputeConfig} {clock : ℕ → Time} {s : State}

theorem refusedInPass_of_split (sound : Sound cfg s) {waiter blocker : Waiter} {refusal : Refusal}
    {front rest : List Waiter} (mem : waiter ∈ s.waiters)
    (split : before Waiter.seq s.served waiter = front ++ blocker :: rest)
    (refused : State.verdict cfg clock (front.foldl (State.pumpWaiter cfg clock) s.opening) blocker =
      .refused refusal) :
    blocker ∈ s.waiters ∧ blocker.le waiter ∧ blocker.seq ≠ waiter.seq ∧
      s.RefusedInPass cfg clock blocker refusal := by
  have distinct := State.served_distinct sound
  have inFront : blocker ∈ before Waiter.seq s.served waiter := by
    rw [split]
    exact mem_append_right _ (.head _)
  obtain ⟨after, cut⟩ := before_split distinct ((mem_insertionSort Waiter.le).mpr mem)
  have sorted : s.served.Pairwise Waiter.le := pairwise_insertionSort Waiter.le s.waiters
  have whole : s.served = front ++ blocker :: (rest ++ waiter :: after) := by
    rw [cut, split, append_assoc, cons_append]
  refine ⟨(mem_insertionSort _).mp (mem_of_mem_before inFront), ?_,
    key_ne_of_mem_before inFront, ?_⟩
  · rw [cut] at sorted
    exact (pairwise_append.mp sorted).2.2 _ inFront _ (.head _)
  · unfold State.RefusedInPass State.turnOf
    rw [before_eq_of_split distinct whole]
    exact refused

theorem behind_of_skipped (sound : Sound cfg s) {waiter : Waiter} {refusal : Refusal}
    (mem : waiter ∈ s.waiters)
    (skipped : State.verdict cfg clock (s.turnOf cfg clock waiter) waiter = .skipped refusal) :
    ∃ blocker ∈ s.waiters, ∃ given, s.RefusedInPass cfg clock blocker given ∧
      Behind cfg clock s blocker waiter := by
  have spec := State.verdict_spec cfg clock (s.turnOf cfg clock waiter) waiter
  rw [skipped] at spec
  obtain ⟨-, since, -⟩ := State.turnOf_follows sound clock waiter
  rcases spec with blocked | ⟨needs, blocked⟩
  · obtain ⟨front, blocker, rest, split, same, capacity, refused⟩ := State.turns_blocked _ blocked
    obtain ⟨isIn, earlier, different, refused⟩ := refusedInPass_of_split sound mem split refused
    exact ⟨blocker, isIn, refusal, refused, earlier, different,
      Or.inl ⟨same, refusal, capacity, refused⟩⟩
  · obtain ⟨front, blocker, rest, split, refused⟩ := State.turns_vramBlocked _ blocked
    obtain ⟨isIn, earlier, different, refused⟩ := refusedInPass_of_split sound mem split refused
    have refusedThen := State.verdict_spec cfg clock (s.turnOf cfg clock blocker) blocker
    rw [refused] at refusedThen
    have blockerNeeds := State.judge_vram refusedThen.2.2
    rw [(State.turnOf_follows sound clock blocker).2.1.state.needsVram] at blockerNeeds
    rw [since.state.needsVram] at needs
    exact ⟨blocker, isIn, _, refused, earlier, different, Or.inr ⟨blockerNeeds, needs, refused⟩⟩

theorem Sound.fairPass (sound : Sound cfg s) (clock : ℕ → Time) : FairPass cfg clock s where
  order first isFirst second isSecond _ undone behind := by
    obtain ⟨earlier, different, ⟨same, refusal, capacity, refused⟩ | ⟨-, needs, refused⟩⟩ := behind
    · exact refused.blocks_model sound capacity isFirst isSecond earlier different same undone
    · exact refused.blocks_vram sound isFirst isSecond earlier different needs undone
  rest now clockAt left isLeft undone := by
    obtain ⟨waiter, mem, number, request⟩ := State.pump_waiters cfg clock s left isLeft
    rw [← number] at undone
    rw [← request]
    have futures := (State.pump_follows sound clock mem).2
    have spec := State.verdict_spec cfg clock (s.turnOf cfg clock waiter) waiter
    obtain ⟨-, -, before⟩ := State.turnOf_follows sound clock waiter
    cases judged : State.verdict cfg clock (s.turnOf cfg clock waiter) waiter with
    | done =>
      rw [judged] at spec futures
      rw [before, ← futures nofun] at spec
      exact absurd undone spec
    | granted placement => exact absurd undone (State.pump_grants sound mem judged)
    | refused refusal => exact Or.inl (State.RefusedInPass.left sound judged mem (clockAt _ mem)).2
    | skipped refusal =>
      obtain ⟨blocker, isIn, given, refused, behind⟩ := behind_of_skipped sound mem judged
      obtain ⟨waits, refusedNow⟩ := refused.left sound isIn (clockAt blocker isIn)
      obtain ⟨copy, copyIn, copyNumber, copyRequest⟩ := State.pump_leaves cfg clock s blocker isIn waits
      rw [← copyRequest] at refusedNow
      rw [← copyNumber] at waits
      exact Or.inr ⟨copy, copyIn, waits, refusedNow,
        behind.congr copyNumber.symm copyRequest.symm number request⟩

/-- Every state a run reaches is sound, and so is every state a pass starts in; a pass from a sound
state grants nobody behind a waiter it refused, and whoever it leaves undone is refused, or stands
behind one that is. -/
theorem no_overtaking {hasControl : Bool} {y : System}
    (reach : (System.machine cfg hasControl).Reachable y) :
    Sound cfg y.sched ∧ ∀ s, Sound cfg s → ∀ clock, FairPass cfg clock s :=
  ⟨(reachable_systemSound reach).sound, fun _ sound clock => sound.fairPass clock⟩

end

/-! ### A run to a full model -/

/-- Four embedding calls take every sequence of the CPU copy, and two more wait. -/
def fullTicks : List Tick :=
  let request : ComputeRequest :=
    { resourceClass := .background, deployment := some "embed", contextTokens := 7, vramBytes := 3 }
  (List.replicate 4 (Event.tryAcquire request) ++
    [Event.acquire 0 request 60 0 none, Event.acquire 1 request 60 0 none]).map fun event =>
      ⟨0, fun _ => 0, event⟩

def fullLine : System :=
  ((System.machine soloConfig false).run (.initial soloConfig) fullTicks).getD (.initial soloConfig)

theorem fullLine_reachable : (System.machine soloConfig false).Reachable fullLine := by
  have ran : ((System.machine soloConfig false).run (.initial soloConfig) fullTicks).isSome = true := by
    with_unfolding_all decide
  have start : (System.machine soloConfig false).Reachable (.initial soloConfig) := .start rfl
  exact start.run (Option.getD_of_ne_none (Option.isSome_iff_ne_none.mp ran) _).symm

/-- There a pass refuses the first waiter for capacity, and does not grant the second. -/
theorem fullLine_fair :
    (∃ first ∈ fullLine.sched.waiters, ∃ second ∈ fullLine.sched.waiters,
      first.seq = 0 ∧ second.seq = 1 ∧
      fullLine.sched.RefusedInPass soloConfig (fun _ => 0) first .sequencesFull) ∧
    FairPass soloConfig (fun _ => 0) fullLine.sched := by
  refine ⟨by decide +kernel, ?_⟩
  obtain ⟨sound, fair⟩ := no_overtaking fullLine_reachable
  exact fair _ sound _

end PawBackend.Compute
