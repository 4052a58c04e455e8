/-
**The books of the leases.** A lease that was granted and not released is kept in exactly one place:
its model's set, the cloud set or the Exclusive slot. A model's reservations are sums over its set.
`LeaseBook` states this of a state, and the lemmas of this module say that every operation that
changes a lease keeps it. Everything else the scheduler does leaves the books alone (`SameBook`).
-/

import PawBackend.Compute.Grants
import Mathlib.Algebra.BigOperators.Ring.Finset
import Mathlib.Algebra.Order.BigOperators.Group.Finset

namespace PawBackend.Compute

/-! ### The book -/

namespace Lease

/-- What the books read of a lease: all but when it was granted, what it waits for and whether its
holder was asked to stop. -/
def terms (lease : Lease) : ResourceClass × Option String × Placement × ℤ × ℤ × Bool :=
  (lease.resourceClass, lease.deployment, lease.placement, lease.tokens, lease.vramBytes,
    lease.released)

/-- Live work of a model. -/
def LivesOn (lease : Lease) (name : String) : Prop :=
  lease.released = false ∧ lease.deployment = some name ∧ lease.placement ≠ .cloud

def tokensOf (cls : ResourceClass) (lease : Lease) : ℤ :=
  if lease.resourceClass = cls then lease.tokens else 0

structure WellFormed (cfg : ComputeConfig) (lease : Lease) : Prop where
  exclusive : lease.resourceClass = .exclusive → lease.deployment = none ∧ lease.placement = .localGpu
  named : lease.resourceClass ≠ .exclusive → ∃ name ∈ cfg.names, lease.deployment = some name
  tokens : 0 ≤ lease.tokens
  vram : 0 ≤ lease.vramBytes
  elsewhere : lease.placement ≠ .localGpu → lease.vramBytes = 0

end Lease

namespace State

def sumOver (s : State) (name : String) (weight : Lease → ℤ) : ℤ :=
  ∑ id ∈ (s.deployments name).leases, weight (s.lease id)

end State

structure LeaseBook (cfg : ComputeConfig) (s : State) : Prop where
  mem : ∀ name id, id ∈ (s.deployments name).leases ↔ (s.lease id).LivesOn name
  cloud : ∀ id, id ∈ s.cloud ↔ (s.lease id).released = false ∧ (s.lease id).placement = .cloud
  slot : ∀ id, s.exclusive = some id ↔
    (s.lease id).released = false ∧ (s.lease id).resourceClass = .exclusive
  wellFormed : ∀ id, id < s.nextLease → (s.lease id).WellFormed cfg
  fresh : ∀ id, s.nextLease ≤ id → (s.lease id).released = true
  tokens : ∀ name, (s.deployments name).reservedTokens = s.sumOver name (·.tokens)
  byClass : ∀ name cls,
    (s.deployments name).reservedByClass cls = s.sumOver name (Lease.tokensOf cls)
  sequences : ∀ name, (s.deployments name).leases.card ≤ (cfg.spec name).maxSequences

namespace LeaseBook

variable {cfg : ComputeConfig} {s : State}

theorem initial (cfg : ComputeConfig) : LeaseBook cfg (.initial cfg) where
  mem name id := by simp [State.initial, Lease.LivesOn]
  cloud id := by simp [State.initial]
  slot id := by simp [State.initial]
  wellFormed id granted := absurd granted (Nat.not_lt_zero id)
  fresh _ _ := rfl
  tokens _ := rfl
  byClass _ _ := rfl
  sequences name := Nat.zero_le _

theorem granted (book : LeaseBook cfg s) {id : LeaseId} (live : (s.lease id).released = false) :
    id < s.nextLease := by
  by_contra late
  rw [book.fresh id (not_lt.mp late)] at live
  exact absurd live (by decide)

theorem mem_unique (book : LeaseBook cfg s) {id : LeaseId} {name other : String}
    (first : id ∈ (s.deployments name).leases) (second : id ∈ (s.deployments other).leases) :
    name = other := by
  obtain ⟨-, one, -⟩ := (book.mem name id).mp first
  obtain ⟨-, two, -⟩ := (book.mem other id).mp second
  rw [one] at two
  exact Option.some.inj two

theorem target_of_mem (book : LeaseBook cfg s) {id : LeaseId} {name : String}
    (held : id ∈ (s.deployments name).leases) : (s.lease id).target = name := by
  obtain ⟨-, named, -⟩ := (book.mem name id).mp held
  rw [Lease.target, named, Option.getD_some]

theorem next_notMem (book : LeaseBook cfg s) (name : String) :
    s.nextLease ∉ (s.deployments name).leases := by
  intro held
  obtain ⟨live, -, -⟩ := (book.mem name _).mp held
  exact absurd (book.granted live) (lt_irrefl _)

end LeaseBook

/-! ### What leaves the books alone -/

structure SameBook (s t : State) : Prop where
  leases : ∀ name, (t.deployments name).leases = (s.deployments name).leases
  reservedTokens : ∀ name, (t.deployments name).reservedTokens = (s.deployments name).reservedTokens
  reservedByClass : ∀ name,
    (t.deployments name).reservedByClass = (s.deployments name).reservedByClass
  terms : ∀ id, (t.lease id).terms = (s.lease id).terms
  nextLease : t.nextLease = s.nextLease
  exclusive : t.exclusive = s.exclusive
  cloud : t.cloud = s.cloud

namespace SameBook

variable {cfg : ComputeConfig} {s t u : State}

theorem refl (s : State) : SameBook s s :=
  ⟨fun _ => rfl, fun _ => rfl, fun _ => rfl, fun _ => rfl, rfl, rfl, rfl⟩

theorem trans (first : SameBook s t) (second : SameBook t u) : SameBook s u where
  leases name := (second.leases name).trans (first.leases name)
  reservedTokens name := (second.reservedTokens name).trans (first.reservedTokens name)
  reservedByClass name := (second.reservedByClass name).trans (first.reservedByClass name)
  terms id := (second.terms id).trans (first.terms id)
  nextLease := second.nextLease.trans first.nextLease
  exclusive := second.exclusive.trans first.exclusive
  cloud := second.cloud.trans first.cloud

theorem terms_eq (same : SameBook s t) (id : LeaseId) :
    (t.lease id).resourceClass = (s.lease id).resourceClass ∧
      (t.lease id).deployment = (s.lease id).deployment ∧
      (t.lease id).placement = (s.lease id).placement ∧ (t.lease id).tokens = (s.lease id).tokens ∧
      (t.lease id).vramBytes = (s.lease id).vramBytes ∧
      (t.lease id).released = (s.lease id).released := by
  have terms := same.terms id
  unfold Lease.terms at terms
  simpa only [Prod.mk.injEq] using terms

theorem setEntry {name : String} {entry : Deployment}
    (leases : entry.leases = (s.deployments name).leases)
    (reservedTokens : entry.reservedTokens = (s.deployments name).reservedTokens)
    (reservedByClass : entry.reservedByClass = (s.deployments name).reservedByClass) :
    SameBook s (s.setEntry name entry) := by
  refine ⟨fun other => ?_, fun other => ?_, fun other => ?_, fun _ => rfl, rfl, rfl, rfl⟩ <;>
    (by_cases same : other = name
     · subst same
       simpa only [State.setEntry, Function.update_self]
     · simp only [State.setEntry, Function.update_of_ne same])

theorem setLease (s : State) (id : LeaseId) (lease : Lease) (terms : lease.terms = (s.lease id).terms) :
    SameBook s (s.setLease id lease) := by
  refine ⟨fun _ => rfl, fun _ => rfl, fun _ => rfl, fun other => ?_, rfl, rfl, rfl⟩
  dsimp only [State.setLease]
  by_cases same : other = id
  · rw [same, Function.update_self]
    exact terms
  · rw [Function.update_of_ne same]

theorem keeps (same : SameBook s t) (book : LeaseBook cfg s) : LeaseBook cfg t where
  mem name id := by
    obtain ⟨-, deployment, placement, -, -, released⟩ := same.terms_eq id
    rw [same.leases, Lease.LivesOn, released, deployment, placement]
    exact book.mem name id
  cloud id := by
    obtain ⟨-, -, placement, -, -, released⟩ := same.terms_eq id
    rw [same.cloud, released, placement]
    exact book.cloud id
  slot id := by
    obtain ⟨cls, -, -, -, -, released⟩ := same.terms_eq id
    rw [same.exclusive, released, cls]
    exact book.slot id
  wellFormed id granted := by
    obtain ⟨cls, deployment, placement, tokens, vram, -⟩ := same.terms_eq id
    obtain ⟨exclusive, named, nonneg, vramNonneg, elsewhere⟩ :=
      book.wellFormed id (same.nextLease ▸ granted)
    constructor
    · rw [cls, deployment, placement]
      exact exclusive
    · rw [cls, deployment]
      exact named
    · rw [tokens]
      exact nonneg
    · rw [vram]
      exact vramNonneg
    · rw [placement, vram]
      exact elsewhere
  fresh id late := by
    obtain ⟨-, -, -, -, -, released⟩ := same.terms_eq id
    rw [released]
    exact book.fresh id (same.nextLease ▸ late)
  tokens name := by
    rw [same.reservedTokens, book.tokens, State.sumOver, State.sumOver, same.leases]
    exact Finset.sum_congr rfl fun id _ => ((same.terms_eq id).2.2.2.1).symm
  byClass name cls := by
    rw [same.reservedByClass, book.byClass, State.sumOver, State.sumOver, same.leases]
    refine Finset.sum_congr rfl fun id _ => ?_
    obtain ⟨ofClass, -, -, tokens, -, -⟩ := same.terms_eq id
    rw [Lease.tokensOf, Lease.tokensOf, ofClass, tokens]
  sequences name := by
    rw [same.leases]
    exact book.sequences name

end SameBook

/-! ### One lease changes -/

namespace State

/-- What one lease adds to the sum over a model's set. -/
def share (s : State) (name : String) (id : LeaseId) (weight : Lease → ℤ) : ℤ :=
  if id ∈ (s.deployments name).leases then weight (s.lease id) else 0

theorem sumOver_eq_share_add (s : State) (name : String) (id : LeaseId) (weight : Lease → ℤ) :
    s.sumOver name weight =
      s.share name id weight + ∑ i ∈ (s.deployments name).leases.erase id, weight (s.lease i) := by
  unfold sumOver share
  split_ifs with held
  · exact (Finset.add_sum_erase _ _ held).symm
  · rw [Finset.erase_eq_of_notMem held, zero_add]

end State

/-- The books of two states differ in one lease only. -/
structure OneLease (s t : State) (id : LeaseId) : Prop where
  lease : ∀ i, i ≠ id → t.lease i = s.lease i
  leases : ∀ name i, i ≠ id → (i ∈ (t.deployments name).leases ↔ i ∈ (s.deployments name).leases)
  cloud : ∀ i, i ≠ id → (i ∈ t.cloud ↔ i ∈ s.cloud)
  slot : ∀ i, i ≠ id → (t.exclusive = some i ↔ s.exclusive = some i)
  granted : ∀ i, i ≠ id → (i < t.nextLease ↔ i < s.nextLease)

theorem OneLease.sumOver {s t : State} {id : LeaseId} (one : OneLease s t id) (name : String)
    (weight : Lease → ℤ) :
    t.sumOver name weight =
      s.sumOver name weight + (t.share name id weight - s.share name id weight) := by
  have sets : (t.deployments name).leases.erase id = (s.deployments name).leases.erase id := by
    ext i
    rw [Finset.mem_erase, Finset.mem_erase]
    exact and_congr_right (one.leases name i)
  have rest : ∑ i ∈ (t.deployments name).leases.erase id, weight (t.lease i) =
      ∑ i ∈ (s.deployments name).leases.erase id, weight (s.lease i) := by
    rw [sets]
    refine Finset.sum_congr rfl fun i mem => ?_
    rw [one.lease i (Finset.ne_of_mem_erase mem)]
  rw [t.sumOver_eq_share_add name id, s.sumOver_eq_share_add name id, rest]
  ring

structure OneBook (cfg : ComputeConfig) (s t : State) (id : LeaseId) : Prop where
  mem : ∀ name, id ∈ (t.deployments name).leases ↔ (t.lease id).LivesOn name
  cloud : id ∈ t.cloud ↔ (t.lease id).released = false ∧ (t.lease id).placement = .cloud
  slot : t.exclusive = some id ↔
    (t.lease id).released = false ∧ (t.lease id).resourceClass = .exclusive
  granted : id < t.nextLease
  wellFormed : (t.lease id).WellFormed cfg
  tokens : ∀ name, (t.deployments name).reservedTokens = (s.deployments name).reservedTokens +
    (t.share name id (·.tokens) - s.share name id (·.tokens))
  byClass : ∀ name cls,
    (t.deployments name).reservedByClass cls = (s.deployments name).reservedByClass cls +
      (t.share name id (Lease.tokensOf cls) - s.share name id (Lease.tokensOf cls))
  sequences : ∀ name, (t.deployments name).leases.card ≤ (cfg.spec name).maxSequences

/-! ### The reservations of one model change -/

section

variable (deployments : String → Deployment) (target name : String) (entry : Deployment)
  (cls : ResourceClass) (tokens : ℤ)

theorem leases_update_reserve :
    (Function.update deployments target (entry.reserve cls tokens) name).leases =
      if name = target then entry.leases else (deployments name).leases := by
  split_ifs with same
  · rw [same, Function.update_self]
    rfl
  · rw [Function.update_of_ne same]

theorem reservedTokens_update_reserve
    (before : entry.reservedTokens = (deployments target).reservedTokens) :
    (Function.update deployments target (entry.reserve cls tokens) name).reservedTokens =
      (deployments name).reservedTokens + if name = target then tokens else 0 := by
  split_ifs with same
  · rw [same, Function.update_self, ← before]
    rfl
  · rw [Function.update_of_ne same, add_zero]

theorem reservedByClass_update_reserve (other : ResourceClass)
    (before : entry.reservedByClass = (deployments target).reservedByClass) :
    (Function.update deployments target (entry.reserve cls tokens) name).reservedByClass other =
      (deployments name).reservedByClass other +
        if name = target then (if cls = other then tokens else 0) else 0 := by
  by_cases same : name = target
  · rw [if_pos same, same, Function.update_self, ← before]
    unfold Deployment.reserve
    dsimp only
    by_cases ofClass : other = cls
    · rw [ofClass, Function.update_self, if_pos rfl]
    · rw [Function.update_of_ne ofClass, if_neg (Ne.symm ofClass), add_zero]
  · rw [if_neg same, Function.update_of_ne same, add_zero]

end

namespace LeaseBook

variable {cfg : ComputeConfig} {s t : State} {id : LeaseId}

theorem change (book : LeaseBook cfg s) (id : LeaseId) (one : OneLease s t id) (exact_ : OneBook cfg s t id) :
    LeaseBook cfg t := by
  refine ⟨fun name i => ?_, fun i => ?_, fun i => ?_, fun i granted => ?_, fun i late => ?_,
    fun name => ?_, fun name cls => ?_, exact_.sequences⟩
  · by_cases this : i = id
    · rw [this]
      exact exact_.mem name
    · rw [one.leases name i this, one.lease i this]
      exact book.mem name i
  · by_cases this : i = id
    · rw [this]
      exact exact_.cloud
    · rw [one.cloud i this, one.lease i this]
      exact book.cloud i
  · by_cases this : i = id
    · rw [this]
      exact exact_.slot
    · rw [one.slot i this, one.lease i this]
      exact book.slot i
  · by_cases this : i = id
    · rw [this]
      exact exact_.wellFormed
    · rw [one.lease i this]
      exact book.wellFormed i ((one.granted i this).mp granted)
  · have this : i ≠ id := fun same => absurd exact_.granted (not_lt.mpr (same ▸ late))
    rw [one.lease i this]
    refine book.fresh i (not_lt.mp fun earlier => ?_)
    exact absurd ((one.granted i this).mpr earlier) (not_lt.mpr late)
  · rw [exact_.tokens, one.sumOver, book.tokens]
  · rw [exact_.byClass, one.sumOver, book.byClass]

/-! ### Grants -/

variable {request : ComputeRequest} {placement : Placement} {now : Time}

theorem new_wellFormed {tokens : ℤ} (known : request.known cfg = true) (nonneg : 0 ≤ tokens)
    (exclusive : request.resourceClass = .exclusive → placement = .localGpu) :
    (Lease.new request placement tokens now).WellFormed cfg where
  exclusive isExclusive := ⟨(request.exclusive_shape isExclusive).1, exclusive isExclusive⟩
  named shared := by
    obtain ⟨name, named⟩ := Option.isSome_iff_exists.mp (request.shared_named shared)
    have configured : name ∈ cfg.names := by
      simpa [ComputeRequest.known, named] using known
    exact ⟨name, configured, named⟩
  tokens := nonneg
  vram := by
    unfold Lease.new
    dsimp only
    split_ifs
    · exact request.vram_bound.1
    · exact le_rfl
  elsewhere notGpu := if_neg notGpu

theorem grantTokens_nonneg (cfg : ComputeConfig) (request : ComputeRequest) (placement : Placement) :
    0 ≤ State.grantTokens cfg request placement := by
  unfold State.grantTokens
  split_ifs
  · exact request.tokens_bound.1
  · exact le_rfl

theorem share_next (book : LeaseBook cfg s) (name : String) (weight : Lease → ℤ) :
    s.share name s.nextLease weight = 0 :=
  if_neg (book.next_notMem name)

theorem granted_next {i : LeaseId} (other : i ≠ s.nextLease) :
    i < s.nextLease + 1 ↔ i < s.nextLease :=
  ⟨fun lt => lt_of_le_of_ne (Nat.lt_succ_iff.mp lt) other, Nat.lt_succ_of_lt⟩

theorem grantLocal (book : LeaseBook cfg s) (known : request.known cfg = true)
    (shared : request.resourceClass ≠ .exclusive) (admitted : s.Admitted cfg now request placement) :
    LeaseBook cfg (s.grantLocal cfg request placement now) := by
  obtain ⟨name, named⟩ := Option.isSome_iff_exists.mp (request.shared_named shared)
  have target : request.target = name := by rw [ComputeRequest.target, named, Option.getD_some]
  have local_ : placement ≠ .cloud := by
    rcases admitted.place with ⟨rfl, -⟩ | ⟨rfl, -⟩ <;> decide
  obtain ⟨baseline, granted⟩ := State.grantLocal_eq cfg s request placement now
  rw [granted]
  have sets : ∀ entry i, i ∈ (Function.update s.deployments request.target
      (s.withLease cfg request placement) entry).leases ↔
      (entry = request.target ∧ i = s.nextLease) ∨ i ∈ (s.deployments entry).leases := by
    intro entry i
    rw [State.withLease, leases_update_reserve]
    split_ifs with same
    · rw [Finset.mem_insert, same]
      simp
    · simp [same]
  have share : ∀ entry (weight : Lease → ℤ),
      (if s.nextLease ∈ (Function.update s.deployments request.target
          (s.withLease cfg request placement) entry).leases then
        weight (Function.update s.lease s.nextLease
          (Lease.new request placement (State.grantTokens cfg request placement) now) s.nextLease)
        else 0) =
      if entry = request.target then
        weight (Lease.new request placement (State.grantTokens cfg request placement) now)
      else 0 := by
    intro entry weight
    rw [Function.update_self]
    exact if_congr ((sets entry _).trans (by simp [book.next_notMem entry])) rfl rfl
  refine book.change s.nextLease
    ⟨fun i other => Function.update_of_ne other _ _,
      fun entry i other => (sets entry i).trans (by simp [other]), fun _ _ => Iff.rfl,
      fun _ _ => Iff.rfl, fun i other => granted_next other⟩
    ⟨fun entry => (sets entry _).trans ?_, ?_, ?_, Nat.lt_succ_self _, ?_, fun entry => ?_,
      fun entry cls => ?_, fun entry => ?_⟩
  · dsimp only
    rw [Function.update_self]
    simp [book.next_notMem entry, Lease.LivesOn, Lease.new, named, target, local_, eq_comm]
  · rw [book.cloud]
    dsimp only
    rw [Function.update_self, book.fresh s.nextLease le_rfl]
    simp [Lease.new, local_]
  · rw [book.slot]
    dsimp only
    rw [Function.update_self, book.fresh s.nextLease le_rfl]
    simp [Lease.new, shared]
  · dsimp only
    rw [Function.update_self]
    exact new_wellFormed known (grantTokens_nonneg cfg request placement)
      (fun isExclusive => absurd isExclusive shared)
  · rw [book.share_next, sub_zero, State.share, share entry (·.tokens)]
    exact reservedTokens_update_reserve s.deployments _ _ _ _ _ rfl
  · rw [book.share_next, sub_zero, State.share, share entry (Lease.tokensOf cls)]
    exact reservedByClass_update_reserve s.deployments _ _ _ _ _ _ rfl
  · dsimp only
    rw [State.withLease, leases_update_reserve]
    split_ifs with same
    · rw [same, Finset.card_insert_of_notMem (book.next_notMem _)]
      exact admitted.sequences
    · exact book.sequences entry

theorem newLease_unshared (book : LeaseBook cfg s) (request : ComputeRequest) (placement : Placement)
    (name : String) (weight : Lease → ℤ) :
    (s.newLease (.new request placement 0 now)).share name s.nextLease weight -
      s.share name s.nextLease weight = 0 := by
  rw [book.share_next, sub_zero]
  exact if_neg (book.next_notMem name)

theorem grantCloud (book : LeaseBook cfg s) (known : request.known cfg = true)
    (shared : request.resourceClass ≠ .exclusive) : LeaseBook cfg (s.grantCloud request now) := by
  have object : (s.grantCloud request now).lease s.nextLease = .new request .cloud 0 now :=
    Function.update_self ..
  refine book.change s.nextLease
    ⟨fun i other => Function.update_of_ne other _ _, fun _ _ _ => Iff.rfl, fun i other => ?_,
      fun _ _ => Iff.rfl, fun i other => granted_next other⟩
    ⟨fun name => ?_, ?_, ?_, Nat.lt_succ_self _, ?_, fun name => ?_, fun name cls => ?_,
      book.sequences⟩
  · exact Finset.mem_insert.trans (by simp [other])
  · rw [object]
    exact iff_of_false (book.next_notMem name) fun lives => lives.2.2 rfl
  · rw [object]
    exact iff_of_true (Finset.mem_insert_self _ _) ⟨rfl, rfl⟩
  · rw [object]
    refine (book.slot s.nextLease).trans ?_
    rw [book.fresh s.nextLease le_rfl]
    simp [Lease.new, shared]
  · rw [object]
    exact new_wellFormed known le_rfl fun isExclusive => absurd isExclusive shared
  · exact (add_zero _).symm.trans (congrArg _ (book.newLease_unshared request .cloud name _).symm)
  · exact (add_zero _).symm.trans (congrArg _ (book.newLease_unshared request .cloud name _).symm)

theorem grantExclusive (book : LeaseBook cfg s) {device : GpuDevice}
    (exclusive : request.resourceClass = .exclusive) (free : s.exclusive = none) :
    LeaseBook cfg (s.grantExclusive cfg device request now) := by
  have unnamed := (request.exclusive_shape exclusive).1
  have known : request.known cfg = true := by rw [ComputeRequest.known, unnamed, Option.all_none]
  have object : (s.grantExclusive cfg device request now).lease s.nextLease =
      .new request .localGpu 0 now := Function.update_self ..
  refine book.change s.nextLease
    ⟨fun i other => Function.update_of_ne other _ _, fun _ _ _ => Iff.rfl, fun _ _ => Iff.rfl,
      fun i other => ?_, fun i other => granted_next other⟩
    ⟨fun name => ?_, ?_, ?_, Nat.lt_succ_self _, ?_, fun name => ?_, fun name cls => ?_,
      book.sequences⟩
  · rw [free]
    exact iff_of_false (fun slot => other (Option.some.inj slot).symm) (by simp)
  · rw [object]
    refine iff_of_false (book.next_notMem name) fun lives => ?_
    exact absurd (unnamed.symm.trans lives.2.1) (by simp)
  · rw [object]
    refine (book.cloud s.nextLease).trans ?_
    rw [book.fresh s.nextLease le_rfl]
    simp [Lease.new]
  · rw [object]
    exact iff_of_true rfl ⟨rfl, exclusive⟩
  · rw [object]
    exact new_wellFormed known le_rfl fun _ => rfl
  · exact (add_zero _).symm.trans (congrArg _ (book.newLease_unshared request .localGpu name _).symm)
  · exact (add_zero _).symm.trans (congrArg _ (book.newLease_unshared request .localGpu name _).symm)

/-! ### Resizing and releasing -/

theorem share_of_mem (book : LeaseBook cfg s)
    (held : id ∈ (s.deployments (s.lease id).target).leases) (name : String) (weight : Lease → ℤ) :
    s.share name id weight = if name = (s.lease id).target then weight (s.lease id) else 0 := by
  refine if_congr ⟨fun mem => (book.target_of_mem mem).symm, fun same => ?_⟩ rfl rfl
  rw [same]
  exact held

theorem retoken (book : LeaseBook cfg s) {tokens : ℤ} (nonneg : 0 ≤ tokens)
    (held : id ∈ (s.deployments (s.lease id).target).leases) :
    LeaseBook cfg ((s.setLease id { s.lease id with tokens := tokens }).setEntry (s.lease id).target
      ((s.deployments (s.lease id).target).reserve (s.lease id).resourceClass
        (tokens - (s.lease id).tokens))) := by
  have live := ((book.mem _ id).mp held).1
  generalize entryIs : (s.deployments (s.lease id).target).reserve (s.lease id).resourceClass
    (tokens - (s.lease id).tokens) = entry
  set t := (s.setLease id { s.lease id with tokens := tokens }).setEntry (s.lease id).target entry
    with after
  have object : t.lease id = { s.lease id with tokens := tokens } := Function.update_self ..
  have sets : ∀ name, (t.deployments name).leases = (s.deployments name).leases := by
    intro name
    rw [after, ← entryIs]
    refine (leases_update_reserve s.deployments _ name _ _ _).trans ?_
    split_ifs with same
    · rw [same]
    · rfl
  have share : ∀ name (weight : Lease → ℤ), t.share name id weight =
      if name = (s.lease id).target then weight { s.lease id with tokens := tokens } else 0 := by
    intro name weight
    rw [State.share, sets, object]
    refine if_congr ⟨fun mem => (book.target_of_mem mem).symm, fun same => ?_⟩ rfl rfl
    rw [same]
    exact held
  obtain ⟨exclusive, named, -, vram, elsewhere⟩ := book.wellFormed id (book.granted live)
  refine book.change id
    ⟨fun i other => Function.update_of_ne other _ _, fun name i _ => by rw [sets],
      fun _ _ => Iff.rfl, fun _ _ => Iff.rfl, fun _ _ => Iff.rfl⟩
    ⟨fun name => ?_, ?_, ?_, book.granted live, ?_, fun name => ?_, fun name cls => ?_,
      fun name => ?_⟩
  · rw [sets, object]
    exact book.mem name id
  · rw [object]
    exact book.cloud id
  · rw [object]
    exact book.slot id
  · rw [object]
    exact ⟨exclusive, named, nonneg, vram, elsewhere⟩
  · rw [share, book.share_of_mem held]
    refine (entryIs ▸ reservedTokens_update_reserve s.deployments _ name _ _ _ rfl).trans ?_
    split_ifs
    · rfl
    · rw [sub_zero]
  · rw [share, book.share_of_mem held]
    refine (entryIs ▸ reservedByClass_update_reserve s.deployments _ name _ _ _ cls rfl).trans ?_
    unfold Lease.tokensOf
    split_ifs
    · rfl
    · rw [sub_zero]
    · rw [sub_zero]
  · rw [sets]
    exact book.sequences name

theorem remove (book : LeaseBook cfg s) (live : (s.lease id).released = false)
    (lease : t.lease = Function.update s.lease id { s.lease id with released := true })
    (nextLease : t.nextLease = s.nextLease)
    (leases : ∀ name, (t.deployments name).leases = (s.deployments name).leases.erase id)
    (cloud : t.cloud = s.cloud.erase id)
    (slot : ∀ i, t.exclusive = some i ↔ i ≠ id ∧ s.exclusive = some i)
    (tokens : ∀ name, (t.deployments name).reservedTokens =
      (s.deployments name).reservedTokens - s.share name id (·.tokens))
    (byClass : ∀ name cls, (t.deployments name).reservedByClass cls =
      (s.deployments name).reservedByClass cls - s.share name id (Lease.tokensOf cls)) :
    LeaseBook cfg t := by
  have object : t.lease id = { s.lease id with released := true } := by
    rw [lease, Function.update_self]
  have gone : ∀ name weight, t.share name id weight = 0 := by
    intro name weight
    refine if_neg ?_
    rw [leases]
    exact Finset.notMem_erase id _
  obtain ⟨exclusive, named, nonneg, vram, elsewhere⟩ := book.wellFormed id (book.granted live)
  refine book.change id
    ⟨fun i other => ?_, fun name i other => ?_, fun i other => ?_, fun i other => ?_,
      fun i _ => by rw [nextLease]⟩
    ⟨fun name => ?_, ?_, ?_, nextLease ▸ book.granted live, ?_, fun name => ?_, fun name cls => ?_,
      fun name => ?_⟩
  · rw [lease, Function.update_of_ne other]
  · rw [leases, Finset.mem_erase]
    exact and_iff_right other
  · rw [cloud, Finset.mem_erase]
    exact and_iff_right other
  · rw [slot]
    exact and_iff_right other
  · rw [leases, object]
    exact iff_of_false (Finset.notMem_erase id _) fun lives => Bool.noConfusion lives.1
  · rw [cloud, object]
    exact iff_of_false (Finset.notMem_erase id _) fun lives => Bool.noConfusion lives.1
  · rw [slot, object]
    exact iff_of_false (fun same => same.1 rfl) fun lives => Bool.noConfusion lives.1
  · rw [object]
    exact ⟨exclusive, named, nonneg, vram, elsewhere⟩
  · rw [gone, zero_sub, tokens]
    rfl
  · rw [gone, zero_sub, byClass]
    rfl
  · rw [leases]
    exact (Finset.card_erase_le).trans (book.sequences name)

theorem share_of_notLives (book : LeaseBook cfg s) (elsewhere : ∀ name, ¬ (s.lease id).LivesOn name)
    (name : String) (weight : Lease → ℤ) : s.share name id weight = 0 :=
  if_neg fun held => elsewhere name ((book.mem name id).mp held)

theorem erase_of_notLives (book : LeaseBook cfg s) (elsewhere : ∀ name, ¬ (s.lease id).LivesOn name)
    (name : String) : (s.deployments name).leases.erase id = (s.deployments name).leases :=
  Finset.erase_eq_of_notMem fun held => elsewhere name ((book.mem name id).mp held)

theorem mem_target (book : LeaseBook cfg s) (live : (s.lease id).released = false)
    (local_ : (s.lease id).placement ≠ .cloud) (notSlot : s.exclusive ≠ some id) :
    id ∈ (s.deployments (s.lease id).target).leases := by
  have shared : (s.lease id).resourceClass ≠ .exclusive :=
    fun exclusive => notSlot ((book.slot id).mpr ⟨live, exclusive⟩)
  obtain ⟨name, -, named⟩ := (book.wellFormed id (book.granted live)).named shared
  rw [book.mem]
  refine ⟨live, ?_, local_⟩
  rw [Lease.target, named, Option.getD_some]

theorem discard (book : LeaseBook cfg s) (live : (s.lease id).released = false) :
    LeaseBook cfg (s.discard cfg id) := by
  have shape := book.wellFormed id (book.granted live)
  rcases s.discard_cases cfg id with ⟨inCloud, after⟩ | ⟨local_, slot, after⟩ | ⟨local_, notSlot, after⟩
  · have elsewhere : ∀ name, ¬ (s.lease id).LivesOn name := fun name lives => lives.2.2 inCloud
    have shared : s.exclusive ≠ some id := by
      intro slot
      have gpu := (shape.exclusive ((book.slot id).mp slot).2).2
      rw [inCloud] at gpu
      exact absurd gpu (by decide)
    rw [after]
    refine book.remove live rfl rfl (fun name => (book.erase_of_notLives elsewhere name).symm) rfl
      (fun i => ⟨fun held => ⟨fun same => shared (same ▸ held), held⟩, fun held => held.2⟩)
      (fun name => ?_) fun name cls => ?_
    · rw [book.share_of_notLives elsewhere, sub_zero]
      rfl
    · rw [book.share_of_notLives elsewhere, sub_zero]
      rfl
  · have unnamed := (shape.exclusive ((book.slot id).mp slot).2).1
    have elsewhere : ∀ name, ¬ (s.lease id).LivesOn name :=
      fun name lives => absurd (unnamed.symm.trans lives.2.1) (by simp)
    rw [after]
    refine book.remove live rfl rfl (fun name => (book.erase_of_notLives elsewhere name).symm) ?_
      (fun i => ?_) (fun name => ?_) fun name cls => ?_
    · exact (Finset.erase_eq_of_notMem fun held => local_ ((book.cloud id).mp held).2).symm
    · rw [slot]
      exact iff_of_false (by simp) fun held => held.1 (Option.some.inj held.2).symm
    · rw [book.share_of_notLives elsewhere, sub_zero]
      rfl
    · rw [book.share_of_notLives elsewhere, sub_zero]
      rfl
  · have held := book.mem_target live local_ notSlot
    have object := s.markReleased_self id
    have target := s.markReleased_target id
    obtain ⟨baseline, given⟩ := State.giveBack_eq cfg (s.markReleased id) id
      (target ▸ held)
    rw [after, given]
    refine book.remove live rfl rfl (fun name => ?_) ?_ (fun i => ?_) (fun name => ?_)
      fun name cls => ?_
    · refine (leases_update_reserve s.deployments _ name _ _ _).trans ?_
      rw [target]
      split_ifs with same
      · rw [same]
        rfl
      · exact (Finset.erase_eq_of_notMem fun mem => same (book.target_of_mem mem).symm).symm
    · exact (Finset.erase_eq_of_notMem fun mem => local_ ((book.cloud id).mp mem).2).symm
    · exact ⟨fun slot => ⟨fun same => notSlot (same ▸ slot), slot⟩, fun slot => slot.2⟩
    · refine (reservedTokens_update_reserve s.deployments _ name _ _ _ ?_).trans ?_
      · rfl
      · rw [book.share_of_mem held, target, object, sub_eq_add_neg]
        split_ifs
        · rfl
        · rw [neg_zero]
    · refine (reservedByClass_update_reserve s.deployments _ name _ _ _ cls ?_).trans ?_
      · rfl
      · rw [book.share_of_mem held, target, object, sub_eq_add_neg]
        unfold Lease.tokensOf
        split_ifs
        · rfl
        · rw [neg_zero]
        · rw [neg_zero]

end LeaseBook

end PawBackend.Compute
