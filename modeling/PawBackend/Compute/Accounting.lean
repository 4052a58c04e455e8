/-
**VRAM accounting** (`compute/accounting.py`, the readings of `compute/probe.py`).

`account` is the VRAM view of one reading.
-/

import PawBackend.Compute.Domain
import PawBackend.Lib.Reservation
import Mathlib.Algebra.BigOperators.Group.Finset.Basic

namespace PawBackend.Compute

open Lib

structure GpuDevice where
  index : ℕ
  uuid : String
  totalBytes : ℤ
  usedBytes : ℤ
  deriving DecidableEq, Repr

/-- A process that holds GPU memory; `usedBytes` is `none` when the driver does not say. -/
structure GpuProcess where
  gpuUuid : String
  pid : ℕ
  usedBytes : Option ℤ
  deriving DecidableEq, Repr

structure GpuSample where
  devices : List GpuDevice
  processes : List GpuProcess := []
  deriving DecidableEq, Repr

namespace GpuSample

def device (sample : GpuSample) (index : ℕ) : Option GpuDevice :=
  sample.devices.find? fun device => decide (device.index = index)

def processesOn (sample : GpuSample) (device : GpuDevice) : List GpuProcess :=
  sample.processes.filter fun process => decide (process.gpuUuid = device.uuid)

end GpuSample

/-- One of the workspace's models on the GPU: its reservation and the pids of its processes (`none`:
not known). -/
structure DeploymentUsage where
  reservedBytes : ℤ
  pids : Option (Finset ℕ)

/-- The VRAM of a GPU as admission counts it. -/
structure VramView where
  total : ℤ
  actual : ℤ
  reserved : ℤ
  ownActual : ℤ
  external : ℤ
  committed : ℤ
  headroom : ℤ
  available : ℤ
  extraUse : ℤ
  deriving DecidableEq, Repr

namespace VramView

def underPressure (view : VramView) : Bool := decide (view.available < 0)

def observedFree (view : VramView) : ℤ := view.total - view.actual

/-- What the scheduler promised that the probe does not show used yet. -/
def unseenReserved (view : VramView) : ℤ := max 0 (view.committed - view.actual)

end VramView

/-- Whether work that allocates `need` bytes of its own may start. -/
def freeVramAdmits (view : VramView) (need : ℤ) : Bool :=
  if need ≤ 0 then true
  else decide (need + view.headroom ≤ view.observedFree - view.unseenReserved)

/-- What an Exclusive job could get once every model of the workspace is off the GPU. -/
def freeVramAfterEmptying (view : VramView) : ℤ := view.total - view.headroom - view.external

/-- The safety headroom. -/
def headroomBytes (total minimumBytes : ℤ) (fraction : ℚ) : ℤ :=
  min total (max minimumBytes ⌊(total : ℚ) * fraction⌋)

/-- `used_by.get(pid, 0)`: the bytes the driver reports for a pid on the device. -/
def usedBy (device : GpuDevice) (processes : List GpuProcess) (pid : ℕ) : ℤ :=
  ((processes.filter fun process =>
    decide (process.gpuUuid = device.uuid ∧ process.pid = pid)).filterMap (·.usedBytes)).sum

def unknownUse (device : GpuDevice) (processes : List GpuProcess) : Finset ℕ :=
  ((processes.filter fun process =>
    decide (process.gpuUuid = device.uuid ∧ process.usedBytes = none)).map (·.pid)).toFinset

/-- The running sums of `account` over the models. -/
structure Tally where
  reserved : ℤ
  committedOwn : ℤ
  ownActual : ℤ
  unknownReserved : ℤ

/-- One model's part of the sums. -/
def Tally.add (device : GpuDevice) (processes : List GpuProcess) (tally : Tally)
    (usage : DeploymentUsage) : Tally :=
  let actual := match usage.pids with
    | none => 0
    | some pids => ∑ pid ∈ pids, usedBy device processes pid
  if actual = 0 then
    { tally with
      reserved := tally.reserved + usage.reservedBytes
      unknownReserved := tally.unknownReserved + usage.reservedBytes
      committedOwn := tally.committedOwn + usage.reservedBytes }
  else
    { reserved := tally.reserved + usage.reservedBytes
      ownActual := tally.ownActual + actual
      committedOwn := tally.committedOwn + max usage.reservedBytes actual
      unknownReserved :=
        if (usage.pids.getD ∅ ∩ unknownUse device processes).Nonempty then
          tally.unknownReserved + max 0 (usage.reservedBytes - actual)
        else tally.unknownReserved }

def account (device : GpuDevice) (processes : List GpuProcess) (deployments : List DeploymentUsage)
    (headroom extraReserved extraBaseline : ℤ) : VramView :=
  let tally := deployments.foldl (Tally.add device processes) ⟨extraReserved, extraReserved, 0, 0⟩
  let rest := max 0 (device.usedBytes - tally.ownActual - tally.unknownReserved)
  let exclusiveUse := min extraReserved (max 0 (rest - max 0 extraBaseline))
  let external := rest - exclusiveUse
  let committed := tally.committedOwn + external
  { total := device.totalBytes
    actual := device.usedBytes
    reserved := tally.reserved
    ownActual := tally.ownActual
    external := external
    committed := committed
    headroom := headroom
    available := device.totalBytes - headroom - committed
    extraUse := exclusiveUse }

/-! ### The view split into the models' part and the promise -/

def modelTally (device : GpuDevice) (processes : List GpuProcess)
    (deployments : List DeploymentUsage) : Tally :=
  deployments.foldl (Tally.add device processes) ⟨0, 0, 0, 0⟩

def foreignUse (device : GpuDevice) (processes : List GpuProcess)
    (deployments : List DeploymentUsage) : ℤ :=
  max 0 (device.usedBytes - (modelTally device processes deployments).ownActual
    - (modelTally device processes deployments).unknownReserved)

theorem foreignUse_nonneg (device : GpuDevice) (processes : List GpuProcess)
    (deployments : List DeploymentUsage) : 0 ≤ foreignUse device processes deployments :=
  le_max_left _ _

theorem foldl_add_shift (device : GpuDevice) (processes : List GpuProcess)
    (deployments : List DeploymentUsage) (extra : ℤ) (tally : Tally) :
    deployments.foldl (Tally.add device processes)
        ⟨tally.reserved + extra, tally.committedOwn + extra, tally.ownActual,
          tally.unknownReserved⟩ =
      let sums := deployments.foldl (Tally.add device processes) tally
      ⟨sums.reserved + extra, sums.committedOwn + extra, sums.ownActual, sums.unknownReserved⟩ := by
  induction deployments generalizing tally with
  | nil => rfl
  | cons usage deployments ih =>
    rw [List.foldl_cons, List.foldl_cons, ← ih (tally.add device processes usage)]
    congr 1
    unfold Tally.add
    dsimp only
    split_ifs <;> simp only [Tally.mk.injEq, and_true] <;> omega

theorem account_eq (device : GpuDevice) (processes : List GpuProcess)
    (deployments : List DeploymentUsage) (headroom extraReserved extraBaseline : ℤ) :
    let p : Reservation := ⟨foreignUse device processes deployments, extraReserved, extraBaseline⟩
    let tally := modelTally device processes deployments
    account device processes deployments headroom extraReserved extraBaseline =
      { total := device.totalBytes
        actual := device.usedBytes
        reserved := tally.reserved + extraReserved
        ownActual := tally.ownActual
        external := p.external
        committed := tally.committedOwn + p.committed
        headroom := headroom
        available := device.totalBytes - headroom - (tally.committedOwn + p.committed)
        extraUse := p.use } := by
  have sums := foldl_add_shift device processes deployments extraReserved ⟨0, 0, 0, 0⟩
  simp only [zero_add] at sums
  intro p tally
  unfold account
  rw [sums]
  simp only [VramView.mk.injEq, p, tally, Reservation.committed, Reservation.external, Reservation.use,
    foreignUse, modelTally, true_and, and_true]
  omega

structure Tally.Covers (tally : Tally) : Prop where
  reserved : tally.reserved ≤ tally.committedOwn
  use : tally.ownActual + tally.unknownReserved ≤ tally.committedOwn

theorem Tally.Covers.add {device : GpuDevice} {processes : List GpuProcess} {tally : Tally} (covers : tally.Covers)
    (usage : DeploymentUsage) : (tally.add device processes usage).Covers := by
  obtain ⟨reserved, use⟩ := covers
  unfold Tally.add
  dsimp only
  split_ifs <;> constructor <;> dsimp only <;> omega

theorem modelTally_covers (device : GpuDevice) (processes : List GpuProcess) (deployments : List DeploymentUsage) :
    (modelTally device processes deployments).Covers := by
  have all : ∀ tally : Tally, tally.Covers → (deployments.foldl (Tally.add device processes) tally).Covers := by
    induction deployments with
    | nil => exact fun _ covers => covers
    | cons usage rest ih => exact fun tally covers => ih _ (covers.add usage)
  exact all _ ⟨le_rfl, by decide⟩

theorem freeVramAdmits_iff {view : VramView} {need : ℤ} :
    freeVramAdmits view need = true ↔
      need ≤ 0 ∨ need + view.headroom ≤ view.total - max view.actual view.committed := by
  unfold freeVramAdmits VramView.observedFree VramView.unseenReserved
  split_ifs with small
  · exact ⟨fun _ => Or.inl small, fun _ => rfl⟩
  · rw [decide_eq_true_iff]
    omega

/-- **The accounting is conservative**: what is committed is at least what is reserved and what is used, whatever the
processes report, and so work is admitted exactly when its need is available. -/
theorem account_conservative (device : GpuDevice) (processes : List GpuProcess) (deployments : List DeploymentUsage)
    (headroom : ℤ) {extraReserved : ℤ} (promised : 0 ≤ extraReserved) (extraBaseline : ℤ) :
    let view := account device processes deployments headroom extraReserved extraBaseline
    0 ≤ view.external ∧ (0 ≤ view.extraUse ∧ view.extraUse ≤ extraReserved) ∧ view.reserved ≤ view.committed ∧
      view.actual ≤ view.committed ∧ ∀ need, 0 < need → (freeVramAdmits view need = true ↔ need ≤ view.available) := by
  obtain ⟨reserved, use⟩ := modelTally_covers device processes deployments
  have rest := foreignUse_nonneg device processes deployments
  have used : device.usedBytes - (modelTally device processes deployments).ownActual -
      (modelTally device processes deployments).unknownReserved ≤ foreignUse device processes deployments :=
    le_max_right _ _
  intro view
  have isView : view = _ := account_eq device processes deployments headroom extraReserved extraBaseline
  rw [isView]
  dsimp only
  generalize isPromise : (⟨foreignUse device processes deployments, extraReserved, extraBaseline⟩ : Reservation) = p
  have isRest : p.rest = foreignUse device processes deployments := by rw [← isPromise]
  have isReserved : p.reserved = extraReserved := by rw [← isPromise]
  have external : 0 ≤ p.external := Reservation.external_nonneg (isRest ▸ rest)
  have taken : p.use ≤ extraReserved := isReserved ▸ p.use_le_reserved
  have committed : p.committed = p.reserved + (p.rest - p.use) := rfl
  have left : p.external = p.rest - p.use := rfl
  refine ⟨external, ⟨Reservation.use_nonneg (isReserved ▸ promised), taken⟩, by omega, by omega, fun need positive => ?_⟩
  rw [freeVramAdmits_iff]
  dsimp only
  omega

theorem account_conservative_sample :
    let view := account ⟨0, "gpu", 100, 60⟩ [⟨"gpu", 1, some 40⟩, ⟨"gpu", 1, none⟩, ⟨"other", 2, some 9⟩]
      [⟨50, some {1}⟩, ⟨5, none⟩] 10 3 0
    view.committed = 60 ∧ (freeVramAdmits view 27 = true ↔ 27 ≤ view.available) :=
  ⟨by decide, (account_conservative ⟨0, "gpu", 100, 60⟩ [⟨"gpu", 1, some 40⟩, ⟨"gpu", 1, none⟩, ⟨"other", 2, some 9⟩]
    [⟨50, some {1}⟩, ⟨5, none⟩] 10 (by decide) 0).2.2.2.2 27 (by decide)⟩

end PawBackend.Compute
