/-
**Health probes of a connection** (`connections/store.py`, `connections/service.py`).

A probe is recorded with the instant it starts; its end writes its verdict to the connection while that still points
at the probed credential and `checked_at` is before the start.
-/

import PawBackend.Connections.SessionLease
import PawBackend.Lib.Machine

namespace PawBackend.Connections

open Lib List
open Tools (Instant Uuid)

inductive ProbeState
  | running
  | finished
  | abandoned
  deriving DecidableEq

inductive ProbeOutcome
  | connected
  | expired
  | unavailable
  | busy
  | cancelled
  deriving DecidableEq

/-- A row of `shared_connections`. -/
structure CheckedConnection where
  id : Uuid
  kind : ConnectionKind
  secretHandle : Uuid
  status : ConnectionStatus := .unavailable
  enabled : Bool := true
  checkedAt : Option Instant := none
  suspected : Option (Instant × CredentialSuspicion) := none
  deriving DecidableEq

/-- A row of `connection_probes`. -/
structure ProbeRow where
  id : Uuid
  connectionId : Uuid
  secretHandle : Uuid
  startedAt : Instant
  state : ProbeState := .running
  outcome : Option ProbeOutcome := none
  failureCode : Option FailureCode := none
  finishedAt : Option Instant := none
  deriving DecidableEq

structure Verdict where
  connectionId : Uuid
  secretHandle : Uuid
  recordedAt : Instant
  deriving DecidableEq

/-- The tables, the verdicts recorded and the probes that left `running`. -/
structure ProbeWorld where
  connections : Keyed CheckedConnection.id
  probes : Keyed ProbeRow.id
  clock : Instant
  verdicts : List Verdict
  ended : List Uuid

/-! ### The statements -/

/-- `changes_status`, and the status `_finish_probe` writes. -/
def statusOf : ProbeOutcome → Option FailureCode → Option ConnectionStatus
  | .connected, _ => some .connected
  | .expired, _ => some .expired
  | .unavailable, failure => if failure = some .rateLimited ∨ failure = some .modelFallback then none else some .unavailable
  | .busy, _ | .cancelled, _ => none

/-- A verdict is written: a credential found working is no longer suspected. -/
def CheckedConnection.judged (c : CheckedConnection) (status : ConnectionStatus) (now : Instant) : CheckedConnection :=
  { c with status := status, suspected := if status = .connected then none else c.suspected, checkedAt := some now }

/-- `replace_handle`. -/
def CheckedConnection.replaced (c : CheckedConnection) (handle : Uuid) : CheckedConnection :=
  { c with secretHandle := handle, status := .unavailable, checkedAt := none, suspected := none }

/-- The compare-and-swap of `replace_handle`: the connection is the one that is expected, where one is. -/
def CheckedConnection.isExpected (c : CheckedConnection) (expected : Option (Uuid × Uuid)) : Bool :=
  expected.all fun e => decide (e = (c.id, c.secretHandle))

namespace ProbeRow

def Probes (p : ProbeRow) (connectionId handle : Uuid) : Prop :=
  p.state = .running ∧ p.connectionId = connectionId ∧ p.secretHandle = handle

instance (p : ProbeRow) (connectionId handle : Uuid) : Decidable (p.Probes connectionId handle) :=
  inferInstanceAs (Decidable (_ ∧ _))

/-- The probe leaves `running`. -/
def left (p : ProbeRow) (state : ProbeState) (outcome : Option ProbeOutcome) (failure : Option FailureCode)
    (now : Instant) : ProbeRow :=
  { p with state := state, outcome := outcome, failureCode := failure, finishedAt := some (max now p.startedAt) }

def MayJudge (p : ProbeRow) (c : CheckedConnection) : Prop :=
  c.id = p.connectionId ∧ c.secretHandle = p.secretHandle ∧ ∀ checked ∈ c.checkedAt, checked < p.startedAt

instance (p : ProbeRow) (c : CheckedConnection) : Decidable (p.MayJudge c) := inferInstanceAs (Decidable (_ ∧ _))

end ProbeRow

namespace ProbeWorld

variable (w : ProbeWorld)

/-- The connections a condition selects are written, without a verdict. -/
def revise (p : CheckedConnection → Bool) (f : CheckedConnection → CheckedConnection)
    (keeps : ∀ c, p c = true → (f c).id = c.id) : ProbeWorld :=
  { w with connections := w.connections.update p f keeps }

/-- A verdict is written to the connections a condition selects. -/
def judge (p : CheckedConnection → Bool) (status : ConnectionStatus) (now : Instant) : ProbeWorld :=
  { w with
    connections := w.connections.update p (·.judged status now) fun _ _ => rfl
    verdicts := w.verdicts ++ (w.connections.rows.filter p).map fun c => ⟨c.id, c.secretHandle, now⟩ }

/-- The probes a condition selects leave `running`. -/
def leave (p : ProbeRow → Bool) (state : ProbeState) (outcome : Option ProbeOutcome) (failure : Option FailureCode)
    (now : Instant) : ProbeWorld :=
  { w with
    probes := w.probes.update p (·.left state outcome failure now) fun _ _ => rfl
    ended := w.ended ++ (w.probes.rows.filter p).map ProbeRow.id }

def finish (p : ProbeRow) (outcome : ProbeOutcome) (failure : Option FailureCode) (now : Instant) : ProbeWorld :=
  let left := w.leave (fun row => decide (row.id = p.id)) .finished (some outcome) failure now
  match statusOf outcome failure with
  | none => left
  | some status => left.judge (fun c => decide (p.MayJudge c)) status now

def Unused (id : Uuid) : Prop :=
  (∀ v ∈ w.verdicts, v.connectionId ≠ id) ∧ ∀ p ∈ w.probes.rows, p.connectionId ≠ id

instance (id : Uuid) : Decidable (w.Unused id) := inferInstanceAs (Decidable (_ ∧ _))

end ProbeWorld

/-- A call; `chosen` are the rows the reaper could lock, up to its limit. -/
inductive ProbeEvent
  | insertConnection (kind : ConnectionKind) (id handle : Uuid)
  | replaceHandle (kind : ConnectionKind) (handle : Uuid) (expected : Option (Uuid × Uuid))
  | setEnabled (kind : ConnectionKind) (enabled : Bool)
  | deleteConnection (kind : ConnectionKind)
  | recordHealth (kind : ConnectionKind) (handle : Uuid) (status : ConnectionStatus)
  | startProbe (kind : ConnectionKind) (probeId : Uuid) (enforceSpacing : Bool)
  | finishProbe (probeId : Uuid) (outcome : ProbeOutcome) (failure : Option FailureCode)
  | reapAbandonedProbes (chosen : List Uuid)

section Runs

/-! `_next_recheck` may be any rule: it only denies a start. -/
variable (nextRecheck : List ProbeRow → Uuid → Uuid → Option Instant)

/-- `PROBE_ABANDONED_AGE_SECONDS`, in microseconds. -/
def probeAbandonedAge : Instant := 600000000

/-- `start_probe` denies: the connection is disabled, its credential is being probed, or the spacing of rechecks has not
ended. -/
def ProbeWorld.Denies (w : ProbeWorld) (c : CheckedConnection) (enforceSpacing : Bool) (now : Instant) : Prop :=
  c.enabled = false ∨ (∃ p ∈ w.probes.rows, p.Probes c.id c.secretHandle) ∨
    enforceSpacing = true ∧ ∃ available ∈ nextRecheck w.probes.rows c.id c.secretHandle, now < available

instance (w : ProbeWorld) (c : CheckedConnection) (enforceSpacing : Bool) (now : Instant) :
    Decidable (w.Denies nextRecheck c enforceSpacing now) := inferInstanceAs (Decidable (_ ∨ _))

def ProbeWorld.call (w : ProbeWorld) (now : Instant) : ProbeEvent → Option ProbeWorld
  | .insertConnection kind id handle =>
    if ¬w.Unused id then none
    else if ∃ c ∈ w.connections.rows, c.kind = kind then some w
    else
      (w.connections.tryInsert { id := id, kind := kind, secretHandle := handle }).map fun connections =>
        { w with connections := connections }
  | .replaceHandle kind handle expected => some (w.revise
      (fun c => decide (c.kind = kind ∧ c.isExpected expected = true)) (·.replaced handle) fun _ _ => rfl)
  | .setEnabled kind enabled => some (w.revise (fun c => decide (c.kind = kind))
      (fun c => { c with enabled := enabled }) fun _ _ => rfl)
  | .deleteConnection kind => some { w with connections := w.connections.remove fun c => decide (c.kind = kind) }
  | .recordHealth kind handle status =>
    some (w.judge (fun c => decide (c.kind = kind ∧ c.secretHandle = handle)) status now)
  | .startProbe kind probeId enforceSpacing =>
    match w.connections.rows.find? fun c => decide (c.kind = kind) with
    | some c =>
      if w.Denies nextRecheck c enforceSpacing now then some w
      else
        (w.probes.tryInsert { id := probeId, connectionId := c.id, secretHandle := c.secretHandle, startedAt := now }).map
          fun probes => { w with probes := probes }
    | none => some w
  | .finishProbe probeId outcome failure =>
    match w.probes.get probeId with
    | some p => some (if p.state = .running then w.finish p outcome failure now else w)
    | none => some w
  | .reapAbandonedProbes chosen => some (w.leave
      (fun p => decide (p.id ∈ chosen ∧ p.state = .running ∧ p.startedAt < now - probeAbandonedAge)) .abandoned none none now)

def ProbeWorld.step (w : ProbeWorld) (event : Instant × ProbeEvent) : Option ProbeWorld :=
  if w.clock ≤ event.1 then (w.call nextRecheck event.1 event.2).map fun w' => { w' with clock := event.1 } else none

/-- The store from its empty tables on, with a clock that does not go back. -/
def probeRuns : Machine ProbeWorld (Instant × ProbeEvent) where
  initial w := w.connections = Keyed.empty ∧ w.probes = Keyed.empty ∧ w.verdicts = [] ∧ w.ended = []
  step w := w.step nextRecheck

def Verdict.IsAbout (v : Verdict) (connectionId handle : Uuid) : Prop :=
  v.connectionId = connectionId ∧ v.secretHandle = handle

instance (v : Verdict) (connectionId handle : Uuid) : Decidable (v.IsAbout connectionId handle) :=
  inferInstanceAs (Decidable (_ ∧ _))

/-- The condition on a call: a replacement gives the connection no credential with a running probe about which a verdict
was recorded since its start, and no probe starts at the instant of a verdict that was forgotten. -/
def Remembers (w : ProbeWorld) : Instant × ProbeEvent → Prop
  | (_, .replaceHandle kind handle expected) => ∀ c ∈ w.connections.rows, c.kind = kind →
      c.isExpected expected = true → ∀ p ∈ w.probes.rows, p.Probes c.id handle →
        ∀ v ∈ w.verdicts, v.IsAbout c.id handle → v.recordedAt < p.startedAt
  | (now, .startProbe kind _ _) => ∀ c ∈ w.connections.rows, c.kind = kind → c.checkedAt = none →
      ∀ v ∈ w.verdicts, v.IsAbout c.id c.secretHandle → v.recordedAt ≠ now
  | _ => True

/-- What an end promises: it changes a connection only for a running probe of its credential, about which no verdict is
as late as the start of the probe; a second end changes nothing. -/
def Respects (w w' : ProbeWorld) : ProbeEvent → Prop
  | .finishProbe probeId _ _ =>
    (∀ id, w'.connections.get id ≠ w.connections.get id →
      ∃ p ∈ w.probes.get probeId, ∃ c ∈ w.connections.get id, p.Probes c.id c.secretHandle ∧
        ∀ v ∈ w.verdicts, v.IsAbout c.id c.secretHandle → v.recordedAt < p.startedAt) ∧
      ((∀ p ∈ w.probes.get probeId, p.state ≠ .running) → w' = { w with clock := w'.clock })
  | .reapAbandonedProbes _ => w'.connections = w.connections
  | _ => True

/-! ### What every state keeps -/

/-- A check is no older than any verdict about the connection, and while there is none, no running probe has a verdict to
respect. -/
structure Guards (verdicts : List Verdict) (probes : List ProbeRow) (c : CheckedConnection) : Prop where
  latest : ∀ checked ∈ c.checkedAt, ∀ v ∈ verdicts, v.connectionId = c.id → v.recordedAt ≤ checked
  guarded : c.checkedAt = none → ∀ p ∈ probes, p.Probes c.id c.secretHandle →
    ∀ v ∈ verdicts, v.IsAbout c.id c.secretHandle → v.recordedAt < p.startedAt

structure ProbesSound (w : ProbeWorld) (now : Instant) : Prop where
  times : ∀ v ∈ w.verdicts, v.recordedAt ≤ now
  guards : ∀ c ∈ w.connections.rows, Guards w.verdicts w.probes.rows c
  alone : ∀ p ∈ w.probes.rows, ∀ q ∈ w.probes.rows, q.state = .running → p.Probes q.connectionId q.secretHandle → p = q
  once : ∀ id, w.ended.count id = if ∃ p ∈ w.probes.get id, p.state ≠ .running then 1 else 0

variable {nextRecheck} {w w' : ProbeWorld} {now : Instant} {c : CheckedConnection}

namespace ProbesSound

theorem mono (sound : ProbesSound w now) {later : Instant} (notBefore : now ≤ later) : ProbesSound w later :=
  { sound with times := fun v isIn => (sound.times v isIn).trans notBefore }

theorem revise (sound : ProbesSound w now) {p : CheckedConnection → Bool} {f : CheckedConnection → CheckedConnection}
    {keeps : ∀ c, p c = true → (f c).id = c.id}
    (guards : ∀ c ∈ w.connections.rows, p c = true → Guards w.verdicts w.probes.rows (f c)) :
    ProbesSound (w.revise p f keeps) now := by
  refine { sound with guards := fun c' isRow => ?_ }
  obtain ⟨c, isIn, rfl⟩ := mem_map.mp isRow
  split_ifs with chosen
  · exact guards c isIn chosen
  · exact sound.guards c isIn

theorem judge (sound : ProbesSound w now) (p : CheckedConnection → Bool) (status : ConnectionStatus) :
    ProbesSound (w.judge p status now) now := by
  have verdict : ∀ v ∈ (w.judge p status now).verdicts, v ∈ w.verdicts ∨
      ∃ c ∈ w.connections.rows, p c = true ∧ v = ⟨c.id, c.secretHandle, now⟩ := by
    intro v isIn
    refine (mem_append.mp isIn).imp_right fun new => ?_
    obtain ⟨c, isChosen, rfl⟩ := mem_map.mp new
    exact ⟨c, (mem_filter.mp isChosen).1, (mem_filter.mp isChosen).2, rfl⟩
  have times : ∀ v ∈ (w.judge p status now).verdicts, v.recordedAt ≤ now := by
    intro v isIn
    rcases verdict v isIn with old | ⟨c, -, -, rfl⟩
    · exact sound.times v old
    · exact le_rfl
  refine { sound with times, guards := fun c' isRow => ?_ }
  obtain ⟨c, isIn, rfl⟩ := mem_map.mp isRow
  split_ifs with chosen
  · exact ⟨fun checked isChecked v isVerdict _ => (times v isVerdict).trans_eq (Option.some.inj isChecked), nofun⟩
  · -- The new verdicts are about other connections.
    have old : ∀ v ∈ (w.judge p status now).verdicts, v.connectionId = c.id → v ∈ w.verdicts := by
      intro v isVerdict about
      refine (verdict v isVerdict).resolve_right ?_
      rintro ⟨other, isOther, isChosen, rfl⟩
      exact chosen (w.connections.eq_of_key_eq isOther isIn about ▸ isChosen)
    exact ⟨fun checked isChecked v isVerdict about =>
        (sound.guards c isIn).latest checked isChecked v (old v isVerdict about) about,
      fun unchecked q isProbe probes v isVerdict about =>
        (sound.guards c isIn).guarded unchecked q isProbe probes v (old v isVerdict about.1) about⟩

theorem leave (sound : ProbesSound w now) {p : ProbeRow → Bool} {state : ProbeState} {outcome : Option ProbeOutcome}
    {failure : Option FailureCode} (running : ∀ row ∈ w.probes.rows, p row = true → row.state = .running)
    (ends : state ≠ .running) : ProbesSound (w.leave p state outcome failure now) now := by
  have still : ∀ row ∈ (w.leave p state outcome failure now).probes.rows, row.state = .running → row ∈ w.probes.rows := by
    intro row isRow runs
    obtain ⟨old, isOld, rfl⟩ := mem_map.mp isRow
    split_ifs at runs ⊢ with chosen
    · exact absurd runs ends
    · exact isOld
  refine ⟨sound.times, fun c isRow => ⟨(sound.guards c isRow).latest, fun unchecked row isProbe probes =>
      (sound.guards c isRow).guarded unchecked row (still row isProbe probes.1) probes⟩,
    fun q isQ r isR runs probes => sound.alone q (still q isQ probes.1) r (still r isR runs) runs probes, fun id => ?_⟩
  have nodup : ((w.probes.rows.filter p).map ProbeRow.id).Nodup := w.probes.distinct.sublist (filter_sublist.map _)
  have after : (w.leave p state outcome failure now).probes.get id =
      (w.probes.get id).map fun row => if p row then row.left state outcome failure now else row :=
    w.probes.get_update p (fun row => row.left state outcome failure now) (fun _ _ => rfl) id
  rw [after]
  show (w.ended ++ _).count id = _
  rw [count_append, sound.once id, nodup.count]
  have chosenIds : id ∈ (w.probes.rows.filter p).map ProbeRow.id ↔ ∃ row ∈ w.probes.get id, p row = true := by
    simp only [mem_map, mem_filter, Option.mem_def, Keyed.get_eq_some]
    tauto
  rw [if_congr chosenIds rfl rfl]
  cases found : w.probes.get id with
  | none => simp
  | some row =>
    by_cases chosen : p row = true
    · simp [chosen, running row (Keyed.mem_of_get found) chosen, ProbeRow.left, ends]
    · simp [chosen]

theorem finish (sound : ProbesSound w now) {p : ProbeRow} (isIn : p ∈ w.probes.rows) (running : p.state = .running)
    (outcome : ProbeOutcome) (failure : Option FailureCode) : ProbesSound (w.finish p outcome failure now) now := by
  have left : ProbesSound (w.leave (fun row => decide (row.id = p.id)) .finished (some outcome) failure now) now :=
    sound.leave (fun row isRow same => w.probes.eq_of_key_eq isRow isIn (of_decide_eq_true same) ▸ running) nofun
  unfold ProbeWorld.finish
  cases statusOf outcome failure with
  | none => exact left
  | some status => exact left.judge _ status

theorem start (sound : ProbesSound w now) (isIn : c ∈ w.connections.rows)
    (free : ∀ p ∈ w.probes.rows, ¬p.Probes c.id c.secretHandle)
    (remembered : c.checkedAt = none → ∀ v ∈ w.verdicts, v.IsAbout c.id c.secretHandle → v.recordedAt ≠ now)
    {probeId : Uuid} {probes : Keyed ProbeRow.id} (added : w.probes.tryInsert
      { id := probeId, connectionId := c.id, secretHandle := c.secretHandle, startedAt := now } = some probes) :
    ProbesSound { w with probes := probes } now := by
  refine ⟨sound.times, fun c' isRow => ⟨(sound.guards c' isRow).latest, fun unchecked p isProbe running v isVerdict about =>
    ?_⟩, fun p isP q isQ runs running => ?_, fun id => ?_⟩
  · rcases (Keyed.mem_of_tryInsert added).mp isProbe with rfl | old
    · obtain rfl := w.connections.eq_of_key_eq isIn isRow running.2.1
      exact (sound.times v isVerdict).lt_of_ne (remembered unchecked v isVerdict about)
    · exact (sound.guards c' isRow).guarded unchecked p old running v isVerdict about
  · rcases (Keyed.mem_of_tryInsert added).mp isP with rfl | old <;> rcases (Keyed.mem_of_tryInsert added).mp isQ with rfl | old'
    · rfl
    · exact absurd ⟨runs, running.2.1.symm, running.2.2.symm⟩ (free q old')
    · exact absurd running (free p old)
    · exact sound.alone p old q old' runs running
  · rw [sound.once id, Keyed.get_of_tryInsert added]
    split_ifs with here <;> simp_all [Keyed.fresh_of_tryInsert added]

theorem call (sound : ProbesSound w now) {event : ProbeEvent} (fits : Remembers w (now, event))
    (called : w.call nextRecheck now event = some w') : ProbesSound w' now := by
  cases event with
  | insertConnection kind id handle =>
    simp only [ProbeWorld.call] at called
    split_ifs at called with used taken
    · exact Option.some.inj called ▸ sound
    · obtain ⟨connections, added, rfl⟩ := Option.map_eq_some_iff.mp called
      refine { sound with guards := fun c isRow => ?_ }
      rcases (Keyed.mem_of_tryInsert added).mp isRow with rfl | old
      · exact ⟨fun _ wrong => absurd wrong (Option.some_ne_none _).symm,
          fun _ p isIn probes => absurd probes.2.1 (used.2 p isIn)⟩
      · exact sound.guards c old
  | replaceHandle kind handle expected =>
    refine Option.some.inj called ▸ sound.revise fun c isRow chosen =>
      ⟨fun _ wrong => absurd wrong (Option.some_ne_none _).symm, fun _ => ?_⟩
    exact fits c isRow (of_decide_eq_true chosen).1 (of_decide_eq_true chosen).2
  | setEnabled kind enabled =>
    exact Option.some.inj called ▸ sound.revise fun c isRow _ => ⟨(sound.guards c isRow).1, (sound.guards c isRow).2⟩
  | deleteConnection kind =>
    exact Option.some.inj called ▸ { sound with guards := fun c isRow => sound.guards c (mem_filter.mp isRow).1 }
  | recordHealth kind handle status => exact Option.some.inj called ▸ sound.judge _ status
  | startProbe kind probeId enforceSpacing =>
    simp only [ProbeWorld.call] at called
    split at called
    · rename_i c found
      have isIn := mem_of_find?_eq_some found
      have ofKind : c.kind = kind := by simpa using find?_some found
      split_ifs at called with denied
      · exact Option.some.inj called ▸ sound
      · obtain ⟨probes, added, rfl⟩ := Option.map_eq_some_iff.mp called
        exact sound.start isIn (fun p isProbe probes => denied (.inr (.inl ⟨p, isProbe, probes⟩)))
          (fits c isIn ofKind) added
    · exact Option.some.inj called ▸ sound
  | finishProbe probeId outcome failure =>
    simp only [ProbeWorld.call] at called
    split at called
    · rename_i p found
      obtain rfl := Option.some.inj called
      split_ifs with running
      · exact sound.finish (Keyed.mem_of_get found) running outcome failure
      · exact sound
    · exact Option.some.inj called ▸ sound
  | reapAbandonedProbes chosen =>
    exact Option.some.inj called ▸ sound.leave (fun row _ doomed => (of_decide_eq_true doomed).2.1) (by decide)

/-- **No end overrules a later verdict.** -/
theorem respects (sound : ProbesSound w now) {event : ProbeEvent}
    (called : w.call nextRecheck now event = some w') : Respects w { w' with clock := now } event := by
  cases event with
  | insertConnection | replaceHandle | setEnabled | deleteConnection | recordHealth | startProbe => trivial
  | reapAbandonedProbes chosen => exact Option.some.inj called ▸ rfl
  | finishProbe probeId outcome failure =>
    have same : Respects w { w with clock := now } (.finishProbe probeId outcome failure) :=
      ⟨fun id changed => absurd rfl changed, fun _ => rfl⟩
    simp only [ProbeWorld.call] at called
    split at called
    · rename_i p found
      obtain rfl := Option.some.inj called
      split_ifs with running
      · refine ⟨fun id changed => ⟨p, found, ?_⟩, fun stopped => absurd running (stopped p found)⟩
        obtain ⟨c, isRow, isHere, current, since⟩ : ∃ c ∈ w.connections.get id, p.MayJudge c := by
          cases verdict : statusOf outcome failure with
          | none =>
            rw [ProbeWorld.finish, verdict] at changed
            exact absurd rfl changed
          | some status =>
            have after : (w.finish p outcome failure now).connections.get id =
                (w.connections.get id).map fun c => if decide (p.MayJudge c) then c.judged status now else c := by
              rw [ProbeWorld.finish, verdict]
              exact w.connections.get_update _ (fun c => c.judged status now) (fun _ _ => rfl) id
            cases there : w.connections.get id with
            | none => simp [after, there] at changed
            | some c =>
              refine ⟨c, rfl, by_contra fun may => ?_⟩
              simp [after, there, may] at changed
        have probes : p.Probes c.id c.secretHandle := ⟨running, isHere.symm, current.symm⟩
        have guards := sound.guards c (Keyed.mem_of_get isRow)
        refine ⟨c, isRow, probes, fun v isVerdict about => ?_⟩
        cases checked : c.checkedAt with
        | none => exact guards.guarded checked p (Keyed.mem_of_get found) probes v isVerdict about
        | some at_ => exact (guards.latest at_ checked v isVerdict about.1).trans_lt (since at_ checked)
      · exact same
    · exact Option.some.inj called ▸ same

end ProbesSound

theorem probesSound (reach : (probeRuns nextRecheck).ReachableBy Remembers w) : ProbesSound w w.clock := by
  refine reach.invariant (P := fun w => ProbesSound w w.clock) ?_ ?_
  · rintro ⟨_, _, _, _, _⟩ ⟨rfl, rfl, rfl, rfl⟩
    exact ⟨fun _ => nofun, fun _ => nofun, fun _ => nofun, fun _ => by simp⟩
  · intro w event w' _ sound fits taken
    obtain ⟨notBefore, called⟩ := Option.ite_none_right_eq_some.mp taken
    obtain ⟨w₁, made, rfl⟩ := Option.map_eq_some_iff.mp called
    exact { (sound.mono notBefore).call fits made with }

/-- **Probes respect later verdicts**: a credential of a connection has at most one running probe; a probe leaves
`running` once; an end changes a connection only for a running probe of its credential with no verdict about it since
the start, and a second end changes nothing. -/
theorem probes_respect {w : ProbeWorld} (reach : (probeRuns nextRecheck).ReachableBy Remembers w) :
    (∀ p ∈ w.probes.rows, ∀ q ∈ w.probes.rows, q.state = .running → p.Probes q.connectionId q.secretHandle → p = q) ∧
      (∀ p ∈ w.probes.rows, w.ended.count p.id = if p.state = .running then 0 else 1) ∧
      ∀ event w', (probeRuns nextRecheck).step w event = some w' → Respects w w' event.2 := by
  have sound := probesSound reach
  refine ⟨sound.alone, fun p isIn => ?_, fun event w' taken => ?_⟩
  · rw [sound.once p.id, Keyed.get_self isIn]
    by_cases running : p.state = .running <;> simp [running]
  · obtain ⟨notBefore, called⟩ := Option.ite_none_right_eq_some.mp taken
    obtain ⟨w₁, made, rfl⟩ := Option.map_eq_some_iff.mp called
    exact (sound.mono notBefore).respects made

def sampleStore : ProbeWorld := ⟨Keyed.empty, Keyed.empty, 0, [], []⟩

def sampleRuns : Machine ProbeWorld (Instant × ProbeEvent) := probeRuns fun _ _ _ => none

theorem sampleInsert_taken : (sampleRuns.step sampleStore (0, .insertConnection .codex 1 7)).isSome = true := by
  decide

def sampleConnected : ProbeWorld := Option.get _ sampleInsert_taken

theorem sampleStart_taken : (sampleRuns.step sampleConnected (1, .startProbe .codex 2 false)).isSome = true := by
  decide

def sampleProbing : ProbeWorld := Option.get _ sampleStart_taken

theorem probes_respect_sample : sampleProbing.probes.rows.length = 1 ∧ ∀ event w',
    sampleRuns.step sampleProbing event = some w' → Respects sampleProbing w' event.2 :=
  have unjudged : sampleConnected.verdicts = [] := by decide
  ⟨by decide, (probes_respect (.next (.next (.start (s := sampleStore) ⟨rfl, rfl, rfl, rfl⟩)
    (e := (0, .insertConnection .codex 1 7)) trivial (Option.some_get sampleInsert_taken).symm)
    (e := (1, .startProbe .codex 2 false)) (fun _ _ _ _ v isVerdict => absurd (unjudged ▸ isVerdict : v ∈ []) not_mem_nil)
    (Option.some_get sampleStart_taken).symm)).2.2⟩

theorem sampleForgotten_runs : (sampleRuns.run sampleProbing
    [(2, .recordHealth .codex 7 .expired), (3, .replaceHandle .codex 7 none)]).isSome = true := by decide

def sampleForgotten : ProbeWorld := Option.get _ sampleForgotten_runs

theorem sampleEnd_taken : (sampleRuns.step sampleForgotten (4, .finishProbe 2 .connected none)).isSome = true := by
  decide

def sampleEnded : ProbeWorld := Option.get _ sampleEnd_taken

/-- The probe that began before the forgotten verdict overrules it. -/
theorem probe_overrules : ¬∀ w, sampleRuns.Reachable w → ∀ event w', sampleRuns.step w event = some w' →
    Respects w w' event.2 := by
  intro always
  have start : sampleRuns.Reachable sampleStore := .start ⟨rfl, rfl, rfl, rfl⟩
  have probing := (start.next (Option.some_get sampleInsert_taken).symm).next (Option.some_get sampleStart_taken).symm
  have holds := always _ (probing.run (Option.some_get sampleForgotten_runs).symm) _ sampleEnded
    (Option.some_get sampleEnd_taken).symm
  obtain ⟨p, isProbe, c, isRow, -, respected⟩ := holds.1 1 (by decide)
  revert p c
  show ∀ p ∈ sampleForgotten.probes.get 2, ∀ c ∈ sampleForgotten.connections.get 1, ¬_
  decide

end Runs

end PawBackend.Connections
