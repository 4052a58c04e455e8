/-
**Partitions never overlap, and rows leave only with them** (`authz/retention/service.py`).

`IsWindow` says what the windows are: the legacy one up to the cutover, and a month from the cutover on. Two of them
with different names have no moment in common (`IsWindow.apart`), and the name fixes the bounds.
-/

import PawBackend.Retention.Service

namespace PawBackend.Retention

open Lib List
open Tools (Instant)

/-! ### Windows -/

/-- A window that the revision or a step made, whatever its status is now. -/
inductive IsWindow (cutover : Instant) : PartitionWindow → Prop
  | legacy (status : PartitionStatus) : IsWindow cutover ⟨legacyPartitionName, none, cutover, status⟩
  | month {k : ℤ} (status : PartitionStatus) (since : monthNumber cutover ≤ k) :
    IsWindow cutover ⟨monthName k, some (max cutover (monthInstant k)), monthInstant (k + 1), status⟩

section Windows

variable {cutover : Instant} {a b : PartitionWindow}

theorem monthNumber_nonneg {moment : Instant} (year : dayLength ≤ moment) : 0 ≤ monthNumber moment := by
  have first : monthNumber dayLength = 12 := by decide
  have later := monthNumber_mono year
  omega

theorem IsWindow.setStatus (is : IsWindow cutover a) (status : PartitionStatus) :
    IsWindow cutover { a with status := status } := by
  cases is with
  | legacy _ => exact .legacy status
  | month _ since => exact .month status since

/-- **Windows with different names have no moment in common.** -/
theorem IsWindow.apart (isA : IsWindow cutover a) (isB : IsWindow cutover b) (other : a.name ≠ b.name) {point : Instant}
    (inA : a.Contains point) (inB : b.Contains point) : False := by
  cases isA with
  | legacy =>
    cases isB with
    | legacy => exact other rfl
    | month _ since => exact (inA.2.trans_le (le_max_left _ _)).not_ge (inB.1 _ rfl)
  | @month k _ since =>
    have from_ := (le_max_right _ _).trans (inA.1 _ rfl)
    cases isB with
    | legacy => exact (inB.2.trans_le (le_max_left _ _)).not_ge (inA.1 _ rfl)
    | @month k' _ since' =>
      have from' := (le_max_right _ _).trans (inB.1 _ rfl)
      have isMonth := monthNumber_eq from_ inA.2
      have isMonth' := monthNumber_eq from' inB.2
      exact other (congrArg monthName (isMonth.symm.trans isMonth'))

theorem isWindow_monthWindow {k : ℤ} (since : monthNumber cutover < k) : IsWindow cutover (monthWindow k) := by
  have before : cutover < monthInstant k :=
    (lt_monthInstant cutover).trans_le (monthInstant_strictMono.monotone (by omega))
  have made : IsWindow cutover ⟨monthName k, some (max cutover (monthInstant k)), monthInstant (k + 1), .live⟩ :=
    .month .live since.le
  rwa [max_eq_right before.le] at made

theorem IsWindow.contains_month (year : dayLength ≤ cutover) (is : IsWindow cutover a) {point : Instant}
    (later : cutover ≤ point) (named : a.name = monthName (monthNumber point)) : a.Contains point := by
  have nonneg := monthNumber_nonneg year
  cases is with
  | legacy => exact absurd named (legacy_ne_monthName _)
  | month _ since =>
    obtain rfl := monthName_injective (nonneg.trans since) (nonneg.trans (monthNumber_mono later)) named
    refine ⟨fun lower isLower => ?_, lt_monthInstant point⟩
    rw [← Option.some.inj isLower]
    exact max_le later (monthInstant_le point)

end Windows

/-! ### What the statements do -/

section Statements

variable {db db' : RetentionDb} {now started : Instant} {name reason : Text}

variable {window : PartitionWindow}

theorem mem_oldestFirst {windows : List PartitionWindow} :
    window ∈ oldestFirst windows ↔ window ∈ windows :=
  mem_insertionSort _

theorem insertRow_spec (done : db.insertRow started reason = .ok db') :
    ∃ window ∈ db.windows.rows, window.status = .live ∧ window.Contains started ∧ db'.windows = db.windows ∧
      db'.rows = db.rows ++ [⟨started, reason, window.name⟩] := by
  unfold RetentionDb.insertRow at done
  split at done
  · cases done
  · rename_i window found
    obtain rfl := Except.ok.inj done
    have selected := find?_some found
    rw [decide_eq_true_eq] at selected
    exact ⟨window, mem_of_find?_eq_some found, selected.1, selected.2, rfl, rfl⟩

theorem get_setStatus (status : PartitionStatus) (other : Text) :
    (db.setStatus name status).windows.get other =
      (db.windows.get other).map fun window => if window.name = name then { window with status := status } else window := by
  unfold RetentionDb.setStatus
  dsimp only
  rw [Keyed.get_update]
  simp only [decide_eq_true_eq]

theorem createPartition_spec (done : db.createPartition started window = .ok db') :
    ∃ windows, db.windows.tryInsert window = some windows ∧
      RetentionDb.insertRow ⟨windows, db.rows⟩ started window.name = .ok db' := by
  unfold RetentionDb.createPartition at done
  obtain ⟨_, -, done⟩ := bind_eq_ok.mp done
  obtain ⟨windows, isNew, done⟩ := bind_eq_ok.mp done
  exact ⟨windows, orThrow_eq_ok.mp isNew, done⟩

theorem archivePartition_spec (done : db.archivePartition started window = .ok db') :
    ∃ record, db.windows.get window.name = some record ∧ record.status = .live ∧
      (db.setStatus window.name .archived).insertRow started window.name = .ok db' := by
  unfold RetentionDb.archivePartition at done
  obtain ⟨isLive, done⟩ := check_eq_ok.mp done
  obtain ⟨_, -, done⟩ := bind_eq_ok.mp done
  rw [not_not, Option.any_eq_true] at isLive
  obtain ⟨record, found, live⟩ := isLive
  exact ⟨record, found, of_decide_eq_true live, done⟩

theorem purgePartition_spec (done : db.purgePartition started window = .ok db') :
    ∃ record logged, db.windows.get window.name = some record ∧ record.status = .archived ∧
      db.insertRow started window.name = .ok logged ∧
      db' = ⟨(logged.setStatus window.name .purged).windows,
        logged.rows.filter fun row => decide (row.partition ≠ window.name)⟩ := by
  unfold RetentionDb.purgePartition at done
  obtain ⟨isArchived, done⟩ := check_eq_ok.mp done
  obtain ⟨_, -, done⟩ := bind_eq_ok.mp done
  obtain ⟨logged, inserted, done⟩ := bind_eq_ok.mp done
  rw [not_not, Option.any_eq_true] at isArchived
  obtain ⟨record, found, archived⟩ := isArchived
  exact ⟨record, logged, found, of_decide_eq_true archived, inserted, (Except.ok.inj done).symm⟩

end Statements

/-! ### The invariant -/

structure Sound (cutover clock : Instant) (db : RetentionDb) : Prop where
  windows : ∀ window ∈ db.windows.rows, IsWindow cutover window
  first : (db.windows.get (monthName (monthNumber cutover))).isSome = true
  since : cutover ≤ clock
  ended : ∀ window ∈ db.windows.rows, window.status ≠ .live → window.upper ≤ clock
  placed : ∀ row ∈ db.rows, ∃ window, db.windows.get row.partition = some window ∧ window.status ≠ .purged ∧
    window.Contains row.recordedAt

section Sound

variable {cutover clock clock' started : Instant} {db db' : RetentionDb} {reason : Text}

theorem Sound.later (sound : Sound cutover clock db) (le : clock ≤ clock') : Sound cutover clock' db :=
  { sound with
    since := sound.since.trans le
    ended := fun window mem notLive => (sound.ended window mem notLive).trans le }

theorem Sound.inserted (sound : Sound cutover clock db) (done : db.insertRow started reason = .ok db') :
    Sound cutover clock db' := by
  obtain ⟨window, mem, live, inside, windows, rows⟩ := insertRow_spec done
  refine ⟨windows ▸ sound.windows, windows ▸ sound.first, sound.since, windows ▸ sound.ended, fun row isRow => ?_⟩
  rw [windows]
  rw [rows, mem_append, mem_singleton] at isRow
  rcases isRow with old | rfl
  · exact sound.placed row old
  · exact ⟨window, Keyed.get_self mem, by simp [live], inside⟩

theorem Sound.created (sound : Sound cutover clock db) {k : ℤ} (from_ : monthNumber cutover ≤ k)
    (done : db.createPartition started (monthWindow k) = .ok db') : Sound cutover clock db' := by
  obtain ⟨windows, isNew, logged⟩ := createPartition_spec done
  have fresh := Keyed.fresh_of_tryInsert isNew
  have later : monthNumber cutover < k := by
    refine lt_of_le_of_ne from_ fun same => ?_
    have there := sound.first
    rw [same] at there
    exact absurd fresh (Option.isSome_iff_ne_none.mp there)
  have made : Sound cutover clock ⟨windows, db.rows⟩ := by
    refine ⟨fun window mem => ?_, ?_, sound.since, fun window mem notLive => ?_, fun row isRow => ?_⟩
    · rcases (Keyed.mem_of_tryInsert isNew).mp mem with rfl | old
      · exact isWindow_monthWindow later
      · exact sound.windows window old
    · rw [Keyed.get_of_tryInsert isNew]
      split_ifs
      · rfl
      · exact sound.first
    · rcases (Keyed.mem_of_tryInsert isNew).mp mem with rfl | old
      · exact absurd rfl notLive
      · exact sound.ended window old notLive
    · obtain ⟨window, found, kept⟩ := sound.placed row isRow
      refine ⟨window, ?_, kept⟩
      rw [Keyed.get_of_tryInsert isNew, if_neg, found]
      rintro same
      rw [same] at found
      exact absurd (found.symm.trans fresh) (Option.some_ne_none window)
  exact made.inserted logged

theorem Sound.set {name : Text} {status : PartitionStatus} (sound : Sound cutover clock db)
    (passed : ∀ window, db.windows.get name = some window → window.upper ≤ clock)
    (empty : status = .purged → ∀ row ∈ db.rows, row.partition ≠ name) :
    Sound cutover clock (db.setStatus name status) := by
  have each : ∀ window ∈ (db.setStatus name status).windows.rows, ∃ old ∈ db.windows.rows,
      window = if old.name = name then { old with status := status } else old := by
    intro window mem
    obtain ⟨old, isOld, rfl⟩ := mem_map.mp mem
    exact ⟨old, isOld, by simp only [decide_eq_true_eq]⟩
  refine ⟨fun window mem => ?_, ?_, sound.since, fun window mem notLive => ?_, fun row isRow => ?_⟩
  · obtain ⟨old, isOld, rfl⟩ := each window mem
    split_ifs
    · exact (sound.windows old isOld).setStatus status
    · exact sound.windows old isOld
  · rw [get_setStatus, Option.isSome_map]
    exact sound.first
  · obtain ⟨old, isOld, rfl⟩ := each window mem
    split_ifs at notLive ⊢ with named
    · exact passed old (named ▸ Keyed.get_self isOld)
    · exact sound.ended old isOld notLive
  · obtain ⟨window, found, kept, inside⟩ := sound.placed row isRow
    rw [get_setStatus, found, Option.map_some]
    refine ⟨_, rfl, ?_, ?_⟩
    · split_ifs with named
      · exact fun purged => empty purged row isRow ((Keyed.key_of_get found).symm.trans named)
      · exact kept
    · split_ifs
      · exact inside
      · exact inside

end Sound

/-! ### What a step does -/

/-- A step keeps the windows but for those it retires, and the rows but for those of a purged window. -/
structure Leaves (retired : PartitionWindow → PartitionStatus → Prop) (db db' : RetentionDb) : Prop where
  windows : ∀ name window, db.windows.get name = some window → db'.windows.get name = some window ∨
    ∃ status, retired window status ∧ db'.windows.get name = some { window with status := status }
  rows : ∀ row ∈ db.rows, row ∈ db'.rows ∨
    ∃ window, db.windows.get row.partition = some window ∧ retired window .purged

theorem Leaves.refl (retired : PartitionWindow → PartitionStatus → Prop) (db : RetentionDb) : Leaves retired db db :=
  ⟨fun _ _ found => .inl found, fun _ mem => .inl mem⟩

theorem leaves_of_insert {retired : PartitionWindow → PartitionStatus → Prop} {db db' : RetentionDb}
    {started : Instant} {reason : Text} (done : db.insertRow started reason = .ok db') : Leaves retired db db' := by
  obtain ⟨window, mem, live, inside, windows, rows⟩ := insertRow_spec done
  exact ⟨fun name window found => .inl (windows ▸ found), fun row isRow => .inl (rows ▸ mem_append_left _ isRow)⟩

def Archives (now : Instant) (days : ℕ) (window : PartitionWindow) (status : PartitionStatus) : Prop :=
  status = .archived ∧ window.status = .live ∧ window.upper + days * dayLength ≤ now

def Purges (now : Instant) (days : ℕ) (window : PartitionWindow) (status : PartitionStatus) : Prop :=
  status = .purged ∧ window.status = .archived ∧ window.upper + days * dayLength ≤ now

theorem days_nonneg (days : ℕ) : 0 ≤ (days : ℤ) * dayLength := by
  rw [dayLength_eq]
  omega

section Steps

variable {cutover now started : Instant} {db db' : RetentionDb} {policy : RetentionPolicy}

theorem daysBefore_eq_ok {days : ℕ} {threshold : Instant} (before : daysBefore now days = .ok threshold) :
    threshold = now - days * dayLength := by
  unfold daysBefore at before
  split_ifs at before
  exact (Except.ok.inj before).symm

theorem createAll_spec {windows : List PartitionWindow}
    (done : windows.foldlM (fun db window => db.createPartition started window) db = .ok db') :
    (∀ name window, db.windows.get name = some window → db'.windows.get name = some window) ∧
      (∀ row ∈ db.rows, row ∈ db'.rows) ∧ ∀ window ∈ windows, db'.windows.get window.name = some window := by
  induction windows generalizing db with
  | nil =>
    obtain rfl := Except.ok.inj done
    exact ⟨fun _ _ found => found, fun _ isRow => isRow, fun window mem => absurd mem not_mem_nil⟩
  | cons first rest ih =>
    rw [foldlM_cons] at done
    obtain ⟨mid, created, others⟩ := bind_eq_ok.mp done
    obtain ⟨keeps, rows, present⟩ := ih others
    obtain ⟨windows, isNew, logged⟩ := createPartition_spec created
    obtain ⟨into, -, -, -, sameWindows, moreRows⟩ := insertRow_spec logged
    have get_mid : ∀ name, mid.windows.get name = if name = first.name then some first else db.windows.get name := by
      intro name
      rw [sameWindows]
      exact Keyed.get_of_tryInsert isNew name
    refine ⟨fun name window found => keeps name window ?_, fun row isRow => rows row ?_, fun window mem => ?_⟩
    · rw [get_mid, if_neg, found]
      rintro rfl
      exact absurd (found.symm.trans (Keyed.fresh_of_tryInsert isNew)) (Option.some_ne_none window)
    · rw [moreRows]
      exact mem_append_left _ isRow
    · rcases mem_cons.mp mem with rfl | later
      · exact keeps _ _ (by rw [get_mid, if_pos rfl])
      · exact present window later

/-- **What `ensure_partitions` does**: it adds the months that have no window yet. -/
theorem ensurePartitions_spec {created : List PartitionWindow} (sound : Sound cutover now db)
    (done : db.ensurePartitions now started policy = .ok (db', created)) :
    Sound cutover now db' ∧ Leaves (fun _ _ => False) db db' ∧
      (∀ window ∈ created, db.windows.get window.name = none ∧ db'.windows.get window.name = some window) ∧
      ∀ i ≤ policy.horizonMonths, (db'.windows.get (monthName (monthNumber now + (i : ℤ)))).isSome = true := by
  unfold RetentionDb.ensurePartitions at done
  obtain ⟨missing, plan, done⟩ := bind_eq_ok.mp done
  obtain ⟨after, folded, done⟩ := bind_eq_ok.mp done
  obtain ⟨rfl, rfl⟩ := Prod.mk.inj (Except.ok.inj done)
  have isPlan := planFrom_eq plan
  obtain ⟨keeps, rows, present⟩ := createAll_spec folded
  have known : ∀ name, name ∈ db.existingPartitions.map PartitionWindow.name ↔ (db.windows.get name).isSome = true := by
    intro name
    rw [mem_map, Option.isSome_iff_exists]
    constructor
    · rintro ⟨window, mem, rfl⟩
      exact ⟨window, Keyed.get_self (mem_oldestFirst.mp mem)⟩
    · rintro ⟨window, found⟩
      exact ⟨window, mem_oldestFirst.mpr (Keyed.mem_of_get found), Keyed.key_of_get found⟩
  have months : ∀ window ∈ missing, ∃ i : ℕ, window = monthWindow (monthNumber now + (i : ℤ)) ∧
      db.windows.get window.name = none := by
    intro window mem
    rw [isPlan, mem_filter, mem_map, decide_eq_true_eq, known] at mem
    obtain ⟨⟨i, -, rfl⟩, new⟩ := mem
    exact ⟨i, rfl, Option.not_isSome_iff_eq_none.mp new⟩
  refine ⟨?_, ⟨fun name window found => .inl (keeps name window found), fun row isRow => .inl (rows row isRow)⟩,
    fun window mem => ?_, fun i within => ?_⟩
  · refine foldlM_invariant folded (fun mid window mid' mem soundMid made => ?_) sound
    obtain ⟨i, rfl, -⟩ := months window mem
    have later := monthNumber_mono sound.since
    exact soundMid.created (by omega) made
  · obtain ⟨-, -, new⟩ := months window mem
    exact ⟨new, present window mem⟩
  · by_cases new : monthName (monthNumber now + (i : ℤ)) ∈ db.existingPartitions.map PartitionWindow.name
    · obtain ⟨window, found⟩ := Option.isSome_iff_exists.mp ((known _).mp new)
      rw [keeps _ _ found]
      rfl
    · have planned : monthWindow (monthNumber now + (i : ℤ)) ∈ missing := by
        rw [isPlan, mem_filter, mem_map]
        exact ⟨⟨i, mem_range.mpr (Nat.lt_succ_of_le within), rfl⟩, decide_eq_true new⟩
      rw [show monthName (monthNumber now + (i : ℤ)) = (monthWindow (monthNumber now + (i : ℤ))).name from rfl,
        present _ planned]
      rfl

variable {retired : PartitionWindow → PartitionStatus → Prop} {mid : RetentionDb}

theorem Leaves.record
    {window record : PartitionWindow} (leaves : Leaves retired db mid) (read : db.windows.get window.name = some window)
    (found : mid.windows.get window.name = some record) (other : ∀ status, retired window status → status ≠ record.status) :
    record = window := by
  rcases leaves.windows _ _ read with same | ⟨status, isRetired, changed⟩
  · exact Option.some.inj (found.symm.trans same)
  · obtain rfl := Option.some.inj (found.symm.trans changed)
    exact absurd rfl (other status isRetired)

theorem Leaves.set {window : PartitionWindow}
    {status : PartitionStatus} (leaves : Leaves retired db mid) (read : db.windows.get window.name = some window)
    (isRetired : retired window status) : Leaves retired db (mid.setStatus window.name status) := by
  refine ⟨fun name other found => ?_, leaves.rows⟩
  rw [get_setStatus]
  by_cases here : name = window.name
  · subst here
    obtain rfl := Option.some.inj (found.symm.trans read)
    refine .inr ⟨status, isRetired, ?_⟩
    rcases leaves.windows _ _ read with same | ⟨_, -, changed⟩
    · rw [same, Option.map_some, if_pos rfl]
    · rw [changed, Option.map_some, if_pos rfl]
  · rcases leaves.windows name other found with same | ⟨newStatus, wasRetired, changed⟩
    · have apart : other.name ≠ window.name := fun same' => here ((Keyed.key_of_get found).symm.trans same')
      rw [same, Option.map_some, if_neg apart]
      exact .inl rfl
    · have apart : other.name ≠ window.name := fun same' => here ((Keyed.key_of_get found).symm.trans same')
      rw [changed, Option.map_some, if_neg apart]
      exact .inr ⟨newStatus, wasRetired, rfl⟩

theorem Leaves.insert {reason : Text}
    (leaves : Leaves retired db mid) (done : mid.insertRow started reason = .ok db') : Leaves retired db db' := by
  obtain ⟨window, mem, live, inside, windows, rows⟩ := insertRow_spec done
  refine ⟨windows ▸ leaves.windows, fun row isRow => ?_⟩
  rw [rows]
  exact (leaves.rows row isRow).imp_left (mem_append_left _)

/-- **What `archive_due_partitions` does.** -/
theorem archiveDuePartitions_spec {wallClock : Instant} {archived : List PartitionWindow} (sound : Sound cutover now db)
    (done : db.archiveDuePartitions now started policy wallClock = .ok (db', archived)) :
    Sound cutover now db' ∧ Leaves (Archives now policy.archiveAfterDays) db db' := by
  unfold RetentionDb.archiveDuePartitions at done
  obtain ⟨spared, -, done⟩ := bind_eq_ok.mp done
  obtain ⟨due, isDue, done⟩ := bind_eq_ok.mp done
  obtain ⟨after, folded, done⟩ := bind_eq_ok.mp done
  obtain ⟨rfl, -⟩ := Prod.mk.inj (Except.ok.inj done)
  obtain ⟨threshold, before, isDue⟩ := bind_eq_ok.mp isDue
  obtain rfl := daysBefore_eq_ok before
  have nonneg := days_nonneg policy.archiveAfterDays
  have retires : ∀ window ∈ due, window ∈ db.windows.rows ∧ Archives now policy.archiveAfterDays window .archived := by
    intro window mem
    rw [← Except.ok.inj isDue, mem_oldestFirst, mem_filter, decide_eq_true_eq] at mem
    exact ⟨mem_oldestFirst.mp mem.1, rfl, mem.2.1, by linarith [mem.2.2]⟩
  refine foldlM_invariant (P := fun mid => Sound cutover now mid ∧ Leaves (Archives now policy.archiveAfterDays) db mid)
    folded (fun mid window mid' mem kept made => ?_) ⟨sound, Leaves.refl _ db⟩
  obtain ⟨soundMid, leaves⟩ := kept
  obtain ⟨inTable, isRetired⟩ := retires window (mem_of_mem_filter mem)
  have read := Keyed.get_self inTable
  obtain ⟨record, found, live, logged⟩ := archivePartition_spec made
  obtain rfl := leaves.record read found fun status wasRetired => by
    rw [live, wasRetired.1]
    decide
  have passed : ∀ other, mid.windows.get record.name = some other → other.upper ≤ now := fun other isOther => by
    rw [← Option.some.inj (found.symm.trans isOther)]
    linarith [isRetired.2.2]
  have kept : PartitionStatus.archived = .purged → ∀ row ∈ mid.rows, row.partition ≠ record.name :=
    fun same => PartitionStatus.noConfusion same
  exact ⟨(soundMid.set passed kept).inserted logged, (leaves.set read isRetired).insert logged⟩

/-- **What `purge_due_partitions` does.** -/
theorem purgeDuePartitions_spec {wallClock : Instant} {purged : List PartitionWindow} (sound : Sound cutover now db)
    (done : db.purgeDuePartitions now started policy wallClock = .ok (db', purged)) :
    Sound cutover now db' ∧
      Leaves (fun window status => ∃ days ∈ policy.purgeAfterDays, Purges now days window status) db db' := by
  unfold RetentionDb.purgeDuePartitions at done
  obtain ⟨spared, -, done⟩ := bind_eq_ok.mp done
  obtain ⟨due, isDue, done⟩ := bind_eq_ok.mp done
  obtain ⟨after, folded, done⟩ := bind_eq_ok.mp done
  obtain ⟨rfl, -⟩ := Prod.mk.inj (Except.ok.inj done)
  have retires : ∀ window ∈ due, window ∈ db.windows.rows ∧
      ∃ days ∈ policy.purgeAfterDays, Purges now days window .purged := by
    intro window mem
    unfold partitionsDueForPurge at isDue
    split at isDue
    · rw [← Except.ok.inj isDue] at mem
      exact absurd mem not_mem_nil
    · rename_i days isDays
      obtain ⟨threshold, before, isDue⟩ := bind_eq_ok.mp isDue
      obtain rfl := daysBefore_eq_ok before
      rw [← Except.ok.inj isDue, mem_oldestFirst, mem_filter, decide_eq_true_eq] at mem
      exact ⟨mem_oldestFirst.mp mem.1, days, isDays, rfl, mem.2.1, by linarith [mem.2.2]⟩
  refine foldlM_invariant (P := fun mid => Sound cutover now mid ∧
      Leaves (fun window status => ∃ days ∈ policy.purgeAfterDays, Purges now days window status) db mid)
    folded (fun mid window mid' mem kept made => ?_) ⟨sound, Leaves.refl _ db⟩
  obtain ⟨soundMid, leaves⟩ := kept
  obtain ⟨inTable, isRetired⟩ := retires window (mem_of_mem_filter mem)
  have read := Keyed.get_self inTable
  obtain ⟨record, logged, found, archived, inserted, rfl⟩ := purgePartition_spec made
  obtain rfl := leaves.record read found fun status wasRetired => by
    obtain ⟨-, -, isPurged, -⟩ := wasRetired
    rw [archived, isPurged]
    decide
  have expired := isRetired
  obtain ⟨days, -, -, -, old⟩ := expired
  have nonneg := days_nonneg days
  have soundLogged := soundMid.inserted inserted
  have leavesLogged := leaves.insert inserted
  have emptied : Sound cutover now ⟨logged.windows, logged.rows.filter fun row => decide (row.partition ≠ record.name)⟩ :=
    { soundLogged with placed := fun row isRow => soundLogged.placed row (mem_of_mem_filter isRow) }
  have passed : ∀ other, logged.windows.get record.name = some other → other.upper ≤ now := fun other isOther => by
    obtain ⟨-, -, -, -, same, -⟩ := insertRow_spec inserted
    rw [same] at isOther
    rw [← Option.some.inj (found.symm.trans isOther)]
    linarith
  refine ⟨emptied.set passed fun _ row isRow => of_decide_eq_true (mem_filter.mp isRow).2,
    (leavesLogged.set read isRetired).windows, fun row isRow => ?_⟩
  rcases leavesLogged.rows row isRow with kept | gone
  · by_cases here : row.partition = record.name
    · exact .inr ⟨record, here ▸ read, isRetired⟩
    · exact .inl (mem_filter.mpr ⟨kept, decide_eq_true here⟩)
  · exact .inr gone

end Steps

/-! ### Whole runs -/

def RetentionEvent.now : RetentionEvent → Instant
  | .record now _ _ => now
  | .perform _ _ now _ _ => now
  | .failed now => now

def RetentionEvent.Retires : RetentionEvent → PartitionWindow → PartitionStatus → Prop
  | .perform .archive policy now _ _ => Archives now policy.archiveAfterDays
  | .perform .purge policy now _ _ => fun window status => ∃ days ∈ policy.purgeAfterDays, Purges now days window status
  | _ => fun _ _ => False

section Runs

variable {cutover : Instant} {w w' : RetentionWorld} {e : RetentionEvent}

/-- **What a step does.** -/
theorem step_spec (sound : Sound cutover w.clock w.db) (taken : w.step e = some w') :
    w.clock ≤ e.now ∧ Sound cutover w'.clock w'.db ∧ Leaves e.Retires w.db w'.db := by
  cases e with
  | record now began reason =>
    simp only [RetentionWorld.step] at taken
    split_ifs at taken with allowed
    obtain rfl := Option.some.inj taken
    have later := sound.later allowed.1
    cases done : w.db.insertRow began reason with
    | error _ => exact ⟨allowed.1, later, Leaves.refl _ _⟩
    | ok db => exact ⟨allowed.1, later.inserted done, leaves_of_insert done⟩
  | perform step policy now wallClock started =>
    simp only [RetentionWorld.step] at taken
    split_ifs at taken with allowed
    obtain ⟨first, second, third⟩ := allowed
    have final : now ≤ started := second.trans third
    obtain rfl := Option.some.inj taken
    have later := sound.later first
    cases done : step.perform w.db policy now wallClock started with
    | error _ => exact ⟨first, later.later final, Leaves.refl _ _⟩
    | ok answer =>
      obtain ⟨db, windows⟩ := answer
      cases step with
      | ensurePartitions =>
        obtain ⟨soundNow, leaves, -⟩ := ensurePartitions_spec later done
        exact ⟨first, soundNow.later final, leaves⟩
      | archive =>
        obtain ⟨soundNow, leaves⟩ := archiveDuePartitions_spec later done
        exact ⟨first, soundNow.later final, leaves⟩
      | purge =>
        obtain ⟨soundNow, leaves⟩ := purgeDuePartitions_spec later done
        exact ⟨first, soundNow.later final, leaves⟩
  | failed now =>
    simp only [RetentionWorld.step] at taken
    split_ifs at taken with allowed
    obtain rfl := Option.some.inj taken
    exact ⟨allowed, sound.later allowed, Leaves.refl _ _⟩

theorem sound_upgraded (migrated : Migrated cutover w) : Sound cutover w.clock w.db := by
  obtain ⟨year, clock, windows, rows⟩ := migrated
  have other : monthName (monthNumber cutover) ≠ legacyPartitionName := fun same => legacy_ne_monthName _ same.symm
  have is : ∀ window ∈ (upgraded cutover).rows, IsWindow cutover window ∧ window.status = .live := by
    intro window mem
    rcases Keyed.mem_put.mp mem with rfl | ⟨mem, -⟩
    · have made : IsWindow cutover ⟨monthName (monthNumber cutover),
          some (max cutover (monthInstant (monthNumber cutover))), monthInstant (monthNumber cutover + 1), .live⟩ :=
        .month .live le_rfl
      rw [max_eq_left (monthInstant_le cutover)] at made
      exact ⟨made, rfl⟩
    · rcases Keyed.mem_put.mp mem with rfl | ⟨mem, -⟩
      · exact ⟨.legacy .live, rfl⟩
      · exact absurd mem not_mem_nil
  refine ⟨fun window mem => ?_, ?_, clock.ge, fun window mem notLive => ?_, fun row isRow => ?_⟩
  · rw [windows] at mem
    exact (is window mem).1
  · rw [windows, upgraded, Keyed.get_put, if_pos rfl]
    rfl
  · rw [windows] at mem
    exact absurd (is window mem).2 notLive
  · obtain ⟨before, inLegacy⟩ := rows row isRow
    refine ⟨⟨legacyPartitionName, none, cutover, .live⟩, ?_, fun same => PartitionStatus.noConfusion same, nofun, before⟩
    rw [windows, inLegacy, upgraded, Keyed.get_put, if_neg fun same => other same.symm, Keyed.get_put, if_pos rfl]

theorem sound_of_reachable (reach : (retentionMachine cutover).Reachable w) :
    dayLength ≤ cutover ∧ Sound cutover w.clock w.db := by
  refine Machine.Reachable.invariant (P := fun w => dayLength ≤ cutover ∧ Sound cutover w.clock w.db)
    (fun w (migrated : Migrated cutover w) => ⟨migrated.1, sound_upgraded migrated⟩) (fun w e w' _ kept taken => ?_) reach
  exact ⟨kept.1, (step_spec kept.2 taken).2.1⟩

end Runs

theorem Sound.same_of_contains {cutover clock : Instant} {db : RetentionDb} (sound : Sound cutover clock db)
    {a b : PartitionWindow} (isA : a ∈ db.windows.rows) (isB : b ∈ db.windows.rows) {point : Instant}
    (inA : a.Contains point) (inB : b.Contains point) : a = b := by
  by_contra other
  refine (sound.windows a isA).apart (sound.windows b isB) (fun same => other ?_) inA inB
  exact db.windows.eq_of_key_eq isA isB same

theorem covered_of_ensure {cutover now started : Instant} {db db' : RetentionDb} {policy : RetentionPolicy}
    {created : List PartitionWindow} (year : dayLength ≤ cutover) (sound : Sound cutover now db)
    (done : db.ensurePartitions now started policy = .ok (db', created)) {point : Instant} (from_ : now ≤ point)
    (upTo : point < monthInstant (monthNumber now + policy.horizonMonths + 1)) : Covered db'.windows.rows point := by
  obtain ⟨soundNow, -, -, present⟩ := ensurePartitions_spec sound done
  have early := monthNumber_mono from_
  have late : monthNumber point < monthNumber now + policy.horizonMonths + 1 :=
    monthInstant_strictMono.lt_iff_lt.mp ((monthInstant_le point).trans_lt upTo)
  have month : monthNumber now + ((monthNumber point - monthNumber now).toNat : ℤ) = monthNumber point := by omega
  have found := present (monthNumber point - monthNumber now).toNat (by omega)
  rw [month] at found
  obtain ⟨window, isWindow⟩ := Option.isSome_iff_exists.mp found
  have mem := Keyed.mem_of_get isWindow
  have inside := (soundNow.windows window mem).contains_month year (soundNow.since.trans from_)
    (Keyed.key_of_get isWindow)
  refine ⟨window, mem, ?_, inside⟩
  by_contra notLive
  exact absurd inside.2 (not_lt.mpr ((soundNow.ended window mem notLive).trans from_))

/-- **Retention keeps the audit rows in disjoint partitions.** In every state that maintenance reaches no two windows
share a moment and every row lies in one partition that was not purged; a step loses a row only by purging an archived
partition that is old enough, and archives or purges a window only after it ended. After a successful
`ensure_partitions` each moment up to the horizon has one live window, and what was created overlaps nothing. -/
theorem partition_retention {cutover : Instant} {w : RetentionWorld} (reach : (retentionMachine cutover).Reachable w) :
    ((∀ a ∈ w.db.windows.rows, ∀ b ∈ w.db.windows.rows, a ≠ b → ∀ point, ¬(a.Contains point ∧ b.Contains point)) ∧
      (∀ row ∈ w.db.rows, ∃ window ∈ w.db.windows.rows, window.name = row.partition ∧ window.status ≠ .purged ∧
        window.Contains row.recordedAt ∧
        ∀ other ∈ w.db.windows.rows, other.Contains row.recordedAt → other = window) ∧
      ∀ e w', w.step e = some w' → ∀ row ∈ w.db.rows, row ∈ w'.db.rows ∨
        ∃ policy wallClock started days, e = .perform .purge policy e.now wallClock started ∧
          policy.purgeAfterDays = some days ∧ ∃ window ∈ w.db.windows.rows, window.name = row.partition ∧
            window.status = .archived ∧ window.upper + days * dayLength ≤ e.now) ∧
    (∀ e w', w.step e = some w' → ∀ window ∈ w.db.windows.rows, window ∈ w'.db.windows.rows ∨
      window.upper ≤ e.now ∧ ∃ status, { window with status := status } ∈ w'.db.windows.rows ∧
        (window.status = .live ∧ status = .archived ∨ window.status = .archived ∧ status = .purged)) ∧
    (∀ policy now started db' created, w.clock ≤ now → w.db.ensurePartitions now started policy = .ok (db', created) →
      (∀ point, now ≤ point → point < monthInstant (monthNumber now + policy.horizonMonths + 1) →
        ∃ window ∈ db'.windows.rows, window.status = .live ∧ window.Contains point ∧
          ∀ other ∈ db'.windows.rows, other.Contains point → other = window) ∧
      ∀ new ∈ created, ∀ window ∈ w.db.windows.rows, ∀ point, ¬(new.Contains point ∧ window.Contains point)) ∧
    ∀ now existing monthsAhead, (monthsAhead < 0 ∨ lastMonth ≤ monthNumber now + monthsAhead) ∧
        firstUncoveredMoment now existing monthsAhead = .error .value ∨
      0 ≤ monthsAhead ∧ ∃ answer, firstUncoveredMoment now existing monthsAhead = .ok answer ∧
        IsFirstGap (Covered existing) now (monthInstant (monthNumber now + monthsAhead + 1)) answer := by
  obtain ⟨year, sound⟩ := sound_of_reachable reach
  refine ⟨⟨fun a isA b isB other point both => other (sound.same_of_contains isA isB both.1 both.2),
    fun row isRow => ?_, fun e w' taken row isRow => ?_⟩, fun e w' taken window member => ?_,
    fun policy now started db' created later done => ⟨fun point from_ upTo => ?_, fun new isNew window member point both => ?_⟩,
    firstUncoveredMoment_spec⟩
  · obtain ⟨window, found, kept, inside⟩ := sound.placed row isRow
    have member := Keyed.mem_of_get found
    exact ⟨window, member, Keyed.key_of_get found, kept, inside, fun other isOther there =>
      sound.same_of_contains isOther member there inside⟩
  · obtain ⟨-, -, leaves⟩ := step_spec sound taken
    refine (leaves.rows row isRow).imp_right ?_
    rintro ⟨window, found, retired⟩
    cases e with
    | record | failed => exact absurd retired id
    | perform step policy now wallClock started =>
      cases step with
      | ensurePartitions => exact absurd retired id
      | archive => exact PartitionStatus.noConfusion retired.1
      | purge =>
        obtain ⟨days, isDays, -, archived, old⟩ := retired
        exact ⟨policy, wallClock, started, days, rfl, isDays, window, Keyed.mem_of_get found, Keyed.key_of_get found,
          archived, old⟩
  · obtain ⟨-, -, leaves⟩ := step_spec sound taken
    refine (leaves.windows window.name window (Keyed.get_self member)).imp Keyed.mem_of_get ?_
    rintro ⟨status, retired, found⟩
    cases e with
    | record | failed => exact absurd retired id
    | perform step policy now wallClock started =>
      cases step with
      | ensurePartitions => exact absurd retired id
      | archive =>
        obtain ⟨rfl, live, old⟩ := retired
        have nonneg := days_nonneg policy.archiveAfterDays
        exact ⟨show window.upper ≤ now by linarith, _, Keyed.mem_of_get found, .inl ⟨live, rfl⟩⟩
      | purge =>
        obtain ⟨days, -, rfl, archived, old⟩ := retired
        have nonneg := days_nonneg days
        exact ⟨show window.upper ≤ now by linarith, _, Keyed.mem_of_get found, .inr ⟨archived, rfl⟩⟩
  · have soundNow := sound.later later
    obtain ⟨soundAfter, -⟩ := ensurePartitions_spec soundNow done
    obtain ⟨window, member, live, inside⟩ := covered_of_ensure year soundNow done from_ upTo
    exact ⟨window, member, live, inside, fun other isOther there => soundAfter.same_of_contains isOther member there inside⟩
  · obtain ⟨soundAfter, leaves, fresh, -⟩ := ensurePartitions_spec (sound.later later) done
    obtain ⟨absent, present⟩ := fresh new isNew
    have still : window ∈ db'.windows.rows := by
      rcases leaves.windows window.name window (Keyed.get_self member) with same | ⟨_, never, -⟩
      · exact Keyed.mem_of_get same
      · exact never.elim
    obtain rfl := soundAfter.same_of_contains (Keyed.mem_of_get present) still both.1 both.2
    exact absurd ((Keyed.get_self member).symm.trans absent) (Option.some_ne_none new)

def januaryCutover : Instant := monthInstant (12 * 2026) + 5 * dayLength

/-- The tables after the revision, with one row of before. -/
def upgradedWorld : RetentionWorld :=
  ⟨⟨upgraded januaryCutover, [⟨januaryCutover - 1, Text.lit "old", legacyPartitionName⟩]⟩, januaryCutover⟩

theorem atOnce_ordered : ∀ days ∈ some 30, 0 ≤ days := by decide

theorem atOnce_ahead : 1 ≤ 1 := le_refl 1

/-- Archive what has ended, and purge it after thirty days. -/
def atOnce : RetentionPolicy := ⟨0, some 30, 1, atOnce_ordered, atOnce_ahead⟩

/-- A run in January, and one in the middle of February. -/
def twoRuns : List RetentionEvent :=
  let january := januaryCutover + dayLength
  let february := januaryCutover + 40 * dayLength
  [.perform .ensurePartitions atOnce january january january, .perform .archive atOnce january january january,
    .perform .ensurePartitions atOnce february february february, .perform .archive atOnce february february february,
    .perform .purge atOnce february february february]

theorem partition_retention_sample :
    ∃ w, (retentionMachine januaryCutover).run upgradedWorld twoRuns = some w ∧
      w.db.windows.rows.map PartitionWindow.status = [.purged, .archived, .live, .live] ∧
      ∀ row ∈ w.db.rows, ∃ window ∈ w.db.windows.rows, window.name = row.partition ∧ window.status ≠ .purged := by
  have ran : ((retentionMachine januaryCutover).run upgradedWorld twoRuns).isSome = true := by decide
  obtain ⟨w, isWorld⟩ := Option.isSome_iff_exists.mp ran
  have start : Migrated januaryCutover upgradedWorld := ⟨by decide, rfl, rfl, by decide⟩
  have reach : (retentionMachine januaryCutover).Reachable w := (Machine.Reachable.start start).run isWorld
  have statuses : ((retentionMachine januaryCutover).run upgradedWorld twoRuns).any (fun w =>
      decide (w.db.windows.rows.map PartitionWindow.status = [.purged, .archived, .live, .live])) = true := by
    decide
  rw [isWorld, Option.any_some, decide_eq_true_eq] at statuses
  refine ⟨w, isWorld, statuses, fun row isRow => ?_⟩
  obtain ⟨window, member, named, kept, -⟩ := (partition_retention reach).1.2.1 row isRow
  exact ⟨window, member, named, kept⟩

end PawBackend.Retention
