/-
**Memories follow the order of turns** (`memory/journal/applier.py`, `memory/journal/rules.py`).

A written version comes from a newer entry than everything written for its key before, since the guard of a key is
above all of it (`Logged`).
-/

import PawBackend.Memory.ConsolidationRuns

namespace PawBackend.Memory

open Lib List
open Tools (Uuid Instant)
open Relation (ReflTransGen)

section Rounds

variable {fold : Folding} {w w' : Work} {entry : EntryContext} {item : WorkerMemory} {given : Given} {result : ItemResult}
  {involved : List Text} {timeline : Timeline} {new : Version} {retired : Option KeyRow} {ids : List Uuid}

namespace Wrote

theorem row (wrote : Wrote w w' entry item new retired ids) {row : KeyRow} (isRow : row ∈ w'.keys.rows) :
    row = ⟨entry.owner, item.key, new.memoryId, entry.order⟩ ∨
      ∃ before ∈ w.keys.rows, before.name ≠ (entry.owner, item.key) ∧ row.name = before.name ∧ row.memoryId = before.memoryId ∧
        (row = before ∧ retired ≠ some before ∨ retired = some before ∧ row.applied = entry.order) := by
  have found := wrote.keys row.name
  rw [Keyed.get_self isRow] at found
  by_cases isOwn : row.name = (entry.owner, item.key)
  · rw [if_pos isOwn, Option.some.injEq] at found
    exact .inl found
  · rw [if_neg isOwn] at found
    obtain ⟨before, isBefore, same⟩ := Option.map_eq_some_iff.mp found.symm
    have sameName := Keyed.key_of_get isBefore
    refine .inr ⟨before, Keyed.mem_of_get isBefore, sameName ▸ isOwn, sameName.symm, ?_⟩
    by_cases isRetired : retired = some before
    · rw [if_pos isRetired] at same
      exact ⟨same ▸ rfl, .inr ⟨isRetired, same ▸ rfl⟩⟩
    · rw [if_neg isRetired] at same
      exact ⟨same ▸ rfl, .inl ⟨same.symm, isRetired⟩⟩

theorem kept (wrote : Wrote w w' entry item new retired ids) : MemoryDb.Kept w.db w'.db := MemoryDb.Writes.kept wrote.rewritten.writes

variable {memoryId : Uuid}

theorem untouched (consistent : Consistent timeline w.db w.keys) (wrote : Wrote w w' entry item new retired ids)
    {version : Version} (isCurrent : w.db.current memoryId = some version) (notOwn : memoryId ≠ new.memoryId)
    (notRetired : ∀ row, retired = some row → row.memoryId ≠ memoryId) : version.id ∉ ids := by
  intro isIn
  obtain ⟨isVersion, isIts, -⟩ := consistent.sound.current_eq_some.mp isCurrent
  obtain ⟨other, sameId, isOther⟩ := wrote.ids version.id isIn
  have sameVersion : ∀ memoryId, w.db.current memoryId = some other → version.memoryId = memoryId := by
    intro memoryId otherCurrent
    obtain ⟨isRow, otherMemory, -⟩ := consistent.sound.current_eq_some.mp otherCurrent
    rw [← inj_on_of_nodup_map consistent.sound.ids isRow isVersion sameId]
    exact otherMemory
  rcases isOther with ofOwn | ⟨row, isRow, ofRetired⟩
  · exact notOwn (isIts.symm.trans (sameVersion _ ofOwn))
  · exact notRetired row isRow ((sameVersion _ ofRetired).symm.trans isIts)

theorem current_of_other (consistent : Consistent timeline w.db w.keys) (wrote : Wrote w w' entry item new retired ids)
    (notOwn : memoryId ≠ new.memoryId) (notRetired : ∀ row, retired = some row → row.memoryId ≠ memoryId) :
    w'.db.current memoryId = w.db.current memoryId := by
  rw [wrote.rewritten.current_of_ne consistent.sound notOwn.symm]
  cases isCurrent : w.db.current memoryId with
  | none => rfl
  | some version => rw [Option.map_some, retireIn_of_not_mem (wrote.untouched consistent isCurrent notOwn notRetired)]

theorem consistent (consistent : Consistent timeline w.db w.keys) (wrote : Wrote w w' entry item new retired ids)
    (onTime : timeline.Has entry.order) : Consistent timeline w'.db w'.keys where
  sound := MemoryDb.Writes.sound wrote.rewritten.writes consistent.sound
  rejected := by
    intro version isVersion isActive
    rcases wrote.rewritten.mem.mp isVersion with ⟨before, isBefore, rfl⟩ | rfl
    · have continues := continues_retireIn ids before
      rw [continues.same]
      exact consistent.rejected before isBefore (continues.active isActive)
    · rw [wrote.confirmation]
      cases item.state <;> decide
  unique := by
    intro first isFirst second isSecond sameMemory
    rcases wrote.row isFirst with rfl | ⟨firstBefore, isFirstBefore, firstOther, firstName, firstMemory, -⟩ <;>
      rcases wrote.row isSecond with rfl | ⟨secondBefore, isSecondBefore, secondOther, secondName, secondMemory, -⟩
    · rfl
    · exact absurd (secondMemory.symm.trans sameMemory.symm) (wrote.own.apart consistent isSecondBefore secondOther)
    · exact absurd (firstMemory.symm.trans sameMemory) (wrote.own.apart consistent isFirstBefore firstOther)
    · have same := consistent.unique firstBefore isFirstBefore secondBefore isSecondBefore
        (firstMemory.symm.trans (sameMemory.trans secondMemory))
      exact w'.keys.eq_of_key_eq isFirst isSecond (firstName.trans (same ▸ secondName.symm))
  begun := by
    intro row isRow
    rcases wrote.row isRow with rfl | ⟨before, isBefore, -, -, sameMemory, -⟩
    · exact ⟨new, wrote.rewritten.mem.mpr (.inr rfl), rfl⟩
    · obtain ⟨version, isVersion, isIts⟩ := consistent.begun before isBefore
      obtain ⟨later, isLater, continues⟩ := wrote.kept version isVersion
      exact ⟨later, isLater, continues.memoryId_eq.trans (isIts.trans sameMemory.symm)⟩
  timed := by
    intro row isRow
    rcases wrote.row isRow with rfl | ⟨before, isBefore, -, -, -, ⟨rfl, -⟩ | ⟨-, isOrder⟩⟩
    · exact onTime
    · exact consistent.timed _ isBefore
    · exact isOrder ▸ onTime

theorem protects (consistent : Consistent timeline w.db w.keys) (wrote : Wrote w w' entry item new retired ids)
    {version : Version} (isCurrent : w.db.current memoryId = some version) (isProtected : version.Protected entry.owner) :
    w'.db.current memoryId = some version := by
  have notOwn : memoryId ≠ new.memoryId := by
    rintro rfl
    exact (wrote.own.free consistent isCurrent).2.1 isProtected
  rw [wrote.current_of_other consistent notOwn]
  · exact isCurrent
  · rintro row isRow rfl
    obtain ⟨key, other, -, -, -, otherCurrent, -, -, free⟩ := wrote.target row isRow
    rw [otherCurrent, Option.some.injEq] at isCurrent
    exact free (isCurrent ▸ isProtected)

theorem onward (consistent : Consistent timeline w.db w.keys) (wrote : Wrote w w' entry item new retired ids)
    (onTime : timeline.Has entry.order) : KeysOnward w.keys w'.keys := by
  intro name row found
  have isRow := Keyed.mem_of_get found
  rw [wrote.keys]
  by_cases isOwn : name = (entry.owner, item.key)
  · rw [if_pos isOwn]
    refine ⟨_, rfl, ?_⟩
    rw [isOwn] at found
    cases own : wrote.own with
    | created isNew =>
      rw [isNew] at found
      cases found
    | updated ownRow version ownFound isMemory isCurrent isLatest replaceable =>
      obtain rfl : ownRow = row := Option.some.inj (ownFound.symm.trans found)
      exact ⟨isMemory.symm, .inr (replaceable.newer ownRow.applied rfl)⟩
  · rw [if_neg isOwn, found]
    refine ⟨_, rfl, ?_⟩
    dsimp only
    by_cases isRetired : retired = some row
    · rw [if_pos isRetired]
      obtain ⟨key, version, -, -, notNewer, -⟩ := wrote.target row isRetired
      have has := consistent.timed row isRow
      exact ⟨rfl, (onward_iff has onTime).mpr ((isNewer_eq_false has onTime).mp notNewer)⟩
    · rw [if_neg isRetired]
      exact ⟨rfl, .inl rfl⟩

end Wrote

theorem latestOf_of_other (consistent : Consistent timeline w.db w.keys) (wrote : Wrote w w' entry item new retired ids) {memoryId : Uuid}
    (notOwn : memoryId ≠ new.memoryId) (notRetired : ∀ row, retired = some row → row.memoryId ≠ memoryId) (owner : Uuid) :
    latestOf w'.db owner memoryId = latestOf w.db owner memoryId := by
  have samePrivate : (∃ version ∈ w'.db.versionsOf memoryId, version.audience = .user owner) ↔
      ∃ version ∈ w.db.versionsOf memoryId, version.audience = .user owner := by
    constructor
    · rintro ⟨version, isVersion, isPrivate⟩
      obtain ⟨isRow, isIts⟩ := MemoryDb.mem_versionsOf.mp isVersion
      rcases wrote.rewritten.mem.mp isRow with ⟨before, isBefore, rfl⟩ | rfl
      · have continues := continues_retireIn ids before
        refine ⟨before, MemoryDb.mem_versionsOf.mpr ⟨isBefore, continues.memoryId_eq.symm.trans isIts⟩, ?_⟩
        rw [continues.same] at isPrivate
        exact isPrivate
      · exact absurd isIts.symm notOwn
    · rintro ⟨version, isVersion, isPrivate⟩
      obtain ⟨isRow, isIts⟩ := MemoryDb.mem_versionsOf.mp isVersion
      obtain ⟨later, isLater, continues⟩ := wrote.kept version isRow
      refine ⟨later, MemoryDb.mem_versionsOf.mpr ⟨isLater, continues.memoryId_eq.trans isIts⟩, ?_⟩
      rw [continues.same]
      exact isPrivate
  unfold latestOf
  rw [wrote.current_of_other consistent notOwn notRetired]
  simp only [samePrivate]

variable {db : MemoryDb} {owner : Uuid} {keys keys' : Keyed KeyRow.name} {order : OrderKey}

theorem latestOf_of_private (sound : db.Sound) {memoryId : Uuid} {version : Version}
    (isCurrent : db.current memoryId = some version) (isPrivate : version.audience = .user owner) :
    latestOf db owner memoryId = some (latestVersion owner version) := by
  obtain ⟨isVersion, isIts, -⟩ := sound.current_eq_some.mp isCurrent
  unfold latestOf
  rw [if_pos ⟨version, MemoryDb.mem_versionsOf.mpr ⟨isVersion, isIts⟩, isPrivate⟩, isCurrent]
  rfl

theorem Wrote.synced (consistent : Consistent timeline w.db w.keys) (wrote : Wrote w w' entry item new retired ids)
    (copied : Copied w w' entry item new retired) (synced : w.Synced entry.owner involved) : w'.Synced entry.owner involved := by
  have soundAfter := MemoryDb.Writes.sound wrote.rewritten.writes consistent.sound
  have retiredName : ∀ row, retired = some row → row.name = (entry.owner, row.key) ∧ row.key ≠ item.key ∧ row ∈ w.keys.rows := by
    intro row isRetired
    obtain ⟨key, version, found, other, -⟩ := wrote.target row isRetired
    have isName := Keyed.key_of_get found
    have isKey : row.key = key := (Prod.mk.inj isName).2
    exact ⟨isKey ▸ isName, isKey ▸ other, Keyed.mem_of_get found⟩
  have apart : ∀ row, retired = some row → row.memoryId ≠ new.memoryId := by
    intro row isRetired
    obtain ⟨isName, other, isRow⟩ := retiredName row isRetired
    refine wrote.own.apart consistent isRow ?_
    rw [isName]
    exact fun same => other (Prod.mk.inj same).2
  refine ⟨fun key isIn => ?_, fun key isIn row found => ?_⟩
  · unfold registeredOf
    rw [wrote.keys]
    by_cases isOwn : key = item.key
    · rw [isOwn, if_pos rfl, copied.registryOwn]
      rfl
    · rw [if_neg fun same => isOwn (Prod.mk.inj same).2]
      by_cases isRetired : ∃ row, retired = some row ∧ row.key = key
      · obtain ⟨row, isRetired, rfl⟩ := isRetired
        obtain ⟨isName, -, isRow⟩ := retiredName row isRetired
        rw [copied.registryRetired row isRetired, ← isName, Keyed.get_self isRow, Option.map_some, if_pos isRetired]
        rfl
      · have notRetired : ∀ row, retired = some row → row.key ≠ key := fun row isIt isKey => isRetired ⟨row, isIt, isKey⟩
        rw [copied.registryOther key isOwn notRetired, synced.registry key isIn, registeredOf]
        cases found : w.keys.get (entry.owner, key) with
        | none => rfl
        | some row =>
          have isKey : row.name = (entry.owner, key) := Keyed.key_of_get found
          rw [Option.map_some, Option.map_some, if_neg fun isIt => notRetired row isIt (Prod.mk.inj isKey).2]
          rfl
  · have isRow := Keyed.mem_of_get found
    rcases wrote.row isRow with rfl | ⟨before, isBefore, other, sameName, sameMemory, -⟩
    · rw [copied.latestOwn, latestOf_of_private soundAfter (wrote.rewritten.current_self consistent.sound) wrote.audience]
    · rw [sameMemory]
      have notOwn := wrote.own.apart consistent isBefore other
      by_cases isRetired : retired = some before
      · obtain ⟨-, version, -, -, -, isCurrent, isActive, isIn, free⟩ := wrote.target before isRetired
        have later : w'.db.current before.memoryId = some { version with status := .superseded } := by
          rw [wrote.rewritten.current_of_ne consistent.sound notOwn.symm, isCurrent, Option.map_some,
            retireIn_of_mem isIn isActive]
        have isPrivate := audience_of_free isActive free
        rw [copied.latestRetired before version isRetired isCurrent, latestOf_of_private soundAfter later isPrivate]
      · have notRetired : ∀ row, retired = some row → row.memoryId ≠ before.memoryId := by
          intro row isIt same
          rw [consistent.unique row (retiredName row isIt).2.2 before isBefore same] at isIt
          exact isRetired isIt
        have beforeFound : w.keys.get (entry.owner, key) = some before := by
          rw [← Keyed.key_of_get found, sameName]
          exact Keyed.get_self isBefore
        rw [copied.latestOther _ notOwn notRetired, latestOf_of_other consistent wrote notOwn notRetired,
          synced.latest key isIn before beforeFound]

/-! ### One item -/

theorem row_of_advance {key : Text} {row : KeyRow} (isRow : row ∈ (advance keys owner key order).rows) :
    ∃ before ∈ keys.rows, row.name = before.name ∧ row.memoryId = before.memoryId ∧ (row = before ∨ row.applied = order) := by
  obtain ⟨before, isBefore, rfl⟩ := mem_map.mp isRow
  refine ⟨before, isBefore, ?_⟩
  by_cases isIt : decide (before.name = (owner, key)) = true
  · rw [if_pos isIt]
    exact ⟨rfl, rfl, .inr rfl⟩
  · rw [if_neg isIt]
    exact ⟨rfl, rfl, .inl rfl⟩

theorem Consistent.advance (consistent : Consistent timeline db keys)
    (onTime : timeline.Has entry.order) (owner : Uuid) (key : Text) :
    Consistent timeline db (advance keys owner key entry.order) where
  sound := consistent.sound
  rejected := consistent.rejected
  unique := by
    intro first isFirst second isSecond sameMemory
    obtain ⟨firstBefore, isFirstBefore, firstName, firstMemory, -⟩ := row_of_advance isFirst
    obtain ⟨secondBefore, isSecondBefore, secondName, secondMemory, -⟩ := row_of_advance isSecond
    have same := consistent.unique firstBefore isFirstBefore secondBefore isSecondBefore
      (firstMemory.symm.trans (sameMemory.trans secondMemory))
    exact Keyed.eq_of_key_eq _ isFirst isSecond (firstName.trans (same ▸ secondName.symm))
  begun := by
    intro row isRow
    obtain ⟨before, isBefore, -, sameMemory, -⟩ := row_of_advance isRow
    rw [sameMemory]
    exact consistent.begun before isBefore
  timed := by
    intro row isRow
    obtain ⟨before, isBefore, -, -, rfl | isOrder⟩ := row_of_advance isRow
    · exact consistent.timed _ isBefore
    · exact isOrder ▸ onTime

theorem synced_duplicate (synced : w.Synced entry.owner involved) {row : KeyRow} (found : w.keys.get (entry.owner, item.key) = some row) :
    Work.Synced { w with keys := advance w.keys entry.owner item.key entry.order
                         registry := assign w.registry item.key (some ⟨row.memoryId, entry.order⟩) } entry.owner involved := by
  refine ⟨fun key isIn => ?_, fun key isIn later isLater => ?_⟩
  · show assign w.registry item.key _ key = Option.map _ ((advance w.keys entry.owner item.key entry.order).get (entry.owner, key))
    rw [advance_get]
    by_cases isOwn : key = item.key
    · rw [isOwn, assign_self, if_pos rfl, found]
      rfl
    · rw [assign_of_ne _ _ isOwn, if_neg fun same => isOwn (Prod.mk.inj same).2]
      exact synced.registry key isIn
  · have isLater' : (advance w.keys entry.owner item.key entry.order).get (entry.owner, key) = some later := isLater
    rw [advance_get] at isLater'
    by_cases isOwn : (entry.owner, key) = (entry.owner, item.key)
    · rw [if_pos isOwn] at isLater'
      obtain ⟨before, isBefore, rfl⟩ := Option.map_eq_some_iff.mp isLater'
      exact synced.latest key isIn before isBefore
    · rw [if_neg isOwn] at isLater'
      exact synced.latest key isIn later isLater'

/-- What the log says of the tables: the guard of a key is not older than any entry it was written from. -/
structure Logged (timeline : Timeline) (db : MemoryDb) (keys : Keyed KeyRow.name) (written : List Applied) : Prop where
  timed : ∀ applied ∈ written, timeline.Has applied.order
  guarded : ∀ applied ∈ written, ∃ row, keys.get (applied.owner, applied.key) = some row ∧ Onward applied.order row.applied
  stored : ∀ applied ∈ written, ∃ version ∈ db.versions, version.id = applied.versionId ∧ version.memoryId = applied.memoryId ∧
    version.audience = .user applied.owner ∧ version.confirmation ≠ .confirmed
  ordered : written.Pairwise fun first second => first.owner = second.owner → first.key = second.key →
    isNewer first.order second.order = false

structure Retirements (keys : Keyed KeyRow.name) (written : List Applied) : Prop where
  guarded : ∀ applied ∈ written, ∀ key, applied.target = some key →
    ∃ row, keys.get (applied.owner, key) = some row ∧ Onward applied.order row.applied
  ordered : written.Pairwise fun first second => first.owner = second.owner → first.target = some second.key →
    isNewer first.order second.order = false

theorem onward_guard (onward : KeysOnward keys keys') {name : Uuid × Text}
    (hasOrder : timeline.Has order) (timed : ∀ row ∈ keys.rows, timeline.Has row.applied)
    (timedAfter : ∀ row ∈ keys'.rows, timeline.Has row.applied)
    (guarded : ∃ row, keys.get name = some row ∧ Onward order row.applied) :
    ∃ row, keys'.get name = some row ∧ Onward order row.applied := by
  obtain ⟨row, found, isOnward⟩ := guarded
  obtain ⟨later, foundLater, -, moved⟩ := onward name row found
  have hasRow := timed row (Keyed.mem_of_get found)
  have hasLater := timedAfter later (Keyed.mem_of_get foundLater)
  refine ⟨later, foundLater, (onward_iff hasOrder hasLater).mpr ?_⟩
  exact ((onward_iff hasOrder hasRow).mp isOnward).trans ((onward_iff hasRow hasLater).mp moved)

theorem Logged.frame {db' : MemoryDb} {written : List Applied} (logged : Logged timeline db keys written)
    (kept : MemoryDb.Kept db db') (onward : KeysOnward keys keys') (timed : ∀ row ∈ keys.rows, timeline.Has row.applied)
    (timedAfter : ∀ row ∈ keys'.rows, timeline.Has row.applied) : Logged timeline db' keys' written where
  timed := logged.timed
  guarded := fun applied isApplied =>
    onward_guard onward (logged.timed applied isApplied) timed timedAfter (logged.guarded applied isApplied)
  stored := by
    intro applied isApplied
    obtain ⟨version, isVersion, isId, isMemory, isPrivate, notConfirmed⟩ := logged.stored applied isApplied
    obtain ⟨later, isLater, continues⟩ := kept version isVersion
    refine ⟨later, isLater, continues.id_eq.trans isId, continues.memoryId_eq.trans isMemory, ?_, ?_⟩
    · rw [continues.same]
      exact isPrivate
    · rw [continues.same]
      exact notConfirmed
  ordered := logged.ordered

theorem Retirements.frame {written : List Applied} (retirements : Retirements keys written)
    (onward : KeysOnward keys keys') (isTimed : ∀ applied ∈ written, timeline.Has applied.order)
    (timed : ∀ row ∈ keys.rows, timeline.Has row.applied) (timedAfter : ∀ row ∈ keys'.rows, timeline.Has row.applied) :
    Retirements keys' written where
  guarded := fun applied isApplied key isTarget =>
    onward_guard onward (isTimed applied isApplied) timed timedAfter (retirements.guarded applied isApplied key isTarget)
  ordered := retirements.ordered

theorem Wrote.after_guard (wrote : Wrote w w' entry item new retired ids) (onTime : timeline.Has entry.order)
    (consistent : Consistent timeline w.db w.keys) (hasOrder : timeline.Has order)
    (guarded : ∃ row, w.keys.get (entry.owner, item.key) = some row ∧ Onward order row.applied) :
    isNewer order entry.order = false := by
  obtain ⟨row, found, onward⟩ := guarded
  have hasRow := consistent.timed row (Keyed.mem_of_get found)
  rcases wrote.own with ⟨isNew, -, -⟩ | ⟨ownRow, version, ownFound, -, -, -, replaceable⟩
  · rw [isNew] at found
    cases found
  · obtain rfl : ownRow = row := Option.some.inj (ownFound.symm.trans found)
    have newer := (isNewer_iff onTime hasRow).mp (replaceable.newer ownRow.applied rfl)
    exact (isNewer_eq_false hasOrder onTime).mpr (((onward_iff hasOrder hasRow).mp onward).trans newer.le)

theorem Wrote.logged (wrote : Wrote w w' entry item new retired ids) (onTime : timeline.Has entry.order)
    (consistent : Consistent timeline w.db w.keys) (logged : Logged timeline w.db w.keys w.written) :
    Logged timeline w'.db w'.keys w'.written := by
  have after := wrote.consistent consistent onTime
  have framed := logged.frame wrote.kept (wrote.onward consistent onTime) consistent.timed after.timed
  obtain ⟨target, targetActive, isWritten, -⟩ := wrote.written
  rw [isWritten]
  refine ⟨?_, ?_, ?_, ?_⟩
  · intro applied isApplied
    rcases mem_append.mp isApplied with isOld | isNew
    · exact logged.timed applied isOld
    · rw [mem_singleton.mp isNew]
      exact onTime
  · intro applied isApplied
    rcases mem_append.mp isApplied with isOld | isNew
    · exact framed.guarded applied isOld
    · rw [mem_singleton.mp isNew]
      exact ⟨_, (wrote.keys _).trans (if_pos rfl), .inl rfl⟩
  · intro applied isApplied
    rcases mem_append.mp isApplied with isOld | isNew
    · exact framed.stored applied isOld
    · rw [mem_singleton.mp isNew]
      refine ⟨new, wrote.rewritten.mem.mpr (.inr rfl), rfl, rfl, wrote.audience, ?_⟩
      rw [wrote.confirmation]
      cases item.state <;> decide
  · refine pairwise_append.mpr ⟨logged.ordered, pairwise_singleton _ _, fun first isFirst second isSecond sameOwner sameKey => ?_⟩
    rw [mem_singleton.mp isSecond] at sameOwner sameKey ⊢
    refine wrote.after_guard onTime consistent (logged.timed first isFirst) ?_
    have guarded := logged.guarded first isFirst
    rw [sameOwner, sameKey] at guarded
    exact guarded

/-- The key an item of the output may retire is there to be retired: its latest version is active, or its guard is not older
than the entry. -/
def TargetsActive (db : MemoryDb) (keys : Keyed KeyRow.name) (owner : Uuid) (order : OrderKey) (items : List WorkerMemory) : Prop :=
  ∀ item ∈ items, ∀ key ∈ item.supersedes, key ≠ item.key → ∀ row, keys.get (owner, key) = some row →
    isNewer order row.applied = true → ∀ version, db.current row.memoryId = some version → version.status = .active

variable {items : List WorkerMemory}

theorem Wrote.targetsActive (wrote : Wrote w w' entry item new retired ids) (consistent : Consistent timeline w.db w.keys)
    (targets : TargetsActive w.db w.keys entry.owner entry.order items) :
    TargetsActive w'.db w'.keys entry.owner entry.order items := by
  intro other isOther key isNamed notItself row found isOlder version isCurrent
  rcases wrote.row (Keyed.mem_of_get found) with rfl | ⟨before, isBefore, notOwn, sameName, sameMemory, ⟨rfl, notRetired⟩ | ⟨-, isOrder⟩⟩
  · rw [isNewer_self] at isOlder
    cases isOlder
  · have untouched : ∀ retiredRow, retired = some retiredRow → retiredRow.memoryId ≠ row.memoryId := by
      intro retiredRow isRetired same
      obtain ⟨retiredKey, retiredVersion, retiredFound, -⟩ := wrote.target retiredRow isRetired
      rw [consistent.unique retiredRow (Keyed.mem_of_get retiredFound) row isBefore same] at isRetired
      exact notRetired isRetired
    rw [wrote.current_of_other consistent (wrote.own.apart consistent isBefore notOwn) untouched] at isCurrent
    have wasFound : w.keys.get (entry.owner, key) = some row := by
      rw [← Keyed.key_of_get found]
      exact Keyed.get_self isBefore
    exact targets other isOther key isNamed notItself row wasFound isOlder version isCurrent
  · rw [isOrder, isNewer_self] at isOlder
    cases isOlder

theorem Wrote.retirements (wrote : Wrote w w' entry item new retired ids) (onTime : timeline.Has entry.order)
    (consistent : Consistent timeline w.db w.keys) (isTimed : ∀ applied ∈ w.written, timeline.Has applied.order) (isItem : item ∈ items)
    (targets : TargetsActive w.db w.keys entry.owner entry.order items) (retirements : Retirements w.keys w.written) :
    Retirements w'.keys w'.written := by
  have after := wrote.consistent consistent onTime
  have onward := wrote.onward consistent onTime
  have framed := retirements.frame onward isTimed consistent.timed after.timed
  obtain ⟨target, targetActive, isWritten, targetRow⟩ := wrote.written
  rw [isWritten]
  refine ⟨?_, ?_⟩
  · intro applied isApplied key isTarget
    rcases mem_append.mp isApplied with isOld | isNew
    · exact framed.guarded applied isOld key isTarget
    · rw [mem_singleton.mp isNew] at isTarget ⊢
      obtain ⟨isNamed, other, row, found, notNewer, isRetired | inactive⟩ := targetRow key isTarget
      · refine ⟨{ row with applied := entry.order }, (wrote.keys _).trans ?_, .inl rfl⟩
        rw [if_neg fun same => other (Prod.mk.inj same).2, found, Option.map_some, if_pos isRetired]
      · -- the key is down already: its guard is not older, or the condition says it is active
        have hasRow := consistent.timed row (Keyed.mem_of_get found)
        have notOlder : isNewer entry.order row.applied = false := by
          by_contra isOlder
          rw [Bool.not_eq_false] at isOlder
          obtain ⟨version, isCurrent⟩ := consistent.current (Keyed.mem_of_get found)
          exact inactive version isCurrent (targets item isItem key isNamed other row found isOlder version isCurrent)
        refine onward_guard onward onTime consistent.timed after.timed ⟨row, found, (onward_iff onTime hasRow).mpr ?_⟩
        exact (isNewer_eq_false onTime hasRow).mp notOlder
  · refine pairwise_append.mpr ⟨retirements.ordered, pairwise_singleton _ _, fun first isFirst second isSecond sameOwner isTarget => ?_⟩
    rw [mem_singleton.mp isSecond] at sameOwner isTarget ⊢
    refine wrote.after_guard onTime consistent (isTimed first isFirst) ?_
    have guarded := retirements.guarded first isFirst item.key isTarget
    rw [sameOwner] at guarded
    exact guarded

/-- What an item, or a whole output, leaves as it was: the versions are kept, the guards move forward, and what only a person may
retire stays current. -/
structure Respects (owner : Uuid) (db db' : MemoryDb) (keys keys' : Keyed KeyRow.name) : Prop where
  kept : MemoryDb.Kept db db'
  onward : KeysOnward keys keys'
  protects : ∀ memoryId version, db.current memoryId = some version → version.Protected owner → db'.current memoryId = some version

theorem Respects.refl (owner : Uuid) (db : MemoryDb) (keys : Keyed KeyRow.name) : Respects owner db db keys keys :=
  ⟨.refl db, keysOnward_refl keys, fun _ _ isCurrent _ => isCurrent⟩

/-- What holds between two items of an output. -/
structure Work.Fine (timeline : Timeline) (owner : Uuid) (involved : List Text) (w : Work) : Prop where
  consistent : Consistent timeline w.db w.keys
  synced : w.Synced owner involved
  logged : Logged timeline w.db w.keys w.written

def WorkerMemory.NamedIn (item : WorkerMemory) (involved : List Text) : Prop :=
  item.key ∈ involved ∧ ∀ key ∈ item.supersedes, key ∈ involved

theorem namedIn_involvedKeys (isItem : item ∈ items) : item.NamedIn (involvedKeys items) := by
  refine ⟨mem_flatMap.mpr ⟨item, isItem, .head _⟩, fun key isNamed => ?_⟩
  exact mem_flatMap.mpr ⟨item, isItem, .tail _ (mem_append_left _ (Option.mem_toList.mpr isNamed))⟩

theorem onward_advance {key : Text} {row : KeyRow}
    (found : keys.get (owner, key) = some row) (newer : isNewer order row.applied = true) :
    KeysOnward keys (advance keys owner key order) := by
  intro name before isBefore
  rw [advance_get, isBefore]
  by_cases isIt : name = (owner, key)
  · rw [if_pos isIt]
    rw [isIt, found, Option.some.injEq] at isBefore
    exact ⟨_, rfl, rfl, .inr (isBefore ▸ newer)⟩
  · rw [if_neg isIt]
    exact ⟨before, rfl, rfl, .inl rfl⟩

theorem applyItem_fine (fine : w.Fine timeline entry.owner involved) (onTime : timeline.Has entry.order) (named : item.NamedIn involved)
    (done : w.applyItem fold entry given item = .ok (w', result)) :
    w'.Fine timeline entry.owner involved ∧ Respects entry.owner w.db w'.db w.keys w'.keys ∧
      (item ∈ items → TargetsActive w.db w.keys entry.owner entry.order items → Retirements w.keys w.written →
        TargetsActive w'.db w'.keys entry.owner entry.order items ∧ Retirements w'.keys w'.written) := by
  have consistent := fine.consistent
  rcases applyItem_eq_ok done with rfl | ⟨registered, isRegistered, newer, rfl⟩ | ⟨writable, content, writeDone⟩
  · exact ⟨fine, .refl _ _ _, fun _ targets retirements => ⟨targets, retirements⟩⟩
  · obtain ⟨row, found, rfl⟩ := fine.synced.row named.1 isRegistered
    have onward := onward_advance found newer
    have after := consistent.advance onTime entry.owner item.key
    refine ⟨⟨after, synced_duplicate fine.synced found,
      fine.logged.frame (.refl _) onward consistent.timed after.timed⟩,
      ⟨.refl _, onward, fun _ _ isCurrent _ => isCurrent⟩, fun _ targets retirements => ⟨?_, ?_⟩⟩
    · intro other isOther key isNamed notItself later isLater isOlder version isCurrent
      have isLater' : (advance w.keys entry.owner item.key entry.order).get (entry.owner, key) = some later := isLater
      rw [advance_get] at isLater'
      by_cases isOwn : (entry.owner, key) = (entry.owner, item.key)
      · rw [if_pos isOwn] at isLater'
        obtain ⟨before, isBefore, rfl⟩ := Option.map_eq_some_iff.mp isLater'
        rw [isNewer_self] at isOlder
        cases isOlder
      · rw [if_neg isOwn] at isLater'
        exact targets other isOther key isNamed notItself later isLater' isOlder version isCurrent
    · exact retirements.frame onward fine.logged.timed consistent.timed after.timed
  · obtain ⟨new, retired, ids, wrote, copied⟩ := wrote_of_writeVersion consistent fine.synced named.1 named.2 writable writeDone
    refine ⟨⟨wrote.consistent consistent onTime, wrote.synced consistent copied fine.synced, wrote.logged onTime consistent fine.logged⟩,
      ⟨wrote.kept, wrote.onward consistent onTime, fun memoryId version => wrote.protects consistent⟩, fun isItem targets retirements => ?_⟩
    exact ⟨wrote.targetsActive consistent targets, wrote.retirements onTime consistent fine.logged.timed isItem targets retirements⟩

end Rounds

/-! ### Outputs and other writers, in any order -/

section Runs

variable {fold : Folding} {timeline : Timeline} {entry : EntryContext} {items : List WorkerMemory} {given : ℕ → Given}
  {s s' : JournalDb} {results : ℕ → ItemResult}

theorem applyItems_fine (consistent : Consistent timeline s.memory s.keys) (logged : Logged timeline s.memory s.keys s.written)
    (onTime : timeline.Has entry.order) (done : s.applyItems fold entry items given = .ok (s', results)) :
    Consistent timeline s'.memory s'.keys ∧ Logged timeline s'.memory s'.keys s'.written ∧
      Respects entry.owner s.memory s'.memory s.keys s'.keys ∧
      (TargetsActive s.memory s.keys entry.owner entry.order items → Retirements s.keys s.written →
        Retirements s'.keys s'.written) := by
  simp only [JournalDb.applyItems, bind_eq_ok, pure_eq_ok] at done
  obtain ⟨⟨w, found⟩, foldDone, same⟩ := done
  cases same
  have all := foldlM_invariant (P := fun state : Work × (ℕ → ItemResult) =>
    state.1.Fine timeline entry.owner (involvedKeys items) ∧ Respects entry.owner s.memory state.1.db s.keys state.1.keys ∧
      (TargetsActive s.memory s.keys entry.owner entry.order items → Retirements s.keys s.written →
        TargetsActive state.1.db state.1.keys entry.owner entry.order items ∧ Retirements state.1.keys state.1.written))
    foldDone ?_ ⟨⟨consistent, synced_begin s entry.owner _, logged⟩, .refl _ _ _, fun targets retirements => ⟨targets, retirements⟩⟩
  · exact ⟨all.1.consistent, all.1.logged, all.2.1, fun targets retirements => (all.2.2 targets retirements).2⟩
  · rintro before index after - ⟨fine, respects, conditional⟩ roundDone
    cases isItem : items[index]? with
    | none =>
      rw [isItem] at roundDone
      cases pure_eq_ok.mp roundDone
      exact ⟨fine, respects, conditional⟩
    | some item =>
      rw [isItem] at roundDone
      obtain ⟨⟨later, result⟩, itemDone, same⟩ := bind_eq_ok.mp roundDone
      cases pure_eq_ok.mp same
      have mem := mem_of_getElem? isItem
      obtain ⟨fineAfter, step, condition⟩ := applyItem_fine fine onTime (namedIn_involvedKeys mem) itemDone
      refine ⟨fineAfter, ⟨respects.kept.trans step.kept, ?_, ?_⟩, fun targets retirements => ?_⟩
      · exact keysOnward_trans respects.onward step.onward ⟨consistent.timed, fine.consistent.timed, fineAfter.consistent.timed⟩
      · exact fun memoryId version isCurrent isProtected =>
          step.protects memoryId version (respects.protects memoryId version isCurrent isProtected) isProtected
      · obtain ⟨targetsHere, retirementsHere⟩ := conditional targets retirements
        exact condition mem targetsHere retirementsHere

/-- What others may do between two outputs: they write versions and change statuses, register keys of their own and move guards
forward. -/
structure OtherWriters (timeline : Timeline) (s s' : JournalDb) : Prop where
  consistent : Consistent timeline s'.memory s'.keys
  kept : MemoryDb.Kept s.memory s'.memory
  onward : KeysOnward s.keys s'.keys
  written : s'.written = s.written

/-- A committed transaction: an output is applied, where `allowed` permits it, or others write. -/
inductive JournalStep (fold : Folding) (timeline : Timeline) (allowed : JournalDb → EntryContext → List WorkerMemory → Prop)
    (s : JournalDb) : JournalDb → Prop
  | apply (entry : EntryContext) (items : List WorkerMemory) (given : ℕ → Given) (results : ℕ → ItemResult) {s' : JournalDb}
    (onTime : timeline.Has entry.order) (permitted : allowed s entry items)
    (done : s.applyItems fold entry items given = .ok (s', results)) : JournalStep fold timeline allowed s s'
  | others {s' : JournalDb} (wrote : OtherWriters timeline s s') : JournalStep fold timeline allowed s s'

/-- Every key that an item of the output may retire, and whose guard is older than the entry, has an active latest version. -/
def JournalDb.TargetsActive (s : JournalDb) (entry : EntryContext) (items : List WorkerMemory) : Prop :=
  Memory.TargetsActive s.memory s.keys entry.owner entry.order items

theorem run_fine {start : JournalDb} (consistent : Consistent timeline start.memory start.keys) (nothing : start.written = [])
    (run : ReflTransGen (JournalStep fold timeline JournalDb.TargetsActive) start s) :
    Consistent timeline s.memory s.keys ∧ Logged timeline s.memory s.keys s.written ∧ Retirements s.keys s.written := by
  induction run with
  | refl =>
    have none : ∀ applied, applied ∉ start.written := by
      intro applied
      rw [nothing]
      exact not_mem_nil
    refine ⟨consistent, ⟨fun applied isApplied => absurd isApplied (none applied), fun applied isApplied => absurd isApplied (none applied),
      fun applied isApplied => absurd isApplied (none applied), ?_⟩, fun applied isApplied => absurd isApplied (none applied), ?_⟩
    · rw [nothing]
      exact .nil
    · rw [nothing]
      exact .nil
  | tail _ step ih =>
    obtain ⟨before, logged, retirements⟩ := ih
    cases step with
    | apply entry items given results onTime permitted done =>
      obtain ⟨after, loggedAfter, -, conditional⟩ := applyItems_fine before logged onTime done
      exact ⟨after, loggedAfter, conditional permitted retirements⟩
    | others wrote =>
      have after := wrote.consistent
      rw [wrote.written]
      exact ⟨after, logged.frame wrote.kept wrote.onward before.timed after.timed,
        retirements.frame wrote.onward logged.timed before.timed after.timed⟩

/-- Consolidation respects the order of turns, whatever order the outputs are applied in. -/
theorem turns_in_order (fold : Folding) (timeline : Timeline) (start s : JournalDb)
    (consistent : Consistent timeline start.memory start.keys) (nothing : start.written = [])
    (run : ReflTransGen (JournalStep fold timeline JournalDb.TargetsActive) start s) :
    (s.written.Pairwise fun first second => first.owner = second.owner → first.key = second.key →
      isNewer first.order second.order = false) ∧
    (∀ entry items given s' results, timeline.Has entry.order → s.applyItems fold entry items given = .ok (s', results) →
      KeysOnward s.keys s'.keys ∧
      ∀ memoryId version, s.memory.current memoryId = some version → version.Protected entry.owner →
        s'.memory.current memoryId = some version) ∧
    (∀ applied ∈ s.written, ∃ version ∈ s.memory.versions, version.id = applied.versionId ∧ version.memoryId = applied.memoryId ∧
      version.audience = .user applied.owner ∧ version.confirmation ≠ .confirmed) ∧
    s.written.Pairwise fun first second => first.owner = second.owner → first.target = some second.key →
      isNewer first.order second.order = false := by
  obtain ⟨here, logged, retirements⟩ := run_fine consistent nothing run
  refine ⟨logged.ordered, fun entry items given s' results onTime done => ?_, logged.stored, retirements.ordered⟩
  obtain ⟨-, -, respects, -⟩ := applyItems_fine here logged onTime done
  exact ⟨respects.onward, respects.protects⟩

end Runs

/-! ### A key that comes back -/

/-- The tables after an output; a refused one leaves them as they are. -/
def JournalDb.next (fold : Folding) (s : JournalDb) (entry : EntryContext) (items : List WorkerMemory) (given : ℕ → Given) : JournalDb :=
  match s.applyItems fold entry items given with
  | .ok (s', _) => s'
  | .error _ => s

theorem step_of_next {fold : Folding} {timeline : Timeline} {allowed : JournalDb → EntryContext → List WorkerMemory → Prop} {s : JournalDb}
    {entry : EntryContext} {items : List WorkerMemory} {given : ℕ → Given} (onTime : timeline.Has entry.order)
    (permitted : allowed s entry items) (accepted : (s.applyItems fold entry items given).toOption.isSome = true) :
    JournalStep fold timeline allowed s (s.next fold entry items given) := by
  unfold JournalDb.next
  cases done : s.applyItems fold entry items given with
  | error error =>
    rw [done] at accepted
    cases accepted
  | ok reply =>
    obtain ⟨s', results⟩ := reply
    exact .apply entry items given results onTime permitted done

/-- Turns of one conversation, a second apart. -/
def sampleTimeline : Timeline := ⟨fun _ sequence => sequence, fun _ _ _ le => Int.ofNat_le.mpr le⟩

def sampleFold : Folding := ⟨id, id⟩

def emptyJournal : JournalDb := ⟨MemoryDb.empty, .empty, []⟩

def JournalDb.turn (s : JournalDb) (sequence : ℕ) (key content : Text) (supersedes : Option Text) : JournalDb :=
  s.next sampleFold ⟨⟨1, sequence, sequence⟩, 100 + sequence, 7⟩ [⟨key, .user, .inferred, supersedes, some content, []⟩]
    fun _ => ⟨sequence, sequence, sequence⟩

theorem consistent_empty : Consistent sampleTimeline emptyJournal.memory emptyJournal.keys where
  sound := MemoryDb.sound_empty
  rejected := fun _ isVersion => absurd isVersion not_mem_nil
  unique := fun _ isFirst => absurd isFirst not_mem_nil
  begun := fun _ isRow => absurd isRow not_mem_nil
  timed := fun _ isRow => absurd isRow not_mem_nil

theorem step_of_turn {allowed : JournalDb → EntryContext → List WorkerMemory → Prop} {s : JournalDb} {sequence : ℕ} {key content : Text}
    {supersedes : Option Text}
    (permitted : allowed s ⟨⟨1, sequence, sequence⟩, 100 + sequence, 7⟩ [⟨key, .user, .inferred, supersedes, some content, []⟩])
    (accepted : (s.applyItems sampleFold ⟨⟨1, sequence, sequence⟩, 100 + sequence, 7⟩
      [⟨key, .user, .inferred, supersedes, some content, []⟩] fun _ => ⟨sequence, sequence, sequence⟩).toOption.isSome = true) :
    JournalStep sampleFold sampleTimeline allowed s (s.turn sequence key content supersedes) :=
  step_of_next rfl permitted accepted

/-- Turn 3 retires `[120]`, and turn 2, which comes late, does not bring it back. -/
theorem retired_key_stays :
    let first := emptyJournal.turn 1 [120] [97] none
    let second := first.turn 3 [121] [98] (some [120])
    let third := second.turn 2 [120] [99] none
    third.written.map (fun applied => (applied.key, applied.order.eventSequence)) = [([120], 1), ([121], 3)] ∧
    third.written.Pairwise fun first second => first.owner = second.owner → first.target = some second.key →
      isNewer first.order second.order = false := by
  intro first second third
  refine ⟨by decide, (turns_in_order sampleFold sampleTimeline emptyJournal third consistent_empty rfl ?_).2.2.2⟩
  have active : ∀ row ∈ first.keys.get (7, [120]), ∀ version ∈ first.memory.current row.memoryId, version.status = .active := by
    decide
  refine ((ReflTransGen.single (step_of_turn ?_ (by decide))).tail (step_of_turn ?_ (by decide))).tail
    (step_of_turn ?_ (by decide))
  · intro item isItem key isNamed
    rw [mem_singleton.mp isItem] at isNamed
    cases isNamed
  · intro item isItem key isNamed _ row found _ version isCurrent
    rw [mem_singleton.mp isItem] at isNamed
    cases isNamed
    exact active row found version isCurrent
  · intro item isItem key isNamed
    rw [mem_singleton.mp isItem] at isNamed
    cases isNamed

/-- Turn 5 retires a key that turn 3 retired already. Its guard stays at turn 3, and turn 4 brings it back. -/
theorem retired_key_returns :
    ∃ s, ReflTransGen (JournalStep sampleFold sampleTimeline fun _ _ _ => True) emptyJournal s ∧
      ¬(s.written.Pairwise fun first second => first.owner = second.owner → first.target = some second.key →
        isNewer first.order second.order = false) := by
  refine ⟨(((emptyJournal.turn 1 [120] [97] none).turn 3 [121] [98] (some [120])).turn 5 [122] [99] (some [120])).turn 4 [120] [100] none,
    (((ReflTransGen.single (step_of_turn trivial ?_)).tail (step_of_turn trivial ?_)).tail (step_of_turn trivial ?_)).tail
      (step_of_turn trivial ?_), ?_⟩
  all_goals decide

end PawBackend.Memory
