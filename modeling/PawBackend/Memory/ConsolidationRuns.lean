/-
**What outputs do to the tables, in any order** (`memory/journal/applier.py`).

`Consistent` is what the tables satisfy between two transactions, `Work.Synced` that a transaction's copies of the
registry and of the latest versions are what the tables say.
-/

import PawBackend.Memory.ConsolidationOrder

namespace PawBackend.Memory

open Lib List
open Tools (Uuid Instant uuidText uuidText_injective)
open Relation (ReflTransGen)

/-! ### Guards that move forward -/

theorem OrderKey.eq_of_rank {a b : OrderKey} (same : a.rank = b.rank) : a = b := by
  obtain ⟨conversation, sequence, recorded⟩ := a
  obtain ⟨conversation', sequence', recorded'⟩ := b
  simp only [rank, EmbeddingLike.apply_eq_iff_eq, Prod.mk.injEq] at same
  obtain ⟨rfl, sameText, rfl⟩ := same
  rw [uuidText_injective sameText]

/-- The guard moved to a newer entry, or it is the one it was. -/
def Onward (before after : OrderKey) : Prop := after = before ∨ isNewer after before = true

theorem onward_iff {timeline : Timeline} {a b : OrderKey} (first : timeline.Has a) (second : timeline.Has b) :
    Onward a b ↔ a.rank ≤ b.rank := by
  unfold Onward
  rw [isNewer_iff second first]
  constructor
  · rintro (rfl | later)
    · exact le_rfl
    · exact later.le
  · intro le
    rcases le.lt_or_eq with later | same
    · exact .inr later
    · exact .inl (OrderKey.eq_of_rank same).symm

theorem isNewer_self (order : OrderKey) : isNewer order order = false := by
  simp [isNewer]

def KeysOnward (keys keys' : Keyed KeyRow.name) : Prop :=
  ∀ name row, keys.get name = some row →
    ∃ later, keys'.get name = some later ∧ later.memoryId = row.memoryId ∧ Onward row.applied later.applied

/-- A version only a person may retire or replace: confirmed, not (or no longer) private to the owner, deleted or rejected. -/
def Version.Protected (owner : Uuid) (version : Version) : Prop :=
  version.status = .active ∧ (version.confirmation = .confirmed ∨ version.audience ≠ .user owner) ∨
    version.status = .deprecated ∨ version.status = .history ∨ version.confirmation = .rejected

/-- What holds of the tables between two transactions. -/
structure Consistent (timeline : Timeline) (db : MemoryDb) (keys : Keyed KeyRow.name) : Prop where
  sound : db.Sound
  rejected : ∀ version ∈ db.versions, version.status = .active → version.confirmation ≠ .rejected
  unique : ∀ first ∈ keys.rows, ∀ second ∈ keys.rows, first.memoryId = second.memoryId → first = second
  begun : ∀ row ∈ keys.rows, ∃ version ∈ db.versions, version.memoryId = row.memoryId
  timed : ∀ row ∈ keys.rows, timeline.Has row.applied

theorem Consistent.current {timeline : Timeline} {db : MemoryDb} {keys : Keyed KeyRow.name} (consistent : Consistent timeline db keys)
    {row : KeyRow} (isRow : row ∈ keys.rows) : ∃ version, db.current row.memoryId = some version := by
  obtain ⟨version, isVersion, isIts⟩ := consistent.begun row isRow
  cases isCurrent : db.current row.memoryId with
  | some current => exact ⟨current, rfl⟩
  | none =>
    have nothing : db.versionsOf row.memoryId = [] := argmax_eq_none.mp isCurrent
    have isIn : version ∈ db.versionsOf row.memoryId := MemoryDb.mem_versionsOf.mpr ⟨isVersion, isIts⟩
    rw [nothing] at isIn
    exact absurd isIn not_mem_nil

theorem keysOnward_trans {timeline : Timeline} {a b c : Keyed KeyRow.name} (first : KeysOnward a b) (second : KeysOnward b c)
    (timed : (∀ row ∈ a.rows, timeline.Has row.applied) ∧ (∀ row ∈ b.rows, timeline.Has row.applied) ∧
      ∀ row ∈ c.rows, timeline.Has row.applied) : KeysOnward a c := by
  intro name row found
  obtain ⟨middle, foundMiddle, sameMemory, onward⟩ := first name row found
  obtain ⟨later, foundLater, sameMemory', onward'⟩ := second name middle foundMiddle
  have hasRow := timed.1 row (Keyed.mem_of_get found)
  have hasMiddle := timed.2.1 middle (Keyed.mem_of_get foundMiddle)
  have hasLater := timed.2.2 later (Keyed.mem_of_get foundLater)
  refine ⟨later, foundLater, sameMemory'.trans sameMemory, (onward_iff hasRow hasLater).mpr ?_⟩
  exact ((onward_iff hasRow hasMiddle).mp onward).trans ((onward_iff hasMiddle hasLater).mp onward')

theorem keysOnward_refl (keys : Keyed KeyRow.name) : KeysOnward keys keys :=
  fun _ row found => ⟨row, found, rfl, .inl rfl⟩

/-! ### The copies of a transaction -/

section Copies

variable {w : Work} {owner : Uuid} {involved : List Text}

/-- The copies say what the tables say of the keys that take part. -/
structure Work.Synced (w : Work) (owner : Uuid) (involved : List Text) : Prop where
  registry : ∀ key ∈ involved, w.registry key = registeredOf w.keys owner key
  latest : ∀ key ∈ involved, ∀ row, w.keys.get (owner, key) = some row → w.latest row.memoryId = latestOf w.db owner row.memoryId

theorem synced_begin (s : JournalDb) (owner : Uuid) (involved : List Text) : (s.begin owner involved).Synced owner involved := by
  refine ⟨fun key isIn => if_pos isIn, fun key isIn row found => if_pos ⟨key, isIn, ?_⟩⟩
  have registered : registeredOf s.keys owner key = some ⟨row.memoryId, row.applied⟩ := by
    show (s.keys.get (owner, key)).map _ = _
    rw [show s.keys.get (owner, key) = some row from found]
    rfl
  rw [registered]
  simp

theorem Work.Synced.row (synced : w.Synced owner involved) {key : Text} (isIn : key ∈ involved) {registered : Registered}
    (isRegistered : w.registry key = some registered) :
    ∃ row, w.keys.get (owner, key) = some row ∧ registered = ⟨row.memoryId, row.applied⟩ := by
  rw [synced.registry key isIn, registeredOf, Option.map_eq_some_iff] at isRegistered
  obtain ⟨row, found, same⟩ := isRegistered
  exact ⟨row, found, same.symm⟩

theorem latestOf_eq_some {db : MemoryDb} {memoryId : Uuid} {latest : LatestVersion} (isLatest : latestOf db owner memoryId = some latest) :
    ∃ version, db.current memoryId = some version ∧ latest = latestVersion owner version := by
  unfold latestOf at isLatest
  split_ifs at isLatest
  obtain ⟨version, isCurrent, same⟩ := Option.map_eq_some_iff.mp isLatest
  exact ⟨version, isCurrent, same.symm⟩

end Copies

/-! ### The version an item adds -/

namespace MemoryDb

variable {db : MemoryDb}

theorem numbers_of_fresh (sound : Sound db) {memoryId : Uuid} (fresh : memoryId ∉ db.memories) : db.numbers memoryId = [] := by
  refine map_eq_nil_iff.mpr (filter_eq_nil_iff.mpr fun version isRow isIts => fresh ?_)
  rw [decide_eq_true_eq] at isIts
  exact isIts ▸ sound.memory version isRow

theorem current_of_numbers {memoryId : Uuid} (none : db.numbers memoryId = []) : db.current memoryId = .none := by
  cases isCurrent : db.current memoryId with
  | none => rfl
  | some row =>
    have isNumber : row.number ∈ db.numbers memoryId := mem_map_of_mem (argmax_mem isCurrent)
    rw [none] at isNumber
    exact absurd isNumber not_mem_nil

theorem memoryFor_eq_ok {registered : Option Registered} {fresh memoryId : Uuid} {db' : MemoryDb}
    (done : db.memoryFor registered fresh = .ok (db', memoryId)) :
    (∃ row, registered = some row ∧ db' = db ∧ memoryId = row.memoryId) ∨
      registered = none ∧ memoryId ∉ db.memories ∧ db' = { db with memories := db.memories ++ [memoryId] } := by
  cases registered with
  | some row =>
    cases pure_eq_ok.mp done
    exact .inl ⟨row, rfl, rfl, rfl⟩
  | none =>
    simp only [memoryFor, throw_or_eq_ok, pure_eq_ok] at done
    obtain ⟨isFresh, same⟩ := done
    cases same
    exact .inr ⟨rfl, isFresh, rfl⟩

variable {ids : List Uuid} {new : Version} {inserted : MemoryDb}

theorem rewritten_of_insert (sound : Sound db) {registered : Option Registered} {fresh memoryId : Uuid}
    {withMemory : MemoryDb}
    (memoryDone : { db with versions := db.versions.map (retireIn ids) }.memoryFor registered fresh = .ok (withMemory, memoryId))
    (insertDone : withMemory.addVersion new = .ok inserted) (isActive : new.status = .active)
    (next : new.number = (db.numbers new.memoryId).length + 1)
    (sameAudience : ∀ row, db.current new.memoryId = some row → new.audience = row.audience) :
    Rewritten db inserted ids new ∧ ∀ relation ∈ inserted.relations, relation.older ≠ new.id := by
  have continues := fun row (_ : row ∈ db.versions) => continues_retireIn ids row
  have retire : Write db { db with versions := db.versions.map (retireIn ids) } := .status _ continues
  have withVersions : withMemory.versions = db.versions.map (retireIn ids) ∧ withMemory.relations = db.relations ∧
      Writes { db with versions := db.versions.map (retireIn ids) } withMemory := by
    rcases memoryFor_eq_ok memoryDone with ⟨row, -, rfl, -⟩ | ⟨-, -, rfl⟩
    · exact ⟨rfl, rfl, .refl⟩
    · exact ⟨rfl, rfl, .single (.memory memoryId)⟩
  obtain ⟨sameVersions, sameRelations, memoryWrites⟩ := withVersions
  have numbers : ∀ memoryId, withMemory.numbers memoryId = db.numbers memoryId := by
    intro memoryId
    rw [← Write.numbers_map continues memoryId]
    unfold numbers versionsOf
    rw [sameVersions]
  have narrowed : ∀ row, withMemory.current new.memoryId = some row → withMemory.Narrowed row.audience new.audience := by
    intro row isRow
    have asRetired : { db with versions := db.versions.map (retireIn ids) }.current new.memoryId = some row := by
      rw [← isRow]
      unfold current versionsOf
      rw [sameVersions]
    obtain ⟨before, wasCurrent, same⟩ := Write.current_of_status sound continues asRetired
    exact .inl ((sameAudience before wasCurrent).trans same.symm)
  obtain ⟨write, freshId, isInserted⟩ := insertVersion_write (addVersion_eq_ok insertDone) isActive
    (by rw [numbers]; exact next) narrowed
  refine ⟨⟨((ReflTransGen.single retire).trans memoryWrites).tail write, ?_⟩, fun relation isRelation => ?_⟩
  · rw [isInserted, ← sameVersions]
  · rw [isInserted] at isRelation
    have before : relation ∈ db.relations := sameRelations ▸ isRelation
    obtain ⟨-, older, isOlder, isItsEnd⟩ := sound.ends relation before
    have isRow : retireIn ids older ∈ withMemory.versions := by
      rw [sameVersions]
      exact mem_map_of_mem isOlder
    rw [← isItsEnd, ← (continues_retireIn ids older).id_eq]
    exact freshId _ isRow

theorem Rewritten.relateAll {related : MemoryDb} (rewritten : Rewritten db inserted ids new)
    {kind : RelationType} {reason : Text} {now : Instant} {older : List Uuid}
    (done : inserted.relateAll new.id kind reason now older = .ok related)
    (unreferenced : ∀ relation ∈ inserted.relations, relation.older ≠ new.id) :
    Rewritten db related ids new ∧ ∀ relation ∈ related.relations, relation.older ≠ new.id := by
  obtain ⟨writes, sameVersions, still⟩ := relateAll_writes done unreferenced
  exact ⟨⟨rewritten.writes.trans writes, sameVersions.trans rewritten.versions⟩, still⟩

theorem Rewritten.sources (rewritten : Rewritten db inserted ids new)
    (sources : List Source) : Rewritten db { inserted with sources := sources } ids new :=
  ⟨rewritten.writes.tail (.sources sources), rewritten.versions⟩

end MemoryDb

/-! ### What a round of the loop does -/

section Rounds

variable {fold : Folding} {w w' : Work} {entry : EntryContext} {item : WorkerMemory} {given : Given} {result : ItemResult}
  {involved : List Text} {timeline : Timeline}

/-- What the rules found where they let an item be written. -/
structure Writable (w : Work) (entry : EntryContext) (item : WorkerMemory) : Prop where
  own : ∀ registered latest, w.registry item.key = some registered → w.latest registered.memoryId = some latest →
    Replaceable entry.order (some registered.applied) latest.summary
  target : ∀ pair, w.targetOf entry.order item = some pair →
    pair.2.summary.isActiveWidened = false ∧ pair.2.summary.isActiveConfirmed = false

def Work.currentOf (w : Work) (key : Text) : Option LatestVersion :=
  (w.registry key).bind fun registered => w.latest registered.memoryId

theorem writable_of_plan {current : Option CurrentMemory} (isCurrent : (w.currentOf item.key).map LatestVersion.summary = current)
    (planned : planItem fold item entry.order current ((w.registry item.key).map Registered.applied)
      ((w.targetOf entry.order item).map fun pair => pair.2.summary) = result)
    (isWritten : result = .created ∨ result = .updated) : Writable w entry item := by
  have asTarget : ∀ pair, w.targetOf entry.order item = some pair →
      pair.2.summary ∈ (w.targetOf entry.order item).map fun pair => pair.2.summary :=
    fun pair isTarget => Option.mem_map.mpr ⟨pair, isTarget, rfl⟩
  have isLatest : ∀ registered latest, w.registry item.key = some registered → w.latest registered.memoryId = some latest →
      current = some latest.summary := by
    intro registered latest isRegistered found
    rw [← isCurrent, Work.currentOf, isRegistered, Option.bind_some, found]
    rfl
  rcases isWritten with rfl | rfl
  · obtain ⟨isNew, free⟩ := planItem_created planned
    refine ⟨fun registered latest isRegistered found => ?_, fun pair isTarget => free _ (asTarget pair isTarget)⟩
    rw [isLatest registered latest isRegistered found] at isNew
    cases isNew
  · obtain ⟨⟨memory, isMemory, replaceable⟩, free⟩ := planItem_updated planned
    refine ⟨fun registered latest isRegistered found => ?_, fun pair isTarget => free _ (asTarget pair isTarget)⟩
    rw [isLatest registered latest isRegistered found, Option.some.injEq] at isMemory
    rw [isMemory]
    rw [isRegistered] at replaceable
    exact replaceable

theorem applyItem_eq_ok (done : w.applyItem fold entry given item = .ok (w', result)) :
    w' = w ∨
    (∃ registered, w.registry item.key = some registered ∧ isNewer entry.order registered.applied = true ∧
      w' = { w with keys := advance w.keys entry.owner item.key entry.order
                    registry := assign w.registry item.key (some ⟨registered.memoryId, entry.order⟩) }) ∨
    Writable w entry item ∧ ∃ content, w.writeVersion entry item content (w.registry item.key) (w.currentOf item.key)
      (w.targetOf entry.order item) given = .ok w' := by
  unfold Work.applyItem at done
  dsimp only at done
  split at done
  · rename_i registered planned isRegistered
    rw [pure_eq_ok, Prod.mk.injEq] at done
    refine .inr (.inl ⟨registered, isRegistered, ?_, done.1.symm⟩)
    refine planItem_duplicate planned _ ?_
    rw [isRegistered]
    rfl
  · rename_i content planned isContent
    obtain ⟨written, writeDone, same⟩ := bind_eq_ok.mp done
    cases pure_eq_ok.mp same
    exact .inr (.inr ⟨writable_of_plan rfl planned (.inl rfl), content, writeDone⟩)
  · rename_i content planned isContent
    obtain ⟨written, writeDone, same⟩ := bind_eq_ok.mp done
    cases pure_eq_ok.mp same
    exact .inr (.inr ⟨writable_of_plan rfl planned (.inr rfl), content, writeDone⟩)
  · rw [pure_eq_ok, Prod.mk.injEq] at done
    exact .inl done.1.symm

theorem targetOf_eq_some {order : OrderKey} {memoryId : Uuid} {version : LatestVersion}
    (isTarget : w.targetOf order item = some (memoryId, version)) :
    ∃ key registered, item.supersedes = some key ∧ key ≠ item.key ∧ w.registry key = some registered ∧
      registered.memoryId = memoryId ∧ w.latest memoryId = some version ∧ isNewer registered.applied order = false := by
  simp only [Work.targetOf, Option.bind_eq_some_iff, Option.filter_eq_some_iff, Option.map_eq_some_iff, decide_eq_true_eq,
    Prod.mk.injEq] at isTarget
  obtain ⟨key, ⟨isNamed, other⟩, registered, isRegistered, latest, isLatest, summary, passes, isMemory, rfl⟩ := isTarget
  refine ⟨key, registered, isNamed, other, isRegistered, isMemory, isMemory ▸ isLatest, ?_⟩
  unfold supersedeTarget at passes
  split_ifs at passes with isOlder
  simpa using isOlder

inductive Retires (w : Work) (entry : EntryContext) (item : WorkerMemory) : Option (Uuid × LatestVersion) → Option KeyRow → Prop
  | nothing : Retires w entry item none none
  | key {key : Text} {row : KeyRow} {version : Version} (isNamed : item.supersedes = some key) (other : key ≠ item.key)
    (found : w.keys.get (entry.owner, key) = some row) (notNewer : isNewer row.applied entry.order = false)
    (isCurrent : w.db.current row.memoryId = some version) (isActive : version.status = .active)
    (free : ¬version.Protected entry.owner) :
    Retires w entry item (some (row.memoryId, latestVersion entry.owner version)) (some row)

def replacedOf (target : Option (Uuid × LatestVersion)) : Option (Uuid × LatestVersion) :=
  target.bind fun (memoryId, version) => version.ifActive.map fun active => (memoryId, active)

theorem ifActive_eq_some {version active : LatestVersion} (isActive : version.ifActive = some active) :
    active = version ∧ version.summary.status = .active := by
  unfold LatestVersion.ifActive at isActive
  split_ifs at isActive with holds
  exact ⟨(Option.some.inj isActive).symm, holds⟩

theorem retires_of_target (consistent : Consistent timeline w.db w.keys) (synced : w.Synced entry.owner involved)
    (isIn : ∀ key ∈ item.supersedes, key ∈ involved) (writable : Writable w entry item) :
    ∃ retired, Retires w entry item (replacedOf (w.targetOf entry.order item)) retired := by
  cases isReplaced : replacedOf (w.targetOf entry.order item) with
  | none => exact ⟨none, .nothing⟩
  | some pair =>
    simp only [replacedOf, Option.bind_eq_some_iff, Option.map_eq_some_iff] at isReplaced
    obtain ⟨⟨memoryId, latest⟩, isTarget, active, isActive, rfl⟩ := isReplaced
    obtain ⟨rfl, statusActive⟩ := ifActive_eq_some isActive
    obtain ⟨key, registered, isNamed, other, isRegistered, isMemory, isLatest, notNewer⟩ := targetOf_eq_some isTarget
    have keyIn := isIn key isNamed
    obtain ⟨row, found, rfl⟩ := synced.row keyIn isRegistered
    have sameMemory : row.memoryId = memoryId := isMemory
    subst sameMemory
    rw [synced.latest key keyIn row found] at isLatest
    obtain ⟨version, isCurrent, rfl⟩ := latestOf_eq_some isLatest
    refine ⟨some row, .key isNamed other found notNewer isCurrent statusActive ?_⟩
    have isActive : version.status = .active := statusActive
    obtain ⟨notWidened, notConfirmed⟩ := writable.target _ isTarget
    have isRow := (consistent.sound.current_eq_some.mp isCurrent).1
    simp only [CurrentMemory.isActiveWidened, CurrentMemory.isActiveConfirmed, latestVersion, isActive, decide_true, Bool.true_and,
      decide_eq_false_iff_not, not_not, true_and] at notWidened notConfirmed
    rintro (⟨-, confirmed | widened⟩ | gone | gone | rejected)
    · exact notConfirmed confirmed
    · exact widened notWidened
    · rw [isActive] at gone
      cases gone
    · rw [isActive] at gone
      cases gone
    · exact consistent.rejected version isRow isActive rejected

theorem advance_get (keys : Keyed KeyRow.name) (owner : Uuid) (key : Text) (order : OrderKey) (name : Uuid × Text) :
    (advance keys owner key order).get name =
      if name = (owner, key) then (keys.get name).map fun row => { row with applied := order } else keys.get name := by
  refine (Keyed.get_update keys _ _ _ name).trans ?_
  cases found : keys.get name with
  | none => simp only [Option.map_none, ite_self]
  | some row =>
    have isName := Keyed.key_of_get found
    rw [Option.map_some, isName]
    by_cases same : name = (owner, key)
    · rw [if_pos same, if_pos (decide_eq_true same)]
      rfl
    · rw [if_neg same, if_neg (by simpa using same)]

theorem registerKey_get {keys keys' : Keyed KeyRow.name} {owner memoryId : Uuid} {key : Text} {order : OrderKey}
    {registered : Option Registered} (isRegistered : registered = registeredOf keys owner key)
    (isMemory : ∀ found ∈ registered, found.memoryId = memoryId)
    (done : registerKey keys registered owner key memoryId order = .ok keys') (name : Uuid × Text) :
    keys'.get name = if name = (owner, key) then some ⟨owner, key, memoryId, order⟩ else keys.get name := by
  cases registered with
  | some found =>
    obtain ⟨row, isRow, same⟩ := Option.map_eq_some_iff.mp isRegistered.symm
    cases pure_eq_ok.mp done
    rw [advance_get]
    by_cases isName : name = (owner, key)
    · have nameOf := Keyed.key_of_get isRow
      obtain ⟨rowOwner, rowKey, rowMemory, rowApplied⟩ := row
      cases nameOf
      have sameMemory : rowMemory = memoryId := by
        rw [← isMemory found rfl, ← same]
      rw [if_pos isName, if_pos isName, isName, isRow, ← sameMemory]
      rfl
    · rw [if_neg isName, if_neg isName]
  | none =>
    simp only [registerKey, throw_or_eq_ok, orThrow_eq_ok] at done
    exact Keyed.get_of_tryInsert done.2 name

theorem addVersion_number {db db' : MemoryDb} {new : Version} (done : db.addVersion new = .ok db') :
    ∀ row ∈ db.versions, row.memoryId = new.memoryId → row.number ≠ new.number := by
  have inserted := MemoryDb.addVersion_eq_ok done
  simp only [MemoryDb.insertVersion, check_eq_ok] at inserted
  exact fun row isRow sameMemory sameNumber => inserted.2.2.2.1 ⟨row, isRow, sameMemory, sameNumber⟩

inductive Own (w : Work) (entry : EntryContext) (item : WorkerMemory) (memoryId : Uuid) : Prop
  | created (isNew : w.keys.get (entry.owner, item.key) = none) (noVersion : w.currentOf item.key = none)
    (fresh : memoryId ∉ w.db.memories)
  | updated (row : KeyRow) (version : Version) (found : w.keys.get (entry.owner, item.key) = some row)
    (isMemory : row.memoryId = memoryId) (isCurrent : w.db.current memoryId = some version)
    (isLatest : w.currentOf item.key = some (latestVersion entry.owner version))
    (replaceable : Replaceable entry.order (some row.applied) (latestVersion entry.owner version).summary)

theorem own_of_write (consistent : Consistent timeline w.db w.keys) (synced : w.Synced entry.owner involved)
    (keyIn : item.key ∈ involved) (writable : Writable w entry item) {ids : List Uuid} {memoryId : Uuid} {content : Text}
    {withMemory inserted : MemoryDb}
    (memoryDone : { w.db with versions := w.db.versions.map (retireIn ids) }.memoryFor (w.registry item.key) given.newMemory =
      .ok (withMemory, memoryId))
    (insertDone : withMemory.addVersion (candidateVersion entry item content given memoryId
      (((w.currentOf item.key).map fun version => version.number + 1).getD 1)) = .ok inserted) :
    Own w entry item memoryId := by
  rcases MemoryDb.memoryFor_eq_ok memoryDone with ⟨registered, isRegistered, rfl, rfl⟩ | ⟨isNew, isFresh, -⟩
  · obtain ⟨row, found, rfl⟩ := synced.row keyIn isRegistered
    have isRow := Keyed.mem_of_get found
    have asCurrent : w.currentOf item.key = latestOf w.db entry.owner row.memoryId := by
      rw [Work.currentOf, isRegistered, Option.bind_some]
      exact synced.latest _ keyIn row found
    cases isLatest : latestOf w.db entry.owner row.memoryId with
    | some latest =>
      obtain ⟨version, isCurrent, rfl⟩ := latestOf_eq_some isLatest
      refine .updated row version found rfl isCurrent (asCurrent.trans isLatest) (writable.own _ _ isRegistered ?_)
      rw [synced.latest _ keyIn row found]
      exact isLatest
    | none =>
      -- a row whose memory is not the owner's: its first version is there already
      rw [asCurrent, isLatest] at insertDone
      obtain ⟨version, isVersion, isIts⟩ := consistent.begun row isRow
      obtain ⟨least, most⟩ := consistent.sound.number_le isVersion
      rw [isIts] at most
      have first : 1 ∈ w.db.numbers row.memoryId := by
        rw [(consistent.sound.numbered _).mem_iff, mem_range'_1]
        omega
      obtain ⟨one, isOne, isFirst⟩ := mem_map.mp first
      obtain ⟨oneRow, oneMemory⟩ := MemoryDb.mem_versionsOf.mp isOne
      have continues := continues_retireIn ids one
      exact absurd (continues.number_eq.trans isFirst)
        (addVersion_number insertDone (retireIn ids one) (mem_map_of_mem oneRow) (continues.memoryId_eq.trans oneMemory))
  · refine .created ?_ ?_ isFresh
    · rw [synced.registry _ keyIn] at isNew
      exact Option.map_eq_none_iff.mp isNew
    · rw [Work.currentOf, isNew]
      rfl

namespace Own

variable {memoryId : Uuid}

theorem next (sound : w.db.Sound) (own : Own w entry item memoryId) :
    ((w.currentOf item.key).map fun version => version.number + 1).getD 1 = (w.db.numbers memoryId).length + 1 := by
  cases own with
  | created isNew noVersion fresh =>
    rw [noVersion, MemoryDb.numbers_of_fresh sound fresh]
    rfl
  | updated row version found isMemory isCurrent isLatest =>
    rw [isLatest, ← sound.number_of_current isCurrent]
    rfl

theorem free (consistent : Consistent timeline w.db w.keys) (own : Own w entry item memoryId) {row : Version}
    (isCurrent : w.db.current memoryId = some row) :
    row.audience = .user entry.owner ∧ ¬row.Protected entry.owner ∧ w.currentOf item.key = some (latestVersion entry.owner row) := by
  cases own with
  | created isNew noVersion fresh =>
    rw [MemoryDb.current_of_numbers (MemoryDb.numbers_of_fresh consistent.sound fresh)] at isCurrent
    cases isCurrent
  | updated keyRow version found isMemory isVersion isLatest replaceable =>
    obtain rfl : version = row := Option.some.inj (isVersion.symm.trans isCurrent)
    have ownAudience : version.audience = .user entry.owner := by
      simpa [latestVersion] using replaceable.notWidened
    refine ⟨ownAudience, ?_, isLatest⟩
    rintro (⟨isActive, confirmed | widened⟩ | gone | gone | rejected)
    · exact replaceable.notConfirmed ⟨isActive, confirmed⟩
    · exact widened ownAudience
    · exact replaceable.status.1 gone
    · exact replaceable.status.2 gone
    · exact replaceable.notRejected rejected

theorem previous {latest : LatestVersion} (own : Own w entry item memoryId)
    (isLatest : (w.currentOf item.key).bind LatestVersion.ifActive = some latest) :
    ∃ row, w.db.current memoryId = some row ∧ row.id = latest.id := by
  cases own with
  | created isNew noVersion fresh =>
    rw [noVersion] at isLatest
    cases isLatest
  | updated keyRow version found isMemory isCurrent isIts replaceable =>
    rw [isIts] at isLatest
    obtain ⟨rfl, -⟩ := ifActive_eq_some isLatest
    exact ⟨version, isCurrent, rfl⟩

end Own

/-- What a written item changes: the version `new` of its key's memory is added, the versions `ids` are retired, and the guards of
its key and of the key it retires are at the entry. -/
structure Wrote (w w' : Work) (entry : EntryContext) (item : WorkerMemory) (new : Version) (retired : Option KeyRow) (ids : List Uuid) :
    Prop where
  rewritten : MemoryDb.Rewritten w.db w'.db ids new
  isActive : new.status = .active
  audience : new.audience = .user entry.owner
  confirmation : new.confirmation = storedState item.state
  own : Own w entry item new.memoryId
  target : ∀ row, retired = some row → ∃ key version, w.keys.get (entry.owner, key) = some row ∧ key ≠ item.key ∧
    isNewer row.applied entry.order = false ∧ w.db.current row.memoryId = some version ∧ version.status = .active ∧
    version.id ∈ ids ∧ ¬version.Protected entry.owner
  ids : ∀ id ∈ ids, ∃ version, version.id = id ∧
    (w.db.current new.memoryId = some version ∨ ∃ row, retired = some row ∧ w.db.current row.memoryId = some version)
  keys : ∀ name, w'.keys.get name = if name = (entry.owner, item.key) then some ⟨entry.owner, item.key, new.memoryId, entry.order⟩
    else (w.keys.get name).map fun row => if retired = some row then { row with applied := entry.order } else row
  written : ∃ target targetActive,
    w'.written = w.written ++ [⟨entry.owner, item.key, entry.order, new.memoryId, new.id, target, targetActive⟩] ∧
    ∀ key, target = some key → item.supersedes = some key ∧ key ≠ item.key ∧ ∃ row, w.keys.get (entry.owner, key) = some row ∧
      isNewer row.applied entry.order = false ∧
      (retired = some row ∨ ∀ version, w.db.current row.memoryId = some version → version.status ≠ .active)

variable {replaced : Option (Uuid × LatestVersion)} {retired : Option KeyRow}

theorem retireTarget_get (retires : Retires w entry item replaced retired) {wrote : Work} {new : KeyRow}
    (wroteKeys : ∀ name, wrote.keys.get name = if name = (entry.owner, item.key) then some new else w.keys.get name)
    (name : Uuid × Text) :
    (wrote.retireTarget entry.owner entry.order item.supersedes replaced).keys.get name =
      if name = (entry.owner, item.key) then some new
      else (w.keys.get name).map fun row => if retired = some row then { row with applied := entry.order } else row := by
  cases retires with
  | nothing =>
    have same : wrote.retireTarget entry.owner entry.order item.supersedes none = wrote := by
      cases item.supersedes <;> rfl
    rw [same, wroteKeys]
    simp only [reduceCtorEq, if_false, Option.map_id_fun', id]
  | @key key row version isNamed other found notNewer isCurrent isActive free =>
    rw [isNamed]
    show (advance wrote.keys entry.owner key entry.order).get name = _
    rw [advance_get, wroteKeys]
    have otherName : (entry.owner, key) ≠ (entry.owner, item.key) := fun same => other (Prod.mk.inj same).2
    by_cases isOwn : name = (entry.owner, item.key)
    · rw [if_pos isOwn, if_neg (isOwn ▸ otherName.symm), if_pos isOwn]
    · rw [if_neg isOwn, if_neg isOwn]
      by_cases isTarget : name = (entry.owner, key)
      · rw [if_pos isTarget, isTarget, found, Option.map_some, Option.map_some, if_pos rfl]
      · rw [if_neg isTarget]
        cases foundName : w.keys.get name with
        | none => rfl
        | some otherRow =>
          have notIt : some row ≠ some otherRow := fun same =>
            isTarget ((Keyed.key_of_get foundName).symm.trans ((Option.some.inj same) ▸ Keyed.key_of_get found))
          rw [Option.map_some, if_neg notIt]

theorem retireTarget_rest (wrote : Work) (owner : Uuid) (order : OrderKey) (supersedes : Option Text)
    (replaced : Option (Uuid × LatestVersion)) :
    (wrote.retireTarget owner order supersedes replaced).db = wrote.db ∧
      (wrote.retireTarget owner order supersedes replaced).written = wrote.written := by
  unfold Work.retireTarget
  split
  · exact ⟨rfl, rfl⟩
  · exact ⟨rfl, rfl⟩

theorem supersedeOld_twice {db first second : MemoryDb} {previous replaced : Option LatestVersion}
    (firstDone : db.supersedeOld previous = .ok first) (secondDone : first.supersedeOld replaced = .ok second) :
    second = { db with
      versions := db.versions.map
        (retireIn (previous.toList.map LatestVersion.id ++ replaced.toList.map LatestVersion.id)) } := by
  rw [MemoryDb.supersedeOld_eq_ok firstDone] at secondDone
  rw [MemoryDb.supersedeOld_eq_ok secondDone]
  dsimp only
  rw [map_map]
  congr 2
  funext row
  exact retireIn_append _ _ row

theorem target_of_written (synced : w.Synced entry.owner involved) (isIn : ∀ key ∈ item.supersedes, key ∈ involved)
    (retires : Retires w entry item (replacedOf (w.targetOf entry.order item)) retired) {key : Text}
    (isTarget : (if (w.targetOf entry.order item).isSome then item.supersedes else none) = some key) :
    item.supersedes = some key ∧ key ≠ item.key ∧ ∃ row, w.keys.get (entry.owner, key) = some row ∧
      isNewer row.applied entry.order = false ∧
      (retired = some row ∨ ∀ version, w.db.current row.memoryId = some version → version.status ≠ .active) := by
  cases targetIs : w.targetOf entry.order item with
  | none =>
    rw [targetIs] at isTarget
    cases isTarget
  | some pair =>
    obtain ⟨memoryId, latest⟩ := pair
    rw [targetIs, Option.isSome_some, if_pos rfl] at isTarget
    obtain ⟨named, registered, isNamed, other, isRegistered, isMemory, isLatest, notNewer⟩ := targetOf_eq_some targetIs
    obtain rfl : named = key := Option.some.inj (isNamed.symm.trans isTarget)
    have keyIn := isIn named isNamed
    obtain ⟨row, found, rfl⟩ := synced.row keyIn isRegistered
    have sameMemory : row.memoryId = memoryId := isMemory
    subst sameMemory
    refine ⟨isNamed, other, row, found, notNewer, ?_⟩
    rw [synced.latest named keyIn row found] at isLatest
    obtain ⟨version, isCurrent, rfl⟩ := latestOf_eq_some isLatest
    rw [targetIs] at retires
    by_cases isActive : version.status = .active
    · have isReplaced : replacedOf (some (row.memoryId, latestVersion entry.owner version)) =
          some (row.memoryId, latestVersion entry.owner version) := by
        simp [replacedOf, LatestVersion.ifActive, latestVersion, isActive]
      generalize isPair : replacedOf (some (row.memoryId, latestVersion entry.owner version)) = pair at retires
      cases retires with
      | nothing =>
        rw [isReplaced] at isPair
        cases isPair
      | @key otherKey otherRow otherVersion otherNamed _ otherFound =>
        obtain rfl : otherKey = named := Option.some.inj (otherNamed.symm.trans isNamed)
        exact .inl (otherFound.symm.trans found)
    · refine .inr fun current isIt => ?_
      rw [isCurrent, Option.some.injEq] at isIt
      exact isIt ▸ isActive

theorem ids_of_retires (retires : Retires w entry item replaced retired)
    {id : Uuid} (isReplaced : id ∈ (replaced.map Prod.snd).toList.map LatestVersion.id) :
    ∃ version row, version.id = id ∧ retired = some row ∧ w.db.current row.memoryId = some version := by
  cases retires with
  | nothing => cases isReplaced
  | @key key row version isNamed other found notNewer isCurrent isActive free =>
    rw [Option.map_some, Option.toList_some, map_singleton, mem_singleton] at isReplaced
    exact ⟨version, row, isReplaced.symm, rfl, isCurrent⟩

structure Copied (w w' : Work) (entry : EntryContext) (item : WorkerMemory) (new : Version) (retired : Option KeyRow) : Prop where
  registryOwn : w'.registry item.key = some ⟨new.memoryId, entry.order⟩
  registryRetired : ∀ row, retired = some row → w'.registry row.key = some ⟨row.memoryId, entry.order⟩
  registryOther : ∀ key, key ≠ item.key → (∀ row, retired = some row → row.key ≠ key) → w'.registry key = w.registry key
  latestOwn : w'.latest new.memoryId = some (latestVersion entry.owner new)
  latestRetired : ∀ row version, retired = some row → w.db.current row.memoryId = some version →
    w'.latest row.memoryId = some (latestVersion entry.owner { version with status := .superseded })
  latestOther : ∀ memoryId, memoryId ≠ new.memoryId → (∀ row, retired = some row → row.memoryId ≠ memoryId) →
    w'.latest memoryId = w.latest memoryId

theorem audience_of_free {version : Version} {owner : Uuid} (isActive : version.status = .active) (free : ¬version.Protected owner) :
    version.audience = .user owner := by
  by_contra widened
  exact free (.inl ⟨isActive, .inr widened⟩)

theorem copied_of_retires (retires : Retires w entry item replaced retired) {wrote : Work} {new : Version}
    (wroteRegistry : wrote.registry = assign w.registry item.key (some ⟨new.memoryId, entry.order⟩))
    (wroteLatest : wrote.latest = assign w.latest new.memoryId (some (latestVersion entry.owner new)))
    (apart : ∀ row, retired = some row → row.memoryId ≠ new.memoryId) :
    Copied w (wrote.retireTarget entry.owner entry.order item.supersedes replaced) entry item new retired := by
  cases retires with
  | nothing =>
    have same : wrote.retireTarget entry.owner entry.order item.supersedes none = wrote := by
      cases item.supersedes <;> rfl
    rw [same]
    refine ⟨?_, fun row isRow => ?_, fun key other _ => ?_, ?_, fun row version isRow => ?_, fun memoryId other _ => ?_⟩
    · rw [wroteRegistry, assign_self]
    · cases isRow
    · rw [wroteRegistry, assign_of_ne _ _ other]
    · rw [wroteLatest, assign_self]
    · cases isRow
    · rw [wroteLatest, assign_of_ne _ _ other]
  | @key key row version isNamed other found notNewer isCurrent isActive free =>
    have rowKey : row.key = key := by
      have isName := Keyed.key_of_get found
      exact (Prod.mk.inj isName).2
    have apartRow := apart row rfl
    have shape : wrote.retireTarget entry.owner entry.order item.supersedes
        (some (row.memoryId, latestVersion entry.owner version)) =
          { wrote with
            keys := advance wrote.keys entry.owner key entry.order
            registry := assign wrote.registry key (some ⟨row.memoryId, entry.order⟩)
            latest := assign wrote.latest row.memoryId (some ⟨version.id, version.number,
              ⟨.superseded, version.confirmation, version.content, false⟩⟩) } := by
      rw [isNamed]
      rfl
    rw [shape]
    refine ⟨?_, fun other isRow => ?_, fun otherKey notOwn notRetired => ?_, ?_, fun other otherVersion isRow otherCurrent => ?_,
      fun memoryId notOwn notRetired => ?_⟩
    · show assign wrote.registry key _ item.key = _
      rw [assign_of_ne _ _ other.symm, wroteRegistry, assign_self]
    · cases isRow
      show assign wrote.registry key _ row.key = _
      rw [rowKey, assign_self]
    · show assign wrote.registry key _ otherKey = _
      rw [assign_of_ne _ _ (fun same => notRetired row rfl (rowKey.trans same.symm)), wroteRegistry, assign_of_ne _ _ notOwn]
    · show assign wrote.latest row.memoryId _ new.memoryId = _
      rw [assign_of_ne _ _ apartRow.symm, wroteLatest, assign_self]
    · cases isRow
      obtain rfl : version = otherVersion := Option.some.inj (isCurrent.symm.trans otherCurrent)
      show assign wrote.latest row.memoryId _ row.memoryId = _
      rw [assign_self]
      simp [latestVersion, audience_of_free isActive free]
    · show assign wrote.latest row.memoryId _ memoryId = _
      rw [assign_of_ne _ _ (fun same => notRetired row rfl same.symm), wroteLatest, assign_of_ne _ _ notOwn]

theorem Own.apart (consistent : Consistent timeline w.db w.keys) {memoryId : Uuid} (own : Own w entry item memoryId) {row : KeyRow}
    (isRow : row ∈ w.keys.rows) (other : row.name ≠ (entry.owner, item.key)) : row.memoryId ≠ memoryId := by
  cases own with
  | created isNew noVersion fresh =>
    obtain ⟨version, isVersion, isIts⟩ := consistent.begun row isRow
    exact fun same => fresh (same ▸ isIts ▸ consistent.sound.memory version isVersion)
  | updated ownRow version ownFound isMemory =>
    intro same
    have sameRow := consistent.unique row isRow ownRow (Keyed.mem_of_get ownFound) (same.trans isMemory.symm)
    exact other (sameRow ▸ Keyed.key_of_get ownFound)

theorem Retires.apart (consistent : Consistent timeline w.db w.keys) {memoryId : Uuid} (own : Own w entry item memoryId)
    (retires : Retires w entry item replaced retired) :
    ∀ row, retired = some row → row.memoryId ≠ memoryId := by
  cases retires with
  | nothing =>
    intro row isRow
    cases isRow
  | key isNamed other found =>
    intro row isRow
    cases isRow
    refine own.apart consistent (Keyed.mem_of_get found) ?_
    rw [Keyed.key_of_get found]
    exact fun same => other (Prod.mk.inj same).2

theorem wrote_of_writeVersion (consistent : Consistent timeline w.db w.keys) (synced : w.Synced entry.owner involved)
    (keyIn : item.key ∈ involved) (isIn : ∀ key ∈ item.supersedes, key ∈ involved) (writable : Writable w entry item)
    {content : Text}
    (done : w.writeVersion entry item content (w.registry item.key) (w.currentOf item.key) (w.targetOf entry.order item) given =
      .ok w') : ∃ new retired ids, Wrote w w' entry item new retired ids ∧ Copied w w' entry item new retired := by
  obtain ⟨retired, retires⟩ := retires_of_target consistent synced isIn writable
  simp only [Work.writeVersion, bind_eq_ok, pure_eq_ok] at done
  obtain ⟨first, firstDone, second, secondDone, ⟨withMemory, memoryId⟩, memoryDone, inserted, insertDone, related, relateDone, replacedDb,
    replaceDone, conflicting, conflictDone, keys, keysDone, rfl⟩ := done
  have isSecond := supersedeOld_twice firstDone secondDone
  rw [isSecond] at memoryDone
  have own := own_of_write consistent synced keyIn writable memoryDone insertDone
  obtain ⟨inserts, unreferenced⟩ := MemoryDb.rewritten_of_insert consistent.sound memoryDone insertDone rfl
    (own.next consistent.sound) fun row isCurrent => (own.free consistent isCurrent).1.symm
  obtain ⟨relates, stillFirst⟩ := inserts.relateAll relateDone unreferenced
  obtain ⟨replaces, stillSecond⟩ := relates.relateAll replaceDone stillFirst
  obtain ⟨conflicts, -⟩ := replaces.relateAll conflictDone stillSecond
  have isMemory : ∀ found ∈ w.registry item.key, found.memoryId = memoryId := by
    intro found isFound
    rcases MemoryDb.memoryFor_eq_ok memoryDone with ⟨registered, isRegistered, -, same⟩ | ⟨isNone, -⟩
    · rw [Option.mem_def, isRegistered, Option.some.injEq] at isFound
      rw [← isFound, same]
    · rw [Option.mem_def, isNone] at isFound
      cases isFound
  have wroteKeys := registerKey_get (synced.registry _ keyIn) isMemory keysDone
  refine ⟨candidateVersion entry item content given memoryId
      (((w.currentOf item.key).map fun version => version.number + 1).getD 1), retired,
    ((w.currentOf item.key).bind LatestVersion.ifActive).toList.map LatestVersion.id ++
      ((replacedOf (w.targetOf entry.order item)).map Prod.snd).toList.map LatestVersion.id,
    { rewritten := ?_, isActive := rfl, audience := rfl, confirmation := rfl, own := own, target := ?_, ids := ?_, keys := ?_,
      written := ⟨if (w.targetOf entry.order item).isSome then item.supersedes else none,
        (replacedOf (w.targetOf entry.order item)).isSome, ?_, ?_⟩ }, ?_⟩
  · rw [(retireTarget_rest _ _ _ _ _).1]
    exact conflicts.sources _
  · rintro row rfl
    generalize isReplaced : replacedOf (w.targetOf entry.order item) = replaced at retires
    cases retires with
    | @key key row version isNamed other found notNewer isCurrent isActive free =>
      exact ⟨key, version, found, other, notNewer, isCurrent, isActive, mem_append_right _ (mem_singleton_self _), free⟩
  · intro id isRetired
    rcases mem_append.mp isRetired with isPrevious | isReplaced
    · obtain ⟨latest, isLatest, rfl⟩ := mem_map.mp isPrevious
      obtain ⟨row, isCurrent, sameId⟩ := own.previous (Option.mem_toList.mp isLatest)
      exact ⟨row, sameId, .inl isCurrent⟩
    · obtain ⟨version, row, sameId, isRow, isCurrent⟩ := ids_of_retires retires isReplaced
      exact ⟨version, sameId, .inr ⟨row, isRow, isCurrent⟩⟩
  · exact retireTarget_get retires wroteKeys
  · exact (retireTarget_rest _ _ _ _ _).2
  · exact fun key isTarget => target_of_written synced isIn retires isTarget
  · refine copied_of_retires retires rfl ?_ (retires.apart consistent own)
    simp [latestVersion, candidateVersion]

end Rounds

end PawBackend.Memory
