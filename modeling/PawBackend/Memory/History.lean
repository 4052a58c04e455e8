/-
**The history of a memory is kept** (`memory/versioning/service.py`, `memory/versioning/freshness.py`).

`Sound` is what the tables satisfy after any calls: the versions of a memory are numbered from one on without a gap,
an active version is the one with the highest number, no path over the relations comes back to where it began, and a
version is superseded by at most one.
-/

import PawBackend.Memory.Versioning

namespace PawBackend.Memory

open Lib List
open Tools (Uuid Instant)
open Relation (ReflTransGen)

/-- A later state of the same version: only its status and its stale mark may differ, and its status only by
having left `active`. -/
structure Version.Continues (later earlier : Version) : Prop where
  same : later = { earlier with status := later.status
                                freshness := { earlier.freshness with staleSince := later.freshness.staleSince } }
  status : later.status = earlier.status ∨ earlier.status = .active ∧ later.status ≠ .active

namespace Version.Continues

variable {a b c : Version}

theorem refl (a : Version) : a.Continues a := ⟨rfl, .inl rfl⟩

theorem trans (second : c.Continues b) (first : b.Continues a) : c.Continues a := by
  refine ⟨?_, ?_⟩
  · have step := second.same
    rw [first.same] at step
    exact step
  · rcases second.status with kept | ⟨wasActive, left⟩
    · rw [kept]
      exact first.status
    · rcases first.status with kept | ⟨_, gone⟩
      · exact .inr ⟨kept ▸ wasActive, left⟩
      · exact absurd wasActive gone

theorem id_eq (continues : b.Continues a) : b.id = a.id := by rw [continues.same]

theorem memoryId_eq (continues : b.Continues a) : b.memoryId = a.memoryId := by rw [continues.same]

theorem number_eq (continues : b.Continues a) : b.number = a.number := by rw [continues.same]

theorem active (continues : b.Continues a) (isActive : b.status = .active) : a.status = .active := by
  rcases continues.status with kept | ⟨wasActive, -⟩
  · exact kept ▸ isActive
  · exact wasActive

end Version.Continues

namespace MemoryDb

def numbers (db : MemoryDb) (memoryId : Uuid) : List ℕ := (db.versionsOf memoryId).map Version.number

/-- What holds after any calls. -/
structure Sound (db : MemoryDb) : Prop where
  ids : (db.versions.map Version.id).Nodup
  memory : ∀ version ∈ db.versions, version.memoryId ∈ db.memories
  ends : ∀ relation ∈ db.relations,
    (∃ version ∈ db.versions, version.id = relation.newer) ∧ ∃ version ∈ db.versions, version.id = relation.older
  numbered : ∀ memoryId, (db.numbers memoryId).Perm (List.range' 1 (db.numbers memoryId).length)
  active_highest : ∀ version ∈ db.versions, version.status = .active →
    ∀ other ∈ db.versions, other.memoryId = version.memoryId → other.number ≤ version.number
  acyclic : Acyclic db.acyclicEdges
  one_successor : ∀ first ∈ db.relations, ∀ second ∈ db.relations, first.kind = .supersedes → second.kind = .supersedes →
    first.older = second.older → first.newer = second.newer

def Kept (db db' : MemoryDb) : Prop := ∀ version ∈ db.versions, ∃ later ∈ db'.versions, later.Continues version

theorem Kept.refl (db : MemoryDb) : Kept db db := fun version isRow => ⟨version, isRow, .refl version⟩

theorem Kept.trans {a b c : MemoryDb} (first : Kept a b) (second : Kept b c) : Kept a c := by
  intro version isRow
  obtain ⟨middle, isMiddle, continued⟩ := first version isRow
  obtain ⟨later, isLater, continues⟩ := second middle isMiddle
  exact ⟨later, isLater, continues.trans continued⟩

theorem mem_versionsOf {db : MemoryDb} {memoryId : Uuid} {version : Version} :
    version ∈ db.versionsOf memoryId ↔ version ∈ db.versions ∧ version.memoryId = memoryId := by
  simp [versionsOf]

theorem mem_acyclicEdges {db : MemoryDb} {edge : Uuid × Uuid} :
    edge ∈ db.acyclicEdges ↔ ∃ relation ∈ db.relations, relation.kind.isAcyclic = true ∧
      (relation.newer, relation.older) = edge := by
  simp [acyclicEdges, and_assoc]

namespace Sound

variable {db : MemoryDb}

theorem number_of_current (sound : Sound db) {memoryId : Uuid} {row : Version} (isCurrent : db.current memoryId = some row) :
    row.number = (db.numbers memoryId).length := by
  have isRow : row ∈ db.versionsOf memoryId := argmax_mem isCurrent
  have isNumber : row.number ∈ db.numbers memoryId := mem_map_of_mem isRow
  have inRange := (sound.numbered memoryId).mem_iff.mp isNumber
  rw [mem_range'_1] at inRange
  have last : (db.numbers memoryId).length ∈ db.numbers memoryId := by
    rw [(sound.numbered memoryId).mem_iff, mem_range'_1]
    omega
  obtain ⟨other, isOther, isLast⟩ := mem_map.mp last
  have highest : other.number ≤ row.number := le_of_mem_argmax isOther isCurrent
  omega

theorem number_le (sound : Sound db) {version : Version} (isRow : version ∈ db.versions) :
    1 ≤ version.number ∧ version.number ≤ (db.numbers version.memoryId).length := by
  have isNumber : version.number ∈ db.numbers version.memoryId :=
    mem_map_of_mem (mem_versionsOf.mpr ⟨isRow, rfl⟩)
  have inRange := (sound.numbered _).mem_iff.mp isNumber
  rw [mem_range'_1] at inRange
  omega

theorem eq_of_number (sound : Sound db) {a b : Version} (first : a ∈ db.versions) (second : b ∈ db.versions)
    (sameMemory : a.memoryId = b.memoryId) (sameNumber : a.number = b.number) : a = b := by
  have distinct : (db.numbers b.memoryId).Nodup := (sound.numbered _).nodup_iff.mpr nodup_range'
  exact inj_on_of_nodup_map distinct (mem_versionsOf.mpr ⟨first, sameMemory⟩) (mem_versionsOf.mpr ⟨second, rfl⟩)
    sameNumber

theorem current_eq_some (sound : Sound db) {memoryId : Uuid} {row : Version} :
    db.current memoryId = some row ↔
      row ∈ db.versions ∧ row.memoryId = memoryId ∧ row.number = (db.numbers memoryId).length := by
  constructor
  · intro isCurrent
    obtain ⟨isRow, isIts⟩ := mem_versionsOf.mp (argmax_mem isCurrent)
    exact ⟨isRow, isIts, sound.number_of_current isCurrent⟩
  · rintro ⟨isRow, isIts, isLast⟩
    cases isCurrent : db.current memoryId with
    | none =>
      have nothing : db.versionsOf memoryId = [] := argmax_eq_none.mp isCurrent
      exact absurd (mem_versionsOf.mpr ⟨isRow, isIts⟩) (nothing ▸ not_mem_nil)
    | some other =>
      obtain ⟨isOther, isOthers⟩ := mem_versionsOf.mp (argmax_mem isCurrent)
      have same := sound.eq_of_number isOther isRow (isOthers.trans isIts.symm)
        ((sound.number_of_current isCurrent).trans isLast.symm)
      exact congrArg some same

theorem eq_of_active (sound : Sound db) {a b : Version} (first : a ∈ db.versions) (second : b ∈ db.versions)
    (sameMemory : a.memoryId = b.memoryId) (firstActive : a.status = .active) (secondActive : b.status = .active) : a = b := by
  have le := sound.active_highest b second secondActive a first sameMemory
  have ge := sound.active_highest a first firstActive b second sameMemory.symm
  exact sound.eq_of_number first second sameMemory (Nat.le_antisymm le ge)

end Sound

/-! ### The statements of the calls -/

/-- The audience of the next version: the same, or a person who may change the memory of the project it was in. -/
def Narrowed (db : MemoryDb) (current new : Audience) : Prop :=
  new = current ∨ ∃ projectId actor principal state, current = .project projectId ∧ new = .user actor.userId ∧
    db.projectMember actor projectId = some (principal, state) ∧
    (Authz.decidePolicy principal .projectMemoryUse (.project projectId state)).allowed = true

/-- A statement that is made in a sound state. -/
inductive Write (db : MemoryDb) : MemoryDb → Prop
  | status (f : Version → Version) (continues : ∀ version ∈ db.versions, (f version).Continues version) :
    Write db { db with versions := db.versions.map f }
  | version (new : Version) (freshId : ∀ row ∈ db.versions, row.id ≠ new.id) (isMemory : new.memoryId ∈ db.memories)
    (next : new.number = (db.numbers new.memoryId).length + 1)
    (noneActive : ∀ row ∈ db.versions, row.memoryId = new.memoryId → row.status ≠ .active)
    (narrowed : ∀ row, db.current new.memoryId = some row → db.Narrowed row.audience new.audience) :
    Write db { db with versions := db.versions ++ [new] }
  | memory (memoryId : Uuid) : Write db { db with memories := db.memories ++ [memoryId] }
  | relation (new : MemoryRelation)
    (ends : (∃ row ∈ db.versions, row.id = new.newer) ∧ ∃ row ∈ db.versions, row.id = new.older)
    (alone : new.kind = .supersedes → ∀ row ∈ db.relations, row.kind = .supersedes → row.older ≠ new.older)
    (apart : new.kind.isAcyclic = true → ¬ReflTransGen (Joined db.acyclicEdges) new.older new.newer) :
    Write db { db with relations := new :: db.relations }
  | sources (carried : List Source) : Write db { db with sources := carried }

namespace Write

variable {db db' : MemoryDb}

theorem kept (write : Write db db') : Kept db db' := by
  cases write with
  | status f continues => exact fun version isRow => ⟨f version, mem_map_of_mem isRow, continues version isRow⟩
  | version new => exact fun version isRow => ⟨version, mem_append_left _ isRow, .refl version⟩
  | memory | relation | sources => exact Kept.refl db

variable {f : Version → Version}

theorem numbers_map (continues : ∀ version ∈ db.versions, (f version).Continues version)
    (memoryId : Uuid) : { db with versions := db.versions.map f }.numbers memoryId = db.numbers memoryId := by
  unfold numbers versionsOf
  rw [filter_map, map_map]
  have sameRows : db.versions.filter ((fun version => decide (version.memoryId = memoryId)) ∘ f) =
      db.versions.filter fun version => decide (version.memoryId = memoryId) := by
    refine filter_congr fun version isRow => ?_
    rw [Function.comp_apply, (continues version isRow).memoryId_eq]
  rw [sameRows]
  refine map_congr_left fun version isRow => ?_
  exact (continues version (mem_filter.mp isRow).1).number_eq

theorem numbers_append (new : Version) (memoryId : Uuid) :
    { db with versions := db.versions ++ [new] }.numbers memoryId =
      if new.memoryId = memoryId then db.numbers memoryId ++ [new.number] else db.numbers memoryId := by
  unfold numbers versionsOf
  rw [filter_append, map_append]
  by_cases isIts : new.memoryId = memoryId
  · rw [if_pos isIts, filter_singleton, decide_eq_true isIts]
    rfl
  · rw [if_neg isIts, filter_singleton, decide_eq_false isIts]
    exact append_nil _

theorem sound_status (sound : Sound db) (continues : ∀ version ∈ db.versions, (f version).Continues version) :
    Sound { db with versions := db.versions.map f } := by
  have here : ∀ id, (∃ version ∈ db.versions, version.id = id) → ∃ version ∈ db.versions.map f, version.id = id := by
    rintro id ⟨version, isRow, rfl⟩
    exact ⟨f version, mem_map_of_mem isRow, (continues version isRow).id_eq⟩
  refine ⟨?_, ?_, fun relation isRelation => ?_, fun memoryId => ?_, ?_, sound.acyclic, sound.one_successor⟩
  · show ((db.versions.map f).map Version.id).Nodup
    rw [map_map]
    have same : db.versions.map (Version.id ∘ f) = db.versions.map Version.id :=
      map_congr_left fun version isRow => (continues version isRow).id_eq
    rw [same]
    exact sound.ids
  · intro later isLater
    obtain ⟨version, isRow, rfl⟩ := mem_map.mp isLater
    rw [(continues version isRow).memoryId_eq]
    exact sound.memory version isRow
  · obtain ⟨newer, older⟩ := sound.ends relation isRelation
    exact ⟨here _ newer, here _ older⟩
  · rw [numbers_map continues]
    exact sound.numbered memoryId
  · intro later isLater isActive other isOther sameMemory
    obtain ⟨version, isRow, rfl⟩ := mem_map.mp isLater
    obtain ⟨earlier, isEarlier, rfl⟩ := mem_map.mp isOther
    have ofVersion := continues version isRow
    have ofEarlier := continues earlier isEarlier
    rw [ofVersion.memoryId_eq, ofEarlier.memoryId_eq] at sameMemory
    rw [ofVersion.number_eq, ofEarlier.number_eq]
    exact sound.active_highest version isRow (ofVersion.active isActive) earlier isEarlier sameMemory

theorem sound_version (sound : Sound db) {new : Version} (freshId : ∀ row ∈ db.versions, row.id ≠ new.id)
    (isMemory : new.memoryId ∈ db.memories) (next : new.number = (db.numbers new.memoryId).length + 1)
    (noneActive : ∀ row ∈ db.versions, row.memoryId = new.memoryId → row.status ≠ .active) :
    Sound { db with versions := db.versions ++ [new] } := by
  have here : ∀ id, (∃ version ∈ db.versions, version.id = id) → ∃ version ∈ db.versions ++ [new], version.id = id := by
    rintro id ⟨version, isRow, rfl⟩
    exact ⟨version, mem_append_left _ isRow, rfl⟩
  refine ⟨?_, ?_, fun relation isRelation => ?_, fun memoryId => ?_, ?_, sound.acyclic, sound.one_successor⟩
  · show ((db.versions ++ [new]).map Version.id).Nodup
    rw [map_append, nodup_append]
    refine ⟨sound.ids, nodup_singleton _, fun id old id' isNew => ?_⟩
    obtain ⟨row, isRow, rfl⟩ := mem_map.mp old
    rw [map_singleton, mem_singleton] at isNew
    exact isNew ▸ freshId row isRow
  · intro version isRow
    rcases mem_append.mp isRow with isOld | isNew
    · exact sound.memory version isOld
    · rw [mem_singleton.mp isNew]
      exact isMemory
  · obtain ⟨newer, older⟩ := sound.ends relation isRelation
    exact ⟨here _ newer, here _ older⟩
  · rw [numbers_append]
    by_cases isIts : new.memoryId = memoryId
    · subst isIts
      rw [if_pos rfl, length_append, length_singleton, range'_1_concat, next, Nat.add_comm 1]
      exact (sound.numbered _).append_right _
    · rw [if_neg isIts]
      exact sound.numbered memoryId
  · intro version isRow isActive other isOther sameMemory
    rcases mem_append.mp isRow with isOld | isNew <;> rcases mem_append.mp isOther with otherOld | otherNew
    · exact sound.active_highest version isOld isActive other otherOld sameMemory
    · rw [mem_singleton.mp otherNew] at sameMemory
      exact absurd isActive (noneActive version isOld sameMemory.symm)
    · rw [mem_singleton.mp isNew] at sameMemory ⊢
      have le := (sound.number_le otherOld).2
      rw [sameMemory] at le
      omega
    · rw [mem_singleton.mp isNew, mem_singleton.mp otherNew]

theorem acyclicEdges_cons (new : MemoryRelation) :
    { db with relations := new :: db.relations }.acyclicEdges =
      if new.kind.isAcyclic = true then (new.newer, new.older) :: db.acyclicEdges else db.acyclicEdges := by
  unfold acyclicEdges
  by_cases isAcyclic : new.kind.isAcyclic = true
  · rw [if_pos isAcyclic]
    simp [isAcyclic]
  · rw [if_neg isAcyclic]
    simp [isAcyclic]

theorem sound_relation (sound : Sound db) {new : MemoryRelation}
    (ends : (∃ row ∈ db.versions, row.id = new.newer) ∧ ∃ row ∈ db.versions, row.id = new.older)
    (alone : new.kind = .supersedes → ∀ row ∈ db.relations, row.kind = .supersedes → row.older ≠ new.older)
    (apart : new.kind.isAcyclic = true → ¬ReflTransGen (Joined db.acyclicEdges) new.older new.newer) :
    Sound { db with relations := new :: db.relations } := by
  refine ⟨sound.ids, sound.memory, ?_, sound.numbered, sound.active_highest, ?_, ?_⟩
  · intro relation isRelation
    rcases mem_cons.mp isRelation with rfl | isOld
    · exact ends
    · exact sound.ends relation isOld
  · rw [acyclicEdges_cons]
    by_cases isAcyclic : new.kind.isAcyclic = true
    · rw [if_pos isAcyclic]
      exact sound.acyclic.cons (apart isAcyclic)
    · rw [if_neg isAcyclic]
      exact sound.acyclic
  · intro first isFirst second isSecond firstKind secondKind sameOlder
    rcases mem_cons.mp isFirst with rfl | firstOld <;> rcases mem_cons.mp isSecond with rfl | secondOld
    · rfl
    · exact absurd sameOlder.symm (alone firstKind second secondOld secondKind)
    · exact absurd sameOlder (alone secondKind first firstOld firstKind)
    · exact sound.one_successor first firstOld second secondOld firstKind secondKind sameOlder

theorem sound (write : Write db db') (sound : Sound db) : Sound db' := by
  cases write with
  | status f continues => exact sound_status sound continues
  | version new freshId isMemory next noneActive narrowed => exact sound_version sound freshId isMemory next noneActive
  | memory memoryId =>
    exact ⟨sound.ids, fun version isRow => mem_append_left _ (sound.memory version isRow), sound.ends, sound.numbered,
      sound.active_highest, sound.acyclic, sound.one_successor⟩
  | relation new ends alone apart => exact sound_relation sound ends alone apart
  | sources carried =>
    exact ⟨sound.ids, sound.memory, sound.ends, sound.numbered, sound.active_highest, sound.acyclic, sound.one_successor⟩

theorem current_of_status (sound : Sound db)
    (continues : ∀ version ∈ db.versions, (f version).Continues version) {memoryId : Uuid} {later : Version}
    (isCurrent : { db with versions := db.versions.map f }.current memoryId = some later) :
    ∃ row, db.current memoryId = some row ∧ later.audience = row.audience := by
  obtain ⟨isLater, isIts, isLast⟩ := (sound_status sound continues).current_eq_some.mp isCurrent
  obtain ⟨row, isRow, rfl⟩ := mem_map.mp isLater
  have continued := continues row isRow
  rw [numbers_map continues, continued.number_eq] at isLast
  refine ⟨row, sound.current_eq_some.mpr ⟨isRow, continued.memoryId_eq.symm.trans isIts, isLast⟩, ?_⟩
  rw [continued.same]

end Write

/-- Statements one after the other. -/
abbrev Writes : MemoryDb → MemoryDb → Prop := ReflTransGen Write

theorem Writes.sound {db db' : MemoryDb} (writes : Writes db db') (sound : Sound db) : Sound db' := by
  induction writes with
  | refl => exact sound
  | tail _ write ih => exact write.sound ih

theorem Writes.kept {db db' : MemoryDb} (writes : Writes db db') : Kept db db' := by
  induction writes with
  | refl => exact Kept.refl db
  | tail _ write ih => exact ih.trans write.kept

/-! ### Every call is made of such statements -/

section Statements

variable {db db' : MemoryDb}

variable {version : Version} {new : MemoryStatus}

theorem setStatus_eq_ok (done : db.setStatus version new = .ok db') :
    db' = { db with versions := db.versions.map fun row =>
      if row.id = version.id ∧ row.status = version.status then { row with status := new } else row } := by
  unfold setStatus at done
  split_ifs at done
  exact (pure_eq_ok.mp done).symm

theorem continues_retired (isActive : version.status = .active) (left : new ≠ .active) (row : Version) :
    Version.Continues (if row.id = version.id ∧ row.status = version.status then { row with status := new } else row) row := by
  by_cases isIt : row.id = version.id ∧ row.status = version.status
  · rw [if_pos isIt]
    exact ⟨rfl, .inr ⟨isIt.2.trans isActive, left⟩⟩
  · rw [if_neg isIt]
    exact .refl row

/-- At most the status of a version was changed. -/
structure Retired (db db' : MemoryDb) : Prop where
  writes : Writes db db'
  numbers : ∀ memoryId, db'.numbers memoryId = db.numbers memoryId
  relations : db'.relations = db.relations
  current : ∀ memoryId later, db'.current memoryId = some later →
    ∃ row, db.current memoryId = some row ∧ later.audience = row.audience
  projectMember : ∀ actor projectId, db'.projectMember actor projectId = db.projectMember actor projectId

theorem Retired.refl (db : MemoryDb) : Retired db db :=
  ⟨.refl, fun _ => rfl, rfl, fun _ row isCurrent => ⟨row, isCurrent, rfl⟩, fun _ _ => rfl⟩

theorem setStatus_retired (sound : Sound db)
    (done : db.setStatus version new = .ok db') (isActive : version.status = .active) (left : new ≠ .active) :
    Retired db db' := by
  have continues := fun row (_ : row ∈ db.versions) => continues_retired isActive left row
  have write : Write db db' := by
    rw [setStatus_eq_ok done]
    exact .status _ continues
  rw [setStatus_eq_ok done] at write ⊢
  exact ⟨.single write, Write.numbers_map continues, rfl,
    fun memoryId later isCurrent => Write.current_of_status sound continues isCurrent, fun _ _ => rfl⟩

theorem supersedeIf_retired (sound : Sound db) {condition : Bool}
    (done : db.supersedeIf condition version = .ok db') (isActive : condition = true → version.status = .active) :
    Retired db db' := by
  unfold supersedeIf at done
  by_cases holds : condition = true
  · rw [if_pos holds] at done
    exact setStatus_retired sound done (isActive holds) (by decide)
  · rw [if_neg holds, pure_eq_ok] at done
    exact done ▸ .refl db

theorem insertVersion_write {new : Version} (done : db.insertVersion new = .ok db') (isActive : new.status = .active)
    (next : new.number = (db.numbers new.memoryId).length + 1)
    (narrowed : ∀ row, db.current new.memoryId = some row → db.Narrowed row.audience new.audience) :
    Write db db' ∧ (∀ row ∈ db.versions, row.id ≠ new.id) ∧ db' = { db with versions := db.versions ++ [new] } := by
  simp only [insertVersion, check_eq_ok, pure_eq_ok] at done
  obtain ⟨freshId, isMemory, -, -, noneActive, rfl⟩ := done
  rw [not_not] at isMemory
  have fresh : ∀ row ∈ db.versions, row.id ≠ new.id := fun row isRow same => freshId ⟨row, isRow, same⟩
  refine ⟨.version new fresh isMemory next (fun row isRow sameMemory rowActive => ?_) narrowed, fresh, rfl⟩
  exact noneActive ⟨isActive, row, isRow, sameMemory, rowActive⟩

theorem insertRelation_write {new : MemoryRelation} (done : db.insertRelation new = .ok db')
    (apart : new.kind.isAcyclic = true → ¬ReflTransGen (Joined db.acyclicEdges) new.older new.newer) :
    Write db db' ∧ new.newer ≠ new.older ∧ db' = { db with relations := new :: db.relations } := by
  simp only [insertRelation, check_eq_ok, pure_eq_ok] at done
  obtain ⟨ends, other, -, alone, rfl⟩ := done
  rw [not_not] at ends
  refine ⟨.relation new ends (fun isSupersedes row isRow rowSupersedes same => ?_) apart, other, rfl⟩
  exact alone ⟨isSupersedes, row, isRow, rowSupersedes, same⟩

theorem insertRelation_write_of_unreferenced {new : MemoryRelation} (done : db.insertRelation new = .ok db')
    (unreferenced : ∀ relation ∈ db.relations, relation.older ≠ new.newer) :
    Write db db' ∧ db'.versions = db.versions ∧ ∀ relation ∈ db'.relations, relation.older ≠ new.newer := by
  have notSelf : new.newer ≠ new.older := by
    simp only [insertRelation, check_eq_ok] at done
    exact done.2.1
  obtain ⟨write, -, rfl⟩ := insertRelation_write done fun _ path => by
    refine notSelf.symm (eq_of_path_to_source (fun edge isEdge => ?_) path)
    obtain ⟨relation, isRelation, -, rfl⟩ := mem_acyclicEdges.mp isEdge
    exact unreferenced relation isRelation
  refine ⟨write, rfl, fun relation isRelation => ?_⟩
  rcases mem_cons.mp isRelation with rfl | isOld
  · exact notSelf.symm
  · exact unreferenced relation isOld

theorem carrySources_write (db : MemoryDb) (call : Call) (origin new : Uuid) :
    Write db (db.carrySources call origin new) ∧ (db.carrySources call origin new).relations = db.relations := by
  unfold carrySources
  dsimp only
  split_ifs
  · exact ⟨.sources _, rfl⟩
  · exact ⟨.sources _, rfl⟩

theorem currentFor_eq_ok (sound : Sound db) {call : Call} {memoryId : Uuid} {write : Bool} {grant : Grant}
    (done : db.currentFor call memoryId write = .ok (version, grant)) :
    db.current memoryId = some version ∧ db.authorizeVersion call memoryId version.audience write = .ok grant := by
  simp only [currentFor, load, bind_eq_ok, orThrow_eq_ok, pure_eq_ok] at done
  obtain ⟨row, isCurrent, granted, isGranted, loaded, found, same⟩ := done
  cases same
  obtain ⟨isRow, isIts⟩ := mem_versionsOf.mp (argmax_mem isCurrent)
  have isVersion := mem_of_find?_eq_some found
  have named := find?_some found
  rw [Bool.and_eq_true, decide_eq_true_eq] at named
  have same : version = row := sound.eq_of_number isVersion isRow (named.1.1.trans isIts.symm) named.1.2
  subst same
  exact ⟨isCurrent, isGranted⟩

end Statements

section Calls

variable {db : MemoryDb}

variable {call : Call} {memoryId : Uuid} {reason : Option Text} {reply : Reply} {grant : Grant} {expected : ℕ}

theorem next_writes {base new : Version} {origin : Uuid}
    {retired inserted related : MemoryDb} (insertDone : retired.insertVersion new = .ok inserted)
    (relateDone : (inserted.carrySources call origin new.id).relate call new.id base.id .supersedes reason = .ok related)
    (sound : Sound db) (isCurrent : db.current memoryId = some base) (isRetired : Retired db retired)
    (narrowed : db.Narrowed base.audience new.audience) (sameMemory : new.memoryId = base.memoryId)
    (isNext : new.number = base.number + 1) (isActive : new.status = .active) :
    Writes db related ∧ ∀ relation ∈ related.relations, relation.older ≠ new.id := by
  obtain ⟨-, isIts, isLast⟩ := sound.current_eq_some.mp isCurrent
  have next : new.number = (retired.numbers new.memoryId).length + 1 := by
    rw [sameMemory, isIts, isRetired.numbers, ← isLast]
    exact isNext
  have narrows : ∀ row, retired.current new.memoryId = some row → retired.Narrowed row.audience new.audience := by
    intro row isRow
    rw [sameMemory, isIts] at isRow
    obtain ⟨before, wasCurrent, sameAudience⟩ := isRetired.current memoryId row isRow
    rw [isCurrent, Option.some.injEq] at wasCurrent
    unfold Narrowed
    simp only [isRetired.projectMember, sameAudience, ← wasCurrent]
    exact narrowed
  obtain ⟨insertWrite, freshId, isInserted⟩ := insertVersion_write insertDone isActive next narrows
  obtain ⟨sourcesWrite, sameRelations⟩ := carrySources_write inserted call origin new.id
  have unreferenced : ∀ relation ∈ (inserted.carrySources call origin new.id).relations, relation.older ≠ new.id := by
    intro relation isRelation
    rw [sameRelations, isInserted] at isRelation
    obtain ⟨-, older, isOlder, isItsEnd⟩ := (isRetired.writes.sound sound).ends relation isRelation
    exact isItsEnd ▸ freshId older isOlder
  obtain ⟨relateWrite, -, still⟩ := insertRelation_write_of_unreferenced relateDone unreferenced
  exact ⟨((isRetired.writes.tail insertWrite).tail sourcesWrite).tail relateWrite, still⟩

theorem checkActive_eq_ok {version : Version} {done : Unit} (passed : checkActive version = .ok done) :
    version.status = .active := by
  unfold checkActive at passed
  split_ifs at passed with inactive
  exact not_not.mp inactive

theorem createMemory_writes (sound : Sound db) {draft : MemoryDraft}
    (accepted : db.createMemory call draft = .ok reply) : Writes db reply.db := by
  simp only [createMemory, bind_eq_ok, check_eq_ok, pure_eq_ok] at accepted
  obtain ⟨-, -, -, -, grant, -, freshMemory, inserted, insertDone, rfl⟩ := accepted
  have memoryWrite : Write db { db with memories := db.memories ++ [call.newMemory] } := .memory call.newMemory
  have none : { db with memories := db.memories ++ [call.newMemory] }.numbers call.newMemory = [] := by
    refine map_eq_nil_iff.mpr (filter_eq_nil_iff.mpr fun version isRow isIts => freshMemory ?_)
    rw [decide_eq_true_eq] at isIts
    exact isIts ▸ sound.memory version isRow
  have next : (firstVersion call draft).number =
      ({ db with memories := db.memories ++ [call.newMemory] }.numbers (firstVersion call draft).memoryId).length + 1 := by
    show 1 = ({ db with memories := db.memories ++ [call.newMemory] }.numbers call.newMemory).length + 1
    rw [none]
    rfl
  have new : ∀ row, { db with memories := db.memories ++ [call.newMemory] }.current call.newMemory = some row → False := by
    intro row isRow
    have isNumber : row.number ∈ { db with memories := db.memories ++ [call.newMemory] }.numbers call.newMemory :=
      mem_map_of_mem (argmax_mem isRow)
    rw [none] at isNumber
    exact absurd isNumber not_mem_nil
  exact (ReflTransGen.single memoryWrite).tail
    (insertVersion_write insertDone rfl next fun row isRow => (new row isRow).elim).1

theorem authorizeVersion_project {projectId : Uuid} {write : Bool}
    (authorized : db.authorizeVersion call memoryId (.project projectId) write = .ok grant) :
    ∃ principal state, db.projectMember call.actor projectId = some (principal, state) ∧
      grant = ⟨projectCapability write, .project projectId state⟩ ∧
      (Authz.authorize call.sink principal (projectCapability write) (.project projectId state)).allowed = true := by
  simp only [authorizeVersion, bind_eq_ok, orThrow_eq_ok] at authorized
  obtain ⟨⟨principal, state⟩, isMember, authorized⟩ := authorized
  split_ifs at authorized with allowed
  · exact ⟨principal, state, isMember, (pure_eq_ok.mp authorized).symm, allowed⟩
  · cases authorized

theorem narrowed_of_edit {current : Version} {changes : MemoryChanges} {audience : Audience} {narrowing : List Grant}
    (authorized : db.authorizeVersion call memoryId current.audience true = .ok grant)
    (isNarrowed : narrowed call current changes = .ok (audience, narrowing)) : db.Narrowed current.audience audience := by
  unfold narrowed at isNarrowed
  cases given : changes.scope with
  | none =>
    rw [given] at isNarrowed
    cases pure_eq_ok.mp isNarrowed
    exact .inl rfl
  | some scope =>
    rw [given] at isNarrowed
    simp only at isNarrowed
    by_cases same : scope = current.audience.scope
    · rw [if_pos same] at isNarrowed
      cases pure_eq_ok.mp isNarrowed
      exact .inl rfl
    · rw [if_neg same] at isNarrowed
      simp only [bind_eq_ok] at isNarrowed
      obtain ⟨checked, isChecked, own, -, isResult⟩ := isNarrowed
      cases pure_eq_ok.mp isResult
      unfold checkNarrowing at isChecked
      split_ifs at isChecked with isAllowed
      cases isProject : current.audience with
      | project projectId =>
        rw [isProject] at authorized
        obtain ⟨principal, state, isMember, -, allowed⟩ := authorizeVersion_project authorized
        exact .inr ⟨projectId, call.actor, principal, state, rfl, rfl, isMember, Authz.decidePolicy_of_authorize allowed⟩
      | user | projectGroup | repo | shared =>
        rw [isProject] at isAllowed
        cases isAllowed.1

theorem editMemory_writes (sound : Sound db) {changes : MemoryChanges}
    (accepted : db.editMemory call memoryId expected changes = .ok reply) : Writes db reply.db := by
  simp only [editMemory, bind_eq_ok] at accepted
  obtain ⟨-, -, -, -, ⟨current, grant⟩, isCurrent, -, -, active, isActive, accepted⟩ := accepted
  by_cases unchanged : changedFields current changes = []
  · rw [if_pos unchanged, pure_eq_ok] at accepted
    rw [← accepted]
  rw [if_neg unchanged] at accepted
  simp only [bind_eq_ok, pure_eq_ok] at accepted
  obtain ⟨⟨audience, narrowing⟩, isNarrowed, freshness, -, retired, retireDone, inserted, insertDone, related, relateDone, confirmed,
    confirmDone, rfl⟩ := accepted
  obtain ⟨highest, authorized⟩ := currentFor_eq_ok sound isCurrent
  have isRetired := setStatus_retired sound retireDone (checkActive_eq_ok isActive) (by decide)
  obtain ⟨writes, unreferenced⟩ := next_writes insertDone relateDone sound highest isRetired
    (narrowed_of_edit authorized isNarrowed) rfl rfl rfl
  have promoted : Writes related confirmed ∧ ∀ relation ∈ confirmed.relations,
      relation.older ≠ (editedVersion call current changes audience freshness).id := by
    refine foldlM_invariant (P := fun db => Writes related db ∧ ∀ relation ∈ db.relations, relation.older ≠ _) confirmDone
      (fun middle kind later _ before relateDone => ?_) ⟨.refl, unreferenced⟩
    obtain ⟨write, -, still⟩ := insertRelation_write_of_unreferenced relateDone before.2
    exact ⟨before.1.tail write, still⟩
  exact writes.trans promoted.1

theorem restoreVersion_writes (sound : Sound db) {sourceNumber : ℕ} {spec : Option FreshnessSpec}
    (accepted : db.restoreVersion call memoryId expected sourceNumber spec reason = .ok reply) : Writes db reply.db := by
  simp only [restoreVersion, bind_eq_ok, check_eq_ok, orThrow_eq_ok, pure_eq_ok] at accepted
  obtain ⟨-, -, -, -, -, -, ⟨current, grant⟩, isCurrent, -, -, row, -, -, source, -, -, -, freshness, -, retired, retireDone,
    inserted, insertDone, related, relateDone, rfl⟩ := accepted
  obtain ⟨highest, -⟩ := currentFor_eq_ok sound isCurrent
  have isRetired := supersedeIf_retired sound retireDone of_decide_eq_true
  exact (next_writes insertDone relateDone sound highest isRetired (.inl rfl) rfl rfl rfl).1

theorem deprecateMemory_writes (sound : Sound db)
    (accepted : db.deprecateMemory call memoryId expected = .ok reply) : Writes db reply.db := by
  simp only [deprecateMemory, bind_eq_ok, pure_eq_ok] at accepted
  obtain ⟨-, -, -, -, ⟨current, grant⟩, -, -, -, active, isActive, retired, retireDone, rfl⟩ := accepted
  exact (setStatus_retired sound retireDone (checkActive_eq_ok isActive) (by decide)).writes

theorem revalidateMemory_writes (sound : Sound db)
    (accepted : db.revalidateMemory call memoryId expected reason = .ok reply) : Writes db reply.db := by
  simp only [revalidateMemory, checkRevalidatable, bind_eq_ok, pure_eq_ok] at accepted
  obtain ⟨-, -, -, -, ⟨current, grant⟩, isCurrent, -, -, passed, ⟨active, isActive, -⟩, retired, retireDone, inserted, insertDone,
    related, relateDone, revalidated, revalidateDone, rfl⟩ := accepted
  obtain ⟨highest, -⟩ := currentFor_eq_ok sound isCurrent
  have isRetired := setStatus_retired sound retireDone (checkActive_eq_ok isActive) (by decide)
  obtain ⟨writes, unreferenced⟩ := next_writes insertDone relateDone sound highest isRetired (.inl rfl) rfl rfl rfl
  exact writes.tail (insertRelation_write_of_unreferenced revalidateDone unreferenced).1

theorem relateMemories_writes (sound : Sound db) {relation : ManualRelation} {newerId olderId : Uuid} {newerExpected olderExpected : ℕ}

    (accepted : db.relateMemories call relation newerId newerExpected olderId olderExpected reason = .ok reply) :
    Writes db reply.db := by
  simp only [relateMemories, checkRelatable, checkGraph, bind_eq_ok, check_eq_ok, orThrow_eq_ok, pure_eq_ok] at accepted
  obtain ⟨-, -, -, -, -, -, -, newerRow, -, olderRow, -, newerGrant, -, olderGrant, -, newer, -, older, -, -, -, -, -, -,
    ⟨-, -, -, active, olderActive, -⟩, graph, ⟨-, noCycle⟩, retired, retireDone, related, relateDone, rfl⟩ := accepted
  have isRetired := supersedeIf_retired sound retireDone fun _ => checkActive_eq_ok olderActive
  have sameEdges : retired.acyclicEdges = db.acyclicEdges := by
    unfold acyclicEdges
    rw [isRetired.relations]
  refine isRetired.writes.tail (insertRelation_write relateDone fun isAcyclic path => ?_).1
  rw [sameEdges] at path
  split_ifs at noCycle with cycle
  exact cycle ⟨isAcyclic, mem_reach.mpr path⟩

theorem deprecated_ne_active : MemoryStatus.deprecated ≠ .active := by decide

theorem maintain_write (db : MemoryDb) (job : FreshnessJob) (batch : ℕ) (now : Instant) (locked : List Uuid) :
    Write db (db.maintain job batch now locked) := by
  refine .status _ fun version _ => ?_
  by_cases isChosen : version.id ∈ ((((db.versions.filter fun version =>
      decide (version.status = .active ∧ job.concerns db.sources now version = true ∧ version.id ∉ locked)).map
        Version.id).insertionSort fun a b => a.toNat ≤ b.toNat).take batch) ∧ version.status = .active
  · rw [if_pos isChosen]
    cases job with
    | markRevalidationDue | markTriggered | markRepoHead => exact ⟨rfl, .inl rfl⟩
    | expireDue | endSession | endTask => exact ⟨rfl, .inr ⟨isChosen.2, deprecated_ne_active⟩⟩
  · rw [if_neg isChosen]
    exact .refl version

theorem perform_writes (sound : Sound db) {event : MemoryEvent} (accepted : db.perform event = .ok reply) :
    Writes db reply.db ∨ ∃ state role, event = .projects state role := by
  cases event with
  | createMemory call draft => exact .inl (createMemory_writes sound accepted)
  | editMemory call memoryId expected changes => exact .inl (editMemory_writes sound accepted)
  | restoreVersion call memoryId expected sourceNumber spec reason => exact .inl (restoreVersion_writes sound accepted)
  | deprecateMemory call memoryId expected => exact .inl (deprecateMemory_writes sound accepted)
  | revalidateMemory call memoryId expected reason => exact .inl (revalidateMemory_writes sound accepted)
  | relateMemories call relation newerId newerExpected olderId olderExpected reason => exact .inl (relateMemories_writes sound accepted)
  | maintain job batch now locked =>
    cases accepted
    exact .inl (.single (maintain_write db job batch now locked))
  | projects state role => exact .inr ⟨state, role, rfl⟩

end Calls

end MemoryDb

/-! ### Refused calls and whole runs -/

def MemoryEvent.expects : MemoryEvent → List (Uuid × ℕ)
  | .editMemory _ memoryId expected _ => [(memoryId, expected)]
  | .restoreVersion _ memoryId expected _ _ _ => [(memoryId, expected)]
  | .deprecateMemory _ memoryId expected => [(memoryId, expected)]
  | .revalidateMemory _ memoryId expected _ => [(memoryId, expected)]
  | .relateMemories _ _ newerId newerExpected olderId olderExpected _ => [(newerId, newerExpected), (olderId, olderExpected)]
  | .createMemory _ _ | .maintain _ _ _ _ | .projects _ _ => []

namespace MemoryDb

variable {db : MemoryDb}

theorem checkExpected_eq_ok {version : Version} {expected : ℕ} {done : Unit} (passed : checkExpected version expected = .ok done) :
    version.number = expected := by
  unfold checkExpected at passed
  split_ifs at passed with other
  exact not_not.mp other

theorem number_of_load {actor : Authz.Principal} {allowed : Audience} {memoryId : Uuid} {number : ℕ} {version : Version}
    (loaded : db.load actor allowed memoryId number = .ok version) : version.number = number := by
  have named := find?_some (orThrow_eq_ok.mp loaded)
  rw [Bool.and_eq_true, decide_eq_true_eq] at named
  exact named.1.2

theorem expected_of_currentFor {call : Call} {memoryId : Uuid} {write : Bool} {read : Version × Grant} {expected : ℕ} {done : Unit}
    (isCurrent : db.currentFor call memoryId write = .ok read) (passed : checkExpected read.1 expected = .ok done) :
    ∃ row, db.current memoryId = some row ∧ row.number = expected := by
  simp only [currentFor, bind_eq_ok, orThrow_eq_ok, pure_eq_ok] at isCurrent
  obtain ⟨row, isRow, grant, -, version, loaded, rfl⟩ := isCurrent
  exact ⟨row, isRow, (number_of_load loaded).symm.trans (checkExpected_eq_ok passed)⟩

variable {event : MemoryEvent}

theorem expected_of_perform {reply : Reply} (accepted : db.perform event = .ok reply) :
    ∀ expectation ∈ event.expects, ∃ row, db.current expectation.1 = some row ∧ row.number = expectation.2 := by
  cases event with
  | createMemory | maintain | projects => exact fun _ none => absurd none not_mem_nil
  | editMemory call memoryId expected changes =>
    simp only [perform, editMemory, bind_eq_ok] at accepted
    obtain ⟨-, -, -, -, read, isCurrent, checked, passed, -⟩ := accepted
    exact forall_mem_singleton.mpr (expected_of_currentFor isCurrent passed)
  | restoreVersion call memoryId expected sourceNumber spec reason =>
    simp only [perform, restoreVersion, bind_eq_ok] at accepted
    obtain ⟨-, -, -, -, -, -, read, isCurrent, checked, passed, -⟩ := accepted
    exact forall_mem_singleton.mpr (expected_of_currentFor isCurrent passed)
  | deprecateMemory call memoryId expected =>
    simp only [perform, deprecateMemory, bind_eq_ok] at accepted
    obtain ⟨-, -, -, -, read, isCurrent, checked, passed, -⟩ := accepted
    exact forall_mem_singleton.mpr (expected_of_currentFor isCurrent passed)
  | revalidateMemory call memoryId expected reason =>
    simp only [perform, revalidateMemory, bind_eq_ok] at accepted
    obtain ⟨-, -, -, -, read, isCurrent, checked, passed, -⟩ := accepted
    exact forall_mem_singleton.mpr (expected_of_currentFor isCurrent passed)
  | relateMemories call relation newerId newerExpected olderId olderExpected reason =>
    simp only [perform, relateMemories, bind_eq_ok, check_eq_ok, orThrow_eq_ok] at accepted
    obtain ⟨-, -, -, -, -, -, -, newerRow, isNewer, olderRow, isOlder, -, -, -, -, newer, newerLoaded, older, olderLoaded,
      newerChecked, newerPassed, olderChecked, olderPassed, -⟩ := accepted
    refine forall_mem_cons.mpr ⟨⟨newerRow, isNewer, ?_⟩, forall_mem_singleton.mpr ⟨olderRow, isOlder, ?_⟩⟩
    · exact (number_of_load newerLoaded).symm.trans (checkExpected_eq_ok newerPassed)
    · exact (number_of_load olderLoaded).symm.trans (checkExpected_eq_ok olderPassed)

theorem next_of_refused {error : VersioningError} (refused : db.perform event = .error error) :
    db.next event = db := by
  unfold next
  rw [refused]

theorem next_of_perform {reply : Reply} (accepted : db.perform event = .ok reply) :
    db.next event = reply.db := by
  unfold next
  rw [accepted]

theorem next_writes_or (sound : Sound db) (event : MemoryEvent) :
    Writes db (db.next event) ∨ ∃ state role, db.next event = { db with projectState := state, memberRole := role } := by
  cases performed : db.perform event with
  | error error =>
    rw [next_of_refused performed]
    exact .inl .refl
  | ok reply =>
    rcases perform_writes sound performed with writes | ⟨state, role, rfl⟩
    · rw [next_of_perform performed]
      exact .inl writes
    · exact .inr ⟨state, role, rfl⟩

theorem run_sound_kept (sound : Sound db) (events : List MemoryEvent) : Sound (db.run events) ∧ Kept db (db.run events) := by
  induction events generalizing db with
  | nil => exact ⟨sound, Kept.refl db⟩
  | cons event events ih =>
    have step : Sound (db.next event) ∧ Kept db (db.next event) := by
      rcases next_writes_or sound event with writes | ⟨state, role, isNext⟩
      · exact ⟨Writes.sound writes sound, Writes.kept writes⟩
      · rw [isNext]
        exact ⟨⟨sound.ids, sound.memory, sound.ends, sound.numbered, sound.active_highest, sound.acyclic,
          sound.one_successor⟩, Kept.refl db⟩
    obtain ⟨soundAfter, keptAfter⟩ := ih step.1
    exact ⟨soundAfter, step.2.trans keptAfter⟩

theorem run_append (db : MemoryDb) (past later : List MemoryEvent) : db.run (past ++ later) = (db.run past).run later :=
  foldl_append

/-- Memory history is never rewritten and never forks, whatever is called in whatever order. -/
theorem history_kept (start : MemoryDb) (sound : Sound start) (past later : List MemoryEvent) :
    Sound (start.run past) ∧
    (∀ a ∈ (start.run past).versions, ∀ b ∈ (start.run past).versions, a.memoryId = b.memoryId →
      a.status = .active → b.status = .active → a = b) ∧
    Kept (start.run past) (start.run (past ++ later)) ∧
    (∀ event error, (start.run past).perform event = .error error → (start.run past).next event = start.run past) ∧
    ∀ event, ∀ expectation ∈ event.expects,
      (∀ row, (start.run past).current expectation.1 = some row → row.number ≠ expectation.2) →
      (start.run past).next event = start.run past := by
  obtain ⟨soundPast, -⟩ := run_sound_kept sound past
  refine ⟨soundPast, fun a isA b isB sameMemory => soundPast.eq_of_active isA isB sameMemory, ?_,
    fun event error refused => next_of_refused refused, fun event expectation isIts other => ?_⟩
  · rw [run_append]
    exact (run_sound_kept soundPast later).2
  · cases performed : (start.run past).perform event with
    | error error => exact next_of_refused performed
    | ok reply =>
      obtain ⟨row, isCurrent, isExpected⟩ := expected_of_perform performed expectation isIts
      exact absurd isExpected (other row isCurrent)

def empty : MemoryDb :=
  { memories := [], versions := [], relations := [], sources := [], projectState := fun _ => none, memberRole := fun _ _ => none }

theorem sound_empty : Sound empty :=
  ⟨nodup_nil, fun _ isRow => absurd isRow not_mem_nil, fun _ isRow => absurd isRow not_mem_nil,
    fun _ => .nil, fun _ isRow => absurd isRow not_mem_nil, acyclic_nil, fun _ isRow => absurd isRow not_mem_nil⟩

end MemoryDb

/-- A call of a person, with ids of its own. -/
def sampleCall (fresh : Uuid) : Call :=
  { actor := { userId := 7, systemRole := .user }, now := 0, newMemory := fresh, newVersion := fresh, sink := fun _ _ => true }

/-- A memory is written, edited, retired and restored; the second edit comes too late. -/
def sampleEvents : List MemoryEvent :=
  [.createMemory (sampleCall 1) { projectId := none, memoryType := [102], title := [65], content := [65] },
   .editMemory (sampleCall 2) 1 1 { content := some [66] }, .editMemory (sampleCall 3) 1 1 { content := some [67] },
   .deprecateMemory (sampleCall 4) 1 2, .restoreVersion (sampleCall 5) 1 2 1 none none]

theorem sampleEvents_kept :
    ((MemoryDb.empty.run sampleEvents).versions.map fun version => (version.number, version.status, version.content)) =
      [(1, .superseded, [65]), (2, .deprecated, [66]), (3, .active, [65])] ∧
    MemoryDb.Sound (MemoryDb.empty.run sampleEvents) :=
  ⟨by decide, (MemoryDb.history_kept MemoryDb.empty MemoryDb.sound_empty sampleEvents []).1⟩

end PawBackend.Memory
