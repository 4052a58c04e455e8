/-
**Consolidation respects the order of turns** (`memory/journal/applier.py`, `memory/journal/rules.py`).

Outputs are applied in any order. What keeps the order of the turns is the guard of a key: the entry behind what was
last written for it or retired it.
-/

import PawBackend.Memory.Consolidation
import PawBackend.Memory.History
import Mathlib.Data.Prod.Lex

namespace PawBackend.Memory

open Lib List
open Tools (Uuid Instant uuidText uuidText_injective)
open Relation (ReflTransGen)

/-! ### Entries in time -/

structure Timeline where
  recorded : Uuid → ℕ → Instant
  monotone : ∀ conversation (a b : ℕ), a ≤ b → recorded conversation a ≤ recorded conversation b

def Timeline.Has (timeline : Timeline) (order : OrderKey) : Prop :=
  order.recordedAt = timeline.recorded order.conversationId order.eventSequence

/-- Where an entry sits among all others. -/
def OrderKey.rank (order : OrderKey) : ℤ ×ₗ Text ×ₗ ℕ :=
  toLex (order.recordedAt, toLex (uuidText order.conversationId, order.eventSequence))

theorem isNewer_iff {timeline : Timeline} {a b : OrderKey} (first : timeline.Has a) (second : timeline.Has b) :
    isNewer a b = true ↔ b.rank < a.rank := by
  unfold isNewer OrderKey.rank
  rw [Prod.Lex.toLex_lt_toLex, Prod.Lex.toLex_lt_toLex]
  by_cases same : a.conversationId = b.conversationId
  · rw [if_pos same, decide_eq_true_eq]
    unfold Timeline.Has at first second
    rw [← same] at second
    simp only [same, lt_irrefl, true_and, false_or]
    constructor
    · intro later
      have le : b.recordedAt ≤ a.recordedAt := by
        rw [first, second]
        exact timeline.monotone _ _ _ later.le
      rcases le.lt_or_eq with before | atOnce
      · exact .inl before
      · exact .inr ⟨atOnce, later⟩
    · rintro (before | ⟨-, later⟩)
      · by_contra notLater
        have le : a.recordedAt ≤ b.recordedAt := by
          rw [first, second]
          exact timeline.monotone _ _ _ (not_lt.mp notLater)
        exact absurd before (not_lt.mpr le)
      · exact later
  · rw [if_neg same, decide_eq_true_eq]
    have otherText : uuidText b.conversationId ≠ uuidText a.conversationId :=
      fun equal => same (uuidText_injective equal).symm
    simp only [otherText, false_and, or_false]

theorem isNewer_eq_false {timeline : Timeline} {a b : OrderKey} (first : timeline.Has a) (second : timeline.Has b) :
    isNewer a b = false ↔ a.rank ≤ b.rank := by
  rw [← not_lt, ← isNewer_iff first second, Bool.not_eq_true]

/-! ### What an item leads to -/

theorem holdForTarget_eq_none {target : Option CurrentMemory} (passes : holdForTarget target = none) :
    ∀ memory ∈ target, memory.isActiveWidened = false ∧ memory.isActiveConfirmed = false := by
  rintro memory rfl
  simp only [holdForTarget, Option.bind_some] at passes
  split_ifs at passes with widened confirmed
  exact ⟨Bool.eq_false_of_not_eq_true widened, Bool.eq_false_of_not_eq_true confirmed⟩

theorem holdForTarget_getD {target : Option CurrentMemory} {result written : ItemResult} (isResult : (holdForTarget target).getD result = written)
    (notHeld : written ≠ .heldWidened ∧ written ≠ .heldConfirmed) : holdForTarget target = none ∧ result = written := by
  cases target with
  | none => exact ⟨rfl, isResult⟩
  | some memory =>
    simp only [holdForTarget, Option.bind_some] at isResult ⊢
    split_ifs at isResult ⊢ with widened confirmed
    · exact absurd isResult.symm notHeld.1
    · exact absurd isResult.symm notHeld.2
    · exact ⟨rfl, isResult⟩

/-- What the latest version of an item's own key must be for a new version. -/
structure Replaceable (entry : OrderKey) (applied : Option OrderKey) (memory : CurrentMemory) : Prop where
  status : memory.status ≠ .deprecated ∧ memory.status ≠ .history
  notRejected : memory.confirmation ≠ .rejected
  newer : ∀ order ∈ applied, isNewer entry order = true
  notWidened : memory.widened = false
  notConfirmed : ¬(memory.status = .active ∧ memory.confirmation = .confirmed)

section Plan

variable {fold : Folding} {item : WorkerMemory} {entry : OrderKey} {current : Option CurrentMemory} {applied : Option OrderKey}
  {target : Option CurrentMemory}

theorem newer_of_any {order : Option OrderKey} (notStale : ¬(order.any fun order => !isNewer entry order) = true) :
    ∀ applied ∈ order, isNewer entry applied = true := by
  rintro applied rfl
  simpa using notStale

theorem planItem_judged {result : ItemResult} (planned : planItem fold item entry current applied target = result)
    (judged : result ≠ .refusedShared ∧ result ≠ .noContent ∧ result ≠ .heldHighRisk) :
    (current = none ∧ (holdForTarget target).getD .created = result) ∨
      ∃ memory content, current = some memory ∧ planKnown content entry memory applied target = result := by
  unfold planItem at planned
  by_cases shared : item.scope = .shared
  · rw [if_pos shared] at planned
    exact absurd planned.symm judged.1
  rw [if_neg shared] at planned
  cases given : item.content with
  | none =>
    rw [given] at planned
    exact absurd planned.symm judged.2.1
  | some content =>
    rw [given] at planned
    simp only at planned
    by_cases risky : isHighRisk fold [item.key, content] = true
    · rw [if_pos risky] at planned
      exact absurd planned.symm judged.2.2
    rw [if_neg risky] at planned
    cases current with
    | none => exact .inl ⟨rfl, planned⟩
    | some memory => exact .inr ⟨memory, content, rfl, planned⟩

theorem planKnown_passes {content : Text} {memory : CurrentMemory} {result : ItemResult}
    (planned : planKnown content entry memory applied target = result) (passed : result ≠ .blocked ∧ result ≠ .stale) :
    (memory.status ≠ .deprecated ∧ memory.status ≠ .history) ∧ memory.confirmation ≠ .rejected ∧
      (∀ order ∈ applied, isNewer entry order = true) ∧
      (result = .duplicate ∨ result = .heldWidened ∨ result = .heldConfirmed ∨
        memory.widened = false ∧ ¬(memory.status = .active ∧ memory.confirmation = .confirmed) ∧
          (holdForTarget target).getD .updated = result) := by
  unfold planKnown at planned
  by_cases gone : (memory.status = .deprecated ∨ memory.status = .history) ∨ memory.confirmation = .rejected
  · rw [if_pos gone] at planned
    exact absurd planned.symm passed.1
  rw [if_neg gone] at planned
  by_cases stale : (applied.any fun order => !isNewer entry order) = true
  · rw [if_pos stale] at planned
    exact absurd planned.symm passed.2
  rw [if_neg stale] at planned
  rw [not_or, not_or] at gone
  refine ⟨gone.1, gone.2, newer_of_any stale, ?_⟩
  by_cases widened : memory.widened = true
  · rw [if_pos widened] at planned
    by_cases same : stripped memory.content = stripped content
    · rw [if_pos same] at planned
      exact .inl planned.symm
    · rw [if_neg same] at planned
      exact .inr (.inl planned.symm)
  rw [if_neg widened] at planned
  by_cases same : memory.status = .active ∧ stripped memory.content = stripped content
  · rw [if_pos same] at planned
    exact .inl planned.symm
  rw [if_neg same] at planned
  by_cases confirmed : memory.status = .active ∧ memory.confirmation = .confirmed
  · rw [if_pos confirmed] at planned
    exact .inr (.inr (.inl planned.symm))
  rw [if_neg confirmed] at planned
  exact .inr (.inr (.inr ⟨Bool.eq_false_of_not_eq_true widened, confirmed, planned⟩))

theorem planItem_duplicate (planned : planItem fold item entry current applied target = .duplicate) :
    ∀ order ∈ applied, isNewer entry order = true := by
  rcases planItem_judged planned (by decide) with ⟨-, held⟩ | ⟨memory, content, -, known⟩
  · cases (holdForTarget_getD held (by decide)).2
  · exact (planKnown_passes known (by decide)).2.2.1

theorem planItem_created (planned : planItem fold item entry current applied target = .created) :
    current = none ∧ ∀ memory ∈ target, memory.isActiveWidened = false ∧ memory.isActiveConfirmed = false := by
  rcases planItem_judged planned (by decide) with ⟨isNew, held⟩ | ⟨memory, content, -, known⟩
  · exact ⟨isNew, holdForTarget_eq_none (holdForTarget_getD held (by decide)).1⟩
  · obtain ⟨-, -, -, other | other | other | ⟨-, -, held⟩⟩ := planKnown_passes known (by decide)
    · cases other
    · cases other
    · cases other
    · cases (holdForTarget_getD held (by decide)).2

theorem planItem_updated (planned : planItem fold item entry current applied target = .updated) :
    (∃ memory, current = some memory ∧ Replaceable entry applied memory) ∧
      ∀ memory ∈ target, memory.isActiveWidened = false ∧ memory.isActiveConfirmed = false := by
  rcases planItem_judged planned (by decide) with ⟨-, held⟩ | ⟨memory, content, isCurrent, known⟩
  · cases (holdForTarget_getD held (by decide)).2
  · obtain ⟨status, notRejected, newer, other | other | other | ⟨notWidened, notConfirmed, held⟩⟩ :=
      planKnown_passes known (by decide)
    · cases other
    · cases other
    · cases other
    · exact ⟨⟨memory, isCurrent, status, notRejected, newer, notWidened, notConfirmed⟩,
        holdForTarget_eq_none (holdForTarget_getD held (by decide)).1⟩

end Plan

/-! ### What a write makes of the tables -/

def retireIn (ids : List Uuid) (row : Version) : Version :=
  if row.id ∈ ids ∧ row.status = .active then { row with status := .superseded } else row

theorem superseded_ne_active : MemoryStatus.superseded ≠ .active := by decide

theorem continues_retireIn (ids : List Uuid) (row : Version) : (retireIn ids row).Continues row := by
  unfold retireIn
  by_cases isIt : row.id ∈ ids ∧ row.status = .active
  · rw [if_pos isIt]
    exact ⟨rfl, .inr ⟨isIt.2, superseded_ne_active⟩⟩
  · rw [if_neg isIt]
    exact .refl row

variable {row : Version}

theorem retireIn_of_not_mem {ids : List Uuid} (other : row.id ∉ ids) : retireIn ids row = row :=
  if_neg fun isIt => other isIt.1

theorem retireIn_of_inactive {ids : List Uuid} (inactive : row.status ≠ .active) : retireIn ids row = row :=
  if_neg fun isIt => inactive isIt.2

theorem retireIn_of_mem {ids : List Uuid} (isIt : row.id ∈ ids) (isActive : row.status = .active) :
    retireIn ids row = { row with status := .superseded } :=
  if_pos ⟨isIt, isActive⟩

theorem retireIn_append (first second : List Uuid) (row : Version) :
    retireIn second (retireIn first row) = retireIn (first ++ second) row := by
  by_cases isActive : row.status = .active
  · by_cases isFirst : row.id ∈ first
    · rw [retireIn_of_mem isFirst isActive, retireIn_of_mem (mem_append_left _ isFirst) isActive]
      exact retireIn_of_inactive superseded_ne_active
    · rw [retireIn_of_not_mem isFirst]
      unfold retireIn
      simp only [mem_append, isFirst, false_or]
  · rw [retireIn_of_inactive isActive, retireIn_of_inactive isActive, retireIn_of_inactive isActive]

namespace MemoryDb

variable {db db' : MemoryDb}

theorem supersede_eq_ok {id : Uuid} (done : db.supersede id = .ok db') :
    db' = { db with versions := db.versions.map (retireIn [id]) } := by
  unfold supersede at done
  split_ifs at done
  rw [← pure_eq_ok.mp done]
  have same : (fun row : Version => if row.id = id ∧ row.status = .active then { row with status := .superseded } else row) =
      retireIn [id] := by
    funext row
    unfold retireIn
    simp only [mem_singleton]
  rw [same]

theorem supersedeOld_eq_ok {old : Option LatestVersion} (done : db.supersedeOld old = .ok db') :
    db' = { db with versions := db.versions.map (retireIn (old.toList.map LatestVersion.id)) } := by
  cases old with
  | none =>
    have same : db.versions.map (retireIn []) = db.versions := by
      refine (map_congr_left fun row _ => retireIn_of_not_mem not_mem_nil).trans (map_id _)
    show db' = { db with versions := db.versions.map (retireIn []) }
    rw [same]
    exact (pure_eq_ok.mp done).symm
  | some version => exact supersede_eq_ok done

variable {new : Version} {ids : List Uuid}

theorem addVersion_eq_ok (done : db.addVersion new = .ok db') : db.insertVersion new = .ok db' := by
  unfold addVersion at done
  cases inserted : db.insertVersion new with
  | error error =>
    rw [inserted] at done
    cases done
  | ok later =>
    rw [inserted] at done
    rw [pure_eq_ok.mp done]

theorem relateAll_writes {newer : Uuid} {kind : RelationType} {reason : Text} {now : Instant} {older : List Uuid}
    (done : db.relateAll newer kind reason now older = .ok db')
    (unreferenced : ∀ relation ∈ db.relations, relation.older ≠ newer) :
    Writes db db' ∧ db'.versions = db.versions ∧ ∀ relation ∈ db'.relations, relation.older ≠ newer := by
  refine foldlM_invariant (P := fun later => Writes db later ∧ later.versions = db.versions ∧
    ∀ relation ∈ later.relations, relation.older ≠ newer) done (fun middle id later _ before relateDone => ?_)
    ⟨.refl, rfl, unreferenced⟩
  unfold relateOnce at relateDone
  split_ifs at relateDone
  · rw [← pure_eq_ok.mp relateDone]
    exact before
  · cases inserted : middle.insertRelation ⟨newer, id, kind, some reason, now⟩ with
    | error error =>
      rw [inserted] at relateDone
      cases relateDone
    | ok db =>
      rw [inserted] at relateDone
      rw [← pure_eq_ok.mp relateDone]
      obtain ⟨write, sameVersions, still⟩ := insertRelation_write_of_unreferenced inserted before.2.2
      exact ⟨before.1.tail write, sameVersions.trans before.2.1, still⟩

structure Rewritten (db db' : MemoryDb) (ids : List Uuid) (new : Version) : Prop where
  writes : Writes db db'
  versions : db'.versions = db.versions.map (retireIn ids) ++ [new]

theorem Rewritten.mem {row : Version} (rewritten : Rewritten db db' ids new) :
    row ∈ db'.versions ↔ (∃ before ∈ db.versions, retireIn ids before = row) ∨ row = new := by
  rw [rewritten.versions, mem_append, mem_map, mem_singleton]

theorem Rewritten.numbers (rewritten : Rewritten db db' ids new) (memoryId : Uuid) :
    db'.numbers memoryId = if new.memoryId = memoryId then db.numbers memoryId ++ [new.number] else db.numbers memoryId := by
  have continues := fun row (_ : row ∈ db.versions) => continues_retireIn ids row
  have step : db'.numbers memoryId =
      { db with versions := ({ db with versions := db.versions.map (retireIn ids) } : MemoryDb).versions ++ [new] }.numbers
        memoryId := by
    unfold MemoryDb.numbers versionsOf
    rw [rewritten.versions]
  rw [step, ← Write.numbers_map continues memoryId]
  exact Write.numbers_append new memoryId

theorem Rewritten.current_self (sound : Sound db) (rewritten : Rewritten db db' ids new) :
    db'.current new.memoryId = some new := by
  have soundAfter := Writes.sound rewritten.writes sound
  have isRow : new ∈ db'.versions := rewritten.mem.mpr (.inr rfl)
  refine soundAfter.current_eq_some.mpr ⟨isRow, rfl, ?_⟩
  have numbered := soundAfter.numbered new.memoryId
  rw [rewritten.numbers, if_pos rfl, length_append, length_singleton] at numbered ⊢
  have before := sound.numbered new.memoryId
  rw [range'_1_concat] at numbered
  have last := (perm_append_left_iff _).mp ((before.symm.append_right [new.number]).trans numbered)
  have same := singleton_perm_singleton.mp last
  omega

theorem Rewritten.current_of_ne (sound : Sound db) (rewritten : Rewritten db db' ids new)
    {memoryId : Uuid} (other : new.memoryId ≠ memoryId) : db'.current memoryId = (db.current memoryId).map (retireIn ids) := by
  have soundAfter := Writes.sound rewritten.writes sound
  cases isCurrent : db.current memoryId with
  | some row =>
    obtain ⟨isRow, isIts, isLast⟩ := sound.current_eq_some.mp isCurrent
    have continues := continues_retireIn ids row
    refine soundAfter.current_eq_some.mpr ⟨rewritten.mem.mpr (.inl ⟨row, isRow, rfl⟩), continues.memoryId_eq.trans isIts, ?_⟩
    rw [rewritten.numbers, if_neg other, continues.number_eq]
    exact isLast
  | none =>
    cases isLater : db'.current memoryId with
    | none => rfl
    | some later =>
      obtain ⟨isRow, isIts, -⟩ := soundAfter.current_eq_some.mp isLater
      have nothing : db.versionsOf memoryId = [] := argmax_eq_none.mp isCurrent
      rcases rewritten.mem.mp isRow with ⟨before, isBefore, rfl⟩ | rfl
      · rw [(continues_retireIn ids before).memoryId_eq] at isIts
        have isIn : before ∈ db.versionsOf memoryId := mem_versionsOf.mpr ⟨isBefore, isIts⟩
        rw [nothing] at isIn
        exact absurd isIn not_mem_nil
      · exact absurd isIts other

end MemoryDb

end PawBackend.Memory
