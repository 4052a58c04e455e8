/-
**Copies, conflicts and Top-N** (`memory/retrieval/grouping.py`).

`deduplicate` merges a candidate into a better one that says the same, but never where that would put two conflicting
candidates under one survivor.
-/

import PawBackend.Lib.Components
import PawBackend.Lib.Pages
import PawBackend.Memory.Tables
import Mathlib.Data.List.Lex
import Mathlib.Data.Prod.Lex
import Mathlib.Data.Rat.Floor

namespace PawBackend.Memory.Retrieval

open Lib List
open Tools (Uuid uuidText uuidText_injective)
open Relation (EqvGen)

/-! ### Candidates -/

/-- `Freshness` of a candidate. -/
inductive Freshness
  | fresh
  | stale
  deriving DecidableEq, Repr

structure Candidate where
  versionId : Uuid
  memoryId : Uuid
  scope : MemoryScope
  title : Text
  content : Text
  confirmationState : ConfirmationState
  deriving DecidableEq

/-- A candidate with what the ranking decided about it; scores are finite floats, compared exactly. -/
structure Ranked where
  candidate : Candidate
  score : ℚ
  freshness : Freshness
  duplicates : List Uuid := []
  deriving DecidableEq

def Ranked.id (item : Ranked) : Uuid := item.candidate.versionId

def confirmationRank : ConfirmationState → ℤ
  | .rejected => 0
  | .observed => 1
  | .inferred => 2
  | .confirmed => 3

def scopeSpecificity : MemoryScope → ℤ
  | .shared => 0
  | .user => 1
  | .projectGroup => 2
  | .project => 3
  | .repo => 4

abbrev PrecedenceKey : Type := ℤ ×ₗ ℕ ×ₗ ℤ ×ₗ ℚ ×ₗ Text

/-- `precedence_key`: ascending means the better claim first. -/
def precedenceKey (item : Ranked) : PrecedenceKey :=
  toLex (-confirmationRank item.candidate.confirmationState, toLex (if item.freshness = .fresh then 0 else 1,
    toLex (-scopeSpecificity item.candidate.scope, toLex (-item.score, uuidText item.id))))

/-- `rank_key`: ascending means first. -/
def rankKey (item : Ranked) : ℚ ×ₗ PrecedenceKey := toLex (-item.score, precedenceKey item)

/-- What decides whether texts are copies: the words and character pairs of a text (`features`), and whether so many
common ones of so many reach the similarity (`common / all >= similarity`). -/
structure Likeness where
  features : Text → List Text
  reaches : ℕ → ℕ → Bool

namespace Likeness

variable (likeness : Likeness)

/-- `_text_of`: the features in order; as a set they are its `parts`. -/
def textOf (item : Ranked) : List Text :=
  likeness.features (item.candidate.title ++ 32 :: item.candidate.content)

def nearDuplicate (a b : List Text) : Bool :=
  if Text.join 32 a = Text.join 32 b then true
  else if min a.toFinset.card b.toFinset.card < 4 then false
  else likeness.reaches (a.toFinset ∩ b.toFinset).card (a.toFinset ∪ b.toFinset).card

end Likeness

/-! ### Deduplication -/

/-- The variables of the merge loop: `merged` lists what `mergedInto` says, by survivor. -/
structure Merging where
  survivors : List Ranked
  mergedInto : Uuid → Option Uuid
  merged : Uuid → List Uuid

/-- `frozenset((a, b)) in conflicting`. -/
def conflicting (conflicts : List (Uuid × Uuid)) (a b : Uuid) : Bool := decide ((a, b) ∈ conflicts ∨ (b, a) ∈ conflicts)

namespace Merging

variable (likeness : Likeness) (conflicts : List (Uuid × Uuid))

def start : Merging := ⟨[], fun _ => none, fun _ => []⟩

def represented (m : Merging) (survivor : Uuid) : List Uuid := survivor :: m.merged survivor

def takes (m : Merging) (item survivor : Ranked) : Bool :=
  !(m.represented survivor.id).any (conflicting conflicts item.id) &&
    (decide (survivor.candidate.memoryId = item.candidate.memoryId) ||
      likeness.nearDuplicate (likeness.textOf survivor) (likeness.textOf item))

def survive (m : Merging) (item : Ranked) : Merging := { m with survivors := m.survivors ++ [item] }

def join (m : Merging) (version target : Uuid) : Merging :=
  { m with
    mergedInto := Function.update m.mergedInto version (some target)
    merged := Function.update m.merged target (m.merged target ++ [version]) }

def merge (m : Merging) (item : Ranked) : Merging :=
  match m.survivors.find? (m.takes likeness conflicts item) with
  | none => m.survive item
  | some target => m.join item.id target.id

end Merging

/-- `deduplicate`: the survivors with what is merged into them, and where the others went. -/
def deduplicate (likeness : Likeness) (items : List Ranked) (conflicts : List (Uuid × Uuid)) :
    List Ranked × (Uuid → Option Uuid) :=
  let m := (sortedBy precedenceKey items).foldl (Merging.merge likeness conflicts) Merging.start
  (m.survivors.map fun item => { item with duplicates := sortedBy BitVec.toNat (m.merged item.id) }, m.mergedInto)

/-! ### Conflict groups -/

/-- The edges of `conflict_groups`: an end that was merged is its survivor. -/
def liftEdges (survivors : List Ranked) (conflicts : List (Uuid × Uuid)) (mergedInto : Uuid → Option Uuid) :
    List (Uuid × Uuid) :=
  (conflicts.map fun edge => ((mergedInto edge.1).getD edge.1, (mergedInto edge.2).getD edge.2)).filter fun edge =>
    decide (edge.1 ∈ survivors.map Ranked.id ∧ edge.2 ∈ survivors.map Ranked.id ∧ edge.1 ≠ edge.2)

/-- `min(keys)`. -/
def least {α : Type} [LinearOrder α] (keys : List α) : WithTop α := keys.minimum

/-- The key of the best member. -/
def bestRank (group : List Ranked) : WithTop (ℚ ×ₗ PrecedenceKey) := least (group.map rankKey)

/-- `conflict_groups`. A path of parents is never longer than there are edges (`linkAll_spec`). -/
def conflictGroups (survivors : List Ranked) (conflicts : List (Uuid × Uuid)) (mergedInto : Uuid → Option Uuid) :
    List (List Ranked) :=
  let edges := liftEdges survivors conflicts mergedInto
  let roots := rootsOf edges.length (linkAll edges.length edges) (survivors.map Ranked.id)
  let members := collect (roots.zip survivors)
  sortedBy bestRank (((members.map Prod.snd).filter fun group => decide (2 ≤ group.length)).map (sortedBy precedenceKey))

/-! ### Top-N -/

/-- What is selected as a whole: a group with its number, or a survivor of none. -/
structure Unit where
  rank : WithTop (ℚ ×ₗ PrecedenceKey)
  members : List Ranked
  number : Option ℕ

structure ConflictGroup where
  groupId : ℕ
  versionIds : List Uuid
  deriving DecidableEq

structure Selection where
  hits : List (Ranked × Option ℕ)
  groups : List ConflictGroup
  droppedGroups : ℕ

def units (survivors : List Ranked) (groups : List (List Ranked)) : List Unit :=
  let grouped := groups.flatMap fun group => group.map Ranked.id
  sortedBy Unit.rank
    (groups.zipIdx.map (fun entry => ⟨bestRank entry.1, entry.1, some entry.2⟩) ++
      (survivors.filter fun item => decide (item.id ∉ grouped)).map fun item => ⟨bestRank [item], [item], none⟩)

/-- The variables of the loop that takes units. -/
structure Cut where
  chosen : List Unit
  used : ℕ
  dropped : ℕ

def Cut.take (limit : ℕ) (cut : Cut) (unit : Unit) : Cut :=
  if cut.used + unit.members.length ≤ limit then ⟨cut.chosen ++ [unit], cut.used + unit.members.length, cut.dropped⟩
  else if unit.number.isSome then { cut with dropped := cut.dropped + 1 }
  else cut

def cutUnits (limit : ℕ) (units : List Unit) : Cut := units.foldl (Cut.take limit) ⟨[], 0, 0⟩

def Selection.add (selection : Selection) (unit : Unit) : Selection :=
  match unit.number with
  | none => { selection with hits := selection.hits ++ unit.members.map fun item => (item, none) }
  | some _ =>
    { selection with
      hits := selection.hits ++ unit.members.map fun item => (item, some selection.groups.length)
      groups := selection.groups ++ [⟨selection.groups.length, unit.members.map Ranked.id⟩] }

def select (survivors : List Ranked) (groups : List (List Ranked)) (limit : ℕ) : Selection :=
  let cut := cutUnits limit (units survivors groups)
  cut.chosen.foldl Selection.add ⟨[], [], cut.dropped⟩

/-! ### Keys -/

theorem precedenceKey_injective {a b : Ranked} (same : precedenceKey a = precedenceKey b) : a.id = b.id := by
  unfold precedenceKey at same
  simp only [toLex_inj, Prod.mk.injEq] at same
  exact uuidText_injective same.2.2.2.2

theorem rankKey_injective {a b : Ranked} (same : rankKey a = rankKey b) : a.id = b.id := by
  unfold rankKey at same
  simp only [toLex_inj, Prod.mk.injEq] at same
  exact precedenceKey_injective same.2

theorem eq_of_id {items : List Ranked} (distinct : (items.map Ranked.id).Nodup) {a b : Ranked} (isA : a ∈ items)
    (isB : b ∈ items) (same : a.id = b.id) : a = b :=
  inj_on_of_nodup_map distinct isA isB same

/-! ### What the merge loop keeps -/

namespace Merging

variable {likeness : Likeness} {conflicts : List (Uuid × Uuid)} {m : Merging} {processed : List Ranked} {item : Ranked}

@[simp] theorem join_mergedInto_self (m : Merging) (version target : Uuid) :
    (m.join version target).mergedInto version = some target := Function.update_self _ _ _

theorem join_mergedInto_of_ne (m : Merging) {version other : Uuid} (differs : other ≠ version) (target : Uuid) :
    (m.join version target).mergedInto other = m.mergedInto other := Function.update_of_ne differs _ _

@[simp] theorem join_merged_self (m : Merging) (version target : Uuid) :
    (m.join version target).merged target = m.merged target ++ [version] := Function.update_self _ _ _

theorem join_merged_of_ne (m : Merging) {target other : Uuid} (differs : other ≠ target) (version : Uuid) :
    (m.join version target).merged other = m.merged other := Function.update_of_ne differs _ _

/-- After some candidates, in the order of precedence. -/
structure Merges (conflicts : List (Uuid × Uuid)) (processed : List Ranked) (m : Merging) : Prop where
  survivors : m.survivors.Sublist processed
  listed : ∀ v t, v ∈ m.merged t ↔ m.mergedInto v = some t
  once : ∀ t, (m.merged t).Nodup
  known : ∀ v t, m.mergedInto v = some t → v ∈ processed.map Ranked.id
  placed : ∀ item ∈ processed, (item ∈ m.survivors ∧ m.mergedInto item.id = none) ∨
    (item ∉ m.survivors ∧ ∃ s ∈ m.survivors, m.mergedInto item.id = some s.id ∧ precedenceKey s ≤ precedenceKey item)
  compatible : ∀ s ∈ m.survivors, ∀ a ∈ m.represented s.id, ∀ b ∈ m.represented s.id, a ≠ b → conflicting conflicts a b = false

theorem merges_start (conflicts : List (Uuid × Uuid)) : Merges conflicts [] start where
  survivors := List.Sublist.refl _
  listed _ _ := ⟨fun isIn => absurd isIn not_mem_nil, fun isNone => absurd isNone (Option.some_ne_none _).symm⟩
  once _ := nodup_nil
  known _ _ isNone := absurd isNone (Option.some_ne_none _).symm
  placed _ isIn := absurd isIn not_mem_nil
  compatible _ isIn := absurd isIn not_mem_nil

theorem conflicting_comm (conflicts : List (Uuid × Uuid)) (a b : Uuid) : conflicting conflicts a b = conflicting conflicts b a := by
  unfold conflicting
  rw [decide_eq_decide]
  exact or_comm

theorem Merges.survive (merges : Merges conflicts processed m) (new : item.id ∉ processed.map Ranked.id) :
    Merges conflicts (processed ++ [item]) (m.survive item) where
  survivors := merges.survivors.append (List.Sublist.refl _)
  listed := merges.listed
  once := merges.once
  known v t isInto := by
    rw [map_append]
    exact mem_append_left _ (merges.known v t isInto)
  placed other isIn := by
    rcases mem_append.mp isIn with isOld | isNew
    · rcases merges.placed other isOld with ⟨isSurvivor, isNone⟩ | ⟨notSurvivor, s, isSurvivor, into, better⟩
      · exact .inl ⟨mem_append_left _ isSurvivor, isNone⟩
      · refine .inr ⟨fun isAny => ?_, s, mem_append_left _ isSurvivor, into, better⟩
        rcases mem_append.mp isAny with isSurvivor | isItem
        · exact notSurvivor isSurvivor
        · obtain rfl := mem_singleton.mp isItem
          exact new (mem_map_of_mem isOld)
    · obtain rfl := mem_singleton.mp isNew
      refine .inl ⟨mem_append_right _ isNew, ?_⟩
      cases into : m.mergedInto other.id with
      | none => exact into
      | some t => exact absurd (merges.known other.id t into) new
  compatible s isSurvivor a isA b isB := by
    rcases mem_append.mp isSurvivor with isOld | isNew
    · exact merges.compatible s isOld a isA b isB
    · obtain rfl := mem_singleton.mp isNew
      have alone : m.merged s.id = [] := by
        rw [eq_nil_iff_forall_not_mem]
        intro v isMerged
        have into := (merges.listed v s.id).mp isMerged
        obtain ⟨other, isOther, rfl⟩ := mem_map.mp (merges.known v s.id into)
        rcases merges.placed other isOther with ⟨-, isNone⟩ | ⟨-, t, isT, intoT, -⟩
        · rw [isNone] at into
          cases into
        · rw [into] at intoT
          rw [Option.some.inj intoT] at new
          exact new (mem_map_of_mem (merges.survivors.subset isT))
      have self : ∀ v ∈ s.id :: m.merged s.id, v = s.id := by
        intro v isIn
        rw [alone] at isIn
        exact mem_singleton.mp isIn
      intro apart
      exact absurd ((self a isA).trans (self b isB).symm) apart

theorem Merges.join (merges : Merges conflicts processed m) (new : item.id ∉ processed.map Ranked.id)
    (last : ∀ other ∈ processed, precedenceKey other ≤ precedenceKey item) {target : Ranked} (isSurvivor : target ∈ m.survivors)
    (takes : m.takes likeness conflicts item target = true) :
    Merges conflicts (processed ++ [item]) (m.join item.id target.id) where
  survivors := merges.survivors.trans (sublist_append_left _ _)
  listed v t := by
    have fresh : ∀ t, item.id ∉ m.merged t := fun t isMerged => new (merges.known item.id t ((merges.listed item.id t).mp isMerged))
    by_cases isTarget : t = target.id
    · rw [isTarget, join_merged_self, mem_append, mem_singleton, merges.listed]
      by_cases isItem : v = item.id
      · rw [isItem, join_mergedInto_self]
        exact iff_of_true (.inr rfl) rfl
      · rw [join_mergedInto_of_ne m isItem, or_iff_left isItem]
    · rw [join_merged_of_ne m isTarget]
      by_cases isItem : v = item.id
      · rw [isItem, join_mergedInto_self]
        exact iff_of_false (fresh t) fun same => isTarget (Option.some.inj same).symm
      · rw [join_mergedInto_of_ne m isItem, merges.listed]
  once t := by
    by_cases isTarget : t = target.id
    · rw [isTarget, join_merged_self]
      refine nodup_append.mpr ⟨merges.once _, nodup_singleton _, ?_⟩
      rintro v isMerged w isItem rfl
      rw [mem_singleton.mp isItem] at isMerged
      exact new (merges.known item.id _ ((merges.listed item.id _).mp isMerged))
    · rw [join_merged_of_ne m isTarget]
      exact merges.once t
  known v t into := by
    rw [map_append, mem_append]
    by_cases isItem : v = item.id
    · exact .inr (mem_singleton.mpr isItem)
    · rw [join_mergedInto_of_ne m isItem] at into
      exact .inl (merges.known v t into)
  placed other isIn := by
    rcases mem_append.mp isIn with isOld | isNew
    · have differs : other.id ≠ item.id := fun same => new (same ▸ mem_map_of_mem isOld)
      rw [join_mergedInto_of_ne m differs]
      exact merges.placed other isOld
    · obtain rfl := mem_singleton.mp isNew
      refine .inr ⟨fun isAny => new (mem_map_of_mem (merges.survivors.subset isAny)), target, isSurvivor, ?_, ?_⟩
      · exact join_mergedInto_self _ _ _
      · exact last target (merges.survivors.subset isSurvivor)
  compatible s isS a isA b isB apart := by
    have free : ∀ v ∈ m.represented target.id, conflicting conflicts item.id v = false := by
      unfold Merging.takes at takes
      rw [Bool.and_eq_true, Bool.not_eq_true', any_eq_false] at takes
      exact fun v isIn => Bool.eq_false_of_not_eq_true (takes.1 v isIn)
    by_cases isTarget : s.id = target.id
    · -- only the survivor that takes the candidate stands for one more
      have split : ∀ v ∈ (m.join item.id target.id).represented s.id, v ∈ m.represented target.id ∨ v = item.id := by
        intro v isIn
        unfold represented at isIn
        rw [isTarget, join_merged_self, ← cons_append] at isIn
        exact (mem_append.mp isIn).imp_right mem_singleton.mp
      rcases split a isA with oldA | newA
      · rcases split b isB with oldB | newB
        · exact merges.compatible target isSurvivor a oldA b oldB apart
        · rw [newB, conflicting_comm]
          exact free a oldA
      · rcases split b isB with oldB | newB
        · rw [newA]
          exact free b oldB
        · exact absurd (newA.trans newB.symm) apart
    · have same : ∀ v ∈ (m.join item.id target.id).represented s.id, v ∈ m.represented s.id := by
        intro v isIn
        unfold represented at isIn ⊢
        rwa [join_merged_of_ne m isTarget] at isIn
      exact merges.compatible s isS a (same a isA) b (same b isB) apart

theorem Merges.merge (merges : Merges conflicts processed m) (new : item.id ∉ processed.map Ranked.id)
    (last : ∀ other ∈ processed, precedenceKey other ≤ precedenceKey item) :
    Merges conflicts (processed ++ [item]) (m.merge likeness conflicts item) := by
  unfold Merging.merge
  cases found : m.survivors.find? (m.takes likeness conflicts item) with
  | none => exact merges.survive new
  | some target =>
    exact merges.join new last (mem_of_find?_eq_some found) (find?_some found)

/-- **The loop keeps it.** -/
theorem merges_foldl {items : List Ranked} (sorted : items.Pairwise fun a b => precedenceKey a ≤ precedenceKey b)
    (distinct : (items.map Ranked.id).Nodup) : Merges conflicts items (items.foldl (Merging.merge likeness conflicts) start) := by
  induction items using List.reverseRecOn with
  | nil => exact merges_start conflicts
  | append_singleton items item ih =>
    rw [map_append, nodup_append] at distinct
    obtain ⟨sortedItems, -, before⟩ := pairwise_append.mp sorted
    rw [foldl_append]
    refine (ih sortedItems distinct.1).merge (fun isOld => ?_) fun other isOther => before other isOther item (mem_singleton_self item)
    exact distinct.2.2 item.id isOld item.id (mem_singleton_self _) rfl

end Merging

end PawBackend.Memory.Retrieval
