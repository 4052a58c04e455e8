/-
**Nothing is lost or duplicated** (`memory/retrieval/grouping.py`).

* `cutUnits_spec`, `mem_chosen_iff`: a unit is taken exactly when it fits after the units taken before it.
-/

import PawBackend.Memory.Grouping
import Mathlib.Data.List.Flatten
import Mathlib.Data.List.Pairwise

namespace PawBackend.Memory.Retrieval

open Lib List
open Tools (Uuid)
open Relation (EqvGen)

/-! ### Components -/

def Lifted (survivors : List Ranked) (conflicts : List (Uuid × Uuid)) (mergedInto : Uuid → Option Uuid) (a b : Uuid) : Prop :=
  a ∈ survivors.map Ranked.id ∧ b ∈ survivors.map Ranked.id ∧ a ≠ b ∧
    ∃ edge ∈ conflicts, (mergedInto edge.1).getD edge.1 = a ∧ (mergedInto edge.2).getD edge.2 = b

structure IsComponent (survivors : List Ranked) (connected : Uuid → Uuid → Prop) (group : List Ranked) : Prop where
  sorted : group.Pairwise fun a b => precedenceKey a ≤ precedenceKey b
  nodup : group.Nodup
  members : ∃ s ∈ survivors, ∀ t, t ∈ group ↔ t ∈ survivors ∧ connected s.id t.id

section Groups

variable {survivors : List Ranked} {conflicts : List (Uuid × Uuid)} {mergedInto : Uuid → Option Uuid}
  {connected : Uuid → Uuid → Prop}

theorem joined_liftEdges (survivors : List Ranked) (conflicts : List (Uuid × Uuid)) (mergedInto : Uuid → Option Uuid) :
    Lib.Joined (liftEdges survivors conflicts mergedInto) = Lifted survivors conflicts mergedInto := by
  funext a b
  unfold Lib.Joined liftEdges Lifted
  rw [mem_filter, mem_map, decide_eq_true_eq, eq_iff_iff]
  constructor
  · rintro ⟨⟨edge, isEdge, same⟩, isA, isB, apart⟩
    obtain ⟨rfl, rfl⟩ := Prod.mk.inj same
    exact ⟨isA, isB, apart, edge, isEdge, rfl, rfl⟩
  · rintro ⟨isA, isB, apart, edge, isEdge, rfl, rfl⟩
    exact ⟨⟨edge, isEdge, rfl⟩, isA, isB, apart⟩

theorem zip_map_self {ι κ : Type} (f : ι → κ) (items : List ι) : (items.map f).zip items = items.map fun item => (f item, item) := by
  induction items with
  | nil => rfl
  | cons item items ih => rw [map_cons, zip_cons_cons, ih, map_cons]

theorem withKey_map {ι κ : Type} [DecidableEq κ] (f : ι → κ) (items : List ι) (key : κ) :
    withKey (items.map fun item => (f item, item)) key = items.filter fun item => decide (f item = key) := by
  unfold withKey
  rw [filter_map, map_map]
  exact map_id _

theorem IsComponent.unique (distinct : (survivors.map Ranked.id).Nodup) {group group' : List Ranked}
    (first : IsComponent survivors connected group) (second : IsComponent survivors connected group')
    (same : ∀ t, t ∈ group ↔ t ∈ group') : group = group' := by
  obtain ⟨s, -, members⟩ := first.members
  refine eq_of_pairwise_le first.sorted second.sorted ((perm_ext_iff_of_nodup first.nodup second.nodup).mpr same) ?_
  exact fun a isA b isB sameKey =>
    eq_of_id distinct ((members a).mp isA).1 ((members b).mp isB).1 (precedenceKey_injective sameKey)

theorem IsComponent.eq_of_mem (distinct : (survivors.map Ranked.id).Nodup) (equivalence : Equivalence connected)
    {group group' : List Ranked} (first : IsComponent survivors connected group) (second : IsComponent survivors connected group')
    {t : Ranked} (isFirst : t ∈ group) (isSecond : t ∈ group') : group = group' := by
  refine first.unique distinct second fun u => ?_
  obtain ⟨s, -, members⟩ := first.members
  obtain ⟨s', -, members'⟩ := second.members
  have toFirst := ((members t).mp isFirst).2
  have toSecond := ((members' t).mp isSecond).2
  rw [members, members']
  refine and_congr_right fun _ => ⟨fun path => ?_, fun path => ?_⟩
  · exact equivalence.trans toSecond (equivalence.trans (equivalence.symm toFirst) path)
  · exact equivalence.trans toFirst (equivalence.trans (equivalence.symm toSecond) path)

theorem conflictGroups_eq (survivors : List Ranked) (conflicts : List (Uuid × Uuid)) (mergedInto : Uuid → Option Uuid) :
    ∃ root : Uuid → Uuid, (∀ a b, root a = root b ↔ EqvGen (Lifted survivors conflicts mergedInto) a b) ∧
      conflictGroups survivors conflicts mergedInto =
        sortedBy bestRank ((((collect (survivors.map fun s => (root s.id, s))).map Prod.snd).filter fun group =>
          decide (2 ≤ group.length)).map (sortedBy precedenceKey)) := by
  obtain ⟨root, height, forest, bounded, connects⟩ :=
    linkAll_spec (le_refl (liftEdges survivors conflicts mergedInto).length)
  rw [joined_liftEdges] at connects
  refine ⟨root, connects, ?_⟩
  unfold conflictGroups
  dsimp only
  rw [rootsOf_eq forest bounded, map_map, zip_map_self]
  rfl

/-- **The groups are the connected components** of two or more survivors. -/
theorem mem_conflictGroups (distinct : (survivors.map Ranked.id).Nodup) {group : List Ranked} :
    group ∈ conflictGroups survivors conflicts mergedInto ↔
      2 ≤ group.length ∧ IsComponent survivors (EqvGen (Lifted survivors conflicts mergedInto)) group := by
  obtain ⟨root, connects, isGroups⟩ := conflictGroups_eq survivors conflicts mergedInto
  have survivorsNodup : survivors.Nodup := distinct.of_map
  rw [isGroups, mem_sortedBy, mem_map]
  have classOf : ∀ (s t : Ranked), t ∈ sortedBy precedenceKey (survivors.filter fun u => decide (root u.id = root s.id)) ↔
      t ∈ survivors ∧ EqvGen (Lifted survivors conflicts mergedInto) s.id t.id := by
    intro s t
    rw [mem_sortedBy, mem_filter, decide_eq_true_eq, ← connects]
    exact and_congr_right fun _ => eq_comm
  have isComponent : ∀ s ∈ survivors, IsComponent survivors (EqvGen (Lifted survivors conflicts mergedInto))
      (sortedBy precedenceKey (survivors.filter fun u => decide (root u.id = root s.id))) := by
    intro s isSurvivor
    exact ⟨sortedBy_pairwise _ _, (sortedBy_perm _ _).nodup_iff.mpr (survivorsNodup.filter _), s, isSurvivor, classOf s⟩
  constructor
  · rintro ⟨members, isMembers, rfl⟩
    obtain ⟨isClass, long⟩ := mem_filter.mp isMembers
    obtain ⟨⟨key, found⟩, isEntry, same⟩ := mem_map.mp isClass
    obtain rfl : found = members := same
    obtain ⟨some, isAll⟩ := ((collect_spec _).2 key found).mp isEntry
    rw [withKey_map] at isAll
    obtain ⟨s, isIn⟩ := exists_mem_of_ne_nil _ some
    rw [isAll, mem_filter, decide_eq_true_eq] at isIn
    obtain ⟨isSurvivor, rfl⟩ := isIn
    rw [isAll] at long ⊢
    exact ⟨(sortedBy_perm _ _).length_eq.ge.trans' (of_decide_eq_true long), isComponent s isSurvivor⟩
  · rintro ⟨long, component⟩
    obtain ⟨s, isSurvivor, members⟩ := component.members
    have same : sortedBy precedenceKey (survivors.filter fun u => decide (root u.id = root s.id)) = group :=
      (isComponent s isSurvivor).unique distinct component fun t => (classOf s t).trans (members t).symm
    refine ⟨survivors.filter fun u => decide (root u.id = root s.id), mem_filter.mpr ⟨?_, ?_⟩, same⟩
    · refine mem_map.mpr ⟨(root s.id, _), ((collect_spec _).2 _ _).mpr ⟨?_, ?_⟩, rfl⟩
      · exact ne_nil_of_mem (mem_filter.mpr ⟨isSurvivor, decide_eq_true rfl⟩)
      · rw [withKey_map]
    · rw [← (sortedBy_perm precedenceKey _).length_eq, same]
      exact decide_eq_true long

theorem conflictGroups_nodup (survivors : List Ranked) (conflicts : List (Uuid × Uuid)) (mergedInto : Uuid → Option Uuid) :
    (conflictGroups survivors conflicts mergedInto).Nodup := by
  obtain ⟨root, -, isGroups⟩ := conflictGroups_eq survivors conflicts mergedInto
  obtain ⟨nodup, mem⟩ := collect_spec (survivors.map fun s => (root s.id, s))
  rw [isGroups]
  refine (sortedBy_perm _ _).nodup_iff.mpr ?_
  rw [filter_map, map_map]
  refine List.Nodup.map_on ?_ (nodup.of_map.filter _)
  rintro ⟨key, group⟩ isFirst ⟨key', group'⟩ isSecond same
  obtain ⟨some, isAll⟩ := (mem key group).mp (mem_filter.mp isFirst).1
  obtain ⟨-, isAll'⟩ := (mem key' group').mp (mem_filter.mp isSecond).1
  rw [withKey_map] at isAll isAll'
  obtain ⟨t, isIn⟩ := exists_mem_of_ne_nil _ some
  have isIn' : t ∈ group' := by
    have both : sortedBy precedenceKey group = sortedBy precedenceKey group' := same
    exact mem_sortedBy.mp (both ▸ mem_sortedBy.mpr isIn)
  rw [isAll, mem_filter, decide_eq_true_eq] at isIn
  rw [isAll', mem_filter, decide_eq_true_eq] at isIn'
  have sameKey : key = key' := isIn.2.symm.trans isIn'.2
  rw [isAll, isAll', sameKey]

theorem bestRank_mem {group : List Ranked} (some : group ≠ []) : ∃ t ∈ group, bestRank group = rankKey t := by
  unfold bestRank
  cases isMin : least (group.map rankKey) with
  | top => exact absurd (map_eq_nil_iff.mp (minimum_eq_top.mp isMin)) some
  | coe key =>
    obtain ⟨t, isIn, rfl⟩ := mem_map.mp (minimum_mem isMin)
    exact ⟨t, isIn, rfl⟩

theorem conflictGroups_congr (distinct : (survivors.map Ranked.id).Nodup) {conflicts' : List (Uuid × Uuid)}
    (same : ∀ edge, edge ∈ conflicts ↔ edge ∈ conflicts') :
    conflictGroups survivors conflicts mergedInto = conflictGroups survivors conflicts' mergedInto := by
  have sameLifted : Lifted survivors conflicts mergedInto = Lifted survivors conflicts' mergedInto := by
    funext a b
    unfold Lifted
    simp only [same]
  have sameGroups : ∀ group, group ∈ conflictGroups survivors conflicts mergedInto ↔
      group ∈ conflictGroups survivors conflicts' mergedInto := by
    intro group
    rw [mem_conflictGroups distinct, mem_conflictGroups distinct, sameLifted]
  have perm := (perm_ext_iff_of_nodup (conflictGroups_nodup survivors conflicts mergedInto)
    (conflictGroups_nodup survivors conflicts' mergedInto)).mpr sameGroups
  refine eq_of_pairwise_le (sortedBy_pairwise bestRank _) (sortedBy_pairwise bestRank _) perm ?_
  intro group isGroup group' isGroup' sameRank
  obtain ⟨long, component⟩ := (mem_conflictGroups distinct).mp isGroup
  obtain ⟨long', component'⟩ := (mem_conflictGroups distinct).mp isGroup'
  obtain ⟨t, isIn, isBest⟩ := bestRank_mem (ne_nil_of_length_pos (by omega : 0 < group.length))
  obtain ⟨t', isIn', isBest'⟩ := bestRank_mem (ne_nil_of_length_pos (by omega : 0 < group'.length))
  rw [isBest, isBest', WithTop.coe_inj] at sameRank
  obtain ⟨s, -, members⟩ := component.members
  obtain ⟨s', -, members'⟩ := component'.members
  obtain rfl := eq_of_id distinct ((members t).mp isIn).1 ((members' t').mp isIn').1 (rankKey_injective sameRank)
  exact component.eq_of_mem distinct (EqvGen.is_equivalence _) component' isIn isIn'

end Groups

/-! ### Taking units -/

section Cuts

variable {limit : ℕ} {whole before after : List Unit} {unit : Unit}

def membersOf (units : List Unit) : List Ranked := units.flatMap Unit.members

theorem cutUnits_concat (limit : ℕ) (before : List Unit) (unit : Unit) :
    cutUnits limit (before ++ [unit]) = (cutUnits limit before).take limit unit := by
  unfold cutUnits
  rw [foldl_append]
  rfl

/-- What the loop has taken, used and dropped after some units. -/
structure Cuts (limit : ℕ) (processed : List Unit) (cut : Cut) : Prop where
  chosen : cut.chosen.Sublist processed
  used : cut.used = (membersOf cut.chosen).length
  fits : cut.used ≤ limit
  dropped : cut.dropped + (cut.chosen.filter fun unit => unit.number.isSome).length =
    (processed.filter fun unit => unit.number.isSome).length

theorem Cuts.take {processed : List Unit} {cut : Cut} (cuts : Cuts limit processed cut) (unit : Unit) :
    Cuts limit (processed ++ [unit]) (cut.take limit unit) := by
  have used := cuts.used
  have dropped := cuts.dropped
  unfold Cut.take
  split_ifs with fits isGroup
  · refine ⟨cuts.chosen.append (List.Sublist.refl _), ?_, fits, ?_⟩
    · unfold membersOf at used ⊢
      rw [flatMap_append, length_append, used, flatMap_singleton]
    · dsimp only
      rw [filter_append, filter_append, length_append, length_append]
      omega
  · refine ⟨cuts.chosen.trans (sublist_append_left _ _), used, cuts.fits, ?_⟩
    dsimp only
    rw [filter_append, length_append, filter_cons, if_pos isGroup, filter_nil, length_singleton]
    omega
  · refine ⟨cuts.chosen.trans (sublist_append_left _ _), used, cuts.fits, ?_⟩
    rw [filter_append, length_append, filter_cons, if_neg isGroup, filter_nil, length_nil,
      Nat.add_zero]
    exact dropped

theorem cutUnits_spec (limit : ℕ) (units : List Unit) : Cuts limit units (cutUnits limit units) := by
  induction units using List.reverseRecOn with
  | nil => exact ⟨List.Sublist.refl _, rfl, Nat.zero_le _, rfl⟩
  | append_singleton units unit ih =>
    rw [cutUnits_concat]
    exact ih.take unit

theorem chosen_append (limit : ℕ) (before after : List Unit) : ∃ extra, extra.Sublist after ∧
    (cutUnits limit (before ++ after)).chosen = (cutUnits limit before).chosen ++ extra := by
  induction after using List.reverseRecOn with
  | nil => exact ⟨[], List.Sublist.refl _, by rw [append_nil, append_nil]⟩
  | append_singleton after unit ih =>
    obtain ⟨extra, sub, chosen⟩ := ih
    rw [← append_assoc, cutUnits_concat]
    unfold Cut.take
    split_ifs
    · exact ⟨extra ++ [unit], sub.append (List.Sublist.refl _), by rw [← append_assoc, ← chosen]⟩
    · exact ⟨extra, sub.trans (sublist_append_left _ _), chosen⟩
    · exact ⟨extra, sub.trans (sublist_append_left _ _), chosen⟩

theorem apart_of_nodup (nodup : (membersOf (before ++ after)).Nodup) {item : Ranked} (isBefore : item ∈ membersOf before)
    (isAfter : item ∈ membersOf after) : False := by
  unfold membersOf at nodup
  rw [flatMap_append] at nodup
  exact (nodup_append.mp nodup).2.2 item isBefore item isAfter rfl

theorem mem_membersOf {units : List Unit} {item : Ranked} : item ∈ membersOf units ↔ ∃ unit ∈ units, item ∈ unit.members :=
  mem_flatMap

theorem membersOf_sublist {units units' : List Unit} (sub : units.Sublist units') : membersOf units ⊆ membersOf units' := by
  intro item isIn
  obtain ⟨unit, isUnit, isMember⟩ := mem_membersOf.mp isIn
  exact mem_membersOf.mpr ⟨unit, sub.subset isUnit, isMember⟩

/-- **A unit is taken exactly when it fits** after the units taken before it. -/
theorem taken_iff (nodup : (membersOf (before ++ unit :: after)).Nodup) (some : unit.members ≠ []) :
    (∀ item ∈ unit.members, item ∈ membersOf (cutUnits limit (before ++ unit :: after)).chosen) ↔
      (cutUnits limit before).used + unit.members.length ≤ limit := by
  have split : before ++ unit :: after = (before ++ [unit]) ++ after := by
    rw [append_assoc, singleton_append]
  obtain ⟨extra, sub, chosen⟩ := chosen_append limit (before ++ [unit]) after
  rw [split] at nodup ⊢
  rw [chosen, cutUnits_concat]
  constructor
  · intro all
    obtain ⟨item, isMember⟩ := exists_mem_of_ne_nil _ some
    have isUnit : item ∈ membersOf (before ++ [unit]) :=
      mem_membersOf.mpr ⟨unit, mem_append_right _ (mem_singleton_self unit), isMember⟩
    by_contra tooBig
    have unchanged : ((cutUnits limit before).take limit unit).chosen = (cutUnits limit before).chosen := by
      unfold Cut.take
      rw [if_neg tooBig]
      split_ifs
      · rfl
      · rfl
    have isIn := all item isMember
    rw [unchanged] at isIn
    unfold membersOf at isIn
    rw [flatMap_append, mem_append] at isIn
    rcases isIn with isBefore | isAfter
    · have inBefore := membersOf_sublist (cutUnits_spec limit before).chosen isBefore
      unfold membersOf at nodup inBefore
      rw [flatMap_append, flatMap_append] at nodup
      have twice := (nodup_append.mp (nodup_append.mp nodup).1).2.2 item inBefore item
      exact twice (mem_membersOf.mpr ⟨unit, mem_singleton_self unit, isMember⟩) rfl
    · exact apart_of_nodup nodup isUnit (membersOf_sublist sub isAfter)
  · intro fits item isMember
    refine mem_membersOf.mpr ⟨unit, mem_append_left _ ?_, isMember⟩
    unfold Cut.take
    rw [if_pos fits]
    exact mem_append_right _ (mem_singleton_self unit)

theorem filter_before (nodup : (membersOf (before ++ after)).Nodup) :
    (membersOf (cutUnits limit (before ++ after)).chosen).filter (fun item => decide (item ∈ membersOf before)) =
      membersOf (cutUnits limit before).chosen := by
  obtain ⟨extra, sub, chosen⟩ := chosen_append limit before after
  rw [chosen]
  have parts : membersOf ((cutUnits limit before).chosen ++ extra) =
      membersOf (cutUnits limit before).chosen ++ membersOf extra := flatMap_append
  rw [parts, filter_append]
  have all : (membersOf (cutUnits limit before).chosen).filter (fun item => decide (item ∈ membersOf before)) =
      membersOf (cutUnits limit before).chosen :=
    filter_eq_self.mpr fun item isIn => decide_eq_true (membersOf_sublist (cutUnits_spec limit before).chosen isIn)
  have none : (membersOf extra).filter (fun item => decide (item ∈ membersOf before)) = [] :=
    filter_eq_nil_iff.mpr fun item isIn isBefore =>
      apart_of_nodup nodup (of_decide_eq_true isBefore) (membersOf_sublist sub isIn)
  rw [all, none, append_nil]

end Cuts

/-! ### The selection -/

section Selecting

variable {survivors : List Ranked} {groups : List (List Ranked)} {limit : ℕ}

def groupUnit (entry : List Ranked × ℕ) : Unit := ⟨bestRank entry.1, entry.1, some entry.2⟩

def ungrouped (survivors : List Ranked) (groups : List (List Ranked)) : List Ranked :=
  survivors.filter fun item => decide (item.id ∉ groups.flatMap fun group => group.map Ranked.id)

theorem units_perm (survivors : List Ranked) (groups : List (List Ranked)) : (units survivors groups).Perm
    (groups.zipIdx.map groupUnit ++ (ungrouped survivors groups).map fun item => ⟨bestRank [item], [item], none⟩) :=
  sortedBy_perm _ _

theorem membersOf_units (survivors : List Ranked) (groups : List (List Ranked)) :
    (membersOf (units survivors groups)).Perm (groups.flatten ++ ungrouped survivors groups) := by
  have parts : membersOf (groups.zipIdx.map groupUnit ++ (ungrouped survivors groups).map fun item => ⟨bestRank [item], [item], none⟩) =
      groups.flatten ++ ungrouped survivors groups := by
    unfold membersOf
    rw [flatMap_append, flatMap_map, flatMap_map]
    have first : groups.zipIdx.flatMap (fun entry => (groupUnit entry).members) = groups.flatten := by
      rw [← zipIdx_map_fst 0 groups, flatten_eq_flatMap, flatMap_map, zipIdx_map_fst]
      rfl
    have second : (ungrouped survivors groups).flatMap (fun item => [item]) = ungrouped survivors groups :=
      flatMap_singleton' _
    rw [first, second]
  rw [← parts]
  exact (units_perm survivors groups).flatMap_right _

theorem groupUnits_perm (survivors : List Ranked) (groups : List (List Ranked)) :
    ((units survivors groups).filter fun unit => unit.number.isSome).Perm (groups.zipIdx.map groupUnit) := by
  refine ((units_perm survivors groups).filter _).trans ?_
  rw [filter_append]
  have first : (groups.zipIdx.map groupUnit).filter (fun unit => unit.number.isSome) = groups.zipIdx.map groupUnit := by
    refine filter_eq_self.mpr fun unit isIn => ?_
    obtain ⟨entry, -, rfl⟩ := mem_map.mp isIn
    rfl
  have second : ((ungrouped survivors groups).map fun item => (⟨bestRank [item], [item], none⟩ : Unit)).filter
      (fun unit => unit.number.isSome) = [] := by
    refine filter_eq_nil_iff.mpr fun unit isIn isGroup => ?_
    obtain ⟨item, -, rfl⟩ := mem_map.mp isIn
    cases isGroup
  rw [first, second, append_nil]

theorem units_members_ne_nil (some : ∀ group ∈ groups, group ≠ []) {unit : Unit} (isUnit : unit ∈ units survivors groups) :
    unit.members ≠ [] := by
  rcases mem_append.mp ((units_perm survivors groups).mem_iff.mp isUnit) with isGroup | isSingle
  · obtain ⟨⟨group, number⟩, isEntry, rfl⟩ := mem_map.mp isGroup
    have isMember : group ∈ groups := by
      rw [← zipIdx_map_fst 0 groups]
      exact mem_map.mpr ⟨_, isEntry, rfl⟩
    exact some group isMember
  · obtain ⟨item, -, rfl⟩ := mem_map.mp isSingle
    exact cons_ne_nil _ _

theorem foldl_add_hits (chosen : List Unit) (selection : Selection) :
    (chosen.foldl Selection.add selection).hits.map Prod.fst = selection.hits.map Prod.fst ++ membersOf chosen ∧
      (chosen.foldl Selection.add selection).droppedGroups = selection.droppedGroups := by
  induction chosen generalizing selection with
  | nil => exact ⟨(append_nil _).symm, rfl⟩
  | cons unit rest ih =>
    obtain ⟨hits, dropped⟩ := ih (selection.add unit)
    have step : (selection.add unit).hits.map Prod.fst = selection.hits.map Prod.fst ++ unit.members ∧
        (selection.add unit).droppedGroups = selection.droppedGroups := by
      unfold Selection.add
      cases unit.number with
      | none | some =>
        refine ⟨?_, rfl⟩
        dsimp only
        rw [map_append, map_map]
        exact congrArg _ (map_id _)
    rw [foldl_cons]
    refine ⟨?_, dropped.trans step.2⟩
    rw [hits, step.1, append_assoc]
    rfl

theorem select_hits (survivors : List Ranked) (groups : List (List Ranked)) (limit : ℕ) :
    (select survivors groups limit).hits.map Prod.fst = membersOf (cutUnits limit (units survivors groups)).chosen :=
  (foldl_add_hits _ _).1.trans (nil_append _)

theorem select_dropped (survivors : List Ranked) (groups : List (List Ranked)) (limit : ℕ) :
    (select survivors groups limit).droppedGroups = (cutUnits limit (units survivors groups)).dropped :=
  (foldl_add_hits _ _).2

theorem mem_chosen_iff (nodup : (membersOf (units survivors groups)).Nodup) (some : ∀ group ∈ groups, group ≠ []) {unit : Unit}
    (isUnit : unit ∈ units survivors groups) : unit ∈ (cutUnits limit (units survivors groups)).chosen ↔
      ∃ item ∈ unit.members, item ∈ membersOf (cutUnits limit (units survivors groups)).chosen := by
  constructor
  · intro isChosen
    obtain ⟨item, isMember⟩ := exists_mem_of_ne_nil _ (units_members_ne_nil some isUnit)
    exact ⟨item, isMember, mem_membersOf.mpr ⟨unit, isChosen, isMember⟩⟩
  · rintro ⟨item, isMember, isIn⟩
    obtain ⟨other, isChosen, isOther⟩ := mem_membersOf.mp isIn
    by_contra notChosen
    have apart : unit ≠ other := fun same => notChosen (same ▸ isChosen)
    have symmetric : Std.Symm (Function.onFun List.Disjoint Unit.members) := ⟨fun _ _ disjoint => disjoint.symm⟩
    have disjoint := (nodup_flatMap.mp nodup).2.forall isUnit ((cutUnits_spec limit _).chosen.subset isChosen) apart
    exact disjoint isMember isOther

theorem exists_mem_zipIdx {ι : Type} {items : List ι} {item : ι} (isIn : item ∈ items) : ∃ number, (item, number) ∈ items.zipIdx := by
  rw [← zipIdx_map_fst 0 items] at isIn
  obtain ⟨⟨_, number⟩, isEntry, rfl⟩ := mem_map.mp isIn
  exact ⟨number, isEntry⟩

theorem length_filter_zipIdx {ι : Type} (p : ι → Bool) (items : List ι) :
    (items.zipIdx.filter fun entry => p entry.1).length = (items.filter p).length := by
  conv_rhs => rw [← zipIdx_map_fst 0 items, filter_map, length_map]
  rfl

theorem dropped_eq (nodup : (membersOf (units survivors groups)).Nodup) (some : ∀ group ∈ groups, group ≠ []) :
    (cutUnits limit (units survivors groups)).dropped = (groups.filter fun group =>
      !decide (∃ item ∈ group, item ∈ membersOf (cutUnits limit (units survivors groups)).chosen)).length := by
  have cuts := cutUnits_spec limit (units survivors groups)
  have unitsNodup : (units survivors groups).Nodup := by
    refine (nodup_flatMap.mp nodup).2.imp_of_mem fun isFirst _ disjoint same => ?_
    obtain ⟨item, isMember⟩ := exists_mem_of_ne_nil _ (units_members_ne_nil some isFirst)
    exact disjoint isMember (same ▸ isMember)
  have taken : (cutUnits limit (units survivors groups)).chosen.Perm ((units survivors groups).filter fun unit =>
      decide (∃ item ∈ unit.members, item ∈ membersOf (cutUnits limit (units survivors groups)).chosen)) := by
    refine (perm_ext_iff_of_nodup (unitsNodup.sublist cuts.chosen) (unitsNodup.filter _)).mpr fun unit => ?_
    rw [mem_filter, decide_eq_true_eq]
    constructor
    · intro isChosen
      have isUnit := cuts.chosen.subset isChosen
      exact ⟨isUnit, (mem_chosen_iff nodup some isUnit).mp isChosen⟩
    · rintro ⟨isUnit, isTaken⟩
      exact (mem_chosen_iff nodup some isUnit).mpr isTaken
  have whole := (taken.filter fun unit => unit.number.isSome).length_eq
  rw [filter_filter] at whole
  have swap := (((groupUnits_perm survivors groups).filter fun unit =>
    decide (∃ item ∈ unit.members, item ∈ membersOf (cutUnits limit (units survivors groups)).chosen))).length_eq
  rw [filter_filter, filter_map, length_map] at swap
  have counted : (groups.zipIdx.filter ((fun unit : Unit => decide (∃ item ∈ unit.members,
      item ∈ membersOf (cutUnits limit (units survivors groups)).chosen)) ∘ groupUnit)).length =
      (groups.filter fun group => decide (∃ item ∈ group,
        item ∈ membersOf (cutUnits limit (units survivors groups)).chosen)).length :=
    length_filter_zipIdx (fun group => decide (∃ item ∈ group,
      item ∈ membersOf (cutUnits limit (units survivors groups)).chosen)) groups
  have all := (groupUnits_perm survivors groups).length_eq
  rw [length_map, length_zipIdx] at all
  have split := length_eq_length_filter_add (l := groups) fun group => decide (∃ item ∈ group,
    item ∈ membersOf (cutUnits limit (units survivors groups)).chosen)
  have dropped := cuts.dropped
  have sameFilter : ((units survivors groups).filter fun unit => unit.number.isSome &&
      decide (∃ item ∈ unit.members, item ∈ membersOf (cutUnits limit (units survivors groups)).chosen)).length =
      ((units survivors groups).filter fun unit =>
        decide (∃ item ∈ unit.members, item ∈ membersOf (cutUnits limit (units survivors groups)).chosen) &&
          unit.number.isSome).length := by
    simp only [Bool.and_comm]
  omega

end Selecting

/-! ### The pipeline -/

structure Retrieval where
  survivors : List Ranked
  mergedInto : Uuid → Option Uuid
  groups : List (List Ranked)
  selection : Selection

def retrieve (likeness : Likeness) (items : List Ranked) (conflicts : List (Uuid × Uuid)) (limit : ℕ) : Retrieval :=
  let deduplicated := deduplicate likeness items conflicts
  let groups := conflictGroups deduplicated.1 conflicts deduplicated.2
  ⟨deduplicated.1, deduplicated.2, groups, select deduplicated.1 groups limit⟩

namespace Retrieval

def hits (r : Retrieval) : List Ranked := r.selection.hits.map Prod.fst

def InCluster (r : Retrieval) (survivor version : Uuid) : Prop := version = survivor ∨ r.mergedInto version = some survivor

end Retrieval

structure LosesNothing (items : List Ranked) (conflicts : List (Uuid × Uuid)) (limit : ℕ) (r : Retrieval) : Prop where
  survivors : ∀ s ∈ r.survivors, ∃ item ∈ items, s = { item with duplicates := s.duplicates }
  distinct : (r.survivors.map Ranked.id).Nodup
  /-- A candidate is a survivor, or merged into one with a better or equal precedence. -/
  placed : ∀ item ∈ items,
    ((∃ s ∈ r.survivors, s = { item with duplicates := s.duplicates }) ∧ r.mergedInto item.id = none) ∨
      (item.id ∉ r.survivors.map Ranked.id ∧
        ∃ s ∈ r.survivors, r.mergedInto item.id = some s.id ∧ precedenceKey s ≤ precedenceKey item)
  known : ∀ version survivor, r.mergedInto version = some survivor → version ∈ items.map Ranked.id
  listed : ∀ s ∈ r.survivors, s.duplicates.Nodup ∧ ∀ version, version ∈ s.duplicates ↔ r.mergedInto version = some s.id
  compatible : ∀ s ∈ r.survivors, ∀ a b, r.InCluster s.id a → r.InCluster s.id b → a ≠ b → (a, b) ∉ conflicts
  groups : ∀ group, group ∈ r.groups ↔
    2 ≤ group.length ∧ IsComponent r.survivors (EqvGen (Lifted r.survivors conflicts r.mergedInto)) group
  groups_once : r.groups.Nodup
  fits : r.hits.length ≤ limit
  hits_once : r.hits.Nodup
  hits_survivors : ∀ item ∈ r.hits, item ∈ r.survivors
  whole : ∀ group ∈ r.groups, (∀ item ∈ group, item ∈ r.hits) ∨ ∀ item ∈ group, item ∉ r.hits
  dropped : r.selection.droppedGroups = (r.groups.filter fun group => !decide (∃ item ∈ group, item ∈ r.hits)).length
  greedy : ∀ before unit after, units r.survivors r.groups = before ++ unit :: after →
    ((∀ item ∈ unit.members, item ∈ r.hits) ↔
      (r.hits.filter fun item => decide (item ∈ membersOf before)).length + unit.members.length ≤ limit)

section Pipeline

variable {likeness : Likeness} {items : List Ranked} {conflicts : List (Uuid × Uuid)} {limit : ℕ}

theorem deduplicate_merges (likeness : Likeness) (conflicts : List (Uuid × Uuid)) (distinct : (items.map Ranked.id).Nodup) :
    Merging.Merges conflicts (sortedBy precedenceKey items)
      ((sortedBy precedenceKey items).foldl (Merging.merge likeness conflicts) Merging.start) :=
  Merging.merges_foldl (sortedBy_pairwise _ _) (((sortedBy_perm _ _).map _).nodup_iff.mpr distinct)

theorem deduplicate_ids (likeness : Likeness) (items : List Ranked) (conflicts : List (Uuid × Uuid)) :
    (deduplicate likeness items conflicts).1.map Ranked.id =
      ((sortedBy precedenceKey items).foldl (Merging.merge likeness conflicts) Merging.start).survivors.map Ranked.id := by
  unfold deduplicate
  rw [map_map]
  rfl

theorem deduplicate_distinct (likeness : Likeness) (conflicts : List (Uuid × Uuid)) (distinct : (items.map Ranked.id).Nodup) :
    ((deduplicate likeness items conflicts).1.map Ranked.id).Nodup := by
  rw [deduplicate_ids]
  have whole : ((sortedBy precedenceKey items).map Ranked.id).Nodup := ((sortedBy_perm _ _).map _).nodup_iff.mpr distinct
  exact whole.sublist ((deduplicate_merges likeness conflicts distinct).survivors.map Ranked.id)

theorem parts_nodup {survivors : List Ranked} {mergedInto : Uuid → Option Uuid} (distinct : (survivors.map Ranked.id).Nodup) :
    (membersOf (units survivors (conflictGroups survivors conflicts mergedInto))).Nodup := by
  refine (membersOf_units _ _).nodup_iff.mpr (nodup_append.mpr ⟨?_, distinct.of_map.filter _, ?_⟩)
  · refine nodup_flatten.mpr ⟨fun group isGroup => ((mem_conflictGroups distinct).mp isGroup).2.nodup, ?_⟩
    refine (conflictGroups_nodup survivors conflicts mergedInto).pairwise_of_forall_ne fun a isA b isB apart t isIn isIn' => ?_
    exact apart (((mem_conflictGroups distinct).mp isA).2.eq_of_mem distinct (EqvGen.is_equivalence _)
      ((mem_conflictGroups distinct).mp isB).2 isIn isIn')
  · rintro item isGrouped other isSingle rfl
    obtain ⟨group, isGroup, isIn⟩ := mem_flatten.mp isGrouped
    have alone := of_decide_eq_true (mem_filter.mp isSingle).2
    exact alone (mem_flatMap.mpr ⟨group, isGroup, mem_map_of_mem isIn⟩)

theorem retrieve_congr (distinct : (items.map Ranked.id).Nodup) {items' : List Ranked} {conflicts' : List (Uuid × Uuid)}
    (perm : items.Perm items') (same : ∀ edge, edge ∈ conflicts ↔ edge ∈ conflicts') :
    retrieve likeness items conflicts limit = retrieve likeness items' conflicts' limit := by
  have sameSorted : sortedBy precedenceKey items = sortedBy precedenceKey items' :=
    sortedBy_congr perm fun a isA b isB sameKey => eq_of_id distinct isA isB (precedenceKey_injective sameKey)
  have sameConflicting : conflicting conflicts = conflicting conflicts' := by
    funext a b
    unfold conflicting
    simp only [same]
  have sameMerge : Merging.merge likeness conflicts = Merging.merge likeness conflicts' := by
    funext m item
    unfold Merging.merge Merging.takes
    rw [sameConflicting]
  have sameDeduplicated : deduplicate likeness items conflicts = deduplicate likeness items' conflicts' := by
    unfold deduplicate
    rw [sameSorted, sameMerge]
  unfold retrieve
  dsimp only
  rw [sameDeduplicated, conflictGroups_congr (sameDeduplicated ▸ deduplicate_distinct likeness conflicts distinct) same]

theorem losesNothing (likeness : Likeness) (distinct : (items.map Ranked.id).Nodup) (conflicts : List (Uuid × Uuid)) (limit : ℕ) :
    LosesNothing items conflicts limit (retrieve likeness items conflicts limit) := by
  have merges := deduplicate_merges likeness conflicts distinct
  have survivorsDistinct := deduplicate_distinct likeness conflicts distinct
  have fromMerging : ∀ s ∈ (deduplicate likeness items conflicts).1, ∃ item ∈ ((sortedBy precedenceKey items).foldl
      (Merging.merge likeness conflicts) Merging.start).survivors, s = { item with duplicates := s.duplicates } ∧
      s.duplicates = sortedBy BitVec.toNat (((sortedBy precedenceKey items).foldl
        (Merging.merge likeness conflicts) Merging.start).merged s.id) := by
    intro s isSurvivor
    obtain ⟨item, isItem, rfl⟩ := mem_map.mp isSurvivor
    exact ⟨item, isItem, rfl, rfl⟩
  have toRetrieval : ∀ item ∈ ((sortedBy precedenceKey items).foldl (Merging.merge likeness conflicts) Merging.start).survivors,
      ∃ s ∈ (deduplicate likeness items conflicts).1, s = { item with duplicates := s.duplicates } :=
    fun item isItem => ⟨_, mem_map_of_mem isItem, rfl⟩
  have nonempty : ∀ group ∈ (retrieve likeness items conflicts limit).groups, group ≠ [] := by
    intro group isGroup
    have long := ((mem_conflictGroups survivorsDistinct).mp isGroup).1
    exact ne_nil_of_length_pos (by omega)
  have nodup : (membersOf (units (retrieve likeness items conflicts limit).survivors
      (retrieve likeness items conflicts limit).groups)).Nodup := parts_nodup survivorsDistinct
  have isHits : (retrieve likeness items conflicts limit).hits = membersOf (cutUnits limit
      (units (retrieve likeness items conflicts limit).survivors (retrieve likeness items conflicts limit).groups)).chosen :=
    select_hits _ _ _
  have cuts := cutUnits_spec limit
    (units (retrieve likeness items conflicts limit).survivors (retrieve likeness items conflicts limit).groups)
  refine
    { survivors := ?_, distinct := survivorsDistinct, placed := ?_, known := ?_, listed := ?_, compatible := ?_,
      groups := fun group => mem_conflictGroups survivorsDistinct, groups_once := conflictGroups_nodup _ _ _, fits := ?_,
      hits_once := ?_, hits_survivors := ?_, whole := ?_, dropped := ?_, greedy := ?_ }
  · intro s isSurvivor
    obtain ⟨item, isItem, same, -⟩ := fromMerging s isSurvivor
    exact ⟨item, mem_sortedBy.mp (merges.survivors.subset isItem), same⟩
  · intro item isItem
    rcases merges.placed item (mem_sortedBy.mpr isItem) with ⟨isSurvivor, isNone⟩ | ⟨notSurvivor, s, isSurvivor, into, better⟩
    · exact .inl ⟨toRetrieval item isSurvivor, isNone⟩
    · refine .inr ⟨fun isId => ?_, ?_⟩
      · rw [show (retrieve likeness items conflicts limit).survivors.map Ranked.id = _ from deduplicate_ids _ _ _] at isId
        obtain ⟨other, isOther, sameId⟩ := mem_map.mp isId
        rw [eq_of_id distinct (mem_sortedBy.mp (merges.survivors.subset isOther)) isItem sameId] at isOther
        exact notSurvivor isOther
      · obtain ⟨s', isS', same⟩ := toRetrieval s isSurvivor
        exact ⟨s', isS', by rw [same]; exact into, by rw [same]; exact better⟩
  · intro version survivor into
    exact ((sortedBy_perm _ _).map _).mem_iff.mp (merges.known version survivor into)
  · intro s isSurvivor
    obtain ⟨item, -, -, isDuplicates⟩ := fromMerging s isSurvivor
    rw [isDuplicates]
    refine ⟨(sortedBy_perm _ _).nodup_iff.mpr (merges.once s.id), fun version => ?_⟩
    rw [mem_sortedBy, merges.listed]
    rfl
  · intro s isSurvivor a b isA isB apart isConflict
    obtain ⟨item, isItem, same, -⟩ := fromMerging s isSurvivor
    have sameId : s.id = item.id := by rw [same]; rfl
    have represents : ∀ v, (retrieve likeness items conflicts limit).InCluster s.id v →
        v ∈ ((sortedBy precedenceKey items).foldl (Merging.merge likeness conflicts) Merging.start).represented item.id := by
      rintro v (rfl | into)
      · rw [sameId]
        exact .head _
      · exact .tail _ ((merges.listed v item.id).mpr (sameId ▸ into))
    have free := merges.compatible item isItem a (represents a isA) b (represents b isB) apart
    exact of_decide_eq_false free (.inl isConflict)
  · rw [isHits, ← cuts.used]
    exact cuts.fits
  · rw [isHits]
    exact nodup.sublist (cuts.chosen.flatMap _)
  · intro item isHit
    rw [isHits] at isHit
    have isMember := (membersOf_units _ _).mem_iff.mp (membersOf_sublist cuts.chosen isHit)
    rcases mem_append.mp isMember with isGrouped | isSingle
    · obtain ⟨group, isGroup, isIn⟩ := mem_flatten.mp isGrouped
      obtain ⟨s, -, members⟩ := ((mem_conflictGroups survivorsDistinct).mp isGroup).2.members
      exact ((members item).mp isIn).1
    · exact (mem_filter.mp isSingle).1
  · intro group isGroup
    obtain ⟨number, isEntry⟩ := exists_mem_zipIdx isGroup
    have isUnit : groupUnit (group, number) ∈ units (retrieve likeness items conflicts limit).survivors
        (retrieve likeness items conflicts limit).groups :=
      (units_perm _ _).mem_iff.mpr (mem_append_left _ (mem_map_of_mem isEntry))
    rw [isHits]
    by_cases any : ∃ item ∈ group, item ∈ membersOf (cutUnits limit
        (units (retrieve likeness items conflicts limit).survivors (retrieve likeness items conflicts limit).groups)).chosen
    · have isChosen := (mem_chosen_iff nodup nonempty isUnit).mpr any
      exact .inl fun item isIn => mem_membersOf.mpr ⟨_, isChosen, isIn⟩
    · exact .inr fun item isIn isHit => any ⟨item, isIn, isHit⟩
  · rw [isHits]
    exact (select_dropped _ _ _).trans (dropped_eq nodup nonempty)
  · intro before unit after split
    rw [isHits]
    have splitNodup := nodup
    rw [split] at splitNodup
    have isUnit : unit ∈ units (retrieve likeness items conflicts limit).survivors (retrieve likeness items conflicts limit).groups := by
      rw [split]
      exact mem_append_right _ (.head _)
    rw [split, taken_iff splitNodup (units_members_ne_nil nonempty isUnit), filter_before splitNodup,
      (cutUnits_spec limit before).used]

/-- **Nothing is lost or duplicated**, and the order of the inputs does not matter. -/
theorem retrieve_losesNothing (likeness : Likeness) (items : List Ranked) (conflicts : List (Uuid × Uuid)) (limit : ℕ)
    (distinct : (items.map Ranked.id).Nodup) :
    LosesNothing items conflicts limit (retrieve likeness items conflicts limit) ∧
      ∀ items' conflicts', items.Perm items' → (∀ edge, edge ∈ conflicts ↔ edge ∈ conflicts') →
        retrieve likeness items' conflicts' limit = retrieve likeness items conflicts limit :=
  ⟨losesNothing likeness distinct conflicts limit, fun _ _ perm same => (retrieve_congr distinct perm same).symm⟩

end Pipeline

/-- Two memories that contradict each other, and a copy of the first. -/
def contradiction : List Ranked :=
  [⟨⟨1, 11, .user, [97], [98], .confirmed⟩, 2, .fresh, []⟩, ⟨⟨2, 12, .user, [97], [99], .confirmed⟩, 1, .fresh, []⟩,
    ⟨⟨3, 13, .user, [97], [98], .inferred⟩, 3, .fresh, []⟩]

/-- Words at blanks, and copies only where the texts are equal. -/
def wordsLikeness : Likeness := ⟨fun t => t.splitOn 32, fun _ _ => false⟩

theorem contradiction_kept : LosesNothing contradiction [(1, 2)] 2 (retrieve wordsLikeness contradiction [(1, 2)] 2) ∧
    retrieve wordsLikeness contradiction.reverse [(1, 2)] 2 = retrieve wordsLikeness contradiction [(1, 2)] 2 ∧
    ((retrieve wordsLikeness contradiction [(1, 2)] 2).hits.map fun item => (item.id, item.duplicates)) = [(1, [3]), (2, [])] :=
  ⟨(retrieve_losesNothing wordsLikeness contradiction [(1, 2)] 2 (by decide)).1,
    (retrieve_losesNothing wordsLikeness contradiction [(1, 2)] 2 (by decide)).2 contradiction.reverse [(1, 2)]
      contradiction.reverse_perm.symm fun _ => Iff.rfl,
    by decide⟩

end PawBackend.Memory.Retrieval
