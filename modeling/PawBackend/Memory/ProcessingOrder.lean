/-
**The order in which an output is applied** (`memory/journal/rules.py`: `processing_order`).

`Refers` is what one item waits for: another item, the first of a key it supersedes or conflicts with. The loop
makes a greedy order (`orderLoop_greedy`): the earliest listed item whose references are placed, and where all
wait for another the earliest listed item on a cycle.
-/

import PawBackend.Lib.Settling
import PawBackend.Memory.Consolidation

namespace PawBackend.Memory

open Lib List
open Lib.Text (lit)
open Relation (ReflTransGen TransGen)

/-! ### Items and their references -/

section Items

variable (items : List WorkerMemory)

def FirstOccurrence (index : ℕ) : Prop :=
  ∃ item, items[index]? = some item ∧ ∀ earlier < index, ∀ other, items[earlier]? = some other → other.key ≠ item.key

/-- An item names the key of another one in `supersedes` or `conflicts_with`. -/
def Refers (index other : ℕ) : Prop :=
  FirstOccurrence items index ∧ FirstOccurrence items other ∧ other ≠ index ∧
    ∃ item, items[index]? = some item ∧ ∃ target, items[other]? = some target ∧
      target.key ∈ item.supersedes.toList ++ item.conflictsWith

def OnCommonCycle (index other : ℕ) : Prop :=
  TransGen (Refers items) index other ∧ TransGen (Refers items) other index

/-- What `processing_order` promises. -/
structure SoundSchedule : Prop where
  nodup : (processingOrder items).Nodup
  each : ∀ index, index ∈ processingOrder items ↔ FirstOccurrence items index
  follows : ∀ index other, Refers items index other → ¬ OnCommonCycle items index other →
    [other, index].Sublist (processingOrder items)
  earliest : (∀ index, ¬ TransGen (Refers items) index index) →
    ∀ placed next rest, processingOrder items = placed ++ next :: rest →
      (∀ other, Refers items next other → other ∈ placed) ∧
        ∀ index, FirstOccurrence items index → index ∉ placed → (∀ other, Refers items index other → other ∈ placed) →
          next ≤ index

def LateReference (start : ℕ) : ℕ → ℕ → Prop := Awaits (Refers items) (CyclicBefore (Refers items) start)

/-- An item of a cycle refers to something outside it that leads, past the cyclic items listed before that item, to a
cycle. -/
def ChainedUnfavourably : Prop :=
  ∃ index other, Refers items index other ∧ ¬ OnCommonCycle items index other ∧ TransGen (Refers items) index index ∧
    ∃ member, ReflTransGen (LateReference items index) other member ∧ TransGen (LateReference items index) member member

variable {items} {index other : ℕ} {key : Text}

theorem firstOf_eq_some : firstOf items key = some index ↔
    ∃ item, items[index]? = some item ∧ item.key = key ∧
      ∀ earlier < index, ∀ other, items[earlier]? = some other → other.key ≠ key := by
  unfold firstOf
  rw [findIdx?_eq_some_iff_getElem]
  constructor
  · rintro ⟨inside, isKey, before⟩
    refine ⟨items[index], getElem?_eq_getElem inside, of_decide_eq_true isKey, ?_⟩
    intro earlier lt other isOther same
    obtain ⟨_, rfl⟩ := List.getElem?_eq_some_iff.mp isOther
    exact before earlier lt (decide_eq_true same)
  · rintro ⟨item, isItem, isKey, before⟩
    obtain ⟨inside, rfl⟩ := List.getElem?_eq_some_iff.mp isItem
    refine ⟨inside, decide_eq_true isKey, fun earlier lt same => ?_⟩
    exact before earlier lt _ (getElem?_eq_getElem (lt.trans inside)) (of_decide_eq_true same)

theorem firstOccurrence_iff : FirstOccurrence items index ↔ index ∈ liveItems items := by
  unfold liveItems
  rw [mem_filter, mem_range, decide_eq_true_eq]
  constructor
  · rintro ⟨item, isItem, before⟩
    exact ⟨(List.getElem?_eq_some_iff.mp isItem).1, item, isItem, (firstOf_eq_some).mpr ⟨item, isItem, rfl, before⟩⟩
  · rintro ⟨-, item, isItem, isFirst⟩
    obtain ⟨same, isSame, -, before⟩ := (firstOf_eq_some).mp isFirst
    exact ⟨item, isItem, before⟩

theorem mem_dependsOn (isFirst : FirstOccurrence items index) :
    other ∈ dependsOn items index ↔ Refers items index other := by
  have first := isFirst
  obtain ⟨item, isItem, -⟩ := first
  unfold dependsOn
  rw [isItem]
  dsimp only
  rw [mem_filter, mem_filterMap, decide_eq_true_eq]
  constructor
  · rintro ⟨⟨key, isReference, isOther⟩, ne⟩
    obtain ⟨target, isTarget, rfl, before⟩ := (firstOf_eq_some).mp isOther
    exact ⟨isFirst, ⟨target, isTarget, before⟩, ne, item, isItem, target, isTarget, isReference⟩
  · rintro ⟨-, ⟨target, isTarget, before⟩, ne, same, isSame, other, isOther, isReference⟩
    obtain rfl := Option.some.inj (isItem.symm.trans isSame)
    obtain rfl := Option.some.inj (isTarget.symm.trans isOther)
    exact ⟨⟨target.key, isReference, (firstOf_eq_some).mpr ⟨target, isTarget, rfl, before⟩⟩, ne⟩

theorem Refers.inside : ∀ index ∈ liveItems items, ∀ other, Refers items index other → other ∈ liveItems items :=
  fun _ _ _ refers => (firstOccurrence_iff).mp refers.2.1

theorem inCycle_iff (isFirst : FirstOccurrence items index) :
    inCycle items index = true ↔ TransGen (Refers items) index index := by
  have joined : Lib.Joined ((liveItems items).flatMap fun item => (dependsOn items item).map fun other => (item, other)) =
      Refers items := by
    funext a b
    unfold Lib.Joined
    rw [mem_flatMap, eq_iff_iff]
    constructor
    · rintro ⟨item, isLive, isEdge⟩
      obtain ⟨other, depends, same⟩ := mem_map.mp isEdge
      obtain ⟨rfl, rfl⟩ := Prod.mk.inj same
      exact (mem_dependsOn ((firstOccurrence_iff).mpr isLive)).mp depends
    · intro refers
      exact ⟨a, (firstOccurrence_iff).mp refers.1, mem_map.mpr ⟨b, (mem_dependsOn refers.1).mpr refers, rfl⟩⟩
  unfold inCycle
  rw [any_eq_true, TransGen.head'_iff]
  constructor
  · rintro ⟨other, depends, found⟩
    have path := mem_reach.mp (of_decide_eq_true found)
    rw [joined] at path
    exact ⟨other, (mem_dependsOn isFirst).mp depends, path⟩
  · rintro ⟨other, refers, path⟩
    refine ⟨other, (mem_dependsOn isFirst).mpr refers, decide_eq_true (mem_reach.mpr ?_)⟩
    rw [joined]
    exact path

end Items

/-! ### The loop -/

theorem find?_least {l : List ℕ} {p : ℕ → Bool} {a : ℕ} (sorted : l.Pairwise (· < ·)) (found : l.find? p = some a) :
    p a = true ∧ a ∈ l ∧ ∀ b ∈ l, p b = true → a ≤ b := by
  obtain ⟨holds, before, after, rfl, none⟩ := find?_eq_some_iff_append.mp found
  refine ⟨holds, mem_append_right _ (.head _), fun b isIn isB => ?_⟩
  rcases mem_append.mp isIn with isBefore | isAfter
  · have notB := none b isBefore
    rw [isB] at notB
    cases notB
  · rcases mem_cons.mp isAfter with rfl | later
    · exact le_refl b
    · exact ((pairwise_cons.mp (pairwise_append.mp sorted).2.1).1 b later).le

variable {items : List WorkerMemory}

theorem liveItems_sorted (items : List WorkerMemory) : (liveItems items).Pairwise (· < ·) :=
  pairwise_lt_range.filter _

def leftItems (items : List WorkerMemory) (applied : List ℕ) : List ℕ :=
  (liveItems items).filter fun index => decide (index ∉ applied)

theorem mem_leftItems {applied : List ℕ} {index : ℕ} :
    index ∈ leftItems items applied ↔ index ∈ liveItems items ∧ index ∉ applied := by
  unfold leftItems
  rw [mem_filter, decide_eq_true_eq]

theorem leftItems_sorted (applied : List ℕ) : (leftItems items applied).Pairwise (· < ·) :=
  (liveItems_sorted items).filter _

theorem leftItems_erase (applied : List ℕ) (chosen : ℕ) :
    (leftItems items applied).erase chosen = leftItems items (applied ++ [chosen]) := by
  have nodup : (leftItems items applied).Nodup := (leftItems_sorted applied).imp ne_of_lt
  rw [nodup.erase_eq_filter]
  unfold leftItems
  rw [filter_filter]
  refine filter_congr fun index _ => ?_
  rw [Bool.eq_iff_iff]
  simp [and_comm]

theorem isReady_iff {applied : List ℕ} {index : ℕ} (isLive : index ∈ liveItems items) :
    decide (∀ other ∈ dependsOn items index, other ∈ applied) = true ↔
      ∀ other, Refers items index other → other ∈ applied := by
  rw [decide_eq_true_eq]
  exact forall_congr' fun other => by rw [mem_dependsOn (firstOccurrence_iff.mpr isLive)]

theorem orderLoop_greedy (rounds : ℕ) (applied : List ℕ) (enough : (leftItems items applied).length ≤ rounds)
    (picks : Picks (Refers items) (liveItems items) applied) :
    Greedy (Refers items) (liveItems items) (orderLoop items rounds (leftItems items applied) applied) := by
  induction rounds generalizing applied with
  | zero =>
    have nothing : leftItems items applied = [] := length_eq_zero_iff.mp (Nat.le_zero.mp enough)
    unfold orderLoop
    refine ⟨picks, fun index isLive => ?_⟩
    by_contra new
    have isLeft := mem_leftItems.mpr ⟨isLive, new⟩
    rw [nothing] at isLeft
    exact absurd isLeft not_mem_nil
  | succ rounds ih =>
    have step : ∀ chosen ∈ leftItems items applied, Next (Refers items) (liveItems items) applied chosen →
        Greedy (Refers items) (liveItems items)
          (orderLoop items rounds ((leftItems items applied).erase chosen) (applied ++ [chosen])) := by
      intro chosen isLeft isNext
      rw [leftItems_erase]
      refine ih (applied ++ [chosen]) ?_ (picks.concat (mem_leftItems.mp isLeft).1 (mem_leftItems.mp isLeft).2 isNext)
      rw [← leftItems_erase, length_erase_of_mem isLeft]
      omega
    unfold orderLoop
    cases isReady : (leftItems items applied).find? fun index =>
        decide (∀ other ∈ dependsOn items index, other ∈ applied) with
    | some chosen =>
      obtain ⟨ready, isLeft, least⟩ := find?_least (leftItems_sorted applied) isReady
      have isLive := (mem_leftItems.mp isLeft).1
      refine step chosen isLeft (.ready ((isReady_iff isLive).mp ready) fun other otherLive new otherReady => ?_)
      exact least other (mem_leftItems.mpr ⟨otherLive, new⟩) ((isReady_iff otherLive).mpr otherReady)
    | none =>
      have full : ∀ other ∈ liveItems items, (∀ b, Refers items other b → b ∈ applied) → other ∈ applied := by
        intro other otherLive ready
        by_contra new
        exact find?_eq_none.mp isReady other (mem_leftItems.mpr ⟨otherLive, new⟩) ((isReady_iff otherLive).mpr ready)
      cases isCyclic : (leftItems items applied).find? fun index => inCycle items index with
      | some chosen =>
        obtain ⟨cyclic, isLeft, least⟩ := find?_least (leftItems_sorted applied) isCyclic
        have isLive := (mem_leftItems.mp isLeft).1
        refine step chosen isLeft (.breaks full ((inCycle_iff (firstOccurrence_iff.mpr isLive)).mp cyclic) ?_)
        intro other otherLive new otherCyclic
        exact least other (mem_leftItems.mpr ⟨otherLive, new⟩) ((inCycle_iff (firstOccurrence_iff.mpr otherLive)).mpr otherCyclic)
      | none =>
        refine ⟨picks, fun index isLive => ?_⟩
        by_contra new
        obtain ⟨other, otherLive, otherNew, otherCyclic⟩ := exists_cyclic Refers.inside full isLive new
        refine find?_eq_none.mp isCyclic other (mem_leftItems.mpr ⟨otherLive, otherNew⟩) ?_
        exact (inCycle_iff (firstOccurrence_iff.mpr otherLive)).mpr otherCyclic

theorem processingOrder_greedy (items : List WorkerMemory) :
    Greedy (Refers items) (liveItems items) (processingOrder items) := by
  have all : leftItems items [] = liveItems items :=
    filter_eq_self.mpr fun index _ => decide_eq_true not_mem_nil
  have greedy := orderLoop_greedy (liveItems items).length ([] : List ℕ) (by rw [all]) picks_nil
  rw [all] at greedy
  exact greedy

/-! ### The schedule -/

/-- **The order is a sound schedule** exactly when no cycle is listed before another one it waits for. -/
theorem soundSchedule_iff (items : List WorkerMemory) : SoundSchedule items ↔ ¬ ChainedUnfavourably items := by
  have greedy := processingOrder_greedy items
  have respects : ∀ {index other}, Refers items index other → ([other, index].Sublist (processingOrder items) ↔
      ¬ (TransGen (Refers items) index index ∧
        ∃ member, ReflTransGen (LateReference items index) other member ∧
          TransGen (LateReference items index) member member)) := by
    intro index other refers
    rw [greedy.respects_iff Refers.inside (firstOccurrence_iff.mp refers.1) refers,
      not_settles_iff Refers.inside (firstOccurrence_iff.mp refers.2.1)]
    exact Iff.rfl
  constructor
  · rintro sound ⟨index, other, refers, apart, cyclic, late⟩
    exact (respects refers).mp (sound.follows index other refers apart) ⟨cyclic, late⟩
  · intro favourable
    refine ⟨greedy.picks.nodup, fun index => greedy.mem_iff.trans firstOccurrence_iff.symm, ?_, ?_⟩
    · intro index other refers apart
      rw [respects refers]
      rintro ⟨cyclic, late⟩
      exact favourable ⟨index, other, refers, apart, cyclic, late⟩
    · intro acyclic placed next rest split
      obtain ⟨-, -, isNext⟩ := greedy.picks placed next rest split
      rcases isNext with ⟨placedAll, least⟩ | ⟨-, cyclic, -⟩
      · exact ⟨placedAll, fun index isFirst new ready => least index (firstOccurrence_iff.mp isFirst) new ready⟩
      · exact absurd cyclic (acyclic next)

def plainItem (key : String) (supersedes : Option String) (conflictsWith : List String) : WorkerMemory where
  key := lit key
  scope := .user
  state := .inferred
  supersedes := supersedes.map lit
  content := none
  conflictsWith := conflictsWith.map lit

/-- Two cycles: `a` and `b`, and `c` and `d`, to which `a` refers. -/
def chainedItems : List WorkerMemory :=
  [plainItem "a" (some "b") ["c"], plainItem "b" (some "a") [], plainItem "c" (some "d") [], plainItem "d" (some "c") []]

/-- `a` is applied before `c`. -/
theorem chainedItems_unsound : ¬ SoundSchedule chainedItems := by
  intro sound
  have isFirst : ∀ index ∈ liveItems chainedItems, FirstOccurrence chainedItems index :=
    fun _ => firstOccurrence_iff.mpr
  have refers : Refers chainedItems 0 2 := (mem_dependsOn (isFirst 0 (by decide))).mp (by decide)
  -- nothing leads from `c` and `d` back to `a`
  have inside : ∀ index, TransGen (Refers chainedItems) 2 index → index = 2 ∨ index = 3 := by
    intro index path
    have after : ∀ source, source = 2 ∨ source = 3 → ∀ other, Refers chainedItems source other → other = 2 ∨ other = 3 := by
      rintro source (rfl | rfl) other edge
      · have depends := (mem_dependsOn edge.1).mpr edge
        right
        simpa using (show other ∈ [3] from depends)
      · have depends := (mem_dependsOn edge.1).mpr edge
        left
        simpa using (show other ∈ [2] from depends)
    induction path with
    | single edge => exact after 2 (.inl rfl) _ edge
    | tail _ edge ih => exact after _ ih _ edge
  have apart : ¬ OnCommonCycle chainedItems 0 2 := by
    rintro ⟨-, back⟩
    rcases inside 0 back with same | same <;> cases same
  have order : processingOrder chainedItems = [0, 1, 2, 3] := by decide
  have before := sound.follows 0 2 refers apart
  rw [order] at before
  exact absurd before (by decide)

end PawBackend.Memory
