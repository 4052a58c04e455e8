/-
**Union-find.** Parent pointers over any type, every node its own parent at first. `find` follows them to the
root and halves the path it takes; `link` hangs the root of one end of an edge below the root of the other.

`Forest` says what the pointers stand for: `root` is what they lead to and `height` bounds how far it is. Halving
changes neither.
-/

import PawBackend.Lib.Reachability
import Mathlib.Data.List.Induction
import Mathlib.Data.List.Nodup

namespace PawBackend.Lib

open List

open Relation (EqvGen)

section Forests

variable {α : Type} [DecidableEq α]

/-- The loop of `find`: each node on the way is given its grandparent. -/
def find : ℕ → (α → α) → α → (α → α) × α
  | 0, parent, node => (parent, node)
  | fuel + 1, parent, node =>
    if parent node = node then (parent, node)
    else
      let halved := Function.update parent node (parent (parent node))
      find fuel halved (halved node)

/-- `parent[find(a)] = find(b)`: the right-hand side is found first. -/
def link (fuel : ℕ) (parent : α → α) (edge : α × α) : α → α :=
  let second := find fuel parent edge.2
  let first := find fuel second.1 edge.1
  Function.update first.1 first.2 second.2

def linkAll (fuel : ℕ) (edges : List (α × α)) : α → α := edges.foldl (link fuel) id

/-- The roots of some nodes, found one after another. -/
def rootsOf (fuel : ℕ) : (α → α) → List α → List α
  | _, [] => []
  | parent, node :: rest =>
    let found := find fuel parent node
    found.2 :: rootsOf fuel found.1 rest

structure Forest (parent root : α → α) (height : α → ℕ) : Prop where
  root_parent : ∀ node, root (parent node) = root node
  root_self : ∀ node, parent node = node → root node = node
  descends : ∀ node, parent node ≠ node → height (parent node) < height node
  height_root : ∀ node, parent node = node → height node = 0

variable {parent root : α → α} {height : α → ℕ} {fuel : ℕ} {edges : List (α × α)}

omit [DecidableEq α] in
theorem forest_id : Forest (id : α → α) id fun _ => 0 :=
  ⟨fun _ => rfl, fun _ _ => rfl, fun _ moved => absurd rfl moved, fun _ _ => rfl⟩

namespace Forest

theorem parent_root (forest : Forest parent root height) (node : α) : parent (root node) = root node := by
  induction far : height node using Nat.strongRecOn generalizing node with
  | ind n ih =>
    by_cases isRoot : parent node = node
    · rw [forest.root_self node isRoot, isRoot]
    · have nearer := forest.descends node isRoot
      rw [← forest.root_parent node]
      exact ih (height (parent node)) (far ▸ nearer) (parent node) rfl

theorem halve (forest : Forest parent root height) {node : α} (moved : parent node ≠ node) :
    Forest (Function.update parent node (parent (parent node))) root height := by
  have below : height (parent (parent node)) < height node := by
    by_cases isRoot : parent (parent node) = parent node
    · rw [isRoot]
      exact forest.descends node moved
    · exact Nat.lt_trans (forest.descends (parent node) isRoot) (forest.descends node moved)
  have stays : ∀ other, Function.update parent node (parent (parent node)) other = other → parent other = other := by
    intro other fixed
    by_cases isNode : other = node
    · subst isNode
      rw [Function.update_self] at fixed
      rw [fixed] at below
      exact absurd below (Nat.lt_irrefl _)
    · rwa [Function.update_of_ne isNode] at fixed
  refine ⟨fun other => ?_, fun other fixed => forest.root_self other (stays other fixed), fun other differs => ?_,
    fun other fixed => forest.height_root other (stays other fixed)⟩
  · by_cases isNode : other = node
    · subst isNode
      rw [Function.update_self, forest.root_parent, forest.root_parent]
    · rw [Function.update_of_ne isNode, forest.root_parent]
  · by_cases isNode : other = node
    · subst isNode
      rw [Function.update_self]
      exact below
    · rw [Function.update_of_ne isNode] at differs ⊢
      exact forest.descends other differs

theorem find_spec (forest : Forest parent root height) {node : α} (enough : height node ≤ fuel) :
    (find fuel parent node).2 = root node ∧ Forest (find fuel parent node).1 root height := by
  induction fuel generalizing parent node with
  | zero =>
    have isRoot : parent node = node := by
      by_contra moved
      have nearer := forest.descends node moved
      omega
    exact ⟨(forest.root_self node isRoot).symm, forest⟩
  | succ fuel ih =>
    unfold find
    by_cases isRoot : parent node = node
    · rw [if_pos isRoot]
      exact ⟨(forest.root_self node isRoot).symm, forest⟩
    · rw [if_neg isRoot]
      have halved := forest.halve isRoot
      have moved : Function.update parent node (parent (parent node)) node ≠ node := by
        intro fixed
        have zero := halved.height_root node fixed
        have nearer := forest.descends node isRoot
        omega
      have nearer := halved.descends node moved
      have close : height (Function.update parent node (parent (parent node)) node) ≤ fuel := by omega
      obtain ⟨found, later⟩ := ih halved close
      exact ⟨found.trans (halved.root_parent node), later⟩

theorem hang (forest : Forest parent root height) {first second : α} (isFirst : parent first = first)
    (isSecond : parent second = second) (apart : first ≠ second) :
    Forest (Function.update parent first second) (fun node => if root node = first then second else root node)
      (fun node => if root node = first then height node + 1 else height node) := by
  have rootFirst := forest.root_self first isFirst
  have rootSecond := forest.root_self second isSecond
  have secondOther : root second ≠ first := fun same => apart (same.symm.trans rootSecond)
  have stays : ∀ node, Function.update parent first second node = node → node ≠ first ∧ parent node = node := by
    intro node fixed
    by_cases isIt : node = first
    · rw [isIt, Function.update_self] at fixed
      exact absurd fixed.symm apart
    · rw [Function.update_of_ne isIt] at fixed
      exact ⟨isIt, fixed⟩
  refine ⟨fun node => ?_, fun node fixed => ?_, fun node differs => ?_, fun node fixed => ?_⟩
  · by_cases isIt : node = first
    · rw [isIt, Function.update_self, if_neg secondOther, if_pos rootFirst, rootSecond]
    · rw [Function.update_of_ne isIt, forest.root_parent]
  · obtain ⟨other, isRoot⟩ := stays node fixed
    rw [forest.root_self node isRoot, if_neg other]
  · by_cases isIt : node = first
    · rw [isIt, Function.update_self, if_neg secondOther, if_pos rootFirst, forest.height_root second isSecond]
      exact Nat.succ_pos _
    · rw [Function.update_of_ne isIt] at differs ⊢
      have nearer := forest.descends node differs
      rw [forest.root_parent]
      by_cases below : root node = first
      · rw [if_pos below, if_pos below]
        omega
      · rw [if_neg below, if_neg below]
        exact nearer
  · obtain ⟨other, isRoot⟩ := stays node fixed
    rw [forest.root_self node isRoot, if_neg other]
    exact forest.height_root node isRoot

end Forest

theorem link_spec (forest : Forest parent root height) {n : ℕ} (bounded : ∀ node, height node ≤ n) (enough : n ≤ fuel)
    (edge : α × α) : ∃ height' : α → ℕ, (∀ node, height' node ≤ n + 1) ∧
      Forest (link fuel parent edge) (fun node => if root node = root edge.1 then root edge.2 else root node) height' := by
  obtain ⟨foundSecond, second⟩ := forest.find_spec (Nat.le_trans (bounded edge.2) enough)
  obtain ⟨foundFirst, first⟩ := second.find_spec (Nat.le_trans (bounded edge.1) enough)
  unfold link
  dsimp only
  rw [foundSecond, foundFirst]
  by_cases same : root edge.1 = root edge.2
  · refine ⟨height, fun node => Nat.le_succ_of_le (bounded node), ?_⟩
    have unchanged : (fun node => if root node = root edge.1 then root edge.2 else root node) = root := by
      funext node
      split_ifs with below
      · exact same.symm.trans below.symm
      · rfl
    have hung : Function.update (find fuel (find fuel parent edge.2).1 edge.1).1 (root edge.1) (root edge.1) =
        (find fuel (find fuel parent edge.2).1 edge.1).1 := by
      conv_lhs => rw [← first.parent_root edge.1]
      rw [first.parent_root edge.1, Function.update_eq_iff]
      exact ⟨(first.parent_root edge.1).symm, fun _ _ => rfl⟩
    rw [unchanged, ← same, hung]
    exact first
  · refine ⟨_, fun node => ?_, first.hang (first.parent_root edge.1) (first.parent_root edge.2) same⟩
    have le := bounded node
    split_ifs
    · omega
    · omega

/-- **After all edges are linked, one root is being connected.** -/
theorem linkAll_spec (enough : edges.length ≤ fuel) : ∃ (root : α → α) (height : α → ℕ),
    Forest (linkAll fuel edges) root height ∧ (∀ node, height node ≤ edges.length) ∧
      ∀ a b, root a = root b ↔ EqvGen (Joined edges) a b := by
  induction edges using List.reverseRecOn with
  | nil =>
    refine ⟨id, fun _ => 0, forest_id, fun _ => Nat.le_refl _, fun a b => ⟨fun same => ?_, fun connected => ?_⟩⟩
    · obtain rfl : a = b := same
      exact .refl a
    · induction connected with
      | rel a b isEdge => exact absurd isEdge not_mem_nil
      | refl a => rfl
      | symm a b _ ih => exact ih.symm
      | trans a b c _ _ first second => exact first.trans second
  | append_singleton edges edge ih =>
    rw [length_append, length_singleton] at enough
    obtain ⟨root, height, forest, bounded, connects⟩ := ih (by omega)
    have fuelLeft : edges.length ≤ fuel := by omega
    obtain ⟨height', bounded', linked⟩ := link_spec forest bounded fuelLeft edge
    refine ⟨fun node => if root node = root edge.1 then root edge.2 else root node, height', ?_, fun node => ?_, fun a b => ?_⟩
    · unfold linkAll
      rw [foldl_append]
      exact linked
    · rw [length_append, length_singleton]
      exact bounded' node
    · have old : ∀ {x y}, root x = root y → EqvGen (Joined (edges ++ [edge])) x y := fun same =>
        EqvGen.mono (fun _ _ isEdge => mem_append_left _ isEdge) _ _ ((connects _ _).mp same)
      have new : EqvGen (Joined (edges ++ [edge])) edge.1 edge.2 :=
        .rel _ _ (mem_append_right _ (mem_singleton_self edge))
      show (if root a = root edge.1 then root edge.2 else root a) =
        (if root b = root edge.1 then root edge.2 else root b) ↔ _
      constructor
      · intro same
        by_cases first : root a = root edge.1
        · rw [if_pos first] at same
          by_cases second : root b = root edge.1
          · exact old (first.trans second.symm)
          · rw [if_neg second] at same
            exact ((old first).trans _ _ _ new).trans _ _ _ (old same)
        · rw [if_neg first] at same
          by_cases second : root b = root edge.1
          · rw [if_pos second] at same
            exact ((old same).trans _ _ _ (new.symm _ _)).trans _ _ _ (old second.symm)
          · rw [if_neg second] at same
            exact old same
      · intro connected
        induction connected with
        | rel a b isEdge =>
          rcases mem_append.mp isEdge with isOld | isNew
          · have same := (connects a b).mpr (.rel a b isOld)
            rw [same]
          · obtain rfl := mem_singleton.mp isNew
            rw [if_pos rfl]
            split_ifs with below
            · rfl
            · rfl
        | refl a => rfl
        | symm a b _ ih => exact ih.symm
        | trans a b c _ _ first second => exact first.trans second

theorem rootsOf_eq (forest : Forest parent root height) (enough : ∀ node, height node ≤ fuel) (nodes : List α) :
    rootsOf fuel parent nodes = nodes.map root := by
  induction nodes generalizing parent with
  | nil => rfl
  | cons node rest ih =>
    obtain ⟨found, later⟩ := forest.find_spec (enough node)
    show (find fuel parent node).2 :: rootsOf fuel (find fuel parent node).1 rest = _
    rw [found, ih later, map_cons]

end Forests

/-! ### Collecting by a key -/

section Collect

variable {κ ι : Type} [DecidableEq κ]

/-- `members.setdefault(key, []).append(item)`. -/
def appendTo (members : List (κ × List ι)) (entry : κ × ι) : List (κ × List ι) :=
  if entry.1 ∈ members.map Prod.fst then
    members.map fun known => if known.1 = entry.1 then (known.1, known.2 ++ [entry.2]) else known
  else members ++ [(entry.1, [entry.2])]

def collect (entries : List (κ × ι)) : List (κ × List ι) := entries.foldl appendTo []

def withKey (entries : List (κ × ι)) (key : κ) : List ι := (entries.filter fun entry => decide (entry.1 = key)).map Prod.snd

theorem withKey_append_self (entries : List (κ × ι)) (key : κ) (item : ι) :
    withKey (entries ++ [(key, item)]) key = withKey entries key ++ [item] := by
  unfold withKey
  rw [filter_append, map_append, filter_singleton, decide_eq_true rfl]
  rfl

theorem withKey_append_of_ne (entries : List (κ × ι)) {key other : κ} (differs : other ≠ key) (item : ι) :
    withKey (entries ++ [(other, item)]) key = withKey entries key := by
  unfold withKey
  rw [filter_append, map_append, filter_singleton, decide_eq_false differs]
  exact append_nil _

theorem collect_spec (entries : List (κ × ι)) : ((collect entries).map Prod.fst).Nodup ∧
    ∀ key group, (key, group) ∈ collect entries ↔ group ≠ [] ∧ group = withKey entries key := by
  induction entries using List.reverseRecOn with
  | nil =>
    refine ⟨nodup_nil, fun key group => ⟨fun isIn => absurd isIn not_mem_nil, ?_⟩⟩
    rintro ⟨some, rfl⟩
    exact absurd rfl some
  | append_singleton entries entry ih =>
    obtain ⟨key₀, item⟩ := entry
    obtain ⟨nodup, mem⟩ := ih
    have step : collect (entries ++ [(key₀, item)]) = appendTo (collect entries) (key₀, item) := by
      unfold collect
      rw [foldl_append]
      rfl
    rw [step]
    unfold appendTo
    by_cases known : key₀ ∈ (collect entries).map Prod.fst
    · rw [if_pos known]
      have sameKeys : ((collect entries).map fun known => if known.1 = key₀ then (known.1, known.2 ++ [item]) else known).map
          Prod.fst = (collect entries).map Prod.fst := by
        rw [map_map]
        refine map_congr_left fun other _ => ?_
        show (if other.1 = key₀ then (other.1, other.2 ++ [item]) else other).1 = other.1
        split_ifs
        · rfl
        · rfl
      refine ⟨sameKeys ▸ nodup, fun key group => ?_⟩
      rw [mem_map]
      constructor
      · rintro ⟨⟨other, old⟩, isOld, same⟩
        obtain ⟨some, isAll⟩ := (mem other old).mp isOld
        by_cases isKey : other = key₀
        · rw [if_pos isKey] at same
          obtain ⟨rfl, rfl⟩ := Prod.mk.inj same
          subst isKey
          exact ⟨append_ne_nil_of_right_ne_nil _ (cons_ne_nil _ _), by rw [withKey_append_self, isAll]⟩
        · rw [if_neg isKey] at same
          obtain ⟨rfl, rfl⟩ := Prod.mk.inj same
          exact ⟨some, by rw [withKey_append_of_ne _ (Ne.symm isKey), isAll]⟩
      · rintro ⟨some, rfl⟩
        by_cases isKey : key = key₀
        · subst isKey
          obtain ⟨⟨_, old⟩, isOld, rfl⟩ := mem_map.mp known
          obtain ⟨-, isAll⟩ := (mem _ old).mp isOld
          refine ⟨_, isOld, ?_⟩
          rw [if_pos rfl, withKey_append_self, isAll]
        · rw [withKey_append_of_ne _ (Ne.symm isKey)] at some ⊢
          exact ⟨(key, withKey entries key), (mem key _).mpr ⟨some, rfl⟩, if_neg isKey⟩
    · rw [if_neg known]
      have fresh : withKey entries key₀ = [] := by
        by_contra some
        exact known (mem_map.mpr ⟨_, (mem key₀ _).mpr ⟨some, rfl⟩, rfl⟩)
      refine ⟨?_, fun key group => ?_⟩
      · rw [map_append, map_singleton]
        exact nodup_append.mpr ⟨nodup, nodup_singleton _, by
          rintro other isOld same isNew rfl
          obtain rfl : other = key₀ := mem_singleton.mp isNew
          exact known isOld⟩
      · rw [mem_append, mem_singleton, mem]
        by_cases isKey : key = key₀
        · subst isKey
          rw [withKey_append_self, fresh, nil_append]
          constructor
          · rintro (⟨some, rfl⟩ | same)
            · exact absurd rfl some
            · obtain ⟨-, rfl⟩ := Prod.mk.inj same
              exact ⟨cons_ne_nil _ _, rfl⟩
          · rintro ⟨-, rfl⟩
            exact .inr rfl
        · rw [withKey_append_of_ne _ (Ne.symm isKey)]
          refine or_iff_left fun same => isKey (Prod.mk.inj same).1

end Collect

end PawBackend.Lib
