/-
**Orders that follow references.** `Settles` is what a base settles: an item settles when all it refers to
does. In a finite graph an item does not settle exactly when its references lead to a cycle outside the base.

`Greedy` is the order of Kahn's loop with a way out of cycles: the least item whose references are all
placed, and where there is none the least item on a cycle.
-/

import Mathlib.Data.Set.Finite.List

namespace PawBackend.Lib

open List

open Relation (ReflTransGen TransGen)

variable {α : Type} {refers : α → α → Prop} {base : α → Prop} {a b : α}

/-! ### Settling -/

inductive Settles (refers : α → α → Prop) (base : α → Prop) : α → Prop
  | base {a : α} (isBase : base a) : Settles refers base a
  | step {a : α} (all : ∀ b, refers a b → Settles refers base b) : Settles refers base a

def Awaits (refers : α → α → Prop) (base : α → Prop) (a b : α) : Prop := refers a b ∧ ¬ base a

theorem Settles.no_cycle (settles : Settles refers base a) :
    ∀ c, ReflTransGen (Awaits refers base) a c → ¬ TransGen (Awaits refers base) c c := by
  induction settles with
  | base isBase =>
    intro c path cycle
    rcases ReflTransGen.cases_head path with rfl | ⟨b, first, -⟩
    · obtain ⟨b, first, -⟩ := TransGen.head'_iff.mp cycle
      exact first.2 isBase
    · exact first.2 isBase
  | @step a _ ih =>
    intro c path cycle
    rcases ReflTransGen.cases_head path with rfl | ⟨b, first, rest⟩
    · obtain ⟨b, first, rest⟩ := TransGen.head'_iff.mp cycle
      exact ih b first.1 a rest cycle
    · exact ih b first.1 c rest cycle

theorem settles_of_no_cycle {nodes : List α} (inside : ∀ a ∈ nodes, ∀ b, refers a b → b ∈ nodes) (isNode : a ∈ nodes)
    (noCycle : ∀ c ∈ nodes, ReflTransGen (Awaits refers base) a c → ¬ TransGen (Awaits refers base) c c) :
    Settles refers base a := by
  let Reached := {c : α // c ∈ nodes ∧ ReflTransGen (Awaits refers base) a c}
  let below : Reached → Reached → Prop := fun low high => TransGen (Awaits refers base) high.1 low.1
  have finite : Finite Reached := (nodes.finite_toSet.subset fun _ isReached => isReached.1).to_subtype
  have trans : IsTrans Reached below := ⟨fun _ _ _ first second => second.trans first⟩
  have irrefl : Std.Irrefl below := ⟨fun c => noCycle c.1 c.2.1 c.2.2⟩
  have wellFounded : WellFounded below := Finite.wellFounded_of_trans_of_irrefl below
  refine wellFounded.induction (C := fun c => Settles refers base c.1) ⟨a, isNode, .refl⟩ ?_
  rintro ⟨c, isIn, path⟩ ih
  by_cases isBase : base c
  · exact .base isBase
  · refine .step fun b refersTo => ?_
    have edge : Awaits refers base c b := ⟨refersTo, isBase⟩
    exact ih ⟨b, inside c isIn b refersTo, path.tail edge⟩ (.single edge)

theorem not_settles_iff {nodes : List α} (inside : ∀ a ∈ nodes, ∀ b, refers a b → b ∈ nodes) (isNode : a ∈ nodes) :
    ¬ Settles refers base a ↔
      ∃ c, ReflTransGen (Awaits refers base) a c ∧ TransGen (Awaits refers base) c c := by
  constructor
  · intro unsettled
    by_contra none
    exact unsettled (settles_of_no_cycle inside isNode fun c _ path cycle => none ⟨c, path, cycle⟩)
  · rintro ⟨c, path, cycle⟩ settles
    exact settles.no_cycle c path cycle

theorem Settles.mem {nodes placed : List α} (inside : ∀ a ∈ nodes, ∀ b, refers a b → b ∈ nodes)
    (fromBase : ∀ a ∈ nodes, base a → a ∈ placed) (full : ∀ a ∈ nodes, (∀ b, refers a b → b ∈ placed) → a ∈ placed)
    (settles : Settles refers base a) : a ∈ nodes → a ∈ placed := by
  induction settles with
  | base isBase => exact fun isNode => fromBase _ isNode isBase
  | step _ ih => exact fun isNode => full _ isNode fun b refersTo => ih b refersTo (inside _ isNode b refersTo)

theorem exists_cyclic {nodes placed : List α} (inside : ∀ a ∈ nodes, ∀ b, refers a b → b ∈ nodes)
    (full : ∀ a ∈ nodes, (∀ b, refers a b → b ∈ placed) → a ∈ placed) (isNode : a ∈ nodes) (isLeft : a ∉ placed) :
    ∃ c ∈ nodes, c ∉ placed ∧ TransGen refers c c := by
  by_contra none
  have settles : Settles refers (· ∈ placed) a := by
    refine settles_of_no_cycle inside isNode fun c isIn _ cycle => none ⟨c, isIn, ?_, ?_⟩
    · obtain ⟨_, first, -⟩ := TransGen.head'_iff.mp cycle
      exact first.2
    · exact TransGen.mono (fun _ _ (edge : Awaits refers (· ∈ placed) _ _) => edge.1) _ _ cycle
  exact isLeft (settles.mem inside (fun _ _ isPlaced => isPlaced) full isNode)

/-! ### Greedy orders -/

theorem before_iff {placed rest : List α} (nodup : (placed ++ a :: rest).Nodup) :
    [b, a].Sublist (placed ++ a :: rest) ↔ b ∈ placed := by
  constructor
  · intro sub
    obtain ⟨first, second, whole, isFirst, isSecond⟩ := sublist_append_iff.mp sub
    have notPlaced : a ∉ placed := fun isPlaced =>
      (nodup_append.mp nodup).2.2 a isPlaced a (.head _) rfl
    have onceAfter : a ∉ rest := (nodup_cons.mp (nodup_append.mp nodup).2.1).1
    rcases append_eq_cons_iff.mp whole.symm with ⟨rfl, rfl⟩ | ⟨tail, rfl, -⟩
    · rcases sublist_cons_iff.mp isSecond with later | ⟨tail, same, later⟩
      · exact absurd (later.subset (.tail _ (.head _))) onceAfter
      · obtain ⟨rfl, rfl⟩ := List.cons.inj same
        exact absurd (later.subset (.head _)) onceAfter
    · exact isFirst.subset (.head _)
  · intro isPlaced
    exact (singleton_sublist.mpr isPlaced).append (singleton_sublist.mpr (.head _))

section Order

variable [LinearOrder α]

inductive Next (refers : α → α → Prop) (nodes placed : List α) (next : α) : Prop
  | ready (placedAll : ∀ b, refers next b → b ∈ placed)
      (least : ∀ other ∈ nodes, other ∉ placed → (∀ b, refers other b → b ∈ placed) → next ≤ other)
  | breaks (full : ∀ other ∈ nodes, (∀ b, refers other b → b ∈ placed) → other ∈ placed)
      (cyclic : TransGen refers next next)
      (least : ∀ other ∈ nodes, other ∉ placed → TransGen refers other other → next ≤ other)

/-- Each item of an order is what comes next after those before it. -/
def Picks (refers : α → α → Prop) (nodes order : List α) : Prop :=
  ∀ placed next rest, order = placed ++ next :: rest → next ∈ nodes ∧ next ∉ placed ∧ Next refers nodes placed next

structure Greedy (refers : α → α → Prop) (nodes order : List α) : Prop where
  picks : Picks refers nodes order
  complete : ∀ a ∈ nodes, a ∈ order

def CyclicBefore (refers : α → α → Prop) (a c : α) : Prop := TransGen refers c c ∧ c < a

variable {nodes order : List α}

theorem picks_nil : Picks refers nodes [] := by
  intro placed next rest split
  exact absurd split.symm (append_ne_nil_of_right_ne_nil placed (cons_ne_nil next rest))

theorem Picks.concat (picks : Picks refers nodes order) (isNode : a ∈ nodes) (new : a ∉ order)
    (isNext : Next refers nodes order a) : Picks refers nodes (order ++ [a]) := by
  intro placed next rest split
  rcases eq_nil_or_concat rest with rfl | ⟨rest, last, rfl⟩
  · obtain ⟨rfl, same⟩ := append_inj' split rfl
    obtain rfl := singleton_injective same
    exact ⟨isNode, new, isNext⟩
  · have shorter : order ++ [a] = (placed ++ next :: rest) ++ [last] := by
      rw [split, concat_eq_append, append_assoc, cons_append]
    exact picks placed next rest (append_inj' shorter rfl).1

theorem Picks.nodup (picks : Picks refers nodes order) : order.Nodup := by
  induction order using List.reverseRecOn with
  | nil => exact nodup_nil
  | append_singleton order last ih =>
    have before : Picks refers nodes order := by
      intro placed next rest split
      exact picks placed next (rest ++ [last]) (by rw [split, append_assoc, cons_append])
    exact nodup_append.mpr ⟨ih before, nodup_singleton last, by
      rintro x isIn y isLast rfl
      obtain rfl := mem_singleton.mp isLast
      exact (picks order x [] rfl).2.1 isIn⟩

theorem Greedy.mem_iff (greedy : Greedy refers nodes order) : a ∈ order ↔ a ∈ nodes := by
  constructor
  · intro isIn
    obtain ⟨placed, rest, split⟩ := append_of_mem isIn
    exact (greedy.picks placed a rest split).1
  · exact greedy.complete a

theorem Picks.settles (picks : Picks refers nodes order) {placed rest : List α} (split : order = placed ++ a :: rest)
    (cyclic : TransGen refers a a) : ∀ b ∈ placed, Settles refers (CyclicBefore refers a) b := by
  have aPicked := picks placed a rest split
  have all : ∀ (done left : List α), placed = done ++ left → ∀ b ∈ done, Settles refers (CyclicBefore refers a) b := by
    intro done
    induction done using List.reverseRecOn with
    | nil => exact fun _ _ b isIn => absurd isIn not_mem_nil
    | append_singleton done last ih =>
      intro left parts b isIn
      have earlier := ih (last :: left) (by rw [parts, append_assoc, singleton_append])
      rcases mem_append.mp isIn with isEarlier | isLast
      · exact earlier b isEarlier
      obtain rfl := mem_singleton.mp isLast
      have aNew : a ∉ done := fun isDone =>
        aPicked.2.1 (parts ▸ mem_append_left _ (mem_append_left _ isDone))
      have bPlaced : b ∈ placed := parts ▸ mem_append_left _ isIn
      obtain ⟨-, -, isNext⟩ := picks done b (left ++ a :: rest) (by rw [split, parts]; simp)
      rcases isNext with ⟨placedAll, -⟩ | ⟨-, cyclicB, least⟩
      · exact .step fun c refersTo => earlier c (placedAll c refersTo)
      · have le := least a aPicked.1 aNew cyclic
        have ne : b ≠ a := fun same => aPicked.2.1 (same ▸ bPlaced)
        exact .base ⟨cyclicB, lt_of_le_of_ne le ne⟩
  exact all placed [] (append_nil placed).symm

/-- **A reference is respected** unless its source breaks a cycle before its target is settled. -/
theorem Greedy.respects_iff (greedy : Greedy refers nodes order) (inside : ∀ a ∈ nodes, ∀ b, refers a b → b ∈ nodes)
    (isNode : a ∈ nodes) (refersTo : refers a b) :
    [b, a].Sublist order ↔ ¬ (TransGen refers a a ∧ ¬ Settles refers (CyclicBefore refers a) b) := by
  obtain ⟨placed, rest, split⟩ := append_of_mem (greedy.complete a isNode)
  obtain ⟨-, -, isNext⟩ := greedy.picks placed a rest split
  have nodup := greedy.picks.nodup
  rw [split] at nodup
  rw [split, before_iff nodup]
  constructor
  · rintro isPlaced ⟨cyclic, unsettled⟩
    exact unsettled (greedy.picks.settles split cyclic b isPlaced)
  · intro settled
    rcases isNext with ⟨placedAll, -⟩ | ⟨full, cyclic, least⟩
    · exact placedAll b refersTo
    · have settles : Settles refers (CyclicBefore refers a) b := by
        by_contra unsettled
        exact settled ⟨cyclic, unsettled⟩
      refine settles.mem inside ?_ full (inside a isNode b refersTo)
      intro c isIn before
      by_contra new
      exact absurd before.2 (not_lt.mpr (least c isIn new before.1))

end Order

end PawBackend.Lib
