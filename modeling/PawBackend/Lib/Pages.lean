/-
**Pages of an ordered table.** `page` is what `SELECT DISTINCT … ORDER BY … LIMIT` returns, and also what
`sorted(found)[:limit]` makes of a set. It depends only on which rows there are (`page_congr`), so pages of the
parts of a table make up the page of the whole (`page_merge`).
-/

import Mathlib.Data.Finset.Card
import Mathlib.Data.List.Sort

namespace PawBackend.Lib

open List

variable {α : Type} [LinearOrder α]

def ordered (rows : List α) : List α := rows.dedup.insertionSort (· ≤ ·)

def page (limit : ℕ) (rows : List α) : List α := (ordered rows).take limit

variable {limit : ℕ} {rows rows' : List α} {a b : α}

theorem mem_ordered : a ∈ ordered rows ↔ a ∈ rows := by
  unfold ordered
  rw [mem_insertionSort, mem_dedup]

theorem ordered_nodup (rows : List α) : (ordered rows).Nodup :=
  (perm_insertionSort _ _).nodup_iff.mpr rows.nodup_dedup

theorem ordered_sorted (rows : List α) : (ordered rows).Pairwise (· < ·) := by
  have sorted : (ordered rows).Pairwise (· ≤ ·) := pairwise_insertionSort _ _
  exact (sorted.and (ordered_nodup rows)).imp fun both => lt_of_le_of_ne both.1 both.2

theorem mem_take_iff {l : List α} (sorted : l.Pairwise (· < ·)) :
    a ∈ l.take limit ↔ a ∈ l ∧ (l.filter fun b => decide (b < a)).length < limit := by
  induction l generalizing limit with
  | nil => simp
  | cons head tail ih =>
    obtain ⟨below, sortedTail⟩ := pairwise_cons.mp sorted
    cases limit with
    | zero => simp
    | succ limit =>
      rw [take_succ_cons, mem_cons, mem_cons, ih sortedTail, filter_cons]
      by_cases isHead : a = head
      · subst isHead
        have none : (tail.filter fun b => decide (b < a)) = [] :=
          filter_eq_nil_iff.mpr fun b isIn lt => lt_asymm (below b isIn) (of_decide_eq_true lt)
        simp [none]
      · simp only [isHead, false_or]
        refine and_congr_right fun isIn => ?_
        rw [if_pos (decide_eq_true (below a isIn)), length_cons, Nat.succ_lt_succ_iff]

theorem mem_page : a ∈ page limit rows ↔ a ∈ rows ∧ (rows.toFinset.filter (· < a)).card < limit := by
  have count : ((ordered rows).filter fun b => decide (b < a)).length = (rows.toFinset.filter (· < a)).card := by
    rw [← toFinset_card_of_nodup ((ordered_nodup rows).filter _), toFinset_filter]
    congr 1
    ext b
    simp only [Finset.mem_filter, mem_toFinset, mem_ordered, decide_eq_true_eq]
  unfold page
  rw [mem_take_iff (ordered_sorted rows), mem_ordered, count]

theorem page_sorted (limit : ℕ) (rows : List α) : (page limit rows).Pairwise (· < ·) :=
  (ordered_sorted rows).sublist (take_sublist _ _)

theorem page_nodup (limit : ℕ) (rows : List α) : (page limit rows).Nodup := (page_sorted limit rows).imp ne_of_lt

theorem length_page (limit : ℕ) (rows : List α) : (page limit rows).length = min limit rows.toFinset.card := by
  have count : (ordered rows).length = rows.toFinset.card := by
    rw [← toFinset_card_of_nodup (ordered_nodup rows)]
    congr 1
    ext b
    simp only [mem_toFinset, mem_ordered]
  unfold page
  rw [length_take, count]

theorem eq_of_sorted {l l' : List α} (sorted : l.Pairwise (· < ·)) (sorted' : l'.Pairwise (· < ·))
    (same : ∀ a, a ∈ l ↔ a ∈ l') : l = l' := by
  have perm : l.Perm l' := (perm_ext_iff_of_nodup (sorted.imp ne_of_lt) (sorted'.imp ne_of_lt)).mpr same
  exact perm.eq_of_pairwise (fun _ _ _ _ first second => absurd first (lt_asymm second)) sorted sorted'

theorem page_congr (same : ∀ a, a ∈ rows ↔ a ∈ rows') : page limit rows = page limit rows' := by
  have sameSet : rows.toFinset = rows'.toFinset := by
    ext a
    rw [mem_toFinset, mem_toFinset, same]
  refine eq_of_sorted (page_sorted limit rows) (page_sorted limit rows') fun a => ?_
  rw [mem_page, mem_page, same, sameSet]

theorem page_before (isRow : a ∈ rows) (notIn : a ∉ page limit rows) :
    (page limit rows).length = limit ∧ ∀ b ∈ page limit rows, b < a := by
  have many : limit ≤ (rows.toFinset.filter (· < a)).card := by
    by_contra few
    exact notIn (mem_page.mpr ⟨isRow, not_le.mp few⟩)
  refine ⟨?_, fun b isIn => ?_⟩
  · rw [length_page]
    exact min_eq_left (many.trans (Finset.card_filter_le _ _))
  · by_contra notBefore
    have sub : rows.toFinset.filter (· < a) ⊆ rows.toFinset.filter (· < b) :=
      Finset.monotone_filter_right _ fun _ _ lt => lt_of_lt_of_le lt (not_lt.mp notBefore)
    exact absurd (mem_page.mp isIn).2 (not_lt.mpr (many.trans (Finset.card_le_card sub)))

theorem page_merge (limit : ℕ) (rows rest : List α) : page limit (page limit rows ++ rest) = page limit (rows ++ rest) := by
  refine eq_of_sorted (page_sorted _ _) (page_sorted _ _) fun a => ?_
  have part : page limit rows ++ rest ⊆ rows ++ rest := by
    intro b isIn
    rcases mem_append.mp isIn with inPage | inRest
    · exact mem_append_left _ (mem_page.mp inPage).1
    · exact mem_append_right _ inRest
  have partSet : (page limit rows ++ rest).toFinset ⊆ (rows ++ rest).toFinset :=
    fun b isIn => mem_toFinset.mpr (part (mem_toFinset.mp isIn))
  rw [mem_page, mem_page]
  constructor
  · rintro ⟨isIn, few⟩
    refine ⟨part isIn, ?_⟩
    by_cases covered : ∀ b ∈ rows, b < a → b ∈ page limit rows
    · refine lt_of_le_of_lt (Finset.card_le_card fun b isBefore => ?_) few
      rw [Finset.mem_filter, mem_toFinset, mem_append] at isBefore ⊢
      exact ⟨isBefore.1.imp_left fun isRow => covered b isRow isBefore.2, isBefore.2⟩
    · simp only [not_forall] at covered
      obtain ⟨b, isRow, before, notIn⟩ := covered
      obtain ⟨full, allBefore⟩ := page_before isRow notIn
      have sub : (page limit rows).toFinset ⊆ (page limit rows ++ rest).toFinset.filter (· < a) := by
        intro c isPaged
        rw [mem_toFinset] at isPaged
        rw [Finset.mem_filter, mem_toFinset]
        exact ⟨mem_append_left _ isPaged, (allBefore c isPaged).trans before⟩
      have le := Finset.card_le_card sub
      rw [toFinset_card_of_nodup (page_nodup limit rows), full] at le
      exact absurd few (not_lt.mpr le)
  · rintro ⟨isIn, few⟩
    have fewer := lt_of_le_of_lt (Finset.card_le_card (Finset.filter_subset_filter (· < a) partSet)) few
    refine ⟨?_, fewer⟩
    rcases mem_append.mp isIn with isRow | inRest
    · refine mem_append_left _ (mem_page.mpr ⟨isRow, lt_of_le_of_lt (Finset.card_le_card ?_) few⟩)
      refine Finset.filter_subset_filter _ fun b isB => ?_
      exact mem_toFinset.mpr (mem_append_left _ (mem_toFinset.mp isB))
    · exact mem_append_right _ inRest

/-! ### Sorting by a key -/

section SortedBy

variable {ι κ : Type} [LinearOrder κ] {key : ι → κ} {items items' : List ι} {item : ι}

/-- `sorted(items, key=key)`. -/
def sortedBy (key : ι → κ) (items : List ι) : List ι := items.insertionSort fun a b => key a ≤ key b

theorem sortedBy_perm (key : ι → κ) (items : List ι) : (sortedBy key items).Perm items := perm_insertionSort _ _

theorem mem_sortedBy : item ∈ sortedBy key items ↔ item ∈ items := (sortedBy_perm key items).mem_iff

theorem sortedBy_pairwise (key : ι → κ) (items : List ι) : (sortedBy key items).Pairwise fun a b => key a ≤ key b := by
  have total : Std.Total fun a b : ι => key a ≤ key b := ⟨fun a b => le_total (key a) (key b)⟩
  have trans : IsTrans ι fun a b => key a ≤ key b := ⟨fun _ _ _ first second => first.trans second⟩
  exact pairwise_insertionSort _ _

theorem eq_of_pairwise_le (first : items.Pairwise fun a b => key a ≤ key b) (second : items'.Pairwise fun a b => key a ≤ key b)
    (perm : items.Perm items') (apart : ∀ a ∈ items, ∀ b ∈ items, key a = key b → a = b) : items = items' :=
  perm.eq_of_pairwise (fun a b isA isB le ge => apart a isA b (perm.mem_iff.mpr isB) (le_antisymm le ge)) first second

theorem sortedBy_congr (perm : items.Perm items') (apart : ∀ a ∈ items, ∀ b ∈ items, key a = key b → a = b) :
    sortedBy key items = sortedBy key items' := by
  refine eq_of_pairwise_le (sortedBy_pairwise key items) (sortedBy_pairwise key items') ?_ ?_
  · exact ((sortedBy_perm key items).trans perm).trans (sortedBy_perm key items').symm
  · exact fun a isA b isB => apart a (mem_sortedBy.mp isA) b (mem_sortedBy.mp isB)

end SortedBy

end PawBackend.Lib
