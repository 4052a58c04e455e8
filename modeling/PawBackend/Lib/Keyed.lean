/-
**Rows with a key of their own.** A `Keyed` is a list of rows no two of which have the same key: the
items of a dictionary in the order of their insertion, or a table with a primary key. `get` finds a row,
`put` assigns one as a dictionary does (in place, or at the end), `update` rewrites the rows a condition
selects, and `insert` adds a row with a new key. The lemmas say what `get` finds after each.
-/

import Mathlib.Data.List.Nodup
import Mathlib.Data.List.Perm.Basic

namespace PawBackend.Lib

open List

structure Keyed {α κ : Type} (key : α → κ) where
  rows : List α
  distinct : (rows.map key).Nodup

namespace Keyed

variable {α κ : Type} {key : α → κ}

def empty : Keyed key := ⟨[], nodup_nil⟩

variable {a b : α} {t u : Keyed key} {k : κ}

theorem eq_of_key_eq (t : Keyed key) (first : a ∈ t.rows) (second : b ∈ t.rows) (same : key a = key b) : a = b :=
  inj_on_of_nodup_map t.distinct first second same

def update (t : Keyed key) (p : α → Bool) (f : α → α) (keeps : ∀ a, p a = true → key (f a) = key a) :
    Keyed key where
  rows := t.rows.map fun a => if p a then f a else a
  distinct := by
    rw [map_map]
    have same : key ∘ (fun a => if p a then f a else a) = key := by
      funext a
      rw [Function.comp_apply]
      split_ifs with selected
      · exact keeps a selected
      · rfl
    rw [same]
    exact t.distinct

theorem rows_update (t : Keyed key) (p : α → Bool) (f : α → α) (keeps : ∀ a, p a = true → key (f a) = key a) :
    (t.update p f keeps).rows = t.rows.map fun a => if p a then f a else a := rfl

variable [DecidableEq κ]

def get (t : Keyed key) (k : κ) : Option α := t.rows.find? fun a => decide (key a = k)

theorem get_eq_some : t.get k = some a ↔ a ∈ t.rows ∧ key a = k := by
  constructor
  · intro found
    exact ⟨mem_of_find?_eq_some found, by simpa using find?_some found⟩
  · rintro ⟨mem, rfl⟩
    cases found : t.get (key a) with
    | none => simpa using find?_eq_none.mp found a mem
    | some b =>
      have same : key b = key a := by simpa using find?_some found
      rw [t.eq_of_key_eq (mem_of_find?_eq_some found) mem same]

theorem get_eq_none : t.get k = none ↔ ∀ a ∈ t.rows, key a ≠ k := by
  unfold get
  rw [find?_eq_none]
  simp

theorem get_self (mem : a ∈ t.rows) : t.get (key a) = some a :=
  get_eq_some.mpr ⟨mem, rfl⟩

theorem mem_of_get (found : t.get k = some a) : a ∈ t.rows :=
  (get_eq_some.mp found).1

theorem key_of_get (found : t.get k = some a) : key a = k :=
  (get_eq_some.mp found).2

@[simp]
theorem get_empty (k : κ) : (empty : Keyed key).get k = none := rfl

theorem get_update (t : Keyed key) (p : α → Bool) (f : α → α)
    (keeps : ∀ a, p a = true → key (f a) = key a) (k : κ) :
    (t.update p f keeps).get k = (t.get k).map fun a => if p a then f a else a := by
  have same : ∀ a, key (if p a then f a else a) = key a := by
    intro a
    split_ifs with selected
    · exact keeps a selected
    · rfl
  unfold get update
  rw [find?_map]
  congr 2
  funext a
  rw [Function.comp_apply, same]

def insert (t : Keyed key) (a : α) (fresh : t.get (key a) = none) : Keyed key where
  rows := t.rows ++ [a]
  distinct := by
    rw [map_append, nodup_append]
    refine ⟨t.distinct, nodup_singleton _, fun k old k' new => ?_⟩
    obtain ⟨b, member, rfl⟩ := mem_map.mp old
    rw [map_singleton, mem_singleton] at new
    exact new ▸ get_eq_none.mp fresh b member

theorem get_insert (t : Keyed key) (a : α) (fresh : t.get (key a) = none) (k : κ) :
    (t.insert a fresh).get k = if k = key a then some a else t.get k := by
  split_ifs with this
  · exact get_eq_some.mpr ⟨mem_append_right _ (mem_singleton_self a), this.symm⟩
  · show (t.rows ++ [a]).find? _ = t.get k
    rw [find?_append]
    have other : List.find? (fun b => decide (key b = k)) [a] = none := by
      simpa using fun same => this same.symm
    rw [other, Option.or_none]
    rfl

/-- Add a row, where its key is new. -/
def tryInsert (t : Keyed key) (a : α) : Option (Keyed key) :=
  if fresh : t.get (key a) = none then some (t.insert a fresh) else none

theorem get_of_tryInsert (added : t.tryInsert a = some u) (k : κ) :
    u.get k = if k = key a then some a else t.get k := by
  unfold tryInsert at added
  split_ifs at added with fresh
  rw [Option.some.injEq] at added
  rw [← added, get_insert]

theorem fresh_of_tryInsert (added : t.tryInsert a = some u) :
    t.get (key a) = none := by
  unfold tryInsert at added
  split_ifs at added with fresh
  exact fresh

theorem rows_of_tryInsert (added : t.tryInsert a = some u) : u.rows = t.rows ++ [a] := by
  unfold tryInsert at added
  split_ifs at added with fresh
  rw [← Option.some.inj added]
  rfl

theorem mem_of_tryInsert (added : t.tryInsert a = some u) : b ∈ u.rows ↔ b = a ∨ b ∈ t.rows := by
  rw [rows_of_tryInsert added, mem_append, mem_singleton, or_comm]

/-- Delete the rows a condition selects. -/
def remove (t : Keyed key) (p : α → Bool) : Keyed key where
  rows := t.rows.filter fun a => !p a
  distinct := t.distinct.sublist (filter_sublist.map key)

theorem get_remove (t : Keyed key) (p : α → Bool) (k : κ) : (t.remove p).get k = (t.get k).filter fun a => !p a := by
  ext a
  rw [get_eq_some, Option.filter_eq_some_iff, get_eq_some]
  show a ∈ t.rows.filter (fun a => !p a) ∧ key a = k ↔ _
  rw [mem_filter]
  tauto

/-- Add rows, where their keys are new. -/
def insertAll (t : Keyed key) : List α → Option (Keyed key)
  | [] => some t
  | a :: rest => (t.tryInsert a).bind fun u => u.insertAll rest

theorem get_of_insertAll {l : List α} (added : t.insertAll l = some u) (k : κ) :
    (u.get k = t.get k ∧ ∀ a ∈ l, key a ≠ k) ∨ ∃ a ∈ l, key a = k ∧ u.get k = some a ∧ t.get k = none := by
  induction l generalizing t with
  | nil =>
    rw [insertAll, Option.some.injEq] at added
    exact .inl ⟨by rw [added], by simp⟩
  | cons a rest ih =>
    rw [insertAll, Option.bind_eq_some_iff] at added
    obtain ⟨mid, first, others⟩ := added
    have here := get_of_tryInsert first k
    rcases ih others with ⟨same, absent⟩ | ⟨b, mem, isKey, found, before⟩
    · rw [here] at same
      split_ifs at same with this
      · exact .inr ⟨a, .head _, this.symm, same, this ▸ fresh_of_tryInsert first⟩
      · refine .inl ⟨same, fun b mem => ?_⟩
        rcases mem_cons.mp mem with rfl | mem
        · exact fun isKey => this isKey.symm
        · exact absent b mem
    · rw [here] at before
      split_ifs at before with this
      exact .inr ⟨b, .tail _ mem, isKey, found, before⟩

theorem rows_of_insertAll {l : List α} (added : t.insertAll l = some u) :
    u.rows = t.rows ++ l := by
  induction l generalizing t with
  | nil =>
    rw [insertAll, Option.some.injEq] at added
    rw [added, append_nil]
  | cons a rest ih =>
    rw [insertAll, Option.bind_eq_some_iff] at added
    obtain ⟨mid, first, others⟩ := added
    unfold tryInsert at first
    split_ifs at first with fresh
    rw [Option.some.injEq] at first
    rw [ih others, ← first]
    show t.rows ++ [a] ++ rest = _
    rw [append_assoc, singleton_append]

/-- Assign a row to its key, in place or at the end. -/
def put (t : Keyed key) (a : α) : Keyed key :=
  if fresh : t.get (key a) = none then t.insert a fresh
  else t.update (fun b => decide (key b = key a)) (fun _ => a) fun _ same => (of_decide_eq_true same).symm

theorem get_put (t : Keyed key) (a : α) (k : κ) :
    (t.put a).get k = if k = key a then some a else t.get k := by
  unfold put
  split_ifs with fresh this this
  · rw [get_insert, if_pos this]
  · rw [get_insert, if_neg this]
  · obtain ⟨b, found⟩ := Option.ne_none_iff_exists'.mp fresh
    rw [get_update, this, found, Option.map_some, if_pos (decide_eq_true (key_of_get found))]
  · rw [get_update]
    cases found : t.get k with
    | none => rfl
    | some b =>
      have other : key b ≠ key a := fun same => this ((key_of_get found).symm.trans same)
      rw [Option.map_some, if_neg (by simpa using other)]

theorem mem_put : b ∈ (t.put a).rows ↔ b = a ∨ b ∈ t.rows ∧ key b ≠ key a := by
  constructor
  · intro mem
    have found := get_self mem
    rw [get_put] at found
    by_cases this : key b = key a
    · rw [if_pos this] at found
      exact .inl (Option.some.inj found).symm
    · rw [if_neg this] at found
      exact .inr ⟨mem_of_get found, this⟩
  · rintro (rfl | ⟨mem, other⟩)
    · exact mem_of_get ((get_put t b (key b)).trans (if_pos rfl))
    · exact mem_of_get ((get_put t a (key b)).trans ((if_neg other).trans (get_self mem)))

theorem get_foldl_put (l : List α) (p : α → Bool) (f : α → α) (keeps : ∀ a, key (f a) = key a)
    (distinct : (l.map key).Nodup) (t : Keyed key) (k : κ) :
    (l.foldl (fun t a => if p a then t.put (f a) else t) t).get k =
      match l.find? fun a => decide (key a = k) with
      | some a => if p a then some (f a) else t.get k
      | none => t.get k := by
  induction l generalizing t with
  | nil => rfl
  | cons a rest ih =>
    rw [map_cons, nodup_cons] at distinct
    rw [foldl_cons, ih distinct.2]
    by_cases this : key a = k
    · have gone : rest.find? (fun b => decide (key b = k)) = none := by
        rw [find?_eq_none]
        intro b mem same
        refine distinct.1 (mem_map.mpr ⟨b, mem, ?_⟩)
        rw [this]
        exact of_decide_eq_true same
      rw [gone, find?_cons_of_pos (by simpa using this)]
      dsimp only
      split_ifs with selected
      · rw [get_put, keeps, if_pos this.symm]
      · rfl
    · have other : (if p a then t.put (f a) else t).get k = t.get k := by
        split_ifs
        · rw [get_put, keeps, if_neg fun same => this same.symm]
        · rfl
      rw [find?_cons_of_neg (by simpa using this), other]

theorem get_foldl_put_or (l : List α) (t : Keyed key) (k : κ) :
    (l.foldl put t).get k = t.get k ∨ ∃ a ∈ l, (l.foldl put t).get k = some a := by
  induction l generalizing t with
  | nil => exact .inl rfl
  | cons a rest ih =>
    rw [foldl_cons]
    rcases ih (t.put a) with same | ⟨b, mem, found⟩
    · rw [get_put] at same
      split_ifs at same
      · exact .inr ⟨a, .head _, same⟩
      · exact .inl same
    · exact .inr ⟨b, .tail _ mem, found⟩

theorem get_foldl_rows (t : Keyed key) (p : α → Bool) (f : α → α) (keeps : ∀ a, key (f a) = key a)
    (k : κ) :
    (t.rows.foldl (fun t a => if p a then t.put (f a) else t) t).get k =
      (t.get k).map fun a => if p a then f a else a := by
  rw [get_foldl_put t.rows p f keeps t.distinct]
  show (match t.get k with
    | some a => if p a then some (f a) else t.get k
    | none => t.get k) = _
  cases t.get k with
  | none => rfl
  | some a =>
    rw [Option.map_some]
    dsimp only
    split_ifs <;> rfl

theorem perm_of_get_eq (same : ∀ k, t.get k = u.get k) : t.rows.Perm u.rows := by
  refine (perm_ext_iff_of_nodup t.distinct.of_map u.distinct.of_map).mpr fun a => ?_
  constructor
  · intro mem
    exact mem_of_get ((same (key a)).symm.trans (get_self mem))
  · intro mem
    exact mem_of_get ((same (key a)).trans (get_self mem))

theorem perm_map_of_get {f : α → α} (keeps : ∀ a, key (f a) = key a)
    (mapped : ∀ k, u.get k = (t.get k).map f) : u.rows.Perm (t.rows.map f) := by
  have same : ∀ k, u.get k = (t.update (fun _ => true) f fun a _ => keeps a).get k := by
    intro k
    rw [get_update, mapped]
    simp
  simpa [update] using perm_of_get_eq same

theorem filter_key (t : Keyed key) (p : α → Bool) (k : κ) :
    (t.rows.filter p).filter (fun a => decide (key a = k)) = ((t.get k).filter p).toList := by
  obtain ⟨rows, distinct⟩ := t
  unfold get
  dsimp only
  induction rows with
  | nil => rfl
  | cons a rest ih =>
    rw [map_cons, nodup_cons] at distinct
    by_cases this : key a = k
    · have gone : (rest.filter p).filter (fun b => decide (key b = k)) = [] := by
        rw [filter_eq_nil_iff]
        intro b mem same
        refine distinct.1 (mem_map.mpr ⟨b, mem_of_mem_filter mem, ?_⟩)
        rw [this]
        exact of_decide_eq_true same
      rw [find?_cons_of_pos (by simpa using this)]
      by_cases selected : p a = true
      · rw [filter_cons_of_pos selected, filter_cons_of_pos (by simpa using this), gone,
          Option.filter_some_pos selected]
        rfl
      · rw [filter_cons_of_neg selected, gone, Option.filter_some_neg (by simpa using selected)]
        rfl
    · rw [find?_cons_of_neg (by simpa using this), ← ih distinct.2]
      by_cases selected : p a = true
      · rw [filter_cons_of_pos selected, filter_cons_of_neg (by simpa using this)]
      · rw [filter_cons_of_neg selected]

theorem find?_of_key (t : Keyed key) {p : α → Bool} (only : ∀ a, p a = true → key a = k) :
    t.rows.find? p = (t.get k).filter p := by
  cases found : t.rows.find? p with
  | some a =>
    have selected := find?_some found
    rw [get_eq_some.mpr ⟨mem_of_find?_eq_some found, only a selected⟩,
      Option.filter_some_pos selected]
  | none =>
    cases there : t.get k with
    | none => rfl
    | some a =>
      have other := find?_eq_none.mp found a (mem_of_get there)
      rw [Option.filter_some_neg (by simpa using other)]

theorem any_of_key (t : Keyed key) {p : α → Bool} (only : ∀ b, p b = true → key b = k)
    (found : t.get k = some a) : t.rows.any p = p a := by
  rw [Bool.eq_iff_iff, any_eq_true]
  constructor
  · rintro ⟨b, mem, selected⟩
    have same : key b = key a := (only b selected).trans (key_of_get found).symm
    rwa [t.eq_of_key_eq mem (mem_of_get found) same] at selected
  · exact fun selected => ⟨a, mem_of_get found, selected⟩

theorem countP_put_le (t : Keyed key) (a : α) (p : α → Bool) :
    (t.put a).rows.countP p ≤ t.rows.countP p + 1 := by
  unfold put
  split_ifs with fresh
  · show (t.rows ++ [a]).countP p ≤ _
    rw [countP_append]
    exact Nat.add_le_add_left countP_le_length _
  · show (t.rows.map fun b => if decide (key b = key a) = true then a else b).countP p ≤ _
    have distinct := t.distinct
    generalize t.rows = rows at distinct
    induction rows with
    | nil => exact Nat.zero_le _
    | cons b rest ih =>
      rw [map_cons, nodup_cons] at distinct
      rw [map_cons, countP_cons, countP_cons]
      by_cases this : key b = key a
      · have rest_same : rest.map (fun b => if decide (key b = key a) = true then a else b) = rest := by
          refine (map_congr_left fun c mem => if_neg ?_).trans (map_id rest)
          simp only [decide_eq_true_eq, ← this]
          exact fun same => distinct.1 (mem_map.mpr ⟨c, mem, same⟩)
        rw [rest_same]
        split_ifs <;> omega
      · have unchanged : (if decide (key b = key a) = true then a else b) = b :=
          if_neg (by simpa using this)
        rw [unchanged]
        have bound := ih distinct.2
        omega

theorem countP_put_le_of_counted (t : Keyed key) (a : α) (p : α → Bool) (found : t.get (key a) = some b)
    (counted : p b = true) : (t.put a).rows.countP p ≤ t.rows.countP p := by
  have old : ¬t.get (key a) = none := by
    rw [found]
    exact Option.some_ne_none b
  unfold put
  rw [dif_neg old]
  show (t.rows.map fun c => if decide (key c = key a) = true then a else c).countP p ≤ _
  rw [countP_map]
  refine countP_mono_left fun c mem selected => ?_
  rw [Function.comp_apply] at selected
  split_ifs at selected with same
  · rwa [t.eq_of_key_eq mem (mem_of_get found)
      ((of_decide_eq_true same).trans (key_of_get found).symm)]
  · exact selected

end Keyed

end PawBackend.Lib
