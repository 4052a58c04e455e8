/-
**New tasks and the windows they are counted in** (`connections/store.py`: `CONTINUING_SQL`, `SUMS_SQL`).

A call starts a new task when no earlier one is for the same task and kind.
-/

import PawBackend.Connections.Store

namespace PawBackend.Connections

open Lib List
open Tools (Instant Uuid)

/-! ### New tasks -/

def UsageEntry.startsAfter (entry : UsageEntry) (before : List UsageEntry) : Bool :=
  !before.any fun other => other.isFor entry.taskId entry.kind

def newTasksAfter (before : List UsageEntry) : List UsageEntry → List UsageEntry
  | [] => []
  | entry :: rest =>
    if entry.startsAfter before then entry :: newTasksAfter (before ++ [entry]) rest
    else newTasksAfter (before ++ [entry]) rest

theorem newTasksAfter_append (before entries : List UsageEntry) (entry : UsageEntry) :
    newTasksAfter before (entries ++ [entry]) =
      newTasksAfter before entries ++ if entry.startsAfter (before ++ entries) then [entry] else [] := by
  induction entries generalizing before with
  | nil =>
    rw [nil_append, append_nil]
    simp only [newTasksAfter, nil_append]
  | cons first rest ih =>
    rw [cons_append]
    simp only [newTasksAfter, ih, append_assoc, singleton_append]
    split_ifs <;> rfl

theorem newTasksAfter_sublist (before entries : List UsageEntry) : (newTasksAfter before entries).Sublist entries := by
  induction entries using List.reverseRecOn with
  | nil => exact List.Sublist.refl []
  | append_singleton entries entry ih =>
    rw [newTasksAfter_append]
    split_ifs
    · exact ih.append (List.Sublist.refl _)
    · exact ih.append (nil_sublist _)

theorem newTasksAfter_distinct (before entries : List UsageEntry) :
    (newTasksAfter before entries).Pairwise fun a b => a.isFor b.taskId b.kind = false := by
  induction entries using List.reverseRecOn with
  | nil => exact .nil
  | append_singleton entries entry ih =>
    rw [newTasksAfter_append]
    split_ifs with starts
    · refine pairwise_append.mpr ⟨ih, pairwise_singleton _ _, fun a mem b last => ?_⟩
      rw [mem_singleton.mp last]
      unfold UsageEntry.startsAfter at starts
      rw [Bool.not_eq_true', any_eq_false] at starts
      have there := mem_append_right before ((newTasksAfter_sublist before entries).subset mem)
      exact Bool.eq_false_of_not_eq_true (starts a there)
    · rwa [append_nil]

/-! ### Uses -/

def usedBy (metric : QuotaMetric) (entries : List UsageEntry) (userId : Uuid) (kind : ConnectionKind) (since : Instant) :
    Option ℕ :=
  let counted := entries.filter fun entry => entry.isOf userId kind && decide (since ≤ entry.startedAt)
  match metric with
  | .requests => some counted.length
  | .tasks => some (counted.map UsageEntry.taskId).dedup.length
  | _ => none

theorem filter_entries (rows : List UsageRow) (p : UsageEntry → Bool) :
    (rows.filter fun row => p row.entry).map UsageRow.entry = (rows.map UsageRow.entry).filter p := by
  rw [filter_map]
  rfl

theorem used_sums (db : UsageTables) (userId : Uuid) (kind : ConnectionKind) (since : Instant) {metric : QuotaMetric} {n : ℕ}
    (counts : usedBy metric db.entries userId kind since = some n) : (db.sums userId kind since).used metric = n := by
  have same := filter_entries db.usage.rows fun entry => entry.isOf userId kind && decide (since ≤ entry.startedAt)
  unfold UsageTables.entries at counts
  cases metric with
  | requests =>
    simp only [usedBy, ← same, Option.some.injEq, length_map] at counts
    exact counts
  | tasks =>
    simp only [usedBy, ← same, Option.some.injEq, map_map] at counts
    exact counts
  | tokens => cases counts
  | runtimeSeconds => cases counts

def callsOf (entries : List UsageEntry) (userId : Uuid) (kind : ConnectionKind) : List UsageEntry :=
  entries.filter fun entry => entry.isOf userId kind

theorem usedBy_callsOf (metric : QuotaMetric) (entries : List UsageEntry) (userId : Uuid) (kind : ConnectionKind)
    (since : Instant) : usedBy metric (callsOf entries userId kind) userId kind since = usedBy metric entries userId kind since := by
  have same : (callsOf entries userId kind).filter (fun entry => entry.isOf userId kind && decide (since ≤ entry.startedAt)) =
      entries.filter fun entry => entry.isOf userId kind && decide (since ≤ entry.startedAt) := by
    unfold callsOf
    rw [filter_filter]
    refine filter_congr fun entry _ => ?_
    cases entry.isOf userId kind <;> simp
  unfold usedBy
  rw [same]

variable {old entries : List UsageEntry} {metric : QuotaMetric} {userId : Uuid} {kind : ConnectionKind} {limit : ℕ}

theorem newTasks_le_used {since : Instant} {n : ℕ} (counts : usedBy metric (old ++ entries) userId kind since = some n)
    (window : UsageEntry → Bool)
    (within : ∀ entry ∈ old ++ entries, window entry = true → entry.isOf userId kind = true ∧ since ≤ entry.startedAt) :
    ((newTasksAfter old entries).filter window).length ≤ n := by
  have sublist : (newTasksAfter old entries).Sublist (old ++ entries) :=
    (newTasksAfter_sublist old entries).trans (sublist_append_right old entries)
  have inside : ((newTasksAfter old entries).filter window).Sublist
      ((old ++ entries).filter fun entry => entry.isOf userId kind && decide (since ≤ entry.startedAt)) := by
    have same : ((old ++ entries).filter fun entry =>
        entry.isOf userId kind && decide (since ≤ entry.startedAt)).filter window = (old ++ entries).filter window := by
      rw [filter_filter]
      refine filter_congr fun entry mem => ?_
      cases inWindow : window entry with
      | false => rfl
      | true => simp [within entry mem inWindow]
    exact (sublist.filter window).trans (same ▸ filter_sublist)
  cases metric with
  | requests =>
    simp only [usedBy, Option.some.injEq] at counts
    exact counts ▸ inside.length_le
  | tasks =>
    simp only [usedBy, Option.some.injEq] at counts
    have distinct : (((newTasksAfter old entries).filter window).map UsageEntry.taskId).Nodup := by
      refine pairwise_map.mpr
        (((newTasksAfter_distinct old entries).filter window).imp_of_mem fun {a b} here there apart same => ?_)
      have ofKind : ∀ entry ∈ (newTasksAfter old entries).filter window, entry.kind = kind := fun entry mem => by
        rw [mem_filter] at mem
        have isOf := (within entry (sublist.subset mem.1) mem.2).1
        unfold UsageEntry.isOf at isOf
        exact (of_decide_eq_true isOf).2
      unfold UsageEntry.isFor at apart
      exact of_decide_eq_false apart ⟨same, (ofKind a here).trans (ofKind b there).symm⟩
    have subset := List.Subset.trans (inside.map UsageEntry.taskId).subset (subset_dedup _)
    have le := (subperm_of_subset distinct subset).length_le
    rw [length_map] at le
    exact counts ▸ le
  | tokens => cases counts
  | runtimeSeconds => cases counts

def AdmittedBelow (metric : QuotaMetric) (limit : ℕ) (old entries : List UsageEntry) (userId : Uuid)
    (kind : ConnectionKind) (start : Instant → Instant) : Prop :=
  ∀ before entry after, entries = before ++ entry :: after → entry.startsAfter (old ++ before) = true →
    entry.isOf userId kind = true → ∀ n, usedBy metric (old ++ before) userId kind (start entry.startedAt) = some n → n < limit

/-- **The new tasks of a window whose instants all lie after the starts of one another never exceed the limit.** -/
theorem newTasks_le {start : Instant → Instant} (calls : metric = .requests ∨ metric = .tasks)
    (below : AdmittedBelow metric limit old entries userId kind start) (window : Instant → Bool)
    (together : ∀ x y, window x = true → window y = true → start x ≤ y) :
    ((newTasksAfter old entries).filter fun entry => entry.isOf userId kind && window entry.startedAt).length ≤ limit := by
  induction entries using List.reverseRecOn with
  | nil => exact Nat.zero_le limit
  | append_singleton entries entry ih =>
    have earlier : AdmittedBelow metric limit old entries userId kind start := by
      intro before other after split
      refine below before other (after ++ [entry]) ?_
      rw [split, append_assoc, cons_append]
    rw [newTasksAfter_append]
    split_ifs with starts
    · rw [filter_append, length_append]
      by_cases inWindow : (entry.isOf userId kind && window entry.startedAt) = true
      · simp only [filter_cons, inWindow, if_true, filter_nil, length_singleton]
        rw [Bool.and_eq_true] at inWindow
        obtain ⟨n, counts⟩ : ∃ n, usedBy metric (old ++ entries) userId kind (start entry.startedAt) = some n := by
          rcases calls with rfl | rfl <;> exact ⟨_, rfl⟩
        have less := below entries entry [] rfl starts inWindow.1 n counts
        have le := newTasks_le_used counts (fun other => other.isOf userId kind && window other.startedAt)
          fun other _ inside => by
            rw [Bool.and_eq_true] at inside
            exact ⟨inside.1, together _ _ inWindow.2 inside.2⟩
        omega
      · simp only [filter_cons, if_neg inWindow, filter_nil, length_nil]
        exact ih earlier
    · rw [append_nil]
      exact ih earlier

end PawBackend.Connections
