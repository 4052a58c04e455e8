/-
**A metered walk over an object graph.** The walk copies what it reads, and pays for every part out of a budget before
it goes on, so that it stops early on what is too large, whatever is shared or leads back into itself.

* `Rules.walk` is the walk: `levels` containers deep at most, its checks and charges being `Rules`.
* `Rules.walk_eq_ok`: it succeeds exactly on the finite values that are accepted, not too deep and within the budget,
  and has then spent what the value is charged.
* `Rules.walk_size`: where it runs out of budget, the whole value is charged more than there was.
-/

import Mathlib.Algebra.Order.BigOperators.Group.List
import PawBackend.Lib.Checks
import PawBackend.Lib.PyValues

namespace PawBackend.Lib

open List

variable {α β γ E F R : Type}

/-! ### What a graph holds -/

section Unfold

theorem bind_eq_error {x : Except E α} {f : α → Except E β} {e : E} :
    (x >>= f) = .error e ↔ x = .error e ∨ ∃ a, x = .ok a ∧ f a = .error e := by
  cases x with
  | error e' =>
    refine ⟨fun wrong => Or.inl (congrArg _ (Except.error.inj wrong)), fun wrong => ?_⟩
    rcases wrong with same | ⟨a, wrong, -⟩
    · exact congrArg _ (Except.error.inj same)
    · cases wrong
  | ok a =>
    refine ⟨fun wrong => Or.inr ⟨a, rfl, wrong⟩, fun wrong => ?_⟩
    rcases wrong with wrong | ⟨a', same, wrong⟩
    · cases wrong
    · cases same
      exact wrong

variable {parts : List α} {values : List β} {items : List R}

theorem mapM_eq_some_iff {f : α → Option β} :
    parts.mapM f = some values ↔ List.Forall₂ (fun part value => f part = some value) parts values := by
  induction parts generalizing values with
  | nil =>
    rw [mapM_nil, forall₂_nil_left_iff]
    exact ⟨fun same => (Option.some.inj same).symm, fun same => congrArg some same.symm⟩
  | cons part rest ih =>
    rw [mapM_cons, Option.bind_eq_bind, Option.bind_eq_some_iff, forall₂_cons_left_iff]
    constructor
    · rintro ⟨value, isValue, others⟩
      rw [Option.bind_eq_bind, Option.bind_eq_some_iff] at others
      obtain ⟨values', isValues, whole⟩ := others
      exact ⟨value, values', isValue, ih.mp isValues, (Option.some.inj whole).symm⟩
    · rintro ⟨value, values', isValue, areValues, rfl⟩
      refine ⟨value, isValue, ?_⟩
      rw [ih.mpr areValues]
      rfl

theorem exists_of_forall₂ {r : α → β → Prop} (all : List.Forall₂ r parts values)
    {value : β} (mem : value ∈ values) : ∃ part ∈ parts, r part value := by
  induction all with
  | nil => cases mem
  | cons first others ih =>
    rcases mem_cons.mp mem with rfl | later
    · exact ⟨_, .head _, first⟩
    · obtain ⟨part, isPart, related⟩ := ih later
      exact ⟨part, .tail _ isPart, related⟩

theorem forall₂_imp_of_mem {r s : α → β → Prop} (all : List.Forall₂ r parts values)
    (imp : ∀ part, ∀ value ∈ values, r part value → s part value) : List.Forall₂ s parts values := by
  induction all with
  | nil => exact List.Forall₂.nil
  | cons first others ih =>
    exact List.Forall₂.cons (imp _ _ (.head _) first)
      (ih fun part value mem => imp part value (.tail _ mem))

variable {heap : Heap R F} {levels : ℕ} {ref : R} {v : PyValue F}

theorem unfold_scalar {s : Scalar F} (here : heap ref = .scalar s) : unfold heap levels ref = some v ↔ v = .scalar s := by
  have read : unfold heap levels ref = some (.scalar s) := by
    cases levels <;> conv_lhs => whnf; rw [here]
  rw [read, Option.some.injEq, eq_comm]

theorem unfold_zero (container : ∀ s, heap ref ≠ .scalar s) : unfold heap 0 ref = none := by
  conv_lhs => whnf
  split
  · next s here => exact absurd here (container s)
  · rfl

theorem unfold_list (here : heap ref = .list items) : unfold heap (levels + 1) ref = some v ↔
    ∃ values, List.Forall₂ (fun item value => unfold heap levels item = some value) items values ∧ .list values = v := by
  conv_lhs => lhs; whnf; rw [here]
  simp only [Option.map_eq_some_iff, mapM_eq_some_iff]

theorem unfold_tuple (here : heap ref = .tuple items) : unfold heap (levels + 1) ref = some v ↔
    ∃ values, List.Forall₂ (fun item value => unfold heap levels item = some value) items values ∧ .tuple values = v := by
  conv_lhs => lhs; whnf; rw [here]
  simp only [Option.map_eq_some_iff, mapM_eq_some_iff]

def unfoldEntry (heap : Heap R F) (levels : ℕ) (entry : Scalar F × R) : Option (Scalar F × PyValue F) :=
  (unfold heap levels entry.2).map fun v => (entry.1, v)

theorem unfold_dict {entries : List (Scalar F × R)} (here : heap ref = .dict entries) :
    unfold heap (levels + 1) ref = some v ↔ ∃ values,
      List.Forall₂ (fun entry value => unfoldEntry heap levels entry = some value) entries values ∧ .dict values = v := by
  conv_lhs => lhs; whnf; rw [here]
  simp only [Option.map_eq_some_iff, mapM_eq_some_iff, unfoldEntry]

theorem unfoldEntry_eq_some {entry : Scalar F × R} {value : Scalar F × PyValue F} :
    unfoldEntry heap levels entry = some value ↔ unfold heap levels entry.2 = some value.2 ∧ value.1 = entry.1 := by
  unfold unfoldEntry
  rw [Option.map_eq_some_iff]
  constructor
  · rintro ⟨v, read, rfl⟩
    exact ⟨read, rfl⟩
  · rintro ⟨read, same⟩
    exact ⟨value.2, read, by rw [← same]⟩

theorem unfold_depth (read : unfold heap levels ref = some v) : v.depth ≤ levels := by
  induction levels generalizing ref v with
  | zero =>
    cases here : heap ref with
    | scalar s =>
      rw [(unfold_scalar here).mp read, PyValue.depth_scalar]
    | _ =>
      rw [unfold_zero (by simp [here])] at read
      cases read
  | succ levels ih =>
    have items : ∀ {refs : List R} {values : List (PyValue F)},
        List.Forall₂ (fun item value => unfold heap levels item = some value) refs values →
        (values.map PyValue.depth).foldr max 0 ≤ levels := by
      intro refs values all
      rw [foldr_max_le, forall_mem_map]
      intro value mem
      obtain ⟨item, -, isRead⟩ := exists_of_forall₂ all mem
      exact ih isRead
    cases here : heap ref with
    | scalar s =>
      rw [(unfold_scalar here).mp read, PyValue.depth_scalar]
      exact Nat.zero_le _
    | list refs =>
      obtain ⟨values, all, rfl⟩ := (unfold_list here).mp read
      rw [PyValue.depth_list]
      exact Nat.succ_le_succ (items all)
    | tuple refs =>
      obtain ⟨values, all, rfl⟩ := (unfold_tuple here).mp read
      rw [PyValue.depth_tuple]
      exact Nat.succ_le_succ (items all)
    | dict entries =>
      obtain ⟨values, all, rfl⟩ := (unfold_dict here).mp read
      rw [PyValue.depth_dict]
      refine Nat.succ_le_succ ?_
      rw [foldr_max_le, forall_mem_map]
      intro value mem
      obtain ⟨entry, -, isRead⟩ := exists_of_forall₂ all mem
      exact ih (unfoldEntry_eq_some.mp isRead).1

theorem unfold_enough {enough : ℕ} (read : unfold heap levels ref = some v) (deep : v.depth ≤ enough) :
    unfold heap enough ref = some v := by
  induction levels generalizing enough ref v with
  | zero =>
    cases here : heap ref with
    | scalar s => exact (unfold_scalar here).mpr ((unfold_scalar here).mp read)
    | _ =>
      rw [unfold_zero (by simp [here])] at read
      cases read
  | succ levels ih =>
    have items : ∀ {refs : List R} {values : List (PyValue F)},
        (values.map PyValue.depth).foldr max 0 + 1 ≤ enough →
        List.Forall₂ (fun item value => unfold heap levels item = some value) refs values →
        ∃ below, enough = below + 1 ∧ List.Forall₂ (fun item value => unfold heap below item = some value) refs values := by
      intro refs values fits all
      refine ⟨enough - 1, by omega, forall₂_imp_of_mem all fun item value mem isRead => ih isRead ?_⟩
      have within := foldr_max_le.mp (Nat.le_sub_one_of_lt fits)
      exact within _ (mem_map_of_mem mem)
    cases here : heap ref with
    | scalar s => exact (unfold_scalar here).mpr ((unfold_scalar here).mp read)
    | list refs =>
      obtain ⟨values, all, rfl⟩ := (unfold_list here).mp read
      rw [PyValue.depth_list] at deep
      obtain ⟨below, rfl, again⟩ := items deep all
      exact (unfold_list here).mpr ⟨values, again, rfl⟩
    | tuple refs =>
      obtain ⟨values, all, rfl⟩ := (unfold_tuple here).mp read
      rw [PyValue.depth_tuple] at deep
      obtain ⟨below, rfl, again⟩ := items deep all
      exact (unfold_tuple here).mpr ⟨values, again, rfl⟩
    | dict entries =>
      obtain ⟨values, all, rfl⟩ := (unfold_dict here).mp read
      rw [PyValue.depth_dict] at deep
      obtain ⟨below, rfl⟩ : ∃ below, enough = below + 1 := ⟨enough - 1, by omega⟩
      have within := foldr_max_le.mp (Nat.le_of_succ_le_succ deep)
      refine (unfold_dict here).mpr ⟨values, forall₂_imp_of_mem all fun entry value mem isRead => ?_, rfl⟩
      obtain ⟨isValue, sameKey⟩ := unfoldEntry_eq_some.mp isRead
      exact unfoldEntry_eq_some.mpr ⟨ih isValue (within _ (mem_map_of_mem mem)), sameKey⟩

theorem Holds.unique {w : PyValue F} (first : Holds heap ref v) (second : Holds heap ref w) : v = w := by
  obtain ⟨levels, read⟩ := first
  obtain ⟨levels', read'⟩ := second
  have both := unfold_enough read (Nat.le_max_left v.depth w.depth)
  rw [unfold_enough read' (Nat.le_max_right v.depth w.depth)] at both
  exact (Option.some.inj both).symm

theorem unfold_eq_some_iff : unfold heap levels ref = some v ↔ Holds heap ref v ∧ v.depth ≤ levels := by
  constructor
  · exact fun read => ⟨⟨levels, read⟩, unfold_depth read⟩
  · rintro ⟨⟨_, read⟩, deep⟩
    exact unfold_enough read deep

theorem holds_scalar {s : Scalar F} (here : heap ref = .scalar s) : Holds heap ref v ↔ v = .scalar s := by
  constructor
  · rintro ⟨_, read⟩
    exact (unfold_scalar here).mp read
  · exact fun same => ⟨0, (unfold_scalar here).mpr same⟩

theorem Holds.dict {entries : List (Scalar F × R)} (here : heap ref = .dict entries) (holds : Holds heap ref v) :
    ∃ values, List.Forall₂ (fun entry value => Holds heap entry.2 value.2 ∧ value.1 = entry.1) entries values ∧
      .dict values = v := by
  obtain ⟨_ | levels, read⟩ := holds
  · rw [unfold_zero (by simp [here])] at read
    cases read
  · obtain ⟨values, all, isValue⟩ := (unfold_dict here).mp read
    refine ⟨values, all.imp fun entry value isRead => ?_, isValue⟩
    obtain ⟨isRead, sameKey⟩ := unfoldEntry_eq_some.mp isRead
    exact ⟨⟨levels, isRead⟩, sameKey⟩

theorem Holds.list (here : heap ref = .list items) (holds : Holds heap ref v) :
    ∃ values, List.Forall₂ (Holds heap) items values ∧ .list values = v := by
  obtain ⟨_ | levels, read⟩ := holds
  · rw [unfold_zero (by simp [here])] at read
    cases read
  · obtain ⟨values, all, isValue⟩ := (unfold_list here).mp read
    exact ⟨values, all.imp fun _ _ isRead => ⟨levels, isRead⟩, isValue⟩

theorem Holds.tuple (here : heap ref = .tuple items) (holds : Holds heap ref v) :
    ∃ values, List.Forall₂ (Holds heap) items values ∧ .tuple values = v := by
  obtain ⟨_ | levels, read⟩ := holds
  · rw [unfold_zero (by simp [here])] at read
    cases read
  · obtain ⟨values, all, isValue⟩ := (unfold_tuple here).mp read
    exact ⟨values, all.imp fun _ _ isRead => ⟨levels, isRead⟩, isValue⟩

end Unfold

/-! ### Visiting the parts of a container -/

section Visit

def visit (step : α → ℤ → Except E (β × ℤ)) : List α → ℤ → Except E (List β × ℤ)
  | [], budget => .ok ([], budget)
  | part :: rest, budget => do
    let (copy, left) ← step part budget
    let (copies, left) ← visit step rest left
    .ok (copy :: copies, left)

/-- With any budget, a step succeeds on the values that are accepted and paid for, and pays their cost. -/
def Metered (step : ℤ → Except E (β × ℤ)) (read : γ → Prop) (ok : γ → Bool) (copy : γ → β) (cost : γ → ℕ) : Prop :=
  ∀ budget, 0 ≤ budget → ∀ b left, step budget = .ok (b, left) ↔
    ∃ v, read v ∧ ok v = true ∧ b = copy v ∧ (cost v : ℤ) ≤ budget ∧ left = budget - cost v

variable {step : α → ℤ → Except E (β × ℤ)} {read : α → γ → Prop} {ok : γ → Bool} {copy : γ → β} {cost : γ → ℕ}

theorem visit_cons_eq_ok {part : α} {rest : List α} {budget left : ℤ} {copies : List β} :
    visit step (part :: rest) budget = .ok (copies, left) ↔
      ∃ b between bs, step part budget = .ok (b, between) ∧ visit step rest between = .ok (bs, left) ∧ copies = b :: bs := by
  rw [visit, bind_eq_ok]
  constructor
  · rintro ⟨⟨b, between⟩, first, others⟩
    obtain ⟨⟨bs, left'⟩, visited, same⟩ := bind_eq_ok.mp others
    cases same
    exact ⟨b, between, bs, first, visited, rfl⟩
  · rintro ⟨b, between, bs, first, visited, rfl⟩
    exact ⟨(b, between), first, bind_eq_ok.mpr ⟨(bs, left), visited, rfl⟩⟩

theorem visit_metered {parts : List α} (each : ∀ part ∈ parts, Metered (step part) (read part) ok copy cost) :
    Metered (visit step parts) (List.Forall₂ read parts) (fun values => values.all ok) (List.map copy)
      (fun values => (values.map cost).sum) := by
  induction parts with
  | nil =>
    intro budget enough bs left
    rw [visit, Except.ok.injEq, Prod.mk.injEq]
    constructor
    · rintro ⟨rfl, rfl⟩
      exact ⟨[], List.Forall₂.nil, rfl, rfl, enough, (sub_zero _).symm⟩
    · rintro ⟨values, none, -, rfl, -, rfl⟩
      cases none
      exact ⟨rfl, (sub_zero _).symm⟩
  | cons part rest ih =>
    have first := each part (.head _)
    have others := ih fun p mem => each p (.tail _ mem)
    intro budget enough bs left
    rw [visit_cons_eq_ok]
    constructor
    · rintro ⟨b, between, bs, isFirst, areOthers, rfl⟩
      obtain ⟨v, isRead, isOk, rfl, paid, rfl⟩ := (first budget enough b between).mp isFirst
      obtain ⟨values, areRead, areOk, rfl, paidAll, rfl⟩ := (others _ (by omega) bs left).mp areOthers
      dsimp only at areOk paidAll ⊢
      refine ⟨v :: values, List.Forall₂.cons isRead areRead, ?_, rfl, ?_, ?_⟩
      · rw [all_cons, isOk, areOk, Bool.true_and]
      · rw [map_cons, sum_cons]
        omega
      · rw [map_cons, sum_cons]
        omega
    · rintro ⟨values, areRead, areOk, rfl, paid, rfl⟩
      obtain ⟨v, values, isRead, others', rfl⟩ := forall₂_cons_left_iff.mp areRead
      dsimp only at areOk paid ⊢
      rw [all_cons, Bool.and_eq_true] at areOk
      rw [map_cons, sum_cons] at paid ⊢
      refine ⟨copy v, budget - cost v, values.map copy, ?_, ?_, rfl⟩
      · exact (first budget enough _ _).mpr ⟨v, isRead, areOk.1, rfl, by omega, rfl⟩
      · refine (others _ (by omega) _ _).mpr ⟨values, others', areOk.2, rfl, ?_, ?_⟩ <;> dsimp only <;> omega

def RunsOut (step : ℤ → Except E (β × ℤ)) (out : E) (cost : ℕ) : Prop :=
  ∀ budget, 0 ≤ budget → step budget = .error out → budget < cost

def PaysAtMost (step : ℤ → Except E (β × ℤ)) (cost : ℕ) : Prop :=
  ∀ budget, 0 ≤ budget → ∀ b left, step budget = .ok (b, left) → 0 ≤ left ∧ budget - cost ≤ left

theorem visit_runsOut {parts : List α} {values : List γ} {out : E} (all : List.Forall₂ read parts values)
    (pays : ∀ part v, read part v → PaysAtMost (step part) (cost v))
    (each : ∀ part v, read part v → RunsOut (step part) out (cost v)) :
    RunsOut (visit step parts) out (values.map cost).sum := by
  induction all with
  | nil =>
    intro budget _ wrong
    cases wrong
  | @cons part v rest values isRead others ih =>
    intro budget enough wrong
    rw [map_cons, sum_cons]
    rw [visit, bind_eq_error] at wrong
    rcases wrong with wrong | ⟨⟨b, between⟩, first, wrong⟩
    · have more := each part v isRead budget enough wrong
      omega
    · obtain ⟨nonneg, atMost⟩ := pays part v isRead budget enough b between first
      rcases bind_eq_error.mp wrong with wrong | ⟨_, -, wrong⟩
      · have more := ih between nonneg wrong
        omega
      · cases wrong

theorem visit_error {P : E → Prop} {parts : List α} {budget : ℤ} {e : E}
    (each : ∀ part ∈ parts, ∀ budget e, step part budget = .error e → P e) (visited : visit step parts budget = .error e) :
    P e := by
  induction parts generalizing budget with
  | nil => cases visited
  | cons part rest ih =>
    rw [visit, bind_eq_error] at visited
    rcases visited with failed | ⟨result, -, others⟩
    · exact each part (.head _) budget e failed
    · rcases bind_eq_error.mp others with failed | ⟨_, -, wrong⟩
      · exact ih (fun p mem => each p (.tail _ mem)) failed
      · cases wrong

end Visit

/-! ### The walk -/

/-- What a walk checks and charges: each rule takes what there is of the budget, and gives what it leaves of it. -/
structure Rules (F E : Type) where
  scalar : Scalar F → ℤ → Except E ℤ
  key : Scalar F → ℤ → Except E ℤ
  /-- The brackets of a container. -/
  enter : ℤ → Except E ℤ
  /-- What each item of a sequence costs by itself. -/
  item : ℤ → Except E ℤ
  tuples : Bool
  notJson : E
  tooDeep : E

namespace Rules

variable (rules : Rules F E) (heap : Heap R F)

/-- The walk below a reference, with so many levels of containers left. -/
def walk : ℕ → R → ℤ → Except E (PyValue F × ℤ)
  | 0, ref, budget =>
    match heap ref with
    | .scalar s => do
      let left ← rules.scalar s budget
      .ok (.scalar s, left)
    | .tuple _ => .error (if rules.tuples then rules.tooDeep else rules.notJson)
    | _ => .error rules.tooDeep
  | levels + 1, ref, budget =>
    match heap ref with
    | .scalar s => do
      let left ← rules.scalar s budget
      .ok (.scalar s, left)
    | .list items => do
      let left ← rules.enter budget
      let (copies, left) ← visit (fun item budget => do walk levels item (← rules.item budget)) items left
      .ok (.list copies, left)
    | .tuple items =>
      if rules.tuples then do
        let left ← rules.enter budget
        let (copies, left) ← visit (fun item budget => do walk levels item (← rules.item budget)) items left
        .ok (.list copies, left)
      else .error rules.notJson
    | .dict entries => do
      let left ← rules.enter budget
      let (copies, left) ← visit (fun entry budget => do
        let left ← rules.key entry.1 budget
        let (copy, left) ← walk levels entry.2 left
        .ok ((entry.1, copy), left)) entries left
      .ok (.dict copies, left)

def stepItem (levels : ℕ) (item : R) (budget : ℤ) : Except E (PyValue F × ℤ) := do
  rules.walk heap levels item (← rules.item budget)

def stepEntry (levels : ℕ) (entry : Scalar F × R) (budget : ℤ) : Except E ((Scalar F × PyValue F) × ℤ) := do
  let left ← rules.key entry.1 budget
  let (copy, left) ← rules.walk heap levels entry.2 left
  .ok ((entry.1, copy), left)

def walkItems (levels : ℕ) (items : List R) (budget : ℤ) : Except E (PyValue F × ℤ) := do
  let left ← rules.enter budget
  let (copies, left) ← visit (rules.stepItem heap levels) items left
  .ok (.list copies, left)

def walkEntries (levels : ℕ) (entries : List (Scalar F × R)) (budget : ℤ) : Except E (PyValue F × ℤ) := do
  let left ← rules.enter budget
  let (copies, left) ← visit (rules.stepEntry heap levels) entries left
  .ok (.dict copies, left)

variable {rules heap} {levels : ℕ} {ref : R} {budget : ℤ}

theorem walk_scalar {s : Scalar F} (here : heap ref = .scalar s) :
    rules.walk heap levels ref budget = (rules.scalar s budget >>= fun left => .ok (.scalar s, left)) := by
  cases levels <;> conv_lhs => whnf; rw [here]

theorem walk_list {items : List R} (here : heap ref = .list items) :
    rules.walk heap (levels + 1) ref budget = rules.walkItems heap levels items budget := by
  conv_lhs => whnf; rw [here]
  rfl

theorem walk_tuple {items : List R} (here : heap ref = .tuple items) : rules.walk heap (levels + 1) ref budget =
    if rules.tuples then rules.walkItems heap levels items budget else .error rules.notJson := by
  conv_lhs => whnf; rw [here]
  rfl

theorem walk_dict {entries : List (Scalar F × R)} (here : heap ref = .dict entries) :
    rules.walk heap (levels + 1) ref budget = rules.walkEntries heap levels entries budget := by
  conv_lhs => whnf; rw [here]
  rfl

theorem walk_zero (container : ∀ s, heap ref ≠ .scalar s) : rules.walk heap 0 ref budget = .error rules.tooDeep ∨
    rules.walk heap 0 ref budget = .error rules.notJson := by
  rw [walk]
  split
  · next s here => exact absurd here (container s)
  · cases rules.tuples
    · exact Or.inr rfl
    · exact Or.inl rfl
  · exact Or.inl rfl

theorem walk_error {P : E → Prop} {e : E} (scalar : ∀ s budget e, rules.scalar s budget = .error e → P e)
    (key : ∀ s budget e, rules.key s budget = .error e → P e) (enter : ∀ budget e, rules.enter budget = .error e → P e)
    (item : ∀ budget e, rules.item budget = .error e → P e) (notJson : P rules.notJson) (tooDeep : P rules.tooDeep)
    (walked : rules.walk heap levels ref budget = .error e) : P e := by
  have scalars : ∀ {levels : ℕ} {ref : R} {s : Scalar F} {budget : ℤ} {e : E}, heap ref = .scalar s →
      rules.walk heap levels ref budget = .error e → P e := by
    intro levels ref s budget e here walked
    rw [walk_scalar here, bind_eq_error] at walked
    rcases walked with failed | ⟨_, -, wrong⟩
    · exact scalar _ _ _ failed
    · cases wrong
  induction levels generalizing ref budget e with
  | zero =>
    cases here : heap ref with
    | scalar s => exact scalars here walked
    | _ =>
      rcases @walk_zero _ _ _ rules heap ref budget (by simp [here]) with refused | refused
      · rw [refused] at walked
        cases walked
        exact tooDeep
      · rw [refused] at walked
        cases walked
        exact notJson
  | succ levels ih =>
    have items : ∀ {items : List R}, rules.walkItems heap levels items budget = .error e → P e := by
      intro items walked
      rcases bind_eq_error.mp walked with failed | ⟨_, -, rest⟩
      · exact enter _ _ failed
      · rcases bind_eq_error.mp rest with failed | ⟨_, -, wrong⟩
        · refine visit_error (fun part _ budget e stepped => ?_) failed
          rcases bind_eq_error.mp stepped with failed | ⟨_, -, failed⟩
          · exact item _ _ failed
          · exact ih failed
        · cases wrong
    cases here : heap ref with
    | scalar s => exact scalars here walked
    | list refs =>
      rw [walk_list here] at walked
      exact items walked
    | tuple refs =>
      rw [walk_tuple here] at walked
      split_ifs at walked
      · exact items walked
      · cases walked
        exact notJson
    | dict entries =>
      rw [walk_dict here] at walked
      rcases bind_eq_error.mp walked with failed | ⟨_, -, rest⟩
      · exact enter _ _ failed
      · rcases bind_eq_error.mp rest with failed | ⟨_, -, wrong⟩
        · refine visit_error (fun part _ budget e stepped => ?_) failed
          rcases bind_eq_error.mp stepped with failed | ⟨_, -, others⟩
          · exact key _ _ _ failed
          · rcases bind_eq_error.mp others with failed | ⟨_, -, wrong⟩
            · exact ih failed
            · cases wrong
        · cases wrong

end Rules

/-! ### What a walk charges -/

variable (F) in
/-- What is accepted, and what it is charged: two for the brackets of a container, besides. -/
structure Tariff where
  accepts : Scalar F → Bool
  acceptsKey : Scalar F → Bool
  cost : Scalar F → ℕ
  keyCost : Scalar F → ℕ
  item : ℕ
  tuples : Bool

namespace Tariff

variable (tariff : Tariff F)

def accepted (v : PyValue F) : Bool := v.all tariff.accepts tariff.acceptsKey tariff.tuples

def charge : PyValue F → ℕ := PyValue.fold
  { scalar := tariff.cost
    list := fun items => 2 + (items.map (tariff.item + ·)).sum
    tuple := fun items => 2 + (items.map (tariff.item + ·)).sum
    dict := fun entries => 2 + (entries.map fun entry => tariff.keyCost entry.1 + entry.2).sum
    proxy := fun _ => 0 }

@[simp]
theorem accepted_scalar (s : Scalar F) : tariff.accepted (.scalar s) = tariff.accepts s := PyValue.all_scalar _ _ _ s

@[simp]
theorem accepted_list (items : List (PyValue F)) : tariff.accepted (.list items) = items.all tariff.accepted :=
  PyValue.all_list _ _ _ items

@[simp]
theorem accepted_tuple (items : List (PyValue F)) :
    tariff.accepted (.tuple items) = (tariff.tuples && items.all tariff.accepted) := PyValue.all_tuple _ _ _ items

@[simp]
theorem accepted_dict (entries : List (Scalar F × PyValue F)) : tariff.accepted (.dict entries) =
    entries.all fun entry => tariff.acceptsKey entry.1 && tariff.accepted entry.2 := PyValue.all_dict _ _ _ entries

@[simp]
theorem charge_scalar (s : Scalar F) : tariff.charge (.scalar s) = tariff.cost s := PyValue.fold_scalar _ s

@[simp]
theorem charge_list (items : List (PyValue F)) :
    tariff.charge (.list items) = 2 + (items.map fun item => tariff.item + tariff.charge item).sum := by
  refine (PyValue.fold_list _ items).trans ?_
  dsimp only
  rw [map_map]
  rfl

@[simp]
theorem charge_tuple (items : List (PyValue F)) :
    tariff.charge (.tuple items) = 2 + (items.map fun item => tariff.item + tariff.charge item).sum := by
  refine (PyValue.fold_tuple _ items).trans ?_
  dsimp only
  rw [map_map]
  rfl

@[simp]
theorem charge_dict (entries : List (Scalar F × PyValue F)) : tariff.charge (.dict entries) =
    2 + (entries.map fun entry => tariff.keyCost entry.1 + tariff.charge entry.2).sum := by
  refine (PyValue.fold_dict _ entries).trans ?_
  dsimp only
  rw [map_map]
  rfl

@[simp]
theorem charge_proxy (entries : List (Scalar F × PyValue F)) : tariff.charge (.proxy entries) = 0 :=
  PyValue.fold_proxy _ entries

theorem charge_le_size (encoder : Json.Encoder F) {w : ℕ → ℕ} (noItem : tariff.item = 0)
    (brackets : ∀ c ∈ [91, 93, 123, 125], w c = 1)
    (scalars : ∀ s, tariff.cost s ≤ Json.weight w (encoder.scalarText s))
    (keys : ∀ s, tariff.keyCost s ≤ Json.weight w (encoder.keyText s)) (v : PyValue F) :
    tariff.charge v ≤ encoder.size w v := by
  have items : ∀ values : List (PyValue F), (∀ v ∈ values, tariff.charge v ≤ encoder.size w v) →
      2 + (values.map fun v => tariff.item + tariff.charge v).sum ≤
        w 91 + ((values.map (encoder.size w)).sum + Json.weight w encoder.separator * (values.length - 1) + w 93) := by
    intro values each
    have sums : (values.map fun v => tariff.item + tariff.charge v).sum ≤ (values.map (encoder.size w)).sum := by
      refine sum_le_sum fun v mem => ?_
      rw [noItem, Nat.zero_add]
      exact each v mem
    rw [brackets 91 (by simp), brackets 93 (by simp)]
    omega
  induction v using PyValue.inductOn with
  | scalar s =>
    rw [charge_scalar, Json.Encoder.size_scalar]
    exact scalars s
  | list values each =>
    rw [charge_list, Json.Encoder.size_list]
    exact items values each
  | tuple values each =>
    rw [charge_tuple, Json.Encoder.size_tuple]
    exact items values each
  | dict entries each =>
    rw [charge_dict, Json.Encoder.size_dict, brackets 123 (by simp), brackets 125 (by simp)]
    have sums : (entries.map fun entry => tariff.keyCost entry.1 + tariff.charge entry.2).sum ≤
        (entries.map fun entry => Json.weight w (encoder.keyText entry.1) +
          (Json.weight w encoder.colon + encoder.size w entry.2)).sum := by
      refine sum_le_sum fun entry mem => ?_
      have key := keys entry.1
      have value := each entry mem
      omega
    omega
  | proxy entries _ =>
    rw [charge_proxy]
    exact Nat.zero_le _

end Tariff

namespace Rules

structure Charge (rules : Rules F E) (tariff : Tariff F) : Prop where
  scalar : ∀ s budget left, rules.scalar s budget = .ok left ↔
    tariff.accepts s = true ∧ (tariff.cost s : ℤ) ≤ budget ∧ left = budget - tariff.cost s
  key : ∀ s budget left, rules.key s budget = .ok left ↔
    tariff.acceptsKey s = true ∧ (tariff.keyCost s : ℤ) ≤ budget ∧ left = budget - tariff.keyCost s
  enter : ∀ budget left, rules.enter budget = .ok left ↔ 2 ≤ budget ∧ left = budget - 2
  item : ∀ budget left, 0 ≤ budget → (rules.item budget = .ok left ↔
    (tariff.item : ℤ) ≤ budget ∧ left = budget - tariff.item)
  tuples : rules.tuples = tariff.tuples

structure Refuses (rules : Rules F E) (tariff : Tariff F) (out : E) : Prop where
  scalar : ∀ s budget, rules.scalar s budget = .error out → budget < tariff.cost s
  key : ∀ s budget, rules.key s budget = .error out → budget < tariff.keyCost s
  enter : ∀ budget, rules.enter budget = .error out → budget < 2
  item : ∀ budget, 0 ≤ budget → rules.item budget = .error out → budget < tariff.item
  notJson : rules.notJson ≠ out
  tooDeep : rules.tooDeep ≠ out

variable {rules : Rules F E} {tariff : Tariff F} {heap : Heap R F} {levels : ℕ} {ref : R} {budget left : ℤ}
  {copy : PyValue F}

def Walks (rules : Rules F E) (tariff : Tariff F) (heap : Heap R F) (levels : ℕ) (ref : R) : Prop :=
  ∀ budget copy left, rules.walk heap levels ref budget = .ok (copy, left) ↔
    ∃ v, unfold heap levels ref = some v ∧ tariff.accepted v = true ∧ copy = v.plain ∧ (tariff.charge v : ℤ) ≤ budget ∧
      left = budget - tariff.charge v

theorem stepItem_metered (charge : rules.Charge tariff) (walks : Walks rules tariff heap levels ref) :
    Metered (rules.stepItem heap levels ref) (fun v => unfold heap levels ref = some v) tariff.accepted PyValue.plain
      (fun v => tariff.item + tariff.charge v) := by
  intro budget enough copy left
  unfold stepItem
  rw [bind_eq_ok]
  constructor
  · rintro ⟨between, isItem, walked⟩
    obtain ⟨paid, rfl⟩ := (charge.item budget between enough).mp isItem
    obtain ⟨v, isRead, isOk, isCopy, paidAll, rfl⟩ := (walks _ _ _).mp walked
    refine ⟨v, isRead, isOk, isCopy, ?_, ?_⟩ <;> simp only [Nat.cast_add] <;> omega
  · rintro ⟨v, isRead, isOk, isCopy, paid, rfl⟩
    simp only [Nat.cast_add] at paid ⊢
    refine ⟨budget - tariff.item, (charge.item budget _ enough).mpr ⟨by omega, rfl⟩, ?_⟩
    exact (walks _ _ _).mpr ⟨v, isRead, isOk, isCopy, by omega, by omega⟩

theorem stepEntry_metered (charge : rules.Charge tariff) {entry : Scalar F × R}
    (walks : Walks rules tariff heap levels entry.2) :
    Metered (rules.stepEntry heap levels entry) (fun value => unfoldEntry heap levels entry = some value)
      (fun value => tariff.acceptsKey value.1 && tariff.accepted value.2) (fun value => (value.1, value.2.plain))
      (fun value => tariff.keyCost value.1 + tariff.charge value.2) := by
  intro budget _ copy left
  unfold stepEntry
  rw [bind_eq_ok]
  constructor
  · rintro ⟨between, isKey, rest⟩
    obtain ⟨⟨copied, after⟩, walked, same⟩ := bind_eq_ok.mp rest
    cases same
    obtain ⟨keyOk, paid, rfl⟩ := (charge.key _ budget between).mp isKey
    obtain ⟨v, isRead, isOk, rfl, paidAll, rfl⟩ := (walks _ _ _).mp walked
    refine ⟨(entry.1, v), unfoldEntry_eq_some.mpr ⟨isRead, rfl⟩, ?_, rfl, ?_, ?_⟩
    · exact Bool.and_eq_true_iff.mpr ⟨keyOk, isOk⟩
    · simp only [Nat.cast_add]
      omega
    · simp only [Nat.cast_add]
      omega
  · rintro ⟨value, isRead, isOk, rfl, paid, rfl⟩
    obtain ⟨isRead, sameKey⟩ := unfoldEntry_eq_some.mp isRead
    obtain ⟨keyOk, isOk⟩ := Bool.and_eq_true_iff.mp isOk
    simp only [Nat.cast_add] at paid ⊢
    refine ⟨budget - tariff.keyCost value.1, (charge.key _ _ _).mpr ⟨sameKey ▸ keyOk, ?_, ?_⟩, ?_⟩
    · rw [← sameKey]
      omega
    · rw [sameKey]
    · refine bind_eq_ok.mpr ⟨(value.2.plain, budget - tariff.keyCost value.1 - tariff.charge value.2), ?_, ?_⟩
      · exact (walks _ _ _).mpr ⟨value.2, isRead, isOk, rfl, by omega, rfl⟩
      · rw [← sameKey, sub_sub]

theorem container_eq_ok (charge : rules.Charge tariff) {α β γ : Type} {parts : List α} {step : α → ℤ → Except E (β × ℤ)}
    {read : α → γ → Prop} {ok : γ → Bool} {view : γ → β} {cost : γ → ℕ}
    (each : ∀ part ∈ parts, Metered (step part) (read part) ok view cost) (wrap : List β → PyValue F) :
    (do
      let left ← rules.enter budget
      let (copies, left) ← visit step parts left
      .ok (wrap copies, left)) = .ok (copy, left) ↔
      ∃ values, List.Forall₂ read parts values ∧ values.all ok = true ∧ copy = wrap (values.map view) ∧
        ((2 + (values.map cost).sum : ℕ) : ℤ) ≤ budget ∧ left = budget - (2 + (values.map cost).sum : ℕ) := by
  have visited := visit_metered each
  rw [bind_eq_ok]
  constructor
  · rintro ⟨between, entered, rest⟩
    obtain ⟨paid, rfl⟩ := (charge.enter _ _).mp entered
    obtain ⟨⟨copies, after⟩, walked, same⟩ := bind_eq_ok.mp rest
    cases same
    obtain ⟨values, areRead, areOk, rfl, paidAll, rfl⟩ := (visited _ (by omega) _ _).mp walked
    dsimp only at areOk paidAll ⊢
    refine ⟨values, areRead, areOk, rfl, ?_, ?_⟩ <;> simp only [Nat.cast_add, Nat.cast_ofNat] at paidAll ⊢ <;> omega
  · rintro ⟨values, areRead, areOk, rfl, paid, rfl⟩
    simp only [Nat.cast_add, Nat.cast_ofNat] at paid ⊢
    refine ⟨budget - 2, (charge.enter _ _).mpr ⟨by omega, rfl⟩, bind_eq_ok.mpr ⟨(values.map view, _), ?_, rfl⟩⟩
    refine (visited _ (by omega) _ _).mpr ⟨values, areRead, areOk, rfl, ?_, ?_⟩ <;> dsimp only <;> omega

theorem walkItems_eq_ok (charge : rules.Charge tariff) {items : List R}
    (walks : ∀ item ∈ items, Walks rules tariff heap levels item) :
    rules.walkItems heap levels items budget = .ok (copy, left) ↔
      ∃ values, List.Forall₂ (fun item v => unfold heap levels item = some v) items values ∧
        values.all tariff.accepted = true ∧ copy = .list (values.map PyValue.plain) ∧
        ((2 + (values.map fun v => tariff.item + tariff.charge v).sum : ℕ) : ℤ) ≤ budget ∧
        left = budget - (2 + (values.map fun v => tariff.item + tariff.charge v).sum : ℕ) :=
  container_eq_ok charge (fun item mem => stepItem_metered charge (walks item mem)) .list

theorem walkEntries_eq_ok (charge : rules.Charge tariff) {entries : List (Scalar F × R)}
    (walks : ∀ entry ∈ entries, Walks rules tariff heap levels entry.2) :
    rules.walkEntries heap levels entries budget = .ok (copy, left) ↔
      ∃ values, List.Forall₂ (fun entry value => unfoldEntry heap levels entry = some value) entries values ∧
        (values.all fun value => tariff.acceptsKey value.1 && tariff.accepted value.2) = true ∧
        copy = .dict (values.map fun value => (value.1, value.2.plain)) ∧
        ((2 + (values.map fun value => tariff.keyCost value.1 + tariff.charge value.2).sum : ℕ) : ℤ) ≤ budget ∧
        left = budget - (2 + (values.map fun value => tariff.keyCost value.1 + tariff.charge value.2).sum : ℕ) :=
  container_eq_ok charge (fun entry mem => stepEntry_metered charge (walks entry mem)) .dict

/-- **What the walk accepts**: the finite values that are accepted, not too deep and paid for; the copy is a fresh one,
and the value has been paid. -/
theorem walk_eq_ok (charge : rules.Charge tariff) : Walks rules tariff heap levels ref := by
  have scalars : ∀ {levels : ℕ} {ref : R} {s : Scalar F}, heap ref = .scalar s → Walks rules tariff heap levels ref := by
    intro levels ref s here budget copy left
    rw [walk_scalar here, bind_eq_ok]
    constructor
    · rintro ⟨after, isScalar, same⟩
      cases same
      obtain ⟨isOk, paid, rfl⟩ := (charge.scalar _ _ _).mp isScalar
      refine ⟨.scalar s, (unfold_scalar here).mpr rfl, ?_, ?_, ?_, ?_⟩
      · rw [Tariff.accepted_scalar, isOk]
      · rw [PyValue.plain_scalar]
      · rw [Tariff.charge_scalar]
        exact paid
      · rw [Tariff.charge_scalar]
    · rintro ⟨v, read, isOk, rfl, paid, rfl⟩
      rw [(unfold_scalar here).mp read] at isOk paid ⊢
      rw [Tariff.accepted_scalar] at isOk
      rw [Tariff.charge_scalar] at paid ⊢
      rw [PyValue.plain_scalar]
      exact ⟨_, (charge.scalar _ _ _).mpr ⟨isOk, paid, rfl⟩, rfl⟩
  induction levels generalizing ref with
  | zero =>
    cases here : heap ref with
    | scalar s => exact scalars here
    | _ =>
      intro budget copy left
      rw [unfold_zero (by simp [here])]
      refine ⟨fun walked => ?_, fun ⟨_, wrong, _⟩ => by cases wrong⟩
      rcases @walk_zero _ _ _ rules heap ref budget (by simp [here]) with refused | refused
      all_goals
        rw [refused] at walked
        cases walked
  | succ levels ih =>
    cases here : heap ref with
    | scalar s => exact scalars here
    | list items =>
      intro budget copy left
      rw [walk_list here, walkItems_eq_ok charge fun item _ => ih]
      constructor
      · rintro ⟨values, areRead, areOk, rfl, paid, rfl⟩
        refine ⟨.list values, (unfold_list here).mpr ⟨values, areRead, rfl⟩, ?_, ?_, ?_, ?_⟩
        · rw [Tariff.accepted_list, areOk]
        · rw [PyValue.plain_list]
        · rw [Tariff.charge_list]
          exact paid
        · rw [Tariff.charge_list]
      · rintro ⟨v, read, isOk, rfl, paid, rfl⟩
        obtain ⟨values, areRead, rfl⟩ := (unfold_list here).mp read
        rw [Tariff.accepted_list] at isOk
        rw [Tariff.charge_list] at paid ⊢
        exact ⟨values, areRead, isOk, PyValue.plain_list values, paid, rfl⟩
    | tuple items =>
      intro budget copy left
      rw [walk_tuple here]
      by_cases tuples : rules.tuples = true
      · rw [if_pos tuples, walkItems_eq_ok charge fun item _ => ih]
        rw [charge.tuples] at tuples
        constructor
        · rintro ⟨values, areRead, areOk, rfl, paid, rfl⟩
          refine ⟨.tuple values, (unfold_tuple here).mpr ⟨values, areRead, rfl⟩, ?_, ?_, ?_, ?_⟩
          · rw [Tariff.accepted_tuple, areOk, tuples, Bool.and_self]
          · rw [PyValue.plain_tuple]
          · rw [Tariff.charge_tuple]
            exact paid
          · rw [Tariff.charge_tuple]
        · rintro ⟨v, read, isOk, rfl, paid, rfl⟩
          obtain ⟨values, areRead, rfl⟩ := (unfold_tuple here).mp read
          rw [Tariff.accepted_tuple, tuples, Bool.true_and] at isOk
          rw [Tariff.charge_tuple] at paid ⊢
          exact ⟨values, areRead, isOk, PyValue.plain_tuple values, paid, rfl⟩
      · rw [if_neg tuples]
        rw [charge.tuples] at tuples
        refine ⟨fun wrong => (by cases wrong), ?_⟩
        rintro ⟨v, read, isOk, -⟩
        obtain ⟨values, -, rfl⟩ := (unfold_tuple here).mp read
        rw [Tariff.accepted_tuple, Bool.and_eq_true] at isOk
        exact absurd isOk.1 tuples
    | dict entries =>
      intro budget copy left
      rw [walk_dict here, walkEntries_eq_ok charge fun entry _ => ih]
      constructor
      · rintro ⟨values, areRead, areOk, rfl, paid, rfl⟩
        refine ⟨.dict values, (unfold_dict here).mpr ⟨values, areRead, rfl⟩, ?_, ?_, ?_, ?_⟩
        · rw [Tariff.accepted_dict, areOk]
        · rw [PyValue.plain_dict]
        · rw [Tariff.charge_dict]
          exact paid
        · rw [Tariff.charge_dict]
      · rintro ⟨v, read, isOk, rfl, paid, rfl⟩
        obtain ⟨values, areRead, rfl⟩ := (unfold_dict here).mp read
        rw [Tariff.accepted_dict] at isOk
        rw [Tariff.charge_dict] at paid ⊢
        exact ⟨values, areRead, isOk, PyValue.plain_dict values, paid, rfl⟩

section RunsOut

variable {out : E} {v : PyValue F}

theorem stepItem_pays (charge : rules.Charge tariff) (holds : Holds heap ref v) :
    PaysAtMost (rules.stepItem heap levels ref) (tariff.item + tariff.charge v) := by
  intro budget enough copy left stepped
  obtain ⟨w, isRead, -, -, paid, rfl⟩ := (stepItem_metered charge (walk_eq_ok charge) budget enough copy left).mp stepped
  rw [holds.unique ⟨levels, isRead⟩]
  exact ⟨by omega, le_refl _⟩

theorem stepEntry_pays (charge : rules.Charge tariff) {entry : Scalar F × R} {value : Scalar F × PyValue F}
    (holds : Holds heap entry.2 value.2) (sameKey : value.1 = entry.1) :
    PaysAtMost (rules.stepEntry heap levels entry) (tariff.keyCost value.1 + tariff.charge value.2) := by
  intro budget enough copy left stepped
  obtain ⟨w, isRead, -, -, paid, rfl⟩ := (stepEntry_metered charge (walk_eq_ok charge) budget enough copy left).mp stepped
  obtain ⟨isRead, sameKey'⟩ := unfoldEntry_eq_some.mp isRead
  rw [holds.unique ⟨levels, isRead⟩, sameKey, ← sameKey']
  exact ⟨by omega, le_refl _⟩

/-- **Out of budget**: where the walk runs out, the value is charged more than there was. -/
theorem walk_runsOut (charge : rules.Charge tariff) (refuses : rules.Refuses tariff out) (holds : Holds heap ref v)
    (walked : rules.walk heap levels ref budget = .error out) : budget < tariff.charge v := by
  have scalars : ∀ {levels : ℕ} {ref : R} {s : Scalar F} {budget : ℤ}, heap ref = .scalar s →
      rules.walk heap levels ref budget = .error out → budget < tariff.cost s := by
    intro levels ref s budget here walked
    rw [walk_scalar here, bind_eq_error] at walked
    rcases walked with walked | ⟨_, -, wrong⟩
    · exact refuses.scalar s budget walked
    · cases wrong
  induction levels generalizing ref budget v with
  | zero =>
    cases here : heap ref with
    | scalar s =>
      rw [(holds_scalar here).mp holds, Tariff.charge_scalar]
      exact scalars here walked
    | _ =>
      rcases @walk_zero _ _ _ rules heap ref budget (by simp [here]) with refused | refused
      · rw [refused, Except.error.injEq] at walked
        exact absurd walked refuses.tooDeep
      · rw [refused, Except.error.injEq] at walked
        exact absurd walked refuses.notJson
  | succ levels ih =>
    have itemOut : ∀ item w, Holds heap item w →
        RunsOut (rules.stepItem heap levels item) out (tariff.item + tariff.charge w) := by
      intro item w holdsItem budget enough stepped
      rcases bind_eq_error.mp stepped with stepped | ⟨between, isItem, stepped⟩
      · have less := refuses.item budget enough stepped
        simp only [Nat.cast_add]
        omega
      · obtain ⟨-, rfl⟩ := (charge.item budget between enough).mp isItem
        have less := ih holdsItem stepped
        simp only [Nat.cast_add]
        omega
    have entryOut : ∀ (entry : Scalar F × R) (value : Scalar F × PyValue F),
        Holds heap entry.2 value.2 ∧ value.1 = entry.1 →
        RunsOut (rules.stepEntry heap levels entry) out (tariff.keyCost value.1 + tariff.charge value.2) := by
      rintro entry value ⟨holdsValue, sameKey⟩ budget - stepped
      rw [sameKey]
      simp only [Nat.cast_add]
      rcases bind_eq_error.mp stepped with stepped | ⟨between, isKey, stepped⟩
      · have less := refuses.key _ budget stepped
        omega
      · obtain ⟨-, -, rfl⟩ := (charge.key _ budget between).mp isKey
        rcases bind_eq_error.mp stepped with stepped | ⟨_, -, wrong⟩
        · have less := ih holdsValue stepped
          omega
        · cases wrong
    have itemsOut : ∀ {items : List R} {values : List (PyValue F)}, List.Forall₂ (Holds heap) items values →
        rules.walkItems heap levels items budget = .error out →
        budget < (2 + (values.map fun v => tariff.item + tariff.charge v).sum : ℕ) := by
      intro items values all walked
      simp only [Nat.cast_add, Nat.cast_ofNat]
      rcases bind_eq_error.mp walked with walked | ⟨between, entered, walked⟩
      · have less := refuses.enter budget walked
        omega
      · obtain ⟨enough, rfl⟩ := (charge.enter _ _).mp entered
        rcases bind_eq_error.mp walked with walked | ⟨_, -, wrong⟩
        · have less := visit_runsOut all (fun _ _ => stepItem_pays charge) itemOut _ (by omega) walked
          omega
        · cases wrong
    cases here : heap ref with
    | scalar s =>
      rw [(holds_scalar here).mp holds, Tariff.charge_scalar]
      exact scalars here walked
    | list items =>
      obtain ⟨values, all, rfl⟩ := holds.list here
      rw [walk_list here] at walked
      rw [Tariff.charge_list]
      exact itemsOut all walked
    | tuple items =>
      obtain ⟨values, all, rfl⟩ := holds.tuple here
      rw [walk_tuple here] at walked
      rw [Tariff.charge_tuple]
      split_ifs at walked
      · exact itemsOut all walked
      · rw [Except.error.injEq] at walked
        exact absurd walked refuses.notJson
    | dict entries =>
      obtain ⟨values, all, rfl⟩ := holds.dict here
      rw [walk_dict here] at walked
      rw [Tariff.charge_dict]
      simp only [Nat.cast_add, Nat.cast_ofNat]
      rcases bind_eq_error.mp walked with walked | ⟨between, entered, walked⟩
      · have less := refuses.enter budget walked
        omega
      · obtain ⟨enough, rfl⟩ := (charge.enter _ _).mp entered
        rcases bind_eq_error.mp walked with walked | ⟨_, -, wrong⟩
        · have less := visit_runsOut all (fun _ _ related => stepEntry_pays charge related.1 related.2) entryOut _ (by omega)
            walked
          omega
        · cases wrong

end RunsOut

end Rules

end PawBackend.Lib
