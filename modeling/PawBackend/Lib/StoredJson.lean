/-
**What comes back of JSON that was stored.** A column keeps the texts, the keys and the structure of a value, and every
number as an exact decimal that it prints without an exponent. A number printed without a fraction is read as an
integer, so a float that is written with an exponent comes back as one (`Jsonb.readBack`).

* `Decimal.ofText`: the decimal a column keeps of a number's text, with as many places as the text has.
* `PyValue.equal`: `==`, by the values of numbers and whatever the order of a mapping's entries.
* `Jsonb.equal_shaped`: a value comes back equal exactly where each of its floats is spelt exactly.
-/

import PawBackend.Lib.ObjectWalk

namespace PawBackend.Lib

open List

open Text (lit)

/-! ### Decimals -/

/-- So many units of `10 ^ -scale`. -/
structure Decimal where
  unscaled : ℤ
  scale : ℕ
  deriving DecidableEq, Repr

namespace Decimal

def ofDigits (t : Text) : ℕ := t.foldl (fun n c => 10 * n + (c - 48)) 0

def signed (t : Text) : ℤ × Text :=
  match t with
  | 45 :: rest => (-1, rest)
  | 43 :: rest => (1, rest)
  | rest => (1, rest)

def ofText (t : Text) : Decimal :=
  let (sign, number) := signed t
  let (mantissa, exponent) := number.span fun c => c != 101
  let (whole, fraction) := mantissa.span fun c => c != 46
  let (expSign, expDigits) := signed (exponent.drop 1)
  let shift := expSign * ofDigits expDigits - (fraction.drop 1).length
  ⟨sign * ofDigits (whole ++ fraction.drop 1) * 10 ^ shift.toNat, (-shift).toNat⟩

end Decimal

/-! ### The floats -/

variable (F : Type) in
/-- What is known of the numbers of a float type: the value of each that is finite, the float that is nearest to a
decimal, and what `repr` writes. A float below `10 ^ 16` is written with a fraction or a negative exponent, and the
text of a float is read as that float, the sign of a zero apart. -/
structure Numbers extends Floats F where
  value : F → ℚ
  zero : F
  read : Decimal → F
  ofInt : ℤ → Option F
  zero_finite : finite zero = true
  zero_value : value zero = 0
  fraction : ∀ x, finite x = true → |value x| < 10 ^ 16 → (Decimal.ofText (repr x)).scale ≠ 0
  reread : ∀ x, finite x = true → (Decimal.ofText (repr x)).scale ≠ 0 →
    read (Decimal.ofText (repr x)) = x ∨ value x = 0 ∧ read (Decimal.ofText (repr x)) = zero
  ofInt_unit : ∀ n, 0 ≤ n → n ≤ 1 → ∃ x, ofInt n = some x ∧ finite x = true ∧ value x = n

variable {F : Type}

namespace Numbers

variable (numbers : Numbers F) {x : F}

def decimal (x : F) : Decimal := Decimal.ofText (numbers.repr x)

theorem finite_read (finite : numbers.finite x = true) (scaled : (numbers.decimal x).scale ≠ 0) :
    numbers.finite (numbers.read (numbers.decimal x)) = true := by
  rcases numbers.reread x finite scaled with same | ⟨-, isZero⟩
  · exact same.symm ▸ finite
  · exact isZero.symm ▸ numbers.zero_finite

theorem value_read (finite : numbers.finite x = true) (scaled : (numbers.decimal x).scale ≠ 0) :
    numbers.value (numbers.read (numbers.decimal x)) = numbers.value x := by
  rcases numbers.reread x finite scaled with same | ⟨isZero, same⟩
  · exact congrArg numbers.value same
  · exact (congrArg numbers.value same).trans (numbers.zero_value.trans isZero.symm)

/-! ### Equality -/

def numberOf : Scalar F → Option ℚ
  | .boolean b => some (if b then 1 else 0)
  | .integer n => some n
  | .float x => some (numbers.value x)
  | _ => none

/-- `==` of what is no container; a float is finite here. -/
def scalarEqual (s t : Scalar F) : Bool :=
  match s, t with
  | .none, .none => true
  | .text a, .text b => decide (a = b)
  | s, t => (numbers.numberOf s).any fun a => (numbers.numberOf t).any fun b => decide (a = b)

end Numbers

namespace PyValue

variable (numbers : Numbers F)

def equalItems : List (PyValue F → Bool) → List (PyValue F) → Bool
  | [], [] => true
  | isEqual :: parts, v :: items => isEqual v && equalItems parts items
  | _, _ => false

def equalEntries (parts : List (Scalar F × (PyValue F → Bool))) (entries : List (Scalar F × PyValue F)) : Bool :=
  decide (parts.length = entries.length) && parts.all fun part =>
    (entries.find? fun entry => numbers.scalarEqual part.1 entry.1).any fun entry => part.2 entry.2

/-- `==`. -/
def equal : PyValue F → PyValue F → Bool := fold
  { scalar := fun s w =>
      match w with
      | .scalar t => numbers.scalarEqual s t
      | _ => false
    list := fun parts w =>
      match w with
      | .list items => equalItems parts items
      | _ => false
    tuple := fun parts w =>
      match w with
      | .tuple items => equalItems parts items
      | _ => false
    dict := fun parts w =>
      match w with
      | .dict entries => equalEntries numbers parts entries
      | .proxy entries => equalEntries numbers parts entries
      | _ => false
    proxy := fun parts w =>
      match w with
      | .dict entries => equalEntries numbers parts entries
      | .proxy entries => equalEntries numbers parts entries
      | _ => false }

@[simp]
theorem equal_scalar (s t : Scalar F) : equal numbers (.scalar s) (.scalar t) = numbers.scalarEqual s t := by
  unfold equal
  rw [fold_scalar]

@[simp]
theorem equal_tuple (parts items : List (PyValue F)) :
    equal numbers (.tuple parts) (.tuple items) = equalItems (parts.map (equal numbers)) items := by
  unfold equal
  rw [fold_tuple]

@[simp]
theorem equal_proxy (parts entries : List (Scalar F × PyValue F)) : equal numbers (.proxy parts) (.proxy entries) =
    equalEntries numbers (parts.map fun part => (part.1, equal numbers part.2)) entries := by
  unfold equal
  rw [fold_proxy]

/-- A value that is read-only all the way down: every sequence is a tuple, and every mapping a proxy. -/
def frozen : PyValue F → PyValue F := fold ⟨.scalar, .tuple, .tuple, .proxy, .proxy⟩

@[simp]
theorem frozen_scalar (s : Scalar F) : frozen (.scalar s) = .scalar s := fold_scalar _ s

@[simp]
theorem frozen_list (items : List (PyValue F)) : frozen (.list items) = .tuple (items.map frozen) := fold_list _ items

@[simp]
theorem frozen_tuple (items : List (PyValue F)) : frozen (.tuple items) = .tuple (items.map frozen) := fold_tuple _ items

@[simp]
theorem frozen_dict (entries : List (Scalar F × PyValue F)) :
    frozen (.dict entries) = .proxy (entries.map fun entry => (entry.1, frozen entry.2)) := fold_dict _ entries

theorem equalItems_map {α : Type} (f : α → PyValue F → Bool) (g : α → PyValue F) (values : List α) :
    equalItems (values.map f) (values.map g) = values.all fun v => f v (g v) := by
  induction values with
  | nil => rfl
  | cons v rest ih => rw [map_cons, map_cons, equalItems, ih, all_cons]

theorem find?_key {α : Type} {entries : List (Scalar F × α)} {g : Scalar F × α → PyValue F} (keys : (entries.map Prod.fst).Nodup)
    (texts : ∀ entry ∈ entries, ∃ t, entry.1 = .text t) {entry : Scalar F × α} (mem : entry ∈ entries) :
    (entries.map fun entry => (entry.1, g entry)).find? (fun other => numbers.scalarEqual entry.1 other.1) =
      some (entry.1, g entry) := by
  have only : ∀ other ∈ entries, numbers.scalarEqual entry.1 other.1 = true → other = entry := by
    intro other isOther same
    obtain ⟨t, isText⟩ := texts entry mem
    obtain ⟨u, isOtherText⟩ := texts other isOther
    rw [isText, isOtherText] at same
    simp [Numbers.scalarEqual] at same
    exact inj_on_of_nodup_map keys isOther mem (by rw [isText, isOtherText, same])
  have itself : numbers.scalarEqual entry.1 entry.1 = true := by
    obtain ⟨t, isText⟩ := texts entry mem
    rw [isText]
    simp [Numbers.scalarEqual]
  rw [find?_map]
  cases found : entries.find? ((fun other : Scalar F × PyValue F => numbers.scalarEqual entry.1 other.1) ∘
      fun entry => (entry.1, g entry)) with
  | none => exact absurd itself (find?_eq_none.mp found entry mem)
  | some other =>
    have same : numbers.scalarEqual entry.1 other.1 = true := by
      have holds := find?_some found
      exact holds
    rw [only other (mem_of_find?_eq_some found) same]
    rfl

theorem equalEntries_of_perm {α : Type} {entries : List (Scalar F × α)} {f : Scalar F × α → PyValue F → Bool}
    {g : Scalar F × α → PyValue F} {parts : List (Scalar F × (PyValue F → Bool))}
    (perm : parts.Perm (entries.map fun entry => (entry.1, f entry))) (keys : (entries.map Prod.fst).Nodup)
    (texts : ∀ entry ∈ entries, ∃ t, entry.1 = .text t) :
    equalEntries numbers parts (entries.map fun entry => (entry.1, g entry)) = entries.all fun entry => f entry (g entry) := by
  unfold equalEntries
  rw [perm.length_eq, length_map, length_map, decide_eq_true rfl, Bool.true_and, perm.all_eq, all_map,
    Bool.eq_iff_iff, all_eq_true, all_eq_true]
  refine forall₂_congr fun entry mem => ?_
  rw [Function.comp_apply, find?_key numbers keys texts mem, Option.any_some]

/-- Every mapping of a value has each of its keys once. -/
def Distinct : PyValue F → Prop := fold
  { scalar := fun _ => True
    list := fun parts => ∀ part ∈ parts, part
    tuple := fun parts => ∀ part ∈ parts, part
    dict := fun parts => (parts.map Prod.fst).Nodup ∧ ∀ part ∈ parts, part.2
    proxy := fun parts => (parts.map Prod.fst).Nodup ∧ ∀ part ∈ parts, part.2 }

section Distinct

variable {items : List (PyValue F)} {entries : List (Scalar F × PyValue F)}

theorem distinct_scalar (s : Scalar F) : Distinct (.scalar s) := by
  unfold Distinct
  rw [fold_scalar]
  trivial

theorem distinct_list : Distinct (.list items) ↔ ∀ v ∈ items, v.Distinct := by
  unfold Distinct
  rw [fold_list]
  exact forall_mem_map

theorem distinct_tuple : Distinct (.tuple items) ↔ ∀ v ∈ items, v.Distinct := by
  unfold Distinct
  rw [fold_tuple]
  exact forall_mem_map

theorem distinct_dict : Distinct (.dict entries) ↔ (entries.map Prod.fst).Nodup ∧ ∀ entry ∈ entries, entry.2.Distinct := by
  unfold Distinct
  rw [fold_dict]
  dsimp only
  rw [map_map, forall_mem_map]
  rfl

theorem distinct_proxy : Distinct (.proxy entries) ↔ (entries.map Prod.fst).Nodup ∧ ∀ entry ∈ entries, entry.2.Distinct := by
  unfold Distinct
  rw [fold_proxy]
  dsimp only
  rw [map_map, forall_mem_map]
  rfl

end Distinct

theorem all_and {scalar scalar' key key' : Scalar F → Bool} {tuples : Bool} {v : PyValue F}
    (first : v.all scalar key tuples = true) (second : v.all scalar' key' tuples = true) :
    v.all (fun s => scalar s && scalar' s) (fun s => key s && key' s) tuples = true := by
  induction v using PyValue.inductOn with
  | scalar s =>
    rw [all_scalar] at first second ⊢
    rw [first, second, Bool.true_and]
  | list items each =>
    rw [all_list, all_eq_true] at first second ⊢
    exact fun item mem => each item mem (first item mem) (second item mem)
  | tuple items each =>
    rw [all_tuple, Bool.and_eq_true, all_eq_true] at first second ⊢
    exact ⟨first.1, fun item mem => each item mem (first.2 item mem) (second.2 item mem)⟩
  | dict entries each =>
    rw [all_dict, all_eq_true] at first second ⊢
    intro entry mem
    obtain ⟨isKey, isValue⟩ := Bool.and_eq_true_iff.mp (first entry mem)
    obtain ⟨isKey', isValue'⟩ := Bool.and_eq_true_iff.mp (second entry mem)
    rw [isKey, isKey', each entry mem isValue isValue']
    rfl
  | proxy entries _ =>
    rw [all_proxy] at first
    cases first

theorem depth_plain (v : PyValue F) : v.plain.depth = v.depth := by
  have deepest : ∀ {depths depths' : List ℕ}, depths = depths' → depths.foldr max 0 + 1 = depths'.foldr max 0 + 1 :=
    fun same => congrArg (fun depths : List ℕ => depths.foldr max 0 + 1) same
  induction v using PyValue.inductOn with
  | scalar s => rw [plain_scalar]
  | list items each =>
    rw [plain_list, depth_list, depth_list, map_map]
    exact deepest (map_congr_left each)
  | tuple items each =>
    rw [plain_tuple, depth_list, depth_tuple, map_map]
    exact deepest (map_congr_left each)
  | dict entries each =>
    rw [plain_dict, depth_dict, depth_dict, map_map]
    exact deepest (map_congr_left each)
  | proxy entries each =>
    rw [plain_proxy, depth_dict, depth_proxy, map_map]
    exact deepest (map_congr_left each)

theorem plain_eq_self {scalar key : Scalar F → Bool} {v : PyValue F} (all : v.all scalar key false = true) : v.plain = v := by
  induction v using PyValue.inductOn with
  | scalar s => rw [plain_scalar]
  | list items each =>
    rw [all_list, all_eq_true] at all
    have same := map_congr_left fun item mem => each item mem (all item mem)
    rw [plain_list, same, map_id']
  | tuple items _ =>
    rw [all_tuple, Bool.false_and] at all
    cases all
  | dict entries each =>
    rw [all_dict, all_eq_true] at all
    have same : entries.map (fun entry => (entry.1, entry.2.plain)) = entries.map fun entry => entry :=
      map_congr_left fun entry mem =>
        congrArg (Prod.mk entry.1) (each entry mem (Bool.and_eq_true_iff.mp (all entry mem)).2)
    rw [plain_dict, same, map_id']
  | proxy entries _ =>
    rw [all_proxy] at all
    cases all

theorem plain_all (v : PyValue F) : v.plain.all (fun _ => true) (fun _ => true) true = true := by
  induction v using PyValue.inductOn with
  | scalar s => rw [plain_scalar, all_scalar]
  | list items each =>
    rw [plain_list, all_list, all_map, all_eq_true]
    exact each
  | tuple items each =>
    rw [plain_tuple, all_list, all_map, all_eq_true]
    exact each
  | dict entries each =>
    rw [plain_dict, all_dict, all_map, all_eq_true]
    exact fun entry mem => Bool.and_eq_true_iff.mpr ⟨rfl, each entry mem⟩
  | proxy entries each =>
    rw [plain_proxy, all_dict, all_map, all_eq_true]
    exact fun entry mem => Bool.and_eq_true_iff.mpr ⟨rfl, each entry mem⟩

theorem Distinct.plain {v : PyValue F} (distinct : v.Distinct) : v.plain.Distinct := by
  induction v using PyValue.inductOn with
  | scalar s => exact distinct_scalar s
  | list items each =>
    rw [plain_list, distinct_list, forall_mem_map]
    exact fun item mem => each item mem (distinct_list.mp distinct item mem)
  | tuple items each =>
    rw [plain_tuple, distinct_list, forall_mem_map]
    exact fun item mem => each item mem (distinct_tuple.mp distinct item mem)
  | dict entries each =>
    obtain ⟨keys, parts⟩ := distinct_dict.mp distinct
    rw [plain_dict, distinct_dict, map_map, forall_mem_map]
    exact ⟨keys, fun entry mem => each entry mem (parts entry mem)⟩
  | proxy entries each =>
    obtain ⟨keys, parts⟩ := distinct_proxy.mp distinct
    rw [plain_proxy, distinct_dict, map_map, forall_mem_map]
    exact ⟨keys, fun entry mem => each entry mem (parts entry mem)⟩

end PyValue

/-- Every mapping of a graph has each of its keys once. -/
def DistinctKeys {R : Type} (heap : Heap R F) : Prop :=
  ∀ ref entries, heap ref = .dict entries → (entries.map Prod.fst).Nodup

theorem Holds.inv {R : Type} {heap : Heap R F} {ref : R} {v : PyValue F} (holds : Holds heap ref v) :
    (∃ s, heap ref = .scalar s ∧ v = .scalar s) ∨
    (∃ parts items, heap ref = .list parts ∧ v = .list items ∧ List.Forall₂ (Holds heap) parts items) ∨
    (∃ parts items, heap ref = .tuple parts ∧ v = .tuple items ∧ List.Forall₂ (Holds heap) parts items) ∨
    ∃ parts entries, heap ref = .dict parts ∧ v = .dict entries ∧
      List.Forall₂ (fun part entry => Holds heap part.2 entry.2 ∧ entry.1 = part.1) parts entries := by
  cases here : heap ref with
  | scalar s => exact .inl ⟨s, rfl, (holds_scalar here).mp holds⟩
  | list parts =>
    obtain ⟨items, all, same⟩ := holds.list here
    exact .inr (.inl ⟨parts, items, rfl, same.symm, all⟩)
  | tuple parts =>
    obtain ⟨items, all, same⟩ := holds.tuple here
    exact .inr (.inr (.inl ⟨parts, items, rfl, same.symm, all⟩))
  | dict parts =>
    obtain ⟨entries, all, same⟩ := holds.dict here
    exact .inr (.inr (.inr ⟨parts, entries, rfl, same.symm, all⟩))

theorem DistinctKeys.holds {R : Type} {heap : Heap R F} (keys : DistinctKeys heap) {ref : R} {v : PyValue F}
    (holds : Holds heap ref v) : v.Distinct := by
  induction v using PyValue.inductOn generalizing ref with
  | scalar s => exact PyValue.distinct_scalar s
  | list items each =>
    rcases holds.inv with ⟨s, -, same⟩ | ⟨parts, _, -, same, all⟩ | ⟨parts, _, -, same, -⟩ | ⟨parts, _, -, same, -⟩ <;> cases same
    refine PyValue.distinct_list.mpr fun item mem => ?_
    obtain ⟨part, -, isHeld⟩ := exists_of_forall₂ all mem
    exact each item mem isHeld
  | tuple items each =>
    rcases holds.inv with ⟨s, -, same⟩ | ⟨parts, _, -, same, -⟩ | ⟨parts, _, -, same, all⟩ | ⟨parts, _, -, same, -⟩ <;> cases same
    refine PyValue.distinct_tuple.mpr fun item mem => ?_
    obtain ⟨part, -, isHeld⟩ := exists_of_forall₂ all mem
    exact each item mem isHeld
  | dict entries each =>
    rcases holds.inv with ⟨s, -, same⟩ | ⟨parts, _, -, same, -⟩ | ⟨parts, _, -, same, -⟩ | ⟨parts, _, here, same, all⟩ <;> cases same
    have sameKeys : parts.map Prod.fst = entries.map Prod.fst := by
      refine forall₂_eq_eq_eq ▸ forall₂_map_left_iff.mpr (forall₂_map_right_iff.mpr ?_)
      exact all.imp fun _ _ both => both.2.symm
    refine PyValue.distinct_dict.mpr ⟨sameKeys ▸ keys ref parts here, fun entry mem => ?_⟩
    obtain ⟨part, -, isHeld, -⟩ := exists_of_forall₂ all mem
    exact each entry mem isHeld
  | proxy entries _ =>
    rcases holds.inv with ⟨s, -, same⟩ | ⟨parts, _, -, same, -⟩ | ⟨parts, _, -, same, -⟩ | ⟨parts, _, -, same, -⟩ <;> cases same

/-- Values as references to themselves: what was just read shares nothing. -/
def itself : Heap (PyValue F) F
  | .scalar s => .scalar s
  | .list items => .list items
  | .tuple items => .tuple items
  | .dict entries => .dict entries
  | .proxy _ => .scalar .other

theorem unfold_itself {scalar key : Scalar F → Bool} {tuples : Bool} {v : PyValue F} (all : v.all scalar key tuples = true) :
    unfold itself v.depth v = some v := by
  have deepest : ∀ (sizes : List ℕ), ∀ size ∈ sizes, size ≤ sizes.foldr max 0 := fun sizes => foldr_max_le.mp le_rfl
  induction v using PyValue.inductOn with
  | scalar s =>
    have here : itself (.scalar s) = .scalar s := rfl
    exact (unfold_scalar here).mpr rfl
  | list items each =>
    rw [PyValue.all_list, all_eq_true] at all
    rw [PyValue.depth_list, unfold_list rfl]
    refine ⟨items, forall₂_same.mpr fun item mem => ?_, rfl⟩
    exact unfold_enough (each item mem (all item mem)) (deepest _ _ (mem_map_of_mem mem))
  | tuple items each =>
    rw [PyValue.all_tuple, Bool.and_eq_true, all_eq_true] at all
    rw [PyValue.depth_tuple, unfold_tuple rfl]
    refine ⟨items, forall₂_same.mpr fun item mem => ?_, rfl⟩
    exact unfold_enough (each item mem (all.2 item mem)) (deepest _ _ (mem_map_of_mem mem))
  | dict entries each =>
    rw [PyValue.all_dict, all_eq_true] at all
    rw [PyValue.depth_dict, unfold_dict rfl]
    refine ⟨entries, forall₂_same.mpr fun entry mem => unfoldEntry_eq_some.mpr ⟨?_, rfl⟩, rfl⟩
    have isAll := (Bool.and_eq_true_iff.mp (all entry mem)).2
    exact unfold_enough (each entry mem isAll) (deepest _ _ (mem_map_of_mem (f := fun entry => entry.2.depth) mem))
  | proxy entries _ =>
    rw [PyValue.all_proxy] at all
    cases all

theorem holds_itself {scalar key : Scalar F → Bool} {tuples : Bool} {v w : PyValue F} (all : v.all scalar key tuples = true) :
    Holds itself v w ↔ w = v := by
  have holds : Holds itself v v := ⟨v.depth, unfold_itself all⟩
  exact ⟨fun other => other.unique holds, fun same => same ▸ holds⟩

/-! ### A column -/

variable (F) in
structure Jsonb extends Numbers F where
  order : List (Scalar F × PyValue F) → List (Scalar F × PyValue F)
  perm : ∀ entries, (order entries).Perm entries

namespace Jsonb

variable (jsonb : Jsonb F)

def readBack : Scalar F → Scalar F
  | .float x =>
    if (jsonb.decimal x).scale = 0 then .integer (jsonb.decimal x).unscaled else .float (jsonb.read (jsonb.decimal x))
  | s => s

/-- A value as it comes back; a mapping that is no `dict` is not written at all. -/
def stored : PyValue F → PyValue F := PyValue.fold
  { scalar := fun s => .scalar (jsonb.readBack s)
    list := .list
    tuple := .list
    dict := fun entries => .dict (jsonb.order entries)
    proxy := .proxy }

@[simp]
theorem stored_scalar (s : Scalar F) : jsonb.stored (.scalar s) = .scalar (jsonb.readBack s) := PyValue.fold_scalar _ s

@[simp]
theorem stored_list (items : List (PyValue F)) : jsonb.stored (.list items) = .list (items.map jsonb.stored) :=
  PyValue.fold_list _ items

@[simp]
theorem stored_tuple (items : List (PyValue F)) : jsonb.stored (.tuple items) = .list (items.map jsonb.stored) :=
  PyValue.fold_tuple _ items

@[simp]
theorem stored_proxy (entries : List (Scalar F × PyValue F)) : jsonb.stored (.proxy entries) =
    .proxy (entries.map fun entry => (entry.1, jsonb.stored entry.2)) := PyValue.fold_proxy _ entries

@[simp]
theorem stored_dict (entries : List (Scalar F × PyValue F)) : jsonb.stored (.dict entries) =
    .dict (jsonb.order (entries.map fun entry => (entry.1, jsonb.stored entry.2))) := PyValue.fold_dict _ entries

def exact : Scalar F → Bool
  | .float x => decide ((jsonb.decimal x).scale ≠ 0) || decide (jsonb.value x = (jsonb.decimal x).unscaled)
  | _ => true

section Stored

variable {jsonb} {v : PyValue F}

theorem all_stored (scalar key : Scalar F → Bool) (v : PyValue F) :
    (jsonb.stored v).all scalar key true = v.all (fun s => scalar (jsonb.readBack s)) key true := by
  have items : ∀ values : List (PyValue F),
      (∀ v ∈ values, (jsonb.stored v).all scalar key true = v.all (fun s => scalar (jsonb.readBack s)) key true) →
      (values.map jsonb.stored).all (PyValue.all scalar key true) =
        values.all (PyValue.all (fun s => scalar (jsonb.readBack s)) key true) := by
    intro values each
    rw [all_map, Bool.eq_iff_iff, all_eq_true, all_eq_true]
    exact forall₂_congr fun v mem => Bool.eq_iff_iff.mp (each v mem)
  induction v using PyValue.inductOn with
  | scalar s => rw [stored_scalar, PyValue.all_scalar, PyValue.all_scalar]
  | list values each => rw [stored_list, PyValue.all_list, PyValue.all_list, items values each]
  | tuple values each =>
    rw [stored_tuple, PyValue.all_list, PyValue.all_tuple, Bool.true_and, items values each]
  | dict entries each =>
    rw [stored_dict, PyValue.all_dict, PyValue.all_dict, (jsonb.perm _).all_eq, all_map, Bool.eq_iff_iff,
      all_eq_true, all_eq_true]
    refine forall₂_congr fun entry mem => ?_
    rw [Function.comp_apply, each entry mem]
  | proxy entries _ => rw [stored_proxy, PyValue.all_proxy, PyValue.all_proxy]

theorem depth_stored (v : PyValue F) : (jsonb.stored v).depth = v.depth := by
  have items : ∀ values : List (PyValue F), (∀ v ∈ values, (jsonb.stored v).depth = v.depth) →
      ((values.map jsonb.stored).map PyValue.depth) = values.map PyValue.depth := by
    intro values each
    rw [map_map]
    exact map_congr_left each
  induction v using PyValue.inductOn with
  | scalar s => rw [stored_scalar, PyValue.depth_scalar, PyValue.depth_scalar]
  | list values each => rw [stored_list, PyValue.depth_list, PyValue.depth_list, items values each]
  | tuple values each => rw [stored_tuple, PyValue.depth_list, PyValue.depth_tuple, items values each]
  | dict entries each =>
    have sameDepths : (entries.map fun entry => (entry.1, jsonb.stored entry.2)).map (fun entry => entry.2.depth) =
        entries.map fun entry => entry.2.depth := by
      rw [map_map]
      exact map_congr_left each
    rw [stored_dict, PyValue.depth_dict, PyValue.depth_dict, ((jsonb.perm _).map _).foldr_eq, sameDepths]
  | proxy entries each =>
    rw [stored_proxy, PyValue.depth_proxy, PyValue.depth_proxy, map_map]
    exact congrArg (fun depths : List ℕ => depths.foldr max 0 + 1) (map_congr_left each)

theorem stored_all {scalar key : Scalar F → Bool} (all : v.all scalar key true = true) :
    (jsonb.stored v).all (fun _ => true) (fun _ => true) false = true := by
  induction v using PyValue.inductOn with
  | scalar s => rw [stored_scalar, PyValue.all_scalar]
  | list values each =>
    rw [PyValue.all_list, all_eq_true] at all
    rw [stored_list, PyValue.all_list, all_map, all_eq_true]
    exact fun v mem => each v mem (all v mem)
  | tuple values each =>
    rw [PyValue.all_tuple, Bool.true_and, all_eq_true] at all
    rw [stored_tuple, PyValue.all_list, all_map, all_eq_true]
    exact fun v mem => each v mem (all v mem)
  | dict entries each =>
    rw [PyValue.all_dict, all_eq_true] at all
    rw [stored_dict, PyValue.all_dict, (jsonb.perm _).all_eq, all_map, all_eq_true]
    intro entry mem
    exact Bool.and_eq_true_iff.mpr ⟨rfl, each entry mem (Bool.and_eq_true_iff.mp (all entry mem)).2⟩
  | proxy entries _ =>
    rw [PyValue.all_proxy] at all
    cases all

end Stored

/-! ### What comes back equal -/

section Equal

variable {jsonb} {v : PyValue F}

theorem scalarEqual_readBack {s : Scalar F} (fit : ∀ x, s = .float x → jsonb.finite x = true) (known : s ≠ .other) :
    jsonb.scalarEqual (jsonb.readBack s) s = jsonb.exact s := by
  cases s with
  | none => rfl
  | boolean | integer => simp [Numbers.scalarEqual, readBack, Numbers.numberOf, exact]
  | float x =>
    unfold readBack exact
    by_cases whole : (jsonb.decimal x).scale = 0
    · simp [whole, Numbers.scalarEqual, Numbers.numberOf, eq_comm]
    · simp [whole, Numbers.scalarEqual, Numbers.numberOf, jsonb.value_read (fit x rfl) whole]
  | text t => simp [Numbers.scalarEqual, readBack, exact]
  | other => exact absurd rfl known

/-- **A value comes back equal exactly where each of its floats is spelt exactly.** -/
theorem equal_frozen_stored {scalar : Scalar F → Bool} {key : Scalar F → Bool} (isPlain : v.all scalar key true = true)
    (fit : ∀ s, scalar s = true → s ≠ .other ∧ ∀ x, s = .float x → jsonb.finite x = true)
    (texts : ∀ s, key s = true → ∃ t, s = .text t) (distinct : v.Distinct) :
    PyValue.equal jsonb.toNumbers (jsonb.stored v).frozen v.frozen = v.all jsonb.exact (fun _ => true) true := by
  have items : ∀ values : List (PyValue F), (∀ v ∈ values, PyValue.equal jsonb.toNumbers (jsonb.stored v).frozen v.frozen =
      v.all jsonb.exact (fun _ => true) true) → PyValue.equal jsonb.toNumbers (.tuple ((values.map jsonb.stored).map .frozen))
        (.tuple (values.map .frozen)) = values.all (PyValue.all jsonb.exact (fun _ => true) true) := by
    intro values each
    rw [PyValue.equal_tuple, map_map, map_map, PyValue.equalItems_map, Bool.eq_iff_iff, all_eq_true,
      all_eq_true]
    refine forall₂_congr fun v mem => ?_
    rw [← each v mem]
    rfl
  induction v using PyValue.inductOn with
  | scalar s =>
    rw [PyValue.all_scalar] at isPlain
    rw [stored_scalar, PyValue.frozen_scalar, PyValue.frozen_scalar, PyValue.equal_scalar, PyValue.all_scalar,
      scalarEqual_readBack (fit s isPlain).2 (fit s isPlain).1]
  | list values each =>
    rw [PyValue.all_list, all_eq_true] at isPlain
    have parts := PyValue.distinct_list.mp distinct
    rw [stored_list, PyValue.frozen_list, PyValue.frozen_list, PyValue.all_list,
      items values fun v mem => each v mem (isPlain v mem) (parts v mem)]
  | tuple values each =>
    rw [PyValue.all_tuple, Bool.true_and, all_eq_true] at isPlain
    have parts := PyValue.distinct_tuple.mp distinct
    rw [stored_tuple, PyValue.frozen_list, PyValue.frozen_tuple, PyValue.all_tuple, Bool.true_and,
      items values fun v mem => each v mem (isPlain v mem) (parts v mem)]
  | dict entries each =>
    rw [PyValue.all_dict, all_eq_true] at isPlain
    obtain ⟨keys, parts⟩ := PyValue.distinct_dict.mp distinct
    have perm : (((jsonb.order (entries.map fun entry => (entry.1, jsonb.stored entry.2))).map fun entry =>
        (entry.1, entry.2.frozen)).map fun part => (part.1, PyValue.equal jsonb.toNumbers part.2)).Perm
        (entries.map fun entry => (entry.1, PyValue.equal jsonb.toNumbers (jsonb.stored entry.2).frozen)) := by
      have all := ((jsonb.perm (entries.map fun entry => (entry.1, jsonb.stored entry.2))).map
        fun entry => (entry.1, entry.2.frozen)).map fun part => (part.1, PyValue.equal jsonb.toNumbers part.2)
      simp only [map_map, Function.comp_def] at all ⊢
      exact all
    have named : ∀ entry ∈ entries, ∃ t, entry.1 = .text t := fun entry mem =>
      texts _ (Bool.and_eq_true_iff.mp (isPlain entry mem)).1
    rw [stored_dict, PyValue.frozen_dict, PyValue.frozen_dict, PyValue.equal_proxy, PyValue.all_dict,
      PyValue.equalEntries_of_perm _ perm keys named, Bool.eq_iff_iff, all_eq_true, all_eq_true]
    refine forall₂_congr fun entry mem => ?_
    rw [Bool.true_and, each entry mem (Bool.and_eq_true_iff.mp (isPlain entry mem)).2 (parts entry mem)]
  | proxy entries _ =>
    rw [PyValue.all_proxy] at isPlain
    cases isPlain

end Equal

end Jsonb

end PawBackend.Lib
