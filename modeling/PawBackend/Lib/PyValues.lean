/-
**Python values that are shaped like JSON**, and the object graphs they are read from.

`PyValue` is a value as a finite tree; `PyValue.fold` is its one recursion, with one equation for each kind of
container, and `PyValue.inductOn` its induction.
-/

import Mathlib.Data.Nat.Digits.Lemmas
import PawBackend.Lib.JsonText

namespace PawBackend.Lib

open Text

/-! ### Values -/

/-- What is not a container; `other` is anything that is none of the rest. -/
inductive Scalar (F : Type)
  | none
  | boolean (b : Bool)
  | integer (n : ℤ)
  | float (x : F)
  | text (t : Text)
  | other
  deriving DecidableEq

/-- A value as a tree. A mapping is the list of its entries in order, its keys being distinct; `proxy` is a
`MappingProxyType`. -/
inductive PyValue (F : Type)
  | scalar (s : Scalar F)
  | list (items : List (PyValue F))
  | tuple (items : List (PyValue F))
  | dict (entries : List (Scalar F × PyValue F))
  | proxy (entries : List (Scalar F × PyValue F))

/-- What is made of each kind of value, given what was made of its parts. -/
structure Algebra (F α : Type) where
  scalar : Scalar F → α
  list : List α → α
  tuple : List α → α
  dict : List (Scalar F × α) → α
  proxy : List (Scalar F × α) → α

namespace PyValue

variable {F α : Type}

mutual

def fold (alg : Algebra F α) : PyValue F → α
  | .scalar s => alg.scalar s
  | .list items => alg.list (foldItems alg items)
  | .tuple items => alg.tuple (foldItems alg items)
  | .dict entries => alg.dict (foldEntries alg entries)
  | .proxy entries => alg.proxy (foldEntries alg entries)

def foldItems (alg : Algebra F α) : List (PyValue F) → List α
  | [] => []
  | v :: rest => fold alg v :: foldItems alg rest

def foldEntries (alg : Algebra F α) : List (Scalar F × PyValue F) → List (Scalar F × α)
  | [] => []
  | (key, v) :: rest => (key, fold alg v) :: foldEntries alg rest

end

variable (alg : Algebra F α)

theorem foldItems_eq (items : List (PyValue F)) : foldItems alg items = items.map (fold alg) := by
  induction items with
  | nil => rw [foldItems, List.map_nil]
  | cons v rest ih => rw [foldItems, ih, List.map_cons]

theorem foldEntries_eq (entries : List (Scalar F × PyValue F)) :
    foldEntries alg entries = entries.map fun entry => (entry.1, fold alg entry.2) := by
  induction entries with
  | nil => rw [foldEntries, List.map_nil]
  | cons entry rest ih =>
    obtain ⟨key, v⟩ := entry
    rw [foldEntries, ih, List.map_cons]

@[simp]
theorem fold_scalar (s : Scalar F) : fold alg (.scalar s) = alg.scalar s := rfl

@[simp]
theorem fold_list (items : List (PyValue F)) : fold alg (.list items) = alg.list (items.map (fold alg)) :=
  congrArg alg.list (foldItems_eq alg items)

@[simp]
theorem fold_tuple (items : List (PyValue F)) : fold alg (.tuple items) = alg.tuple (items.map (fold alg)) :=
  congrArg alg.tuple (foldItems_eq alg items)

@[simp]
theorem fold_dict (entries : List (Scalar F × PyValue F)) :
    fold alg (.dict entries) = alg.dict (entries.map fun entry => (entry.1, fold alg entry.2)) :=
  congrArg alg.dict (foldEntries_eq alg entries)

@[simp]
theorem fold_proxy (entries : List (Scalar F × PyValue F)) :
    fold alg (.proxy entries) = alg.proxy (entries.map fun entry => (entry.1, fold alg entry.2)) :=
  congrArg alg.proxy (foldEntries_eq alg entries)

theorem inductOn {P : PyValue F → Prop} (scalar : ∀ s, P (.scalar s))
    (list : ∀ items, (∀ v ∈ items, P v) → P (.list items)) (tuple : ∀ items, (∀ v ∈ items, P v) → P (.tuple items))
    (dict : ∀ entries, (∀ entry ∈ entries, P entry.2) → P (.dict entries))
    (proxy : ∀ entries, (∀ entry ∈ entries, P entry.2) → P (.proxy entries)) (v : PyValue F) : P v :=
  @PyValue.rec F P (fun items => ∀ v ∈ items, P v) (fun entries => ∀ entry ∈ entries, P entry.2) (fun entry => P entry.2)
    scalar list tuple dict proxy nofun
    (fun _ _ first others _ mem => (List.mem_cons.mp mem).elim (fun same => same ▸ first) (others _))
    nofun
    (fun _ _ first others _ mem => (List.mem_cons.mp mem).elim (fun same => same ▸ first) (others _))
    (fun _ _ known => known) v

/-- How many containers deep a value is. -/
def depth : PyValue F → ℕ := fold
  { scalar := fun _ => 0
    list := fun items => items.foldr max 0 + 1
    tuple := fun items => items.foldr max 0 + 1
    dict := fun entries => (entries.map Prod.snd).foldr max 0 + 1
    proxy := fun entries => (entries.map Prod.snd).foldr max 0 + 1 }

/-- A fresh copy: every sequence is a list, and every mapping a `dict`. -/
def plain : PyValue F → PyValue F := fold ⟨.scalar, .list, .list, .dict, .dict⟩

@[simp]
theorem plain_scalar (s : Scalar F) : plain (.scalar s) = .scalar s := fold_scalar _ s

@[simp]
theorem plain_list (items : List (PyValue F)) : plain (.list items) = .list (items.map plain) := fold_list _ items

@[simp]
theorem plain_tuple (items : List (PyValue F)) : plain (.tuple items) = .list (items.map plain) := fold_tuple _ items

@[simp]
theorem plain_dict (entries : List (Scalar F × PyValue F)) :
    plain (.dict entries) = .dict (entries.map fun entry => (entry.1, plain entry.2)) := fold_dict _ entries

@[simp]
theorem plain_proxy (entries : List (Scalar F × PyValue F)) :
    plain (.proxy entries) = .dict (entries.map fun entry => (entry.1, plain entry.2)) := fold_proxy _ entries

theorem plain_plain (v : PyValue F) : plain (plain v) = plain v := by
  induction v using PyValue.inductOn with
  | scalar s => rw [plain_scalar, plain_scalar]
  | list items each =>
    rw [plain_list, plain_list, List.map_map]
    exact congrArg PyValue.list (List.map_congr_left each)
  | tuple items each =>
    rw [plain_tuple, plain_list, List.map_map]
    exact congrArg PyValue.list (List.map_congr_left each)
  | dict entries each =>
    rw [plain_dict, plain_dict, List.map_map]
    exact congrArg PyValue.dict (List.map_congr_left fun entry mem => congrArg (Prod.mk entry.1) (each entry mem))
  | proxy entries each =>
    rw [plain_proxy, plain_dict, List.map_map]
    exact congrArg PyValue.dict (List.map_congr_left fun entry mem => congrArg (Prod.mk entry.1) (each entry mem))

@[simp]
theorem depth_scalar (s : Scalar F) : depth (.scalar s) = 0 := fold_scalar _ s

@[simp]
theorem depth_list (items : List (PyValue F)) : depth (.list items) = (items.map depth).foldr max 0 + 1 :=
  fold_list _ items

@[simp]
theorem depth_tuple (items : List (PyValue F)) : depth (.tuple items) = (items.map depth).foldr max 0 + 1 :=
  fold_tuple _ items

@[simp]
theorem depth_dict (entries : List (Scalar F × PyValue F)) :
    depth (.dict entries) = (entries.map fun entry => depth entry.2).foldr max 0 + 1 := by
  refine (fold_dict _ entries).trans ?_
  dsimp only
  rw [List.map_map]
  rfl

@[simp]
theorem depth_proxy (entries : List (Scalar F × PyValue F)) :
    depth (.proxy entries) = (entries.map fun entry => depth entry.2).foldr max 0 + 1 := by
  refine (fold_proxy _ entries).trans ?_
  dsimp only
  rw [List.map_map]
  rfl

def all (scalar key : Scalar F → Bool) (tuples : Bool) : PyValue F → Bool := fold
  { scalar := scalar
    list := fun items => items.all id
    tuple := fun items => tuples && items.all id
    dict := fun entries => entries.all fun entry => key entry.1 && entry.2
    proxy := fun _ => false }

section All

variable (scalar key : Scalar F → Bool) (tuples : Bool)

@[simp]
theorem all_scalar (s : Scalar F) : all scalar key tuples (.scalar s) = scalar s := fold_scalar _ s

@[simp]
theorem all_list (items : List (PyValue F)) :
    all scalar key tuples (.list items) = items.all (all scalar key tuples) := by
  refine (fold_list _ items).trans ?_
  exact List.all_map

@[simp]
theorem all_tuple (items : List (PyValue F)) :
    all scalar key tuples (.tuple items) = (tuples && items.all (all scalar key tuples)) := by
  refine (fold_tuple _ items).trans ?_
  dsimp only
  rw [List.all_map]
  rfl

@[simp]
theorem all_dict (entries : List (Scalar F × PyValue F)) : all scalar key tuples (.dict entries) =
    entries.all fun entry => key entry.1 && all scalar key tuples entry.2 := by
  refine (fold_dict _ entries).trans ?_
  exact List.all_map

@[simp]
theorem all_proxy (entries : List (Scalar F × PyValue F)) : all scalar key tuples (.proxy entries) = false :=
  fold_proxy _ entries

end All

theorem all_imp {scalar scalar' key key' : Scalar F → Bool} {tuples tuples' : Bool} {v : PyValue F}
    (all : v.all scalar key tuples = true) (scalars : ∀ s, scalar s = true → scalar' s = true)
    (keys : ∀ s, key s = true → key' s = true) (seqs : tuples = true → tuples' = true) :
    v.all scalar' key' tuples' = true := by
  induction v using PyValue.inductOn with
  | scalar s =>
    rw [all_scalar] at all ⊢
    exact scalars s all
  | list items each =>
    rw [all_list, List.all_eq_true] at all ⊢
    exact fun item mem => each item mem (all item mem)
  | tuple items each =>
    rw [all_tuple, Bool.and_eq_true, List.all_eq_true] at all ⊢
    exact ⟨seqs all.1, fun item mem => each item mem (all.2 item mem)⟩
  | dict entries each =>
    rw [all_dict, List.all_eq_true] at all ⊢
    intro entry mem
    have isAll := Bool.and_eq_true_iff.mp (all entry mem)
    exact Bool.and_eq_true_iff.mpr ⟨keys _ isAll.1, each entry mem isAll.2⟩
  | proxy entries _ =>
    rw [all_proxy] at all
    cases all

end PyValue

theorem foldr_max_le {sizes : List ℕ} {n : ℕ} : sizes.foldr max 0 ≤ n ↔ ∀ size ∈ sizes, size ≤ n := by
  induction sizes with
  | nil => exact iff_of_true (Nat.zero_le n) nofun
  | cons size rest ih => rw [List.foldr_cons, max_le_iff, ih, List.forall_mem_cons]

/-! ### Object graphs -/

/-- An object: a container holds references. -/
inductive PyObject (R F : Type)
  | scalar (s : Scalar F)
  | list (items : List R)
  | tuple (items : List R)
  | dict (entries : List (Scalar F × R))

/-- What each reference stands for. -/
abbrev Heap (R F : Type) := R → PyObject R F

variable {R F : Type}

/-- What a reference holds, at most so many containers deep. -/
def unfold (heap : Heap R F) : ℕ → R → Option (PyValue F)
  | 0, ref =>
    match heap ref with
    | .scalar s => some (.scalar s)
    | _ => none
  | levels + 1, ref =>
    match heap ref with
    | .scalar s => some (.scalar s)
    | .list items => (items.mapM (unfold heap levels)).map .list
    | .tuple items => (items.mapM (unfold heap levels)).map .tuple
    | .dict entries =>
      (entries.mapM fun entry => (unfold heap levels entry.2).map fun v => (entry.1, v)).map .dict

def Holds (heap : Heap R F) (ref : R) (v : PyValue F) : Prop := ∃ levels, unfold heap levels ref = some v

/-! ### The text of a value -/

variable (F) in
/-- What is known of the floats: only what is not finite is written otherwise than by its `repr`. -/
structure Floats where
  finite : F → Bool
  repr : F → Text
  written : F → Text
  written_of_finite : ∀ x, finite x = true → written x = repr x
  ascii : ∀ x, ∀ c ∈ written x, c < 0x80

namespace Json

def naturalText (n : ℕ) : Text := if n = 0 then [48] else ((Nat.digits 10 n).map (48 + ·)).reverse

/-- An `int` in decimal digits. -/
def integerText (n : ℤ) : Text := if n < 0 then 45 :: naturalText n.natAbs else naturalText n.natAbs

theorem naturalText_digits (n : ℕ) : ∀ c ∈ naturalText n, 48 ≤ c ∧ c < 58 := by
  unfold naturalText
  split_ifs
  · simp
  · intro c mem
    obtain ⟨digit, isDigit, rfl⟩ := List.mem_map.mp (List.mem_reverse.mp mem)
    have small := Nat.digits_lt_base (by omega : 1 < 10) isDigit
    omega

theorem integerText_ascii (n : ℤ) : ∀ c ∈ integerText n, 45 ≤ c ∧ c < 58 := by
  unfold integerText
  intro c mem
  split_ifs at mem
  · rcases List.mem_cons.mp mem with rfl | inDigits
    · exact ⟨le_refl _, by omega⟩
    · have isDigit := naturalText_digits _ c inDigits
      omega
  · have isDigit := naturalText_digits _ c mem
    omega

theorem length_naturalText {n k : ℕ} (small : n < 10 ^ (k + 1)) : (naturalText n).length ≤ k + 1 := by
  unfold naturalText
  split_ifs
  · exact Nat.succ_le_succ (Nat.zero_le k)
  · rw [List.length_reverse, List.length_map]
    exact (Nat.digits_length_le_iff (by omega) n).mpr small

/-- `sys.get_int_max_str_digits()`: 0 is no limit, and a limit is never below 640. -/
def DigitLimit := { limit : ℕ // limit = 0 ∨ 640 ≤ limit }

/-- The interpreter turns an integer into text. -/
def DigitLimit.converts (limit : DigitLimit) (n : ℤ) : Bool :=
  limit.1 = 0 || (naturalText n.natAbs).length ≤ limit.1

/-- `str` of an `int`; `none` is `ValueError`. -/
def DigitLimit.str (limit : DigitLimit) (n : ℤ) : Option Text :=
  if limit.converts n then some (integerText n) else none

variable (F) in
/-- How `json.dumps` was asked to write: its strings, what stands between items and behind keys, and which scalars it
does not raise on. -/
structure Encoder where
  floats : Floats F
  string : Text → Text
  separator : Text
  colon : Text
  writes : Scalar F → Bool

/-- The scalars `json.dumps` writes; what is not finite is written unless `allow_nan` is off. -/
def written (floats : Floats F) (limit : DigitLimit) (allowNan : Bool) : Scalar F → Bool
  | .integer n => limit.converts n
  | .float x => allowNan || floats.finite x
  | .other => false
  | _ => true

namespace Encoder

variable (encoder : Encoder F)

def scalarText : Scalar F → Text
  | .none => lit "null"
  | .boolean b => if b then lit "true" else lit "false"
  | .integer n => integerText n
  | .float x => encoder.floats.written x
  | .text t => encoder.string t
  | .other => []

def keyText : Scalar F → Text
  | .text t => encoder.string t
  | s => 34 :: (encoder.scalarText s ++ [34])

def arrayText (items : List Text) : Text := 91 :: (encoder.separator.intercalate items ++ [93])

def entryText (entry : Scalar F × Text) : Text := encoder.keyText entry.1 ++ (encoder.colon ++ entry.2)

def objectText (entries : List (Scalar F × Text)) : Text :=
  123 :: (encoder.separator.intercalate (entries.map encoder.entryText) ++ [125])

def text : PyValue F → Text := PyValue.fold
  { scalar := encoder.scalarText
    list := encoder.arrayText
    tuple := encoder.arrayText
    dict := encoder.objectText
    proxy := fun _ => [] }

@[simp]
theorem text_scalar (s : Scalar F) : encoder.text (.scalar s) = encoder.scalarText s := PyValue.fold_scalar _ s

@[simp]
theorem text_list (items : List (PyValue F)) : encoder.text (.list items) = encoder.arrayText (items.map encoder.text) :=
  PyValue.fold_list _ items

@[simp]
theorem text_tuple (items : List (PyValue F)) :
    encoder.text (.tuple items) = encoder.arrayText (items.map encoder.text) := PyValue.fold_tuple _ items

@[simp]
theorem text_dict (entries : List (Scalar F × PyValue F)) : encoder.text (.dict entries) =
    encoder.objectText (entries.map fun entry => (entry.1, encoder.text entry.2)) := PyValue.fold_dict _ entries

@[simp]
theorem text_proxy (entries : List (Scalar F × PyValue F)) : encoder.text (.proxy entries) = [] :=
  PyValue.fold_proxy _ entries

/-- Nothing in a value makes `json.dumps` raise. -/
def encodable (v : PyValue F) : Bool := v.all encoder.writes encoder.writes true

/-- `json.dumps`; `none` is an exception. -/
def dumps (v : PyValue F) : Option Text := if encoder.encodable v then some (encoder.text v) else none

end Encoder

theorem Encoder.text_plain (encoder : Encoder F) {scalar key : Scalar F → Bool} {tuples : Bool} {v : PyValue F}
    (all : v.all scalar key tuples = true) : encoder.text v.plain = encoder.text v := by
  induction v using PyValue.inductOn with
  | scalar s => rw [PyValue.plain_scalar]
  | list items each =>
    rw [PyValue.all_list, List.all_eq_true] at all
    rw [PyValue.plain_list, text_list, text_list, List.map_map]
    exact congrArg encoder.arrayText (List.map_congr_left fun item mem => each item mem (all item mem))
  | tuple items each =>
    rw [PyValue.all_tuple, Bool.and_eq_true, List.all_eq_true] at all
    rw [PyValue.plain_tuple, text_list, text_tuple, List.map_map]
    exact congrArg encoder.arrayText (List.map_congr_left fun item mem => each item mem (all.2 item mem))
  | dict entries each =>
    rw [PyValue.all_dict, List.all_eq_true] at all
    rw [PyValue.plain_dict, text_dict, text_dict, List.map_map]
    refine congrArg encoder.objectText (List.map_congr_left fun entry mem => ?_)
    exact congrArg (Prod.mk entry.1) (each entry mem (Bool.and_eq_true_iff.mp (all entry mem)).2)
  | proxy entries _ =>
    rw [PyValue.all_proxy] at all
    cases all

/-! ### What a text weighs -/

/-- The weight of a text whose characters weigh `w`. -/
def weight (w : ℕ → ℕ) (t : Text) : ℕ := (t.map w).sum

variable (w : ℕ → ℕ)

theorem weight_cons (c : ℕ) (t : Text) : weight w (c :: t) = w c + weight w t := by
  unfold weight
  rw [List.map_cons, List.sum_cons]

theorem weight_append (t u : Text) : weight w (t ++ u) = weight w t + weight w u := by
  unfold weight
  rw [List.map_append, List.sum_append]

theorem weight_eq_zero {t : Text} : weight w t = 0 ↔ ∀ c ∈ t, w c = 0 := by
  unfold weight
  rw [List.sum_eq_zero_iff_forall_eq_nat, List.forall_mem_map]

theorem weight_flatMap {β : Type} (f : β → Text) (values : List β) :
    weight w (values.flatMap f) = (values.map fun value => weight w (f value)).sum := by
  induction values with
  | nil => rfl
  | cons value rest ih => rw [List.flatMap_cons, weight_append, ih, List.map_cons, List.sum_cons]

theorem weight_of_forall {t : Text} (each : ∀ c ∈ t, w c = 1) : weight w t = t.length := by
  unfold weight
  rw [List.map_congr_left each, List.map_const', List.sum_replicate, Nat.nsmul_eq_mul, Nat.mul_one]

theorem weight_intercalate (separator : Text) (parts : List Text) :
    weight w (separator.intercalate parts) = (parts.map (weight w)).sum + weight w separator * (parts.length - 1) := by
  induction parts with
  | nil => rfl
  | cons first rest ih =>
    by_cases last : rest = []
    · subst last
      rw [List.intercalate_singleton]
      simp
    · have nonempty : 1 ≤ rest.length := List.length_pos_iff.mpr last
      have more : weight w separator * (rest.length - 1) + weight w separator = weight w separator * rest.length := by
        rw [← Nat.mul_succ, Nat.succ_eq_add_one, Nat.sub_add_cancel nonempty]
      rw [List.intercalate_cons_of_ne_nil last, weight_append, weight_append, ih, List.map_cons, List.sum_cons,
        List.length_cons, Nat.add_sub_cancel]
      omega

namespace Encoder

variable (encoder : Encoder F)

def size : PyValue F → ℕ := PyValue.fold
  { scalar := fun s => weight w (encoder.scalarText s)
    list := fun items => w 91 + (items.sum + weight w encoder.separator * (items.length - 1) + w 93)
    tuple := fun items => w 91 + (items.sum + weight w encoder.separator * (items.length - 1) + w 93)
    dict := fun entries => w 123 + ((entries.map fun entry =>
      weight w (encoder.keyText entry.1) + (weight w encoder.colon + entry.2)).sum +
        weight w encoder.separator * (entries.length - 1) + w 125)
    proxy := fun _ => 0 }

@[simp]
theorem size_scalar (s : Scalar F) : encoder.size w (.scalar s) = weight w (encoder.scalarText s) :=
  PyValue.fold_scalar _ s

@[simp]
theorem size_list (items : List (PyValue F)) : encoder.size w (.list items) =
    w 91 + ((items.map (encoder.size w)).sum + weight w encoder.separator * (items.length - 1) + w 93) := by
  refine (PyValue.fold_list _ items).trans ?_
  dsimp only
  rw [List.length_map]
  rfl

@[simp]
theorem size_tuple (items : List (PyValue F)) : encoder.size w (.tuple items) =
    w 91 + ((items.map (encoder.size w)).sum + weight w encoder.separator * (items.length - 1) + w 93) := by
  refine (PyValue.fold_tuple _ items).trans ?_
  dsimp only
  rw [List.length_map]
  rfl

@[simp]
theorem size_dict (entries : List (Scalar F × PyValue F)) : encoder.size w (.dict entries) =
    w 123 + ((entries.map fun entry =>
      weight w (encoder.keyText entry.1) + (weight w encoder.colon + encoder.size w entry.2)).sum +
        weight w encoder.separator * (entries.length - 1) + w 125) := by
  refine (PyValue.fold_dict _ entries).trans ?_
  dsimp only
  rw [List.length_map, List.map_map]
  rfl

@[simp]
theorem size_proxy (entries : List (Scalar F × PyValue F)) : encoder.size w (.proxy entries) = 0 :=
  PyValue.fold_proxy _ entries

theorem weight_arrayText (items : List Text) : weight w (encoder.arrayText items) =
    w 91 + ((items.map (weight w)).sum + weight w encoder.separator * (items.length - 1) + w 93) := by
  unfold arrayText
  rw [weight_cons, weight_append, weight_intercalate, weight_cons]
  rfl

theorem weight_objectText (entries : List (Scalar F × Text)) : weight w (encoder.objectText entries) =
    w 123 + ((entries.map fun entry => weight w (encoder.keyText entry.1) + (weight w encoder.colon + weight w entry.2)).sum +
      weight w encoder.separator * (entries.length - 1) + w 125) := by
  unfold objectText
  rw [weight_cons, weight_append, weight_intercalate, weight_cons, List.map_map, List.length_map]
  have each : weight w ∘ encoder.entryText =
      fun entry => weight w (encoder.keyText entry.1) + (weight w encoder.colon + weight w entry.2) := by
    funext entry
    rw [Function.comp_apply, entryText, weight_append, weight_append]
  rw [each]
  rfl

theorem weight_text (v : PyValue F) : weight w (encoder.text v) = encoder.size w v := by
  have items : ∀ values : List (PyValue F), (∀ v ∈ values, weight w (encoder.text v) = encoder.size w v) →
      weight w (encoder.arrayText (values.map encoder.text)) = w 91 + ((values.map (encoder.size w)).sum +
        weight w encoder.separator * (values.length - 1) + w 93) := by
    intro values each
    have sizes : values.map (weight w ∘ encoder.text) = values.map (encoder.size w) := List.map_congr_left each
    rw [weight_arrayText, List.map_map, List.length_map, sizes]
  induction v using PyValue.inductOn with
  | scalar s => rw [text_scalar, size_scalar]
  | list values each => rw [text_list, size_list, items values each]
  | tuple values each => rw [text_tuple, size_tuple, items values each]
  | dict entries each =>
    rw [text_dict, size_dict, weight_objectText, List.map_map, List.length_map]
    congr 4
    refine List.map_congr_left fun entry mem => ?_
    rw [Function.comp_apply, each entry mem]
  | proxy entries _ =>
    rw [text_proxy, size_proxy]
    rfl

theorem size_eq_zero {scalar key : Scalar F → Bool} {tuples : Bool} {v : PyValue F}
    (marks : ∀ c ∈ [91, 93, 123, 125], w c = 0) (separator : weight w encoder.separator = 0)
    (colon : weight w encoder.colon = 0) (scalars : ∀ s, scalar s = true → weight w (encoder.scalarText s) = 0)
    (keys : ∀ s, key s = true → weight w (encoder.keyText s) = 0) (all : v.all scalar key tuples = true) :
    encoder.size w v = 0 := by
  have array : ∀ values : List (PyValue F), (∀ v ∈ values, encoder.size w v = 0) →
      w 91 + ((values.map (encoder.size w)).sum + weight w encoder.separator * (values.length - 1) + w 93) = 0 := by
    intro values each
    have sum : (values.map (encoder.size w)).sum = 0 :=
      List.sum_eq_zero_iff_forall_eq_nat.mpr (List.forall_mem_map.mpr each)
    rw [sum, separator, marks 91 (by simp), marks 93 (by simp), Nat.zero_mul]
  induction v using PyValue.inductOn with
  | scalar s =>
    rw [PyValue.all_scalar] at all
    rw [size_scalar, scalars s all]
  | list values each =>
    rw [PyValue.all_list, List.all_eq_true] at all
    rw [size_list, array values fun v mem => each v mem (all v mem)]
  | tuple values each =>
    rw [PyValue.all_tuple, Bool.and_eq_true, List.all_eq_true] at all
    rw [size_tuple, array values fun v mem => each v mem (all.2 v mem)]
  | dict entries each =>
    rw [PyValue.all_dict, List.all_eq_true] at all
    have sum : (entries.map fun entry =>
        weight w (encoder.keyText entry.1) + (weight w encoder.colon + encoder.size w entry.2)).sum = 0 := by
      rw [List.sum_eq_zero_iff_forall_eq_nat, List.forall_mem_map]
      intro entry mem
      obtain ⟨isKey, isValue⟩ := Bool.and_eq_true_iff.mp (all entry mem)
      rw [keys _ isKey, colon, each entry mem isValue]
    rw [size_dict, sum, separator, marks 123 (by simp), marks 125 (by simp), Nat.zero_mul]
  | proxy entries _ => rw [size_proxy]

end Encoder

end Json

end PawBackend.Lib
