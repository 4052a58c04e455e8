/-
**The JSON input check** (`tasks/service.py`): `_checked_json` and its `_JsonInputCheck`.

The walk charges every value what the encoder will write for it, brackets and quotes included, separators not: so it
never runs out on a value whose text is small enough (`check_runsOut`). The text of an integer is only made once its bit
length has passed a test that lets every integer within the digit limit through (`bitLength_le`).

What is taken as given: no other thread changes the object during the walk.
-/

import Mathlib.Data.Nat.Size
import PawBackend.Lib.ObjectWalk

namespace PawBackend.Tasks.JsonInput

open Lib Lib.Json List
open Lib.Text (lit)

variable {R F : Type}

/-! ### The check -/

def maxInputDepth : ℕ := 32

def maxInputIntegerDigits : ℕ := 131072

/-- The rule that an `InvalidCommandArgumentError` says was broken. -/
inductive InputProblem
  | notObject
  | tooLarge
  | tooDeep
  | notJson
  | notFinite
  | tooManyDigits
  | nulCharacter
  | surrogate
  deriving DecidableEq, Repr

def digitLimit (interpreter : DigitLimit) : ℕ :=
  if interpreter.1 ≠ 0 then min maxInputIntegerDigits interpreter.1 else maxInputIntegerDigits

def digitLimitBits (interpreter : DigitLimit) : ℕ := digitLimit interpreter * 3322 / 1000 + 1

/-- What an `InvalidCommandArgumentError` says; `tooLarge` is the text of the caller. -/
def InputProblem.message (tooLarge : Text) (interpreter : DigitLimit) : InputProblem → Text
  | .notObject => lit "input must be a JSON object"
  | .tooLarge => tooLarge
  | .tooDeep => lit "input must be nested at most " ++ naturalText maxInputDepth ++ lit " levels"
  | .notJson =>
    lit "input must contain only JSON values (objects with text keys, lists, text, numbers, booleans and null)"
  | .notFinite => lit "input numbers must be finite"
  | .tooManyDigits => lit "input integers must have at most " ++ naturalText (digitLimit interpreter) ++ lit " digits"
  | .nulCharacter => lit "input text must not contain NUL characters"
  | .surrogate => lit "input text must be valid Unicode text (no surrogate characters)"

def spend (cost : ℕ) (budget : ℤ) : Except InputProblem ℤ :=
  if budget - cost < 0 then .error .tooLarge else .ok (budget - cost)

/-- `encode("utf-8")` does not raise. -/
def encodes (t : Text) : Bool := t.all fun c => !decide (0xD800 ≤ c ∧ c ≤ 0xDFFF)

def storable (t : Text) : Except InputProblem Unit :=
  if 0 ∈ t then .error .nulCharacter
  else if !t.all (fun c => decide (c < 0x80)) && !encodes t then .error .surrogate
  else .ok ()

def checkText : Scalar F → ℤ → Except InputProblem ℤ
  | .text t, budget => do
    let left ← spend (t.length + 2) budget
    storable t
    return left
  | _, _ => .error .notJson

def bitLength (n : ℤ) : ℕ := Nat.size n.natAbs

def integerLength (interpreter : DigitLimit) (n : ℤ) : Except InputProblem ℕ :=
  if digitLimitBits interpreter < bitLength n then .error .tooManyDigits
  else
    match interpreter.str n with
    | none => .error .tooManyDigits
    | some digits =>
      if digitLimit interpreter < digits.length - (if n < 0 then 1 else 0) then .error .tooManyDigits
      else .ok digits.length

variable (floats : Floats F) (interpreter : DigitLimit)

/-- The `_check` of what is no container. -/
def checkScalar : Scalar F → ℤ → Except InputProblem ℤ
  | .text t, budget => checkText (.text t : Scalar F) budget
  | .integer n, budget => do
    let length ← integerLength interpreter n
    spend length budget
  | .float x, budget => if !floats.finite x then .error .notFinite else spend (floats.repr x).length budget
  | .boolean b, budget => spend (if b then 4 else 5) budget
  | .none, budget => spend 4 budget
  | .other, _ => .error .notJson

/-- `_JsonInputCheck`. -/
def rules : Rules F InputProblem where
  scalar := checkScalar floats interpreter
  key := checkText
  enter := spend 2
  item := fun budget => .ok budget
  tuples := false
  notJson := .notJson
  tooDeep := .tooDeep

/-- `_check`, its budget with it. -/
def check (heap : Heap R F) (ref : R) (budget : ℤ) : Except InputProblem (PyValue F × ℤ) :=
  (rules floats interpreter).walk heap maxInputDepth ref budget

def checkObject (heap : Heap R F) (ref : R) (budget : ℤ) : Except InputProblem (PyValue F) :=
  match heap ref with
  | .dict _ => do
    let (copy, _) ← check floats interpreter heap ref budget
    return copy
  | _ => .error .notObject

/-- `json.dumps`, with `allow_nan` or without. -/
def jsonText (allowNan : Bool) : Encoder F where
  floats := floats
  string := asciiString
  separator := lit ", "
  colon := lit ": "
  writes := written floats interpreter allowNan

/-- `{}`, as an object. -/
def emptyObject : Heap Unit F := fun _ => .dict []

/-- `check_object` of the input; no input at all is `{}`. -/
def checkedObject (heap : Heap R F) (ref : R) (limit : ℤ) : Except InputProblem (PyValue F) :=
  match heap ref with
  | .scalar .none => checkObject floats interpreter emptyObject () limit
  | _ => checkObject floats interpreter heap ref limit

def checkedJson (heap : Heap R F) (ref : R) (limit : ℤ) : Except InputProblem (PyValue F) := do
  let copy ← checkedObject floats interpreter heap ref limit
  match (jsonText floats interpreter false).dumps copy with
  | none => .error .tooLarge
  | some encoded => if limit < encoded.length then .error .tooLarge else .ok copy

/-! ### Integers -/

theorem bitLength_le {n : ℤ} (short : (naturalText n.natAbs).length ≤ digitLimit interpreter) :
    bitLength n ≤ digitLimitBits interpreter := by
  unfold bitLength digitLimitBits
  generalize digitLimit interpreter = d at short
  rw [Nat.size_le]
  have small : n.natAbs < 10 ^ d := by
    unfold naturalText at short
    split_ifs at short with zero
    · rw [zero]
      exact Nat.pos_of_ne_zero (by positivity)
    · rw [length_reverse, length_map] at short
      exact (Nat.digits_length_le_iff (by omega) _).mp short
  have bits : (10 ^ d) ^ 1000 ≤ (2 ^ (d * 3322 / 1000 + 1)) ^ 1000 := by
    have base : 10 ^ 1000 ≤ 2 ^ 3322 := by decide +kernel
    calc (10 ^ d) ^ 1000 = (10 ^ 1000) ^ d := by rw [← pow_mul, ← pow_mul, Nat.mul_comm]
      _ ≤ (2 ^ 3322) ^ d := Nat.pow_le_pow_left base d
      _ = 2 ^ (3322 * d) := (pow_mul _ _ _).symm
      _ ≤ 2 ^ ((d * 3322 / 1000 + 1) * 1000) := Nat.pow_le_pow_right (by omega) (by omega)
      _ = (2 ^ (d * 3322 / 1000 + 1)) ^ 1000 := pow_mul _ _ _
  exact lt_of_lt_of_le small ((Nat.pow_le_pow_iff_left (show 1000 ≠ 0 by decide)).mp bits)

/-! ### What is charged -/

def fitScalar : Scalar F → Bool
  | .integer n => decide ((naturalText n.natAbs).length ≤ digitLimit interpreter)
  | .float x => floats.finite x
  | .text t => !decide (0 ∈ t) && encodes t
  | .other => false
  | _ => true

def fitKey : Scalar F → Bool
  | .text t => !decide (0 ∈ t) && encodes t
  | _ => false

def scalarCost : Scalar F → ℕ
  | .none => 4
  | .boolean b => if b then 4 else 5
  | .integer n => (integerText n).length
  | .float x => (floats.written x).length
  | .text t => t.length + 2
  | .other => 0

def keyCost : Scalar F → ℕ
  | .text t => t.length + 2
  | _ => 0

def tariff : Tariff F where
  accepts := fitScalar floats interpreter
  acceptsKey := fitKey
  cost := scalarCost floats
  keyCost := keyCost
  item := 0
  tuples := false

theorem spend_eq_ok {cost : ℕ} {budget left : ℤ} :
    spend cost budget = .ok left ↔ (cost : ℤ) ≤ budget ∧ left = budget - cost := by
  unfold spend
  rw [refuse_eq_ok, Except.ok.injEq, eq_comm (b := left)]
  exact and_congr_left fun _ => by omega

theorem spend_tooLarge {cost : ℕ} {budget : ℤ} (refused : spend cost budget = .error .tooLarge) : budget < cost := by
  unfold spend at refused
  split_ifs at refused
  omega

theorem storable_eq_ok {t : Text} : storable t = .ok () ↔ 0 ∉ t ∧ encodes t = true := by
  unfold storable
  rw [refuse_eq_ok, refuse_eq_ok]
  refine and_congr_right fun _ => ?_
  rw [Bool.and_eq_true, not_and, Bool.not_eq_true', Bool.not_eq_true', Bool.not_eq_false, and_iff_left rfl]
  refine ⟨fun encoded => ?_, fun encoded _ => encoded⟩
  cases ascii : t.all fun c => decide (c < 0x80) with
  | false => exact encoded ascii
  | true =>
    rw [all_eq_true] at ascii
    unfold encodes
    rw [all_eq_true]
    intro c mem
    have small := of_decide_eq_true (ascii c mem)
    rw [Bool.not_eq_true', decide_eq_false_iff_not]
    omega

theorem storable_ne_tooLarge {t : Text} : storable t ≠ .error .tooLarge := by
  unfold storable
  split_ifs <;> exact nofun

theorem checkText_eq_ok {t : Text} {budget left : ℤ} : checkText (.text t : Scalar F) budget = .ok left ↔
    (!decide (0 ∈ t) && encodes t) = true ∧ ((t.length + 2 : ℕ) : ℤ) ≤ budget ∧ left = budget - (t.length + 2 : ℕ) := by
  unfold checkText
  rw [bind_eq_ok, Bool.and_eq_true, Bool.not_eq_true', decide_eq_false_iff_not]
  constructor
  · rintro ⟨after, spent, rest⟩
    obtain ⟨⟨⟩, stored, same⟩ := bind_eq_ok.mp rest
    cases pure_eq_ok.mp same
    exact ⟨storable_eq_ok.mp stored, spend_eq_ok.mp spent⟩
  · rintro ⟨fit, paid⟩
    exact ⟨left, spend_eq_ok.mpr paid, bind_eq_ok.mpr ⟨(), storable_eq_ok.mpr fit, rfl⟩⟩

theorem length_integerText (n : ℤ) :
    (integerText n).length - (if n < 0 then 1 else 0) = (naturalText n.natAbs).length := by
  unfold integerText
  split_ifs
  · exact Nat.add_sub_cancel _ 1
  · exact Nat.sub_zero _

theorem integerLength_eq_ok {n : ℤ} {length : ℕ} : integerLength interpreter n = .ok length ↔
    (naturalText n.natAbs).length ≤ digitLimit interpreter ∧ length = (integerText n).length := by
  unfold integerLength DigitLimit.str
  rw [refuse_eq_ok]
  by_cases converts : interpreter.converts n = true
  · rw [if_pos converts]
    dsimp only
    rw [refuse_eq_ok, length_integerText, not_lt, Except.ok.injEq, eq_comm (a := (integerText n).length), not_lt]
    exact ⟨fun accepted => accepted.2, fun accepted => ⟨bitLength_le interpreter accepted.1, accepted⟩⟩
  · rw [if_neg converts]
    refine iff_of_false (fun wrong => by cases wrong.2) fun within => converts ?_
    unfold DigitLimit.converts
    rw [Bool.or_eq_true, decide_eq_true_eq, decide_eq_true_eq]
    by_cases none : interpreter.1 = 0
    · exact Or.inl none
    · refine Or.inr (within.1.trans ?_)
      unfold digitLimit
      rw [if_pos none]
      exact Nat.min_le_right _ _

theorem integerLength_error {n : ℤ} {e : InputProblem} (refused : integerLength interpreter n = .error e) :
    e = .tooManyDigits := by
  unfold integerLength at refused
  by_cases long : digitLimitBits interpreter < bitLength n
  · rw [if_pos long] at refused
    exact (Except.error.inj refused).symm
  · rw [if_neg long] at refused
    cases isText : interpreter.str n with
    | none =>
      rw [isText] at refused
      exact (Except.error.inj refused).symm
    | some digits =>
      rw [isText] at refused
      dsimp only at refused
      by_cases beyond : digitLimit interpreter < digits.length - (if n < 0 then 1 else 0)
      · rw [if_pos beyond] at refused
        exact (Except.error.inj refused).symm
      · rw [if_neg beyond] at refused
        cases refused

theorem charge : (rules floats interpreter).Charge (tariff floats interpreter) where
  scalar := by
    intro s budget left
    show checkScalar floats interpreter s budget = .ok left ↔
      fitScalar floats interpreter s = true ∧ (scalarCost floats s : ℤ) ≤ budget ∧ left = budget - scalarCost floats s
    cases s with
    | none | boolean => exact spend_eq_ok.trans (and_iff_right rfl).symm
    | integer n =>
      unfold checkScalar fitScalar scalarCost
      rw [bind_eq_ok, decide_eq_true_eq]
      constructor
      · rintro ⟨length, measured, spent⟩
        obtain ⟨short, rfl⟩ := (integerLength_eq_ok interpreter).mp measured
        exact ⟨short, spend_eq_ok.mp spent⟩
      · rintro ⟨short, paid⟩
        exact ⟨_, (integerLength_eq_ok interpreter).mpr ⟨short, rfl⟩, spend_eq_ok.mpr paid⟩
    | float x =>
      unfold checkScalar fitScalar scalarCost
      rw [refuse_eq_ok, Bool.not_eq_true', Bool.not_eq_false, spend_eq_ok]
      exact and_congr_right fun finite => by rw [← floats.written_of_finite x finite]
    | text t => exact @checkText_eq_ok F t budget left
    | other => simp [checkScalar, fitScalar]
  key := by
    intro s budget left
    cases s with
    | text t => exact @checkText_eq_ok F t budget left
    | _ => exact iff_of_false (fun wrong => by cases wrong) fun wrong => by cases wrong.1
  enter := fun budget left => spend_eq_ok
  item := by
    intro budget left enough
    show Except.ok budget = Except.ok left ↔ ((0 : ℕ) : ℤ) ≤ budget ∧ left = budget - (0 : ℕ)
    rw [Except.ok.injEq, Nat.cast_zero, sub_zero, and_iff_right enough, eq_comm]
  tuples := rfl

theorem checkText_tooLarge {s : Scalar F} {budget : ℤ} (refused : checkText s budget = .error .tooLarge) :
    budget < keyCost s := by
  cases s with
  | text t =>
    rcases bind_eq_error.mp refused with refused | ⟨_, -, refused⟩
    · exact spend_tooLarge refused
    · rcases bind_eq_error.mp refused with refused | ⟨_, -, wrong⟩
      · exact absurd refused storable_ne_tooLarge
      · cases wrong
  | _ => cases refused

theorem refuses : (rules floats interpreter).Refuses (tariff floats interpreter) .tooLarge where
  scalar := by
    intro s budget refused
    replace refused : checkScalar floats interpreter s budget = .error .tooLarge := refused
    show budget < scalarCost floats s
    cases s with
    | none | boolean => exact spend_tooLarge refused
    | integer n =>
      rcases bind_eq_error.mp refused with refused | ⟨length, measured, refused⟩
      · cases integerLength_error interpreter refused
      · obtain ⟨-, rfl⟩ := (integerLength_eq_ok interpreter).mp measured
        exact spend_tooLarge refused
    | float x =>
      unfold checkScalar at refused
      dsimp only at refused
      cases finite : floats.finite x with
      | false =>
        rw [finite] at refused
        cases refused
      | true =>
        rw [finite] at refused
        show budget < ((floats.written x).length : ℕ)
        rw [floats.written_of_finite x finite]
        exact spend_tooLarge refused
    | text t => exact @checkText_tooLarge F (.text t) budget refused
    | other => cases refused
  key := fun s budget => checkText_tooLarge
  enter := fun budget => spend_tooLarge
  item := fun budget _ wrong => by cases wrong
  notJson := nofun
  tooDeep := nofun

/-! ### What is written -/

theorem length_asciiString (t : Text) : t.length + 2 ≤ (asciiString t).length := by
  have one : ∀ unit, 1 ≤ (escapeUnit unit).length := by
    intro unit
    obtain ⟨c, rest, isEscape, -⟩ := escapeUnit_starts unit
    rw [isEscape, length_cons]
    omega
  have escaped : ∀ codes : List ℕ, codes.length ≤ (codes.flatMap escapeUnit).length := by
    intro codes
    induction codes with
    | nil => exact Nat.le_refl _
    | cons unit rest ih =>
      have first := one unit
      rw [flatMap_cons, length_append, length_cons]
      omega
  have coded : t.length ≤ (utf16 t).length := by
    unfold utf16
    induction t with
    | nil => exact Nat.le_refl _
    | cons c rest ih =>
      have first : 1 ≤ (units c).length := by
        unfold units
        split_ifs <;> simp
      rw [flatMap_cons, length_append, length_cons]
      omega
  have whole := escaped (utf16 t)
  unfold asciiString
  rw [length_cons, length_append, length_cons, length_nil]
  omega

theorem weight_one (t : Text) : weight (fun _ => 1) t = t.length := weight_of_forall _ fun _ _ => rfl

/-- **The charge is a lower bound** of the text of a value, whatever is in it. -/
theorem charge_le_length (allowNan : Bool) (v : PyValue F) :
    (tariff floats interpreter).charge v ≤ ((jsonText floats interpreter allowNan).text v).length := by
  rw [← weight_one, Encoder.weight_text]
  refine Tariff.charge_le_size _ _ rfl (fun _ _ => rfl) (fun s => ?_) (fun s => ?_) v
  · rw [weight_one]
    cases s with
    | none | integer | float | other => exact Nat.le_refl _
    | boolean b => cases b <;> exact Nat.le_refl _
    | text t => exact length_asciiString t
  · rw [weight_one]
    cases s with
    | text t => exact length_asciiString t
    | _ => exact Nat.zero_le _

theorem encodable_of_fit {v : PyValue F} (fit : (tariff floats interpreter).accepted v = true) (allowNan : Bool) :
    (jsonText floats interpreter allowNan).encodable v = true := by
  refine PyValue.all_imp fit (fun s isFit => ?_) (fun s isFit => ?_) (fun wrong => by cases wrong)
  · cases s with
    | integer n =>
      have accepted := (integerLength_eq_ok interpreter).mpr ⟨of_decide_eq_true isFit, rfl⟩
      by_contra raises
      replace raises : ¬ interpreter.converts n = true := raises
      unfold integerLength DigitLimit.str at accepted
      rw [refuse_eq_ok, if_neg raises] at accepted
      cases accepted.2
    | float x => exact Bool.or_eq_true_iff.mpr (Or.inr isFit)
    | other => cases isFit
    | _ => rfl
  · cases s with
    | text t => rfl
    | _ => cases isFit

/-! ### What is accepted -/

variable {heap : Heap R F} {ref : R} {budget limit : ℤ} {copy v : PyValue F}

theorem plain_of_accepted (fit : (tariff floats interpreter).accepted v = true) : v.plain = v := by
  induction v using PyValue.inductOn with
  | scalar s => rw [PyValue.plain_scalar]
  | list items each =>
    rw [Tariff.accepted_list, all_eq_true] at fit
    rw [PyValue.plain_list, map_congr_left fun item mem => each item mem (fit item mem), map_id']
  | tuple items _ =>
    rw [Tariff.accepted_tuple] at fit
    cases fit
  | dict entries each =>
    rw [Tariff.accepted_dict, all_eq_true] at fit
    have same : (entries.map fun entry => (entry.1, entry.2.plain)) = entries := by
      refine (map_congr_left fun entry mem => ?_).trans (map_id' entries)
      exact congrArg (Prod.mk entry.1) (each entry mem (Bool.and_eq_true_iff.mp (fit entry mem)).2)
    rw [PyValue.plain_dict, same]
  | proxy entries _ => cases (PyValue.all_proxy _ _ _ entries).symm.trans fit

theorem check_runsOut (allowNan : Bool) (holds : Holds heap ref v)
    (refused : check floats interpreter heap ref budget = .error .tooLarge) :
    budget < ((jsonText floats interpreter allowNan).text v).length := by
  have charged := Rules.walk_runsOut (charge floats interpreter) (refuses floats interpreter) holds refused
  have bound := charge_le_length floats interpreter allowNan v
  omega

theorem checkObject_eq_ok : checkObject floats interpreter heap ref budget = .ok copy ↔
    Holds heap ref copy ∧ (∃ entries, copy = .dict entries) ∧ (tariff floats interpreter).accepted copy = true ∧
      copy.depth ≤ maxInputDepth ∧ ((tariff floats interpreter).charge copy : ℤ) ≤ budget := by
  have walked := @Rules.walk_eq_ok _ _ _ _ (tariff floats interpreter) heap maxInputDepth ref (charge floats interpreter)
    budget
  unfold checkObject
  cases here : heap ref with
  | dict entries =>
    dsimp only
    rw [bind_eq_ok]
    constructor
    · rintro ⟨⟨clean, left⟩, isWalked, same⟩
      obtain ⟨v, read, fit, rfl, paid, -⟩ := (walked clean left).mp isWalked
      cases pure_eq_ok.mp same
      obtain ⟨holds, deep⟩ := unfold_eq_some_iff.mp read
      obtain ⟨values, -, rfl⟩ := holds.dict here
      rw [plain_of_accepted floats interpreter fit]
      exact ⟨holds, ⟨values, rfl⟩, fit, deep, paid⟩
    · rintro ⟨holds, -, fit, deep, paid⟩
      exact ⟨(copy, _), (walked _ _).mpr ⟨copy, unfold_eq_some_iff.mpr ⟨holds, deep⟩, fit,
        (plain_of_accepted floats interpreter fit).symm, paid, rfl⟩, rfl⟩
  | scalar s =>
    refine iff_of_false (fun wrong => by cases wrong) ?_
    rintro ⟨holds, ⟨values, rfl⟩, -⟩
    cases (holds_scalar here).mp holds
  | list items =>
    refine iff_of_false (fun wrong => by cases wrong) ?_
    rintro ⟨holds, ⟨values, rfl⟩, -⟩
    obtain ⟨_, -, wrong⟩ := holds.list here
    cases wrong
  | tuple items =>
    refine iff_of_false (fun wrong => by cases wrong) ?_
    rintro ⟨holds, ⟨values, rfl⟩, -⟩
    obtain ⟨_, -, wrong⟩ := holds.tuple here
    cases wrong

theorem dumps_of_fit (fit : (tariff floats interpreter).accepted v = true) (allowNan : Bool) :
    (jsonText floats interpreter allowNan).dumps v = some ((jsonText floats interpreter allowNan).text v) :=
  if_pos (encodable_of_fit floats interpreter fit allowNan)

theorem checkedObject_of_none (none : heap ref = .scalar .none) :
    checkedObject floats interpreter heap ref limit = checkObject floats interpreter emptyObject () limit := by
  unfold checkedObject
  rw [none]

theorem checkedObject_of_some (given : heap ref ≠ .scalar .none) :
    checkedObject floats interpreter heap ref limit = checkObject floats interpreter heap ref limit := by
  unfold checkedObject
  split
  · next none => exact absurd none given
  · rfl

theorem accepted_of_checkedObject (walked : checkedObject floats interpreter heap ref limit = .ok copy) :
    (heap ref = .scalar .none → copy = .dict []) ∧ (heap ref ≠ .scalar .none → Holds heap ref copy) ∧
      (tariff floats interpreter).accepted copy = true ∧ copy.depth ≤ maxInputDepth := by
  by_cases none : heap ref = .scalar .none
  · rw [checkedObject_of_none floats interpreter none, checkObject_eq_ok] at walked
    obtain ⟨holds, -, fit, deep, -⟩ := walked
    refine ⟨fun _ => ?_, fun given => absurd none given, fit, deep⟩
    obtain ⟨values, all, same⟩ := holds.dict rfl
    rw [forall₂_nil_left_iff] at all
    rw [← same, all]
  · rw [checkedObject_of_some floats interpreter none, checkObject_eq_ok] at walked
    exact ⟨fun wrong => absurd wrong none, fun _ => walked.1, walked.2.2.1, walked.2.2.2.1⟩

theorem checkedJson_eq_ok : checkedJson floats interpreter heap ref limit = .ok copy ↔
    checkedObject floats interpreter heap ref limit = .ok copy ∧
      (((jsonText floats interpreter false).text copy).length : ℤ) ≤ limit := by
  show (checkedObject floats interpreter heap ref limit >>= _) = _ ↔ _
  rw [bind_eq_ok]
  constructor
  · rintro ⟨clean, walked, measured⟩
    obtain ⟨-, -, fit, -⟩ := accepted_of_checkedObject floats interpreter walked
    rw [dumps_of_fit floats interpreter fit] at measured
    dsimp only at measured
    rw [refuse_eq_ok, Except.ok.injEq] at measured
    obtain ⟨small, rfl⟩ := measured
    exact ⟨walked, not_lt.mp small⟩
  · rintro ⟨walked, small⟩
    obtain ⟨-, -, fit, -⟩ := accepted_of_checkedObject floats interpreter walked
    refine ⟨copy, walked, ?_⟩
    rw [dumps_of_fit floats interpreter fit]
    dsimp only
    rw [refuse_eq_ok]
    exact ⟨not_lt.mpr small, rfl⟩

theorem length_of_tooLarge (allowNan : Bool) (holds : Holds heap ref v)
    (refused : checkedJson floats interpreter heap ref limit = .error .tooLarge) :
    limit < ((jsonText floats interpreter allowNan).text v).length := by
  rcases bind_eq_error.mp refused with refused | ⟨clean, walked, measured⟩
  · replace refused : checkedObject floats interpreter heap ref limit = .error .tooLarge := refused
    by_cases none : heap ref = .scalar .none
    · rw [checkedObject_of_none floats interpreter none] at refused
      rcases bind_eq_error.mp refused with refused | ⟨_, -, wrong⟩
      · have small := check_runsOut floats interpreter allowNan (v := .dict []) ⟨1, rfl⟩ refused
        rw [(holds_scalar none).mp holds]
        exact lt_trans small (show ((2 : ℕ) : ℤ) < (4 : ℕ) by decide)
      · cases wrong
    · rw [checkedObject_of_some floats interpreter none] at refused
      unfold checkObject at refused
      split at refused
      · rcases bind_eq_error.mp refused with refused | ⟨_, -, wrong⟩
        · exact check_runsOut floats interpreter allowNan holds refused
        · cases wrong
      · cases refused
  · replace walked : checkedObject floats interpreter heap ref limit = .ok clean := walked
    obtain ⟨isEmpty, isHeld, fit, -⟩ := accepted_of_checkedObject floats interpreter walked
    rw [dumps_of_fit floats interpreter fit] at measured
    dsimp only at measured
    split_ifs at measured with large
    by_cases none : heap ref = .scalar .none
    · rw [isEmpty none] at large
      rw [(holds_scalar none).mp holds]
      exact lt_trans large (show ((2 : ℕ) : ℤ) < (4 : ℕ) by decide)
    · rw [holds.unique (isHeld none)]
      exact large

/-- **The check is exact**: a value whose text is within the limit is never refused as too large, whatever there is of
the budget; no integer within the digit limit is refused for its bit length; what is accepted is returned as it is,
within the depth and within the limit, and no input at all as an empty object. -/
theorem checkedJson_exact (heap : Heap R F) (ref : R) (limit : ℤ) :
    (∀ allowNan v text, Holds heap ref v → (jsonText floats interpreter allowNan).dumps v = some text →
      (text.length : ℤ) ≤ limit → checkedJson floats interpreter heap ref limit ≠ .error .tooLarge) ∧
    (∀ allowNan v text budget, Holds heap ref v → (jsonText floats interpreter allowNan).dumps v = some text →
      check floats interpreter heap ref budget = .error .tooLarge → budget < text.length) ∧
    (∀ n : ℤ, (naturalText n.natAbs).length ≤ digitLimit interpreter →
      bitLength n ≤ digitLimitBits interpreter) ∧
    ∀ copy, checkedJson floats interpreter heap ref limit = .ok copy →
      (heap ref ≠ .scalar .none → Holds heap ref copy) ∧ (heap ref = .scalar .none → copy = .dict []) ∧
      copy.depth ≤ maxInputDepth ∧
      ∃ text, (jsonText floats interpreter false).dumps copy = some text ∧ (text.length : ℤ) ≤ limit := by
  have written : ∀ {allowNan v text}, (jsonText floats interpreter allowNan).dumps v = some text →
      (jsonText floats interpreter allowNan).text v = text := fun dumped =>
    Option.some.inj (Option.ite_none_right_eq_some.mp dumped).2
  refine ⟨fun allowNan v text holds dumped small refused => ?_, fun allowNan v text budget holds dumped refused => ?_,
    fun n => bitLength_le interpreter, fun copy accepted => ?_⟩
  · have large := length_of_tooLarge floats interpreter allowNan holds refused
    rw [written dumped] at large
    exact absurd small (not_le.mpr large)
  · rw [← written dumped]
    exact check_runsOut floats interpreter allowNan holds refused
  · obtain ⟨walked, small⟩ := (checkedJson_eq_ok floats interpreter).mp accepted
    obtain ⟨isEmpty, isHeld, fit, deep⟩ := accepted_of_checkedObject floats interpreter walked
    exact ⟨isHeld, isEmpty, deep, _, dumps_of_fit floats interpreter fit false, small⟩

def noFloats : Floats Empty := ⟨nofun, nofun, nofun, nofun, nofun⟩

/-- No input is accepted, and what is returned is not what was given. -/
theorem none_is_empty : ∃ (heap : Heap Unit Empty) (copy : PyValue Empty),
    checkedJson noFloats ⟨0, Or.inl rfl⟩ heap () 100 = .ok copy ∧ ¬ Holds heap () copy := by
  refine ⟨fun _ => .scalar .none, .dict [], rfl, fun holds => ?_⟩
  cases (@holds_scalar _ _ _ () _ .none rfl).mp holds

end PawBackend.Tasks.JsonInput
