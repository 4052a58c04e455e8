/-
**Bounded JSON values** (`orchestrator/jsonvalue.py`): the inputs and the results of nodes.

`checkJsonObject` walks a value once (`walk`), spending the budget of bytes as it goes, and measures what it copied. A
`True` is spent five bytes, one more than it is written with, and an array is spent a separator for each of its items,
one more than it is written with (`balance`). So the budget can run out on a value that is small enough.

What is taken as given: the stack of the interpreter is deep enough for the values that are walked.
-/

import PawBackend.Lib.ObjectWalk
import PawBackend.Orchestrator.Plan

namespace PawBackend.Orchestrator.JsonValue

open Lib Lib.Json
open Lib.Text (lit)

variable {R F : Type}

/-! ### The check -/

/-- The `kind` of a `JsonProblem`. -/
inductive JsonKind
  | type
  | text
  | number
  | depth
  | size
  deriving DecidableEq, Repr

/-- What can be raised: a `JsonProblem`, or the `ValueError` of `str` and of the encoder. -/
inductive Raised
  | problem (kind : JsonKind)
  | valueError
  deriving DecidableEq, Repr

def maxInt : ℤ := 2 ^ 63 - 1

def maxKeyChars : ℕ := 200

/-- `_SURROGATE`. -/
def isSurrogate (c : ℕ) : Bool := decide (0xD800 ≤ c ∧ c ≤ 0xDFFF)

/-- A character that no text may hold. -/
def unfit (c : ℕ) : Bool := c == 0 || isSurrogate c

def spend (cost : ℕ) (remaining : ℤ) : Except Raised ℤ :=
  if remaining - cost < 0 then .error (.problem .size) else .ok (remaining - cost)

/-- `_text`, of a value. -/
def spendText (value : Text) (remaining : ℤ) : Except Raised ℤ :=
  if remaining < value.length then .error (.problem .size)
  else if value.any unfit then .error (.problem .text)
  else spend (value.length + 2) remaining

/-- `_text`, of a key. -/
def spendKeyText (value : Text) (remaining : ℤ) : Except Raised ℤ :=
  if maxKeyChars < value.length then .error (.problem .text)
  else if value.any unfit then .error (.problem .text)
  else spend (value.length + 2) remaining

variable (floats : Floats F) (limit : DigitLimit)

/-- The `walk` of what is no container. -/
def walkScalar : Scalar F → ℤ → Except Raised ℤ
  | .none, remaining => spend 4 remaining
  | .boolean _, remaining => spend 5 remaining
  | .integer n, remaining =>
    if ¬(-maxInt ≤ n ∧ n ≤ maxInt) then .error (.problem .number)
    else
      match limit.str n with
      | none => .error .valueError
      | some digits => spend digits.length remaining
  | .float x, remaining =>
    if !floats.finite x then .error (.problem .number) else spend (floats.repr x).length remaining
  | .text t, remaining => spendText t remaining
  | .other, _ => .error (.problem .type)

def walkKey : Scalar F → ℤ → Except Raised ℤ
  | .text t, remaining => do
    let remaining ← spendKeyText t remaining
    spend 1 remaining
  | _, _ => .error (.problem .type)

/-- `_Walker`. -/
def rules : Rules F Raised where
  scalar := walkScalar floats limit
  key := walkKey
  enter := spend 2
  item := spend 1
  tuples := true
  notJson := .problem .type
  tooDeep := .problem .depth

/-- `walk`: a container is entered while `depth < max_depth`. -/
def walk (heap : Heap R F) (maxDepth : ℤ) (ref : R) (maxBytes : ℤ) : Except Raised (PyValue F × ℤ) :=
  (rules floats limit).walk heap maxDepth.toNat ref maxBytes

/-- Compact JSON: `ensure_ascii=False`, `separators=(",", ":")`, `allow_nan=False`. -/
def compact : Encoder F where
  floats := floats
  string := plainString
  separator := lit ","
  colon := lit ":"
  writes := written floats limit false

/-- The bytes of a text: `encode("utf-8")` raises on a surrogate. -/
def utf8Size (t : Text) : Option ℕ := if t.any isSurrogate then none else some (weight utf8Bytes t)

/-- `encoded_size`; `none` is `ValueError`. -/
def encodedSize (v : PyValue F) : Option ℕ := ((compact floats limit).dumps v).bind utf8Size

def checkJsonObject (heap : Heap R F) (ref : R) (maxBytes maxDepth : ℤ) : Except Raised (PyValue F) :=
  match heap ref with
  | .dict _ => do
    let (clean, _) ← walk floats limit heap maxDepth ref maxBytes
    match encodedSize floats limit clean with
    | none => .error .valueError
    | some encoded => if maxBytes < encoded then .error (.problem .size) else .ok clean
  | _ => .error (.problem .type)

def freezeJson : PyValue F → PyValue F := PyValue.fold ⟨.scalar, .tuple, .tuple, .proxy, .proxy⟩

def thawJson : PyValue F → PyValue F := PyValue.fold ⟨.scalar, .list, .list, .dict, .dict⟩

/-! ### What is documented -/

/-- Nothing in a scalar is refused, its integers being at least `low`. -/
def fitScalar (low : ℤ) : Scalar F → Bool
  | .integer n => decide (low ≤ n ∧ n ≤ maxInt)
  | .float x => floats.finite x
  | .text t => !t.any unfit
  | .other => false
  | _ => true

def fitKey : Scalar F → Bool
  | .text t => decide (t.length ≤ maxKeyChars) && !t.any unfit
  | _ => false

def encodedBytes (v : PyValue F) : ℕ := weight utf8Bytes ((compact floats limit).text v)

/-- What the documentation says is accepted: a plain JSON object within the limits, its integers within 64 bits. -/
structure Documented (heap : Heap R F) (ref : R) (maxBytes maxDepth : ℤ) (v : PyValue F) : Prop where
  holds : Holds heap ref v
  object : ∃ entries, v = .dict entries
  plain : v.all (fitScalar floats (-2 ^ 63)) fitKey true = true
  nested : (v.depth : ℤ) ≤ maxDepth
  small : (encodedBytes floats limit v : ℤ) ≤ maxBytes

/-- The check decides what is documented, raises nothing else than a `JsonProblem`, and what it accepts survives being
frozen. -/
structure Decides (heap : Heap R F) (ref : R) (maxBytes maxDepth : ℤ) : Prop where
  accepts : (∃ copy, checkJsonObject floats limit heap ref maxBytes maxDepth = .ok copy) ↔
    ∃ v, Documented floats limit heap ref maxBytes maxDepth v
  raises : ∀ raised, checkJsonObject floats limit heap ref maxBytes maxDepth = .error raised →
    ∃ kind, raised = .problem kind
  thaws : ∀ copy, checkJsonObject floats limit heap ref maxBytes maxDepth = .ok copy → thawJson (freezeJson copy) = copy

/-! ### What is spent -/

def extraBytes (t : Text) : ℕ := (t.map fun c => jsonCharBytes c - 1).sum

/-- A `True` is spent a byte too many. -/
def scalarExcess : Scalar F → ℕ
  | .boolean true => 1
  | _ => 0

def scalarUnspent : Scalar F → ℕ
  | .text t => extraBytes t
  | _ => 0

/-- The bytes spent in excess: one for each `True`, and one for each array that is not empty. -/
def excess : PyValue F → ℕ := PyValue.fold
  { scalar := scalarExcess
    list := fun items => items.sum + min 1 items.length
    tuple := fun items => items.sum + min 1 items.length
    dict := fun entries => (entries.map Prod.snd).sum
    proxy := fun _ => 0 }

/-- The bytes that are not spent: the separators of objects, and those of texts beyond one for each character. -/
def unspent : PyValue F → ℕ := PyValue.fold
  { scalar := scalarUnspent
    list := List.sum
    tuple := List.sum
    dict := fun entries => (entries.length - 1) + (entries.map fun entry => scalarUnspent entry.1 + entry.2).sum
    proxy := fun _ => 0 }

section Equations

@[simp]
theorem excess_scalar (s : Scalar F) : excess (.scalar s) = scalarExcess s := PyValue.fold_scalar _ s

@[simp]
theorem excess_list (items : List (PyValue F)) : excess (.list items) = (items.map excess).sum + min 1 items.length := by
  refine (PyValue.fold_list _ items).trans ?_
  dsimp only
  rw [List.length_map]
  rfl

@[simp]
theorem excess_tuple (items : List (PyValue F)) : excess (.tuple items) = (items.map excess).sum + min 1 items.length := by
  refine (PyValue.fold_tuple _ items).trans ?_
  dsimp only
  rw [List.length_map]
  rfl

@[simp]
theorem excess_dict (entries : List (Scalar F × PyValue F)) :
    excess (.dict entries) = (entries.map fun entry => excess entry.2).sum := by
  refine (PyValue.fold_dict _ entries).trans ?_
  dsimp only
  rw [List.map_map]
  rfl

@[simp]
theorem unspent_scalar (s : Scalar F) : unspent (.scalar s) = scalarUnspent s := PyValue.fold_scalar _ s

@[simp]
theorem unspent_list (items : List (PyValue F)) : unspent (.list items) = (items.map unspent).sum :=
  PyValue.fold_list _ items

@[simp]
theorem unspent_tuple (items : List (PyValue F)) : unspent (.tuple items) = (items.map unspent).sum :=
  PyValue.fold_tuple _ items

@[simp]
theorem unspent_dict (entries : List (Scalar F × PyValue F)) : unspent (.dict entries) =
    (entries.length - 1) + (entries.map fun entry => scalarUnspent entry.1 + unspent entry.2).sum := by
  refine (PyValue.fold_dict _ entries).trans ?_
  dsimp only
  rw [List.length_map, List.map_map]
  rfl

end Equations

def scalarCost : Scalar F → ℕ
  | .none => 4
  | .boolean _ => 5
  | .integer n => (integerText n).length
  | .float x => (floats.repr x).length
  | .text t => t.length + 2
  | .other => 0

/-- What is spent on a key and the colon behind it. -/
def keyCost : Scalar F → ℕ
  | .text t => t.length + 3
  | _ => 0

def tariff : Tariff F where
  accepts := fitScalar floats (-maxInt)
  acceptsKey := fitKey
  cost := scalarCost floats
  keyCost := keyCost
  item := 1
  tuples := true

variable {remaining left low : ℤ} {s : Scalar F} {e : Raised}

theorem spend_eq_ok {cost : ℕ} :
    spend cost remaining = .ok left ↔ (cost : ℤ) ≤ remaining ∧ left = remaining - cost := by
  unfold spend
  rw [refuse_eq_ok, Except.ok.injEq, eq_comm (b := left)]
  exact and_congr_left fun _ => by omega

theorem spendText_eq_ok {value : Text} : spendText value remaining = .ok left ↔
    value.any unfit = false ∧ ((value.length + 2 : ℕ) : ℤ) ≤ remaining ∧ left = remaining - (value.length + 2 : ℕ) := by
  unfold spendText
  rw [refuse_eq_ok, refuse_eq_ok, spend_eq_ok, Bool.not_eq_true]
  push_cast
  constructor
  · exact fun ⟨_, fit, paid⟩ => ⟨fit, paid⟩
  · exact fun ⟨fit, paid⟩ => ⟨by omega, fit, paid⟩

theorem walkKey_eq_ok : walkKey s remaining = .ok left ↔
    fitKey s = true ∧ (keyCost s : ℤ) ≤ remaining ∧ left = remaining - keyCost s := by
  cases s with
  | text t =>
    unfold walkKey spendKeyText fitKey keyCost
    rw [bind_eq_ok, Bool.and_eq_true, decide_eq_true_eq, Bool.not_eq_true']
    push_cast
    constructor
    · rintro ⟨between, isText, isColon⟩
      rw [refuse_eq_ok, refuse_eq_ok, spend_eq_ok, Bool.not_eq_true] at isText
      obtain ⟨short, fit, paid, rfl⟩ := isText
      obtain ⟨paid', rfl⟩ := spend_eq_ok.mp isColon
      push_cast at paid paid' ⊢
      exact ⟨⟨by omega, fit⟩, by omega, by omega⟩
    · rintro ⟨⟨short, fit⟩, paid, rfl⟩
      refine ⟨remaining - (t.length + 2 : ℕ), ?_, spend_eq_ok.mpr ⟨?_, ?_⟩⟩
      · rw [refuse_eq_ok, refuse_eq_ok, spend_eq_ok, Bool.not_eq_true]
        exact ⟨by omega, fit, by push_cast; omega, rfl⟩
      · push_cast
        omega
      · push_cast
        omega
  | _ => simp [walkKey, fitKey]

theorem str_of_small {n : ℤ} (low : -2 ^ 63 ≤ n) (high : n ≤ maxInt) : limit.str n = some (integerText n) := by
  have digits : (naturalText n.natAbs).length ≤ 18 + 1 := by
    refine length_naturalText ?_
    unfold maxInt at high
    omega
  have converts : limit.converts n = true := by
    unfold DigitLimit.converts
    rw [Bool.or_eq_true, decide_eq_true_eq, decide_eq_true_eq]
    rcases limit.2 with none | atLeast
    · exact Or.inl none
    · exact Or.inr (by omega)
  unfold DigitLimit.str
  rw [if_pos converts]

theorem charge : (rules floats limit).Charge (tariff floats) where
  scalar := by
    intro s remaining left
    show walkScalar floats limit s remaining = .ok left ↔
      fitScalar floats (-maxInt) s = true ∧ (scalarCost floats s : ℤ) ≤ remaining ∧ left = remaining - scalarCost floats s
    cases s with
    | none | boolean => exact spend_eq_ok.trans (and_iff_right rfl).symm
    | integer n =>
      unfold walkScalar fitScalar scalarCost
      rw [refuse_eq_ok, not_not, decide_eq_true_eq]
      refine and_congr_right fun within => ?_
      rw [str_of_small limit (by unfold maxInt at within; omega) within.2]
      exact spend_eq_ok
    | float x =>
      unfold walkScalar fitScalar scalarCost
      rw [refuse_eq_ok, Bool.not_eq_true', Bool.not_eq_false, spend_eq_ok]
    | text t =>
      unfold walkScalar fitScalar scalarCost
      rw [spendText_eq_ok, Bool.not_eq_true']
    | other => simp [walkScalar, fitScalar]
  key := fun s remaining left => walkKey_eq_ok
  enter := fun remaining left => spend_eq_ok
  item := fun remaining left _ => spend_eq_ok
  tuples := rfl

/-! ### What is written -/

theorem weight_escapeChar (c : ℕ) : weight utf8Bytes (escapeChar c) = jsonCharBytes c := by
  unfold escapeChar jsonCharBytes
  by_cases short : c = 34 ∨ c = 92 ∨ c ∈ [8, 9, 10, 12, 13]
  · rw [if_pos short]
    rcases short with rfl | rfl | mem
    · rfl
    · rfl
    · simp only [List.mem_cons, List.not_mem_nil, or_false] at mem
      rcases mem with rfl | rfl | rfl | rfl | rfl <;> rfl
  · rw [if_neg short]
    simp only [List.mem_cons, List.not_mem_nil, or_false, not_or] at short
    rw [if_neg short.1, if_neg short.2.1, if_neg (by omega), if_neg (by omega), if_neg (by omega), if_neg (by omega),
      if_neg (by omega)]
    by_cases control : c < 32
    · rw [if_pos control, if_pos control]
      have digits : ∀ n, utf8Bytes (hexDigit (n % 16)) = 1 := by
        intro n
        refine if_pos ?_
        unfold hexDigit
        split_ifs <;> omega
      show utf8Bytes 92 + (utf8Bytes 117 + (utf8Bytes _ + (utf8Bytes _ + (utf8Bytes _ + (utf8Bytes _ + 0))))) = 6
      rw [digits, digits, digits, digits]
      rfl
    · rw [if_neg control, if_neg control]
      rfl

theorem jsonCharBytes_pos (c : ℕ) : 1 ≤ jsonCharBytes c := by
  unfold jsonCharBytes utf8Bytes
  split_ifs <;> omega

theorem weight_plainString (t : Text) : weight utf8Bytes (plainString t) = t.length + 2 + extraBytes t := by
  have chars : (t.map jsonCharBytes).sum = t.length + extraBytes t := by
    unfold extraBytes
    induction t with
    | nil => rfl
    | cons c rest ih =>
      have one := jsonCharBytes_pos c
      rw [List.map_cons, List.sum_cons, ih, List.map_cons, List.sum_cons, List.length_cons]
      omega
  unfold plainString
  rw [weight_cons, weight_append, weight_flatMap, List.map_congr_left fun c _ => weight_escapeChar c, chars,
    show weight utf8Bytes [34] = 1 from rfl, show utf8Bytes 34 = 1 from rfl]
  omega

theorem weight_ascii {t : Text} (ascii : ∀ c ∈ t, c < 0x80) : weight utf8Bytes t = t.length :=
  weight_of_forall _ fun c mem => if_pos (ascii c mem)

theorem scalar_balance (fit : fitScalar floats low s = true) :
    scalarCost floats s + scalarUnspent s =
      weight utf8Bytes ((compact floats limit).scalarText s) + scalarExcess s := by
  cases s with
  | none => rfl
  | boolean b => cases b <;> rfl
  | integer n =>
    show (integerText n).length + 0 = weight utf8Bytes (integerText n) + 0
    rw [weight_ascii fun c mem => by have digit := integerText_ascii n c mem; omega]
  | float x =>
    show (floats.repr x).length + 0 = weight utf8Bytes (floats.written x) + 0
    rw [weight_ascii (floats.ascii x), floats.written_of_finite x fit]
  | text t => exact (weight_plainString t).symm
  | other => cases fit

theorem key_balance (fit : fitKey s = true) :
    keyCost s + scalarUnspent s = weight utf8Bytes ((compact floats limit).keyText s) + 1 := by
  cases s with
  | text t =>
    show t.length + 3 + extraBytes t = weight utf8Bytes (plainString t) + 1
    rw [weight_plainString]
    omega
  | _ => cases fit

theorem sum_balance {α : Type} {a b c d : α → ℕ} {values : List α}
    (each : ∀ value ∈ values, a value + b value = c value + d value) :
    (values.map a).sum + (values.map b).sum = (values.map c).sum + (values.map d).sum := by
  rw [← List.sum_map_add, ← List.sum_map_add, List.map_congr_left each]

/-- **What is spent and what is written**: they differ by what is spent in excess and by what is not spent. -/
theorem balance {v : PyValue F} (fit : v.all (fitScalar floats low) fitKey true = true) :
    (tariff floats).charge v + unspent v = encodedBytes floats limit v + excess v := by
  unfold encodedBytes
  rw [Encoder.weight_text]
  have items : ∀ values : List (PyValue F), (∀ v ∈ values, (tariff floats).charge v + unspent v =
      (compact floats limit).size utf8Bytes v + excess v) →
      2 + (values.map fun v => (tariff floats).item + (tariff floats).charge v).sum + (values.map unspent).sum =
        1 + ((values.map ((compact floats limit).size utf8Bytes)).sum + 1 * (values.length - 1) + 1) +
          ((values.map excess).sum + min 1 values.length) := by
    intro values each
    have sums := sum_balance each
    have separators : (values.map fun v => (tariff floats).item + (tariff floats).charge v).sum =
        values.length + (values.map (tariff floats).charge).sum := by
      rw [List.sum_map_add, List.map_const', List.sum_replicate]
      exact congrArg (· + _) (Nat.mul_one _)
    omega
  induction v using PyValue.inductOn with
  | scalar s =>
    rw [PyValue.all_scalar] at fit
    rw [Tariff.charge_scalar, unspent_scalar, Encoder.size_scalar, excess_scalar]
    exact scalar_balance floats limit fit
  | list values each =>
    rw [PyValue.all_list, List.all_eq_true] at fit
    rw [Tariff.charge_list, unspent_list, Encoder.size_list, excess_list]
    exact items values fun value mem => each value mem (fit value mem)
  | tuple values each =>
    rw [PyValue.all_tuple, Bool.true_and, List.all_eq_true] at fit
    rw [Tariff.charge_tuple, unspent_tuple, Encoder.size_tuple, excess_tuple]
    exact items values fun value mem => each value mem (fit value mem)
  | dict entries each =>
    rw [PyValue.all_dict, List.all_eq_true] at fit
    rw [Tariff.charge_dict, unspent_dict, Encoder.size_dict, excess_dict]
    have parts : ∀ entry ∈ entries, keyCost entry.1 + (tariff floats).charge entry.2 +
        (scalarUnspent entry.1 + unspent entry.2) = weight utf8Bytes ((compact floats limit).keyText entry.1) +
          (1 + (compact floats limit).size utf8Bytes entry.2) + excess entry.2 := by
      intro entry mem
      obtain ⟨isKey, isValue⟩ := Bool.and_eq_true_iff.mp (fit entry mem)
      have value := each entry mem isValue
      have key := key_balance floats limit isKey
      omega
    have sums := sum_balance parts
    show 2 + (entries.map fun entry => keyCost entry.1 + (tariff floats).charge entry.2).sum + _ =
      1 + ((entries.map fun entry => weight utf8Bytes ((compact floats limit).keyText entry.1) +
        (1 + (compact floats limit).size utf8Bytes entry.2)).sum + 1 * (entries.length - 1) + 1) + _
    omega
  | proxy entries _ =>
    rw [PyValue.all_proxy] at fit
    cases fit

/-! ### What is accepted -/

theorem utf8Size_text {v : PyValue F} (fit : v.all (fitScalar floats low) fitKey true = true) :
    utf8Size ((compact floats limit).text v) = some (encodedBytes floats limit v) := by
  have ascii : ∀ {t : Text}, (∀ c ∈ t, c < 0x80) → weight (fun c => if isSurrogate c then 1 else 0) t = 0 := by
    intro t small
    refine (weight_eq_zero _).mpr fun c mem => if_neg ?_
    have isSmall := small c mem
    unfold isSurrogate
    rw [decide_eq_true_eq]
    omega
  have texts : ∀ {t : Text}, t.any unfit = false → weight (fun c => if isSurrogate c then 1 else 0) (plainString t) = 0 := by
    intro t fit
    rw [List.any_eq_false] at fit
    unfold plainString
    rw [weight_cons, weight_append, weight_flatMap, Nat.add_eq_zero_iff, Nat.add_eq_zero_iff,
      List.sum_eq_zero_iff_forall_eq_nat, List.forall_mem_map]
    refine ⟨rfl, fun c mem => ?_, rfl⟩
    have isFit := fit c mem
    unfold unfit at isFit
    rw [Bool.or_eq_true, not_or] at isFit
    unfold escapeChar
    split_ifs with isQuote isBackslash isNewline isReturn isTab isFeed isBack control
    iterate 7 rfl
    · refine ascii fun d isIn => ?_
      have digits : ∀ n, hexDigit (n % 16) < 0x80 := by
        intro n
        unfold hexDigit
        split_ifs <;> omega
      simp only [unitEscape, List.mem_cons, List.not_mem_nil, or_false] at isIn
      rcases isIn with rfl | rfl | rfl | rfl | rfl | rfl
      · omega
      · omega
      all_goals exact digits _
    · exact (weight_eq_zero _).mpr fun d isIn => if_neg ((List.mem_singleton.mp isIn) ▸ isFit.2)
  have none : weight (fun c => if isSurrogate c then 1 else 0) ((compact floats limit).text v) = 0 := by
    rw [Encoder.weight_text]
    refine Encoder.size_eq_zero _ _ (by simp [isSurrogate]) rfl rfl (fun s isFit => ?_) (fun s isFit => ?_) fit
    · cases s with
      | integer n => exact ascii fun c mem => by have digit := integerText_ascii n c mem; omega
      | float x => exact ascii (floats.ascii x)
      | text t => exact texts (Bool.not_eq_true' _ ▸ isFit)
      | boolean b => cases b <;> rfl
      | none => rfl
      | other => rfl
    · cases s with
      | text t => exact texts (Bool.not_eq_true' _ ▸ (Bool.and_eq_true_iff.mp isFit).2)
      | _ => cases isFit
  rw [weight_eq_zero] at none
  refine if_neg ?_
  rw [List.any_eq_true]
  rintro ⟨c, mem, wrong⟩
  have isZero := none c mem
  rw [if_pos wrong] at isZero
  cases isZero

theorem encodable_of_fit {v : PyValue F} (fit : v.all (fitScalar floats (-maxInt)) fitKey true = true) :
    (compact floats limit).encodable v = true := by
  refine PyValue.all_imp fit (fun s isFit => ?_) (fun s isFit => ?_) id
  · cases s with
    | integer n =>
      have within := of_decide_eq_true isFit
      have converted := str_of_small limit (by unfold maxInt at within; omega) within.2
      unfold DigitLimit.str at converted
      exact (Option.ite_none_right_eq_some.mp converted).1
    | float x => exact isFit
    | other => cases isFit
    | _ => rfl
  · cases s with
    | text t => rfl
    | _ => cases isFit

theorem all_plain {scalar key : Scalar F → Bool} {v : PyValue F} (all : v.all scalar key true = true) :
    v.plain.all scalar key true = true := by
  induction v using PyValue.inductOn with
  | scalar s => rwa [PyValue.plain_scalar]
  | list items each =>
    rw [PyValue.all_list, List.all_eq_true] at all
    rw [PyValue.plain_list, PyValue.all_list, List.all_map, List.all_eq_true]
    exact fun item mem => each item mem (all item mem)
  | tuple items each =>
    rw [PyValue.all_tuple, Bool.true_and, List.all_eq_true] at all
    rw [PyValue.plain_tuple, PyValue.all_list, List.all_map, List.all_eq_true]
    exact fun item mem => each item mem (all item mem)
  | dict entries each =>
    rw [PyValue.all_dict, List.all_eq_true] at all
    rw [PyValue.plain_dict, PyValue.all_dict, List.all_map, List.all_eq_true]
    intro entry mem
    obtain ⟨isKey, isValue⟩ := Bool.and_eq_true_iff.mp (all entry mem)
    exact Bool.and_eq_true_iff.mpr ⟨isKey, each entry mem isValue⟩
  | proxy entries _ =>
    rw [PyValue.all_proxy] at all
    cases all

theorem encodedSize_plain {v : PyValue F} (fit : v.all (fitScalar floats (-maxInt)) fitKey true = true) :
    encodedSize floats limit v.plain = some (encodedBytes floats limit v) := by
  have fit' := all_plain fit
  unfold encodedSize Encoder.dumps
  rw [if_pos (encodable_of_fit floats limit fit'), Option.bind_some, utf8Size_text floats limit fit']
  unfold encodedBytes
  rw [Encoder.text_plain _ fit]

variable {heap : Heap R F} {ref : R} {maxBytes maxDepth : ℤ} {copy v : PyValue F}

/-- **What the check accepts**: plain objects, no deeper and no larger than the limits, that are not spent more than the
limit either. -/
theorem check_eq_ok : checkJsonObject floats limit heap ref maxBytes maxDepth = .ok copy ↔
    ∃ v, Holds heap ref v ∧ (∃ entries, v = .dict entries) ∧ v.all (fitScalar floats (-maxInt)) fitKey true = true ∧
      (v.depth : ℤ) ≤ maxDepth ∧ ((tariff floats).charge v : ℤ) ≤ maxBytes ∧
      (encodedBytes floats limit v : ℤ) ≤ maxBytes ∧ copy = v.plain := by
  have walked := @Rules.walk_eq_ok _ _ _ _ (tariff floats) heap maxDepth.toNat ref (charge floats limit) maxBytes
  unfold checkJsonObject
  cases here : heap ref with
  | dict entries =>
    dsimp only
    rw [bind_eq_ok]
    constructor
    · rintro ⟨⟨clean, left⟩, isWalked, measured⟩
      obtain ⟨v, read, fit, rfl, paid, -⟩ := (walked clean left).mp isWalked
      dsimp only at measured
      rw [encodedSize_plain floats limit fit] at measured
      dsimp only at measured
      rw [refuse_eq_ok, Except.ok.injEq] at measured
      obtain ⟨holds, deep⟩ := unfold_eq_some_iff.mp read
      obtain ⟨values, -, rfl⟩ := holds.dict here
      refine ⟨_, holds, ⟨values, rfl⟩, fit, ?_, paid, not_lt.mp measured.1, measured.2.symm⟩
      rw [PyValue.depth_dict] at deep ⊢
      omega
    · rintro ⟨v, holds, ⟨values, rfl⟩, fit, deep, paid, small, rfl⟩
      refine ⟨(_, _), (walked _ _).mpr ⟨_, unfold_eq_some_iff.mpr ⟨holds, by omega⟩, fit, rfl, paid, rfl⟩, ?_⟩
      dsimp only
      rw [encodedSize_plain floats limit fit]
      dsimp only
      rw [refuse_eq_ok]
      exact ⟨not_lt.mpr small, rfl⟩
  | scalar s =>
    refine ⟨fun wrong => (by cases wrong), ?_⟩
    rintro ⟨v, holds, ⟨values, rfl⟩, -⟩
    cases (holds_scalar here).mp holds
  | list items =>
    refine ⟨fun wrong => (by cases wrong), ?_⟩
    rintro ⟨v, holds, ⟨values, rfl⟩, -⟩
    obtain ⟨_, -, wrong⟩ := holds.list here
    cases wrong
  | tuple items =>
    refine ⟨fun wrong => (by cases wrong), ?_⟩
    rintro ⟨v, holds, ⟨values, rfl⟩, -⟩
    obtain ⟨_, -, wrong⟩ := holds.tuple here
    cases wrong

/-! ### What is raised -/

theorem spend_error {cost : ℕ} (failed : spend cost remaining = .error e) :
    ∃ kind, e = .problem kind := by
  unfold spend at failed
  split_ifs at failed
  cases failed
  exact ⟨_, rfl⟩

theorem walkScalar_error (failed : walkScalar floats limit s remaining = .error e) : ∃ kind, e = .problem kind := by
  cases s with
  | none | boolean => exact spend_error failed
  | integer n =>
    unfold walkScalar at failed
    dsimp only at failed
    split_ifs at failed with within
    · rw [str_of_small limit (by unfold maxInt at within; omega) within.2] at failed
      exact spend_error failed
    · cases failed
      exact ⟨_, rfl⟩
  | float x =>
    unfold walkScalar at failed
    dsimp only at failed
    split_ifs at failed
    · cases failed
      exact ⟨_, rfl⟩
    · exact spend_error failed
  | text t =>
    unfold walkScalar spendText at failed
    dsimp only at failed
    split_ifs at failed
    · cases failed
      exact ⟨_, rfl⟩
    · cases failed
      exact ⟨_, rfl⟩
    · exact spend_error failed
  | other =>
    cases failed
    exact ⟨_, rfl⟩

theorem walkKey_error (failed : walkKey s remaining = .error e) :
    ∃ kind, e = .problem kind := by
  cases s with
  | text t =>
    unfold walkKey spendKeyText at failed
    rcases bind_eq_error.mp failed with failed | ⟨_, -, failed⟩
    · split_ifs at failed
      · cases failed
        exact ⟨_, rfl⟩
      · cases failed
        exact ⟨_, rfl⟩
      · exact spend_error failed
    · exact spend_error failed
  | _ =>
    cases failed
    exact ⟨_, rfl⟩

theorem check_error (failed : checkJsonObject floats limit heap ref maxBytes maxDepth = .error e) :
    ∃ kind, e = .problem kind := by
  have walked := @Rules.walk_eq_ok _ _ _ _ (tariff floats) heap maxDepth.toNat ref (charge floats limit) maxBytes
  unfold checkJsonObject at failed
  cases here : heap ref with
  | dict entries =>
    rw [here] at failed
    dsimp only at failed
    rcases bind_eq_error.mp failed with failed | ⟨⟨clean, left⟩, isWalked, failed⟩
    · exact Rules.walk_error (P := fun e => ∃ kind, e = .problem kind) (fun _ _ _ => walkScalar_error floats limit) (fun _ _ _ => walkKey_error)
        (fun _ _ => spend_error) (fun _ _ => spend_error) ⟨_, rfl⟩ ⟨_, rfl⟩ failed
    · obtain ⟨v, -, fit, rfl, -, -⟩ := (walked clean left).mp isWalked
      dsimp only at failed
      rw [encodedSize_plain floats limit fit] at failed
      dsimp only at failed
      split_ifs at failed
      cases failed
      exact ⟨_, rfl⟩
  | _ =>
    rw [here] at failed
    cases failed
    exact ⟨_, rfl⟩

theorem thaw_freeze (v : PyValue F) : thawJson (freezeJson v) = v.plain := by
  unfold thawJson freezeJson
  induction v using PyValue.inductOn with
  | scalar s => simp
  | list items each =>
    rw [PyValue.fold_list, PyValue.fold_tuple, PyValue.plain_list, List.map_map]
    exact congrArg PyValue.list (List.map_congr_left each)
  | tuple items each =>
    rw [PyValue.fold_tuple, PyValue.fold_tuple, PyValue.plain_tuple, List.map_map]
    exact congrArg PyValue.list (List.map_congr_left each)
  | dict entries each =>
    rw [PyValue.fold_dict, PyValue.fold_proxy, PyValue.plain_dict, List.map_map]
    exact congrArg PyValue.dict (List.map_congr_left fun entry mem => congrArg (Prod.mk entry.1) (each entry mem))
  | proxy entries each =>
    rw [PyValue.fold_proxy, PyValue.fold_proxy, PyValue.plain_proxy, List.map_map]
    exact congrArg PyValue.dict (List.map_congr_left fun entry mem => congrArg (Prod.mk entry.1) (each entry mem))

/-! ### What the check decides -/

/-- A value holds no integer below the ones that are accepted, and with what is spent in excess it is not too large. -/
structure Affordable (maxBytes : ℤ) (v : PyValue F) : Prop where
  integers : v.all (fitScalar floats (-maxInt)) fitKey true = true
  bytes : (encodedBytes floats limit v + excess v : ℤ) ≤ maxBytes + unspent v

/-- **The check decides what is documented** exactly where every documented value is affordable; what is spent is
within what is written exactly where no more is spent in excess than is not spent. -/
theorem checkJsonObject_decides_iff (heap : Heap R F) (ref : R) (maxBytes maxDepth : ℤ) :
    (Decides floats limit heap ref maxBytes maxDepth ↔
      ∀ v, Documented floats limit heap ref maxBytes maxDepth v → Affordable floats limit maxBytes v) ∧
    ∀ v, v.all (fitScalar floats (-maxInt)) fitKey true = true →
      ((tariff floats).charge v ≤ encodedBytes floats limit v ↔ excess v ≤ unspent v) := by
  refine ⟨⟨fun decides v documented => ?_, fun affordable => ?_⟩, fun v fit => ?_⟩
  · obtain ⟨copy, accepted⟩ := decides.accepts.mpr ⟨v, documented⟩
    obtain ⟨w, holds, -, fit, -, paid, -, -⟩ := (check_eq_ok floats limit).mp accepted
    rw [← documented.holds.unique holds] at fit paid
    have balanced := balance floats limit fit
    exact ⟨fit, by omega⟩
  · refine ⟨⟨?_, ?_⟩, fun raised => check_error floats limit, fun copy accepted => ?_⟩
    · rintro ⟨copy, accepted⟩
      obtain ⟨v, holds, object, fit, deep, -, small, -⟩ := (check_eq_ok floats limit).mp accepted
      refine ⟨v, holds, object, PyValue.all_imp fit (fun s isFit => ?_) (fun _ isKey => isKey) id, deep, small⟩
      cases s with
      | integer n =>
        have within := of_decide_eq_true isFit
        refine decide_eq_true ⟨?_, within.2⟩
        unfold maxInt at within
        omega
      | _ => exact isFit
    · rintro ⟨v, documented⟩
      obtain ⟨fit, bytes⟩ := affordable v documented
      have balanced := balance floats limit fit
      exact ⟨v.plain, (check_eq_ok floats limit).mpr
        ⟨v, documented.holds, documented.object, fit, documented.nested, by omega, documented.small, rfl⟩⟩
    · obtain ⟨v, -, -, -, -, -, -, rfl⟩ := (check_eq_ok floats limit).mp accepted
      rw [thaw_freeze, PyValue.plain_plain]
  · have balanced := balance floats limit fit
    omega

theorem noFloats_written (x : Empty) (_ : x.elim = true) : x.elim = (x.elim : Text) := x.elim

theorem noFloats_ascii (x : Empty) : ∀ c ∈ (x.elim : Text), c < 0x80 := x.elim

def noFloats : Floats Empty := ⟨Empty.elim, Empty.elim, Empty.elim, noFloats_written, noFloats_ascii⟩

/-- The graph of `{"a": [None]}`. -/
def arrayHeap : Heap (Fin 3) Empty := fun ref =>
  if ref = 0 then .dict [(.text (lit "a"), 1)] else if ref = 1 then .list [2] else .scalar .none

/-- `{"a":[null]}` is twelve bytes, and a limit of twelve bytes refuses it: thirteen are spent. -/
theorem array_refused : ¬ Decides noFloats ⟨0, Or.inl rfl⟩ arrayHeap 0 12 4 := by
  intro decides
  have documented : Documented noFloats ⟨0, Or.inl rfl⟩ arrayHeap 0 12 4 (.dict [(.text (lit "a"), .list [.scalar .none])]) :=
    ⟨⟨2, rfl⟩, ⟨_, rfl⟩, rfl, by decide, by decide⟩
  obtain ⟨copy, accepted⟩ := decides.accepts.mpr ⟨_, documented⟩
  have refused : checkJsonObject noFloats ⟨0, Or.inl rfl⟩ arrayHeap 0 12 4 = .error (.problem .size) := rfl
  rw [refused] at accepted
  cases accepted

end PawBackend.Orchestrator.JsonValue
