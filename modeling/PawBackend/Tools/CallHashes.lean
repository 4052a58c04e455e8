/-
**What an approval is bound to** (`tools/calls.py`: `compute_call_hash`, `_parse_value`).

The hash of a call is the digest of a JSON document of its tool, its normalised arguments, its task, its user and its
agent. The document is ASCII: it says of a text which UTF-16 code units it has, and no more:

* `callDocument_eq_iff`: two calls have one document if and only if they agree in everything but such spellings.
-/

import PawBackend.Lib.JsonText
import PawBackend.Tools.GrantPattern
import PawBackend.Tools.Summaries

namespace PawBackend.Tools

open Lib Lib.Text Lib.Json List

variable {py : Platform}

/-! ### What the arguments are normalised to -/

section Parsed

variable {base : Option Text} {supplied : List (Option Text × ArgumentValue)}

theorem parseDeclared_values {state next : Parsing py} {declared : Text × ArgumentSpec}
    (accepted : parseDeclared py base supplied state declared = .ok next) :
    next.values = state.values ∨ ∃ raw value target, parseValue py declared.2 raw base = .ok (value, target) ∧
      next.values = state.values ++ [(declared.1, value)] := by
  unfold parseDeclared at accepted
  cases found : supplied.lookup (some declared.1) with
  | none =>
    rw [found] at accepted
    dsimp only at accepted
    split_ifs at accepted
    cases accepted
    exact Or.inl rfl
  | some raw =>
    rw [found] at accepted
    dsimp only at accepted
    unfold parseSupplied at accepted
    by_cases long : maxArgumentChars < state.totalChars + raw.chars
    · simp only [long, if_true] at accepted
      cases accepted
    · simp only [long, if_false] at accepted
      cases parsed : parseValue py declared.2 raw base with
      | error reason =>
        rw [parsed] at accepted
        cases accepted
      | ok both =>
        obtain ⟨value, target⟩ := both
        rw [parsed] at accepted
        obtain ⟨item, -, isNext⟩ := bind_eq_ok.mp (show (SummaryItem.make py _ _ _ >>= _) = .ok next from accepted)
        cases isNext
        exact Or.inr ⟨raw, value, target, parsed, rfl⟩

theorem foldlM_values {declared : List (Text × ArgumentSpec)} {state last : Parsing py}
    (accepted : declared.foldlM (parseDeclared py base supplied) state = .ok last) :
    ∃ more, last.values = state.values ++ more ∧ (more.map Prod.fst).Sublist (declared.map Prod.fst) ∧
      ∀ entry ∈ more, ∃ argument raw target, (entry.1, argument) ∈ declared ∧
        parseValue py argument raw base = .ok (entry.2, target) := by
  induction declared generalizing state with
  | nil =>
    cases accepted
    exact ⟨[], (append_nil _).symm, List.Sublist.refl _, nofun⟩
  | cons argument rest ih =>
    rw [foldlM_cons, bind_eq_ok] at accepted
    obtain ⟨next, first, others⟩ := accepted
    obtain ⟨more, isMore, sublist, values⟩ := ih others
    have later : ∀ entry ∈ more, ∃ spec raw target, (entry.1, spec) ∈ argument :: rest ∧
        parseValue py spec raw base = .ok (entry.2, target) := by
      intro entry mem
      obtain ⟨spec, raw, target, declared, parsed⟩ := values entry mem
      exact ⟨spec, raw, target, mem_cons_of_mem _ declared, parsed⟩
    rcases parseDeclared_values first with same | ⟨raw, value, target, parsed, added⟩
    · exact ⟨more, same ▸ isMore, sublist.cons _, later⟩
    · refine ⟨(argument.1, value) :: more, ?_, sublist.cons_cons _, ?_⟩
      · rw [isMore, added, append_assoc]
        rfl
      · intro entry mem
        rcases mem_cons.mp mem with rfl | mem
        · exact ⟨argument.2, raw, target, mem_cons_self, parsed⟩
        · exact later entry mem

theorem parseArguments_values {spec : ToolSpec} {arguments : Supplied} {scope : TaskScope py.toStdlib}
    {parsed : ParsedArguments py} (accepted : parseArguments py spec arguments scope = .ok parsed) :
    (parsed.values.map Prod.fst).Sublist (spec.arguments.map Prod.fst) ∧
      ∀ entry ∈ parsed.values, ∃ argument raw target, (entry.1, argument) ∈ spec.arguments ∧
        parseValue py argument raw scope.base = .ok (entry.2, target) := by
  cases arguments with
  | none => cases accepted
  | some supplied =>
    rw [parseArguments_some] at accepted
    split_ifs at accepted
    cases folded : spec.arguments.foldlM (parseDeclared py scope.base supplied) {} with
    | error error =>
      rw [folded] at accepted
      cases accepted
    | ok last =>
      rw [folded] at accepted
      cases accepted
      obtain ⟨more, isMore, sublist, values⟩ := foldlM_values folded
      rw [nil_append] at isMore
      rw [isMore]
      exact ⟨sublist, values⟩

end Parsed

/-! ### The texts of values -/

theorem unicodeEscape_eq (unit : ℕ) : unicodeEscape unit = unitEscape unit := by
  show lit "\\u" ++ [hexDigit (unit / 16 / 16 / 16 % 16), hexDigit (unit / 16 / 16 % 16), hexDigit (unit / 16 % 16),
    hexDigit (unit % 16)] = _
  have third : unit / 16 / 16 = unit / 256 := Nat.div_div_eq_div_mul unit 16 16
  have fourth : unit / 256 / 16 = unit / 4096 := Nat.div_div_eq_div_mul unit 256 16
  rw [third, fourth]
  rfl

theorem jsonText_eq (t : Text) : jsonText t = asciiString t := by
  have each : ∀ c, (if c = 34 then lit "\\\"" else if c = 92 then lit "\\\\" else if c = 10 then lit "\\n"
      else if c = 13 then lit "\\r" else if c = 9 then lit "\\t" else if c = 12 then lit "\\f"
      else if c = 8 then lit "\\b" else if 32 ≤ c ∧ c ≤ 126 then [c] else if c < 0x10000 then unicodeEscape c
      else unicodeEscape (0xD800 + (c - 0x10000) / 0x400) ++ unicodeEscape (0xDC00 + (c - 0x10000) % 0x400)) =
        (units c).flatMap escapeUnit := by
    intro c
    simp only [unicodeEscape_eq]
    rcases Nat.lt_or_ge c 0x10000 with basic | beyond
    · rw [units_of_lt basic, flatMap_singleton, if_pos basic]
      rfl
    · have far : ∀ unit, 0xD800 ≤ unit → escapeUnit unit = unitEscape unit := by
        intro unit isFar
        unfold escapeUnit
        iterate 8 rw [if_neg (by omega)]
      have isUnits : units c = [0xD800 + (c - 0x10000) / 0x400, 0xDC00 + (c - 0x10000) % 0x400] := if_neg (by omega)
      rw [isUnits, flatMap_cons, flatMap_singleton, far _ (by omega), far _ (by omega)]
      iterate 9 rw [if_neg (by omega)]
  unfold jsonText asciiString utf16
  rw [flatMap_assoc]
  simp only [each]
  rfl

namespace Value

def SameUnits : Value → Value → Prop
  | .text t, .text u => utf16 t = utf16 u
  | v, w => v = w

/-- A text is one a `str` can hold. -/
def IsStr : Value → Prop
  | .text t => Json.IsStr t
  | _ => True

end Value

/-- A character of a number or a flag. -/
def wordChar (c : ℕ) : Bool := isDigit c || isLower c || decide (c = 45)

theorem shown_integer (n : ℤ) :
    shown (.integer n) = if n < 0 then lit "-" ++ decimal n.natAbs else decimal n.natAbs :=
  rfl

theorem shown_word (value : Value) (notText : ∀ t, value ≠ .text t) :
    jsonValue value = shown value ∧ (∃ c rest, shown value = c :: rest) ∧ ∀ c ∈ shown value, wordChar c = true := by
  have digits : ∀ n : ℕ, ∀ c ∈ decimal n, wordChar c = true := by
    intro n c mem
    unfold wordChar
    rw [isDigit_of_mem_decimal mem, Bool.true_or, Bool.true_or]
  cases value with
  | text t => exact absurd rfl (notText t)
  | integer n =>
    refine ⟨rfl, ?_, ?_⟩
    · rw [shown_integer]
      split_ifs
      · exact ⟨_, _, rfl⟩
      · exact exists_cons_of_ne_nil (decimal_ne_nil _)
    · rw [shown_integer]
      split_ifs
      · intro c mem
        rcases mem_cons.mp (show c ∈ 45 :: decimal n.natAbs from mem) with rfl | mem
        · decide
        · exact digits _ c mem
      · exact digits _
  | boolean b => cases b <;> exact ⟨rfl, ⟨_, _, rfl⟩, by decide⟩

theorem shown_integer_injective {m n : ℤ} (same : shown (.integer m) = shown (.integer n)) : m = n := by
  have noSign : ∀ k rest, decimal k ≠ 45 :: rest := by
    intro k rest isSigned
    have digit := isDigit_of_mem_decimal (n := k) (c := 45) (isSigned ▸ mem_cons_self)
    exact absurd digit (by decide)
  have sizes : ∀ j k : ℕ, decimal j = decimal k → j = k := fun j k same => by
    rw [← toNat_decimal j, same, toNat_decimal]
  rw [shown_integer, shown_integer] at same
  split_ifs at same with negative negative' negative'
  · have := sizes _ _ (append_cancel_left same)
    omega
  · exact absurd same.symm (noSign _ _)
  · exact absurd same (noSign _ _)
  · have := sizes _ _ same
    omega

theorem shown_injective {v w : Value} (notText : ∀ t, v ≠ .text t) (notText' : ∀ t, w ≠ .text t)
    (same : shown v = shown w) : v = w := by
  have apart : ∀ (n : ℤ) (b : Bool), shown (.integer n) ≠ shown (.boolean b) := by
    intro n b isSame
    have letters : ∀ c ∈ shown (.boolean b), isDigit c = false ∧ c ≠ 45 := by cases b <;> decide
    rw [← isSame] at letters
    rw [shown_integer] at letters
    split_ifs at letters
    · exact (letters 45 (mem_append_left _ (by decide))).2 rfl
    · obtain ⟨c, rest, isCons⟩ := exists_cons_of_ne_nil (decimal_ne_nil n.natAbs)
      have inside : c ∈ decimal n.natAbs := isCons ▸ mem_cons_self
      exact absurd ((letters c inside).1.symm.trans (isDigit_of_mem_decimal inside)) (by decide)
  cases v with
  | text t => exact absurd rfl (notText t)
  | integer m =>
    cases w with
    | text t => exact absurd rfl (notText' t)
    | integer n => rw [shown_integer_injective same]
    | boolean b => exact absurd same (apart m b)
  | boolean b =>
    cases w with
    | text t => exact absurd rfl (notText' t)
    | integer n => exact absurd same.symm (apart n b)
    | boolean b' =>
      cases b <;> cases b'
      · rfl
      · exact absurd same (by decide)
      · exact absurd same (by decide)
      · rfl

namespace Value

theorem SameUnits.refl (v : Value) : v.SameUnits v := by cases v <;> rfl

theorem SameUnits.jsonValue_eq {v w : Value} (same : v.SameUnits w) : jsonValue v = jsonValue w := by
  cases v with
  | text t =>
    cases w with
    | text u =>
      show jsonText t = jsonText u
      rw [jsonText_eq, jsonText_eq]
      exact asciiString_congr same
    | integer n => cases same
    | boolean b => cases same
  | integer n => exact congrArg jsonValue (show Value.integer n = w from same)
  | boolean b => exact congrArg jsonValue (show Value.boolean b = w from same)

end Value

theorem jsonValue_delimited : Delimited jsonValue Value.SameUnits Value.IsStr (Followed 44 125) := by
  have isText : ∀ (t : Text) (w : Value) (r s : Text), (∀ u, w ≠ .text u) → jsonValue (.text t) ++ r ≠ jsonValue w ++ s := by
    intro t w r s notText whole
    obtain ⟨isShown, ⟨c, rest, isWord⟩, chars⟩ := shown_word w notText
    rw [isShown, isWord, show jsonValue (.text t) = jsonText t from rfl, jsonText_eq] at whole
    have isQuote : 34 = c := (List.cons.inj whole).1
    have wordy := chars c (isWord ▸ mem_cons_self)
    rw [← isQuote] at wordy
    exact absurd wordy (by decide)
  have words : Delimited jsonValue (· = ·) (fun v => ∀ t, v ≠ .text t) (Followed 44 125) := by
    refine Delimited.run (p := wordChar) (fun v notText => ?_) (fun v w notText notText' same => ?_) ?_
    · rw [(shown_word v notText).1]
      exact (shown_word v notText).2.2
    · rw [(shown_word v notText).1, (shown_word w notText').1] at same
      exact shown_injective notText notText' same
    · rintro r ⟨c, rest, rfl, isEnd⟩ d isHead
      cases isHead
      rcases isEnd with rfl | rfl <;> decide
  have cases_text : ∀ v : Value, (∃ t, v = .text t) ∨ ∀ t, v ≠ .text t := by
    intro v
    cases v with
    | text t => exact Or.inl ⟨t, rfl⟩
    | integer | boolean => exact Or.inr fun t wrong => by cases wrong
  intro v w r s isV isW endsV endsW whole
  rcases cases_text v with ⟨t, rfl⟩ | notText <;> rcases cases_text w with ⟨u, rfl⟩ | notText'
  · rw [show jsonValue (.text t) = jsonText t from rfl, show jsonValue (.text u) = jsonText u from rfl, jsonText_eq,
      jsonText_eq] at whole
    exact asciiString_delimited isV isW trivial trivial whole
  · exact absurd whole (isText t w r s notText')
  · exact absurd whole.symm (isText u v s r notText)
  · obtain ⟨rfl, rests⟩ := words notText notText' endsV endsW whole
    exact ⟨Value.SameUnits.refl v, rests⟩

/-! ### The document of a call -/

theorem clean_of_ascii {t : Text} (ascii : ∀ c ∈ t, c < 128) : Clean t := fun c mem => by
  have := ascii c mem
  omega

theorem clean_argumentName {name : Text} (named : isArgumentName name = true) : Clean name := by
  refine clean_of_ascii fun c mem => ?_
  unfold isArgumentName at named
  cases name with
  | nil => cases mem
  | cons first rest =>
    simp only [Bool.and_eq_true, all_eq_true, Bool.or_eq_true, decide_eq_true_eq] at named
    rcases mem_cons.mp mem with rfl | inRest
    · have lower := named.1.1
      unfold isLower at lower
      simp only [decide_eq_true_eq] at lower
      omega
    · have isOne := named.2 c inRest
      unfold isLower isDigit at isOne
      simp only [decide_eq_true_eq] at isOne
      omega

theorem clean_lit (s : String) : Clean (lit s) := by
  intro c mem
  obtain ⟨char, -, rfl⟩ := mem_map.mp mem
  have valid := char.valid
  unfold UInt32.isValidChar Nat.isValidChar at valid
  show char.val.toNat < _ ∨ _ ≤ char.val.toNat ∧ char.val.toNat < _
  omega

theorem lit_injective {s t : String} (same : lit s = lit t) : s = t := by
  unfold lit at same
  exact String.toList_inj.mp (map_injective_iff.mpr (fun _ _ isSame => Char.toNat_inj.mp isSame) same)

theorem clean_uuidText (id : Uuid) : Clean (uuidText id) := by
  have digits : ∀ k n, ∀ c ∈ hexDigits k n, c < 128 := by
    intro k
    induction k with
    | zero => exact fun n c mem => absurd mem not_mem_nil
    | succ k ih =>
      intro n c mem
      rw [hexDigits, mem_append, mem_singleton] at mem
      rcases mem with inFront | rfl
      · exact ih _ c inFront
      · unfold hexDigit
        split_ifs <;> omega
  refine clean_of_ascii fun c mem => ?_
  have all := digits 32 id.toNat
  unfold uuidText at mem
  dsimp only at mem
  generalize hexDigits 32 id.toNat = hex at all mem
  rcases mem_join mem with rfl | ⟨part, isPart, inPart⟩
  · decide
  · refine all c ?_
    simp only [mem_cons, not_mem_nil, or_false] at isPart
    rcases isPart with rfl | rfl | rfl | rfl | rfl
    · exact mem_of_mem_take inPart
    iterate 3 exact mem_of_mem_drop (mem_of_mem_take inPart)
    exact mem_of_mem_drop inPart

theorem jsonText_clean : Delimited jsonText (· = ·) Clean Anything := by
  intro t u r s isT isU endsT endsU whole
  rw [jsonText_eq, jsonText_eq] at whole
  exact asciiString_clean isT isU endsT endsU whole

theorem uuid_delimited : Delimited (fun id => jsonText (uuidText id)) (· = ·) (fun _ => True) Anything := by
  intro a b r s _ _ endsA endsB whole
  obtain ⟨same, rests⟩ := jsonText_clean (clean_uuidText a) (clean_uuidText b) endsA endsB whole
  exact ⟨uuidText_injective same, rests⟩

def sortedValues (values : List (Text × Value)) : List (Text × Value) := values.insertionSort fun a b => a.1 ≤ b.1

/-- One argument of the document. -/
def memberText (entry : Text × Value) : Text := jsonText entry.1 ++ (lit ":" ++ jsonValue entry.2)

def argumentsText (values : List (Text × Value)) : Text := jsonObject (values.map fun value => (value.1, jsonValue value.2))

theorem argumentsText_eq (values : List (Text × Value)) :
    argumentsText values = lit "\x7b" ++ (join 44 ((sortedValues values).map memberText) ++ [125]) := by
  unfold argumentsText jsonObject sortedValues
  have sorted := map_insertionSort (fun a b : Text × Value => a.1 ≤ b.1) (fun a b : Text × Text => a.1 ≤ b.1)
    (fun value : Text × Value => (value.1, jsonValue value.2)) values fun a _ b _ => Iff.rfl
  rw [← sorted, map_map, append_assoc]
  congr 3
  refine map_congr_left fun entry _ => ?_
  exact append_assoc _ _ _

def callDocument (tool : String) (values : List (Text × Value)) (context : TaskContext py) : Text :=
  jsonObject
    [(lit "v", lit "1"), (lit "tool", jsonText (lit tool)), (lit "arguments", argumentsText values),
      (lit "task", jsonText (uuidText context.taskId)), (lit "user", jsonText (uuidText context.delegatorId)),
      (lit "agent", jsonText (uuidText context.grant.agentId))]

theorem callDocument_eq (tool : String) (values : List (Text × Value)) (context : TaskContext py) :
    callDocument tool values context =
      lit "\x7b\"agent\":" ++ (jsonText (uuidText context.grant.agentId) ++ (lit ",\"arguments\":" ++
        (argumentsText values ++ (lit ",\"task\":" ++ (jsonText (uuidText context.taskId) ++ (lit ",\"tool\":" ++
          (jsonText (lit tool) ++ (lit ",\"user\":" ++ (jsonText (uuidText context.delegatorId) ++
            lit ",\"v\":1\x7d"))))))))) := by
  unfold callDocument jsonObject
  generalize jsonText (uuidText context.grant.agentId) = agent
  generalize jsonText (uuidText context.taskId) = task
  generalize jsonText (uuidText context.delegatorId) = user
  generalize jsonText (lit tool) = name
  generalize argumentsText values = arguments
  have sorted : [(lit "v", lit "1"), (lit "tool", name), (lit "arguments", arguments), (lit "task", task),
      (lit "user", user), (lit "agent", agent)].insertionSort (fun a b => a.1 ≤ b.1) =
      [(lit "agent", agent), (lit "arguments", arguments), (lit "task", task), (lit "tool", name), (lit "user", user),
        (lit "v", lit "1")] := by
    rfl
  rw [sorted]
  simp only [map_cons, map_nil, join_cons _ _ (cons_ne_nil _ _), join_singleton, append_assoc,
    cons_append]
  rfl

/-! ### What the document tells apart -/

section Items

variable {same : Value → Value → Prop} {vs ws : List (Text × Value)}

/-- Two mappings have the same names, with values that are told apart by nothing but what `same` leaves out. -/
def SameItems (same : Value → Value → Prop) (vs ws : List (Text × Value)) : Prop :=
  ∃ ws', ws'.Perm ws ∧ List.Forall₂ (fun a b => a.1 = b.1 ∧ same a.2 b.2) vs ws'

/-- An argument that is named, and a text that a `str` can hold. -/
def ValidItem (entry : Text × Value) : Prop := isArgumentName entry.1 = true ∧ entry.2.IsStr

theorem memberText_delimited : Delimited memberText (fun a b => a.1 = b.1 ∧ a.2.SameUnits b.2) ValidItem (Followed 44 125) := by
  have names : Delimited jsonText (· = ·) (fun name => isArgumentName name = true) Anything :=
    jsonText_clean.mono (fun _ named => clean_argumentName named) fun _ any => any
  exact names.pair (jsonValue_delimited.after (lit ":")) fun _ _ _ _ => trivial

theorem memberText_starts (entry : Text × Value) : ∃ c rest, memberText entry = c :: rest ∧ c ≠ 125 := by
  unfold memberText
  rw [jsonText_eq]
  exact ⟨34, _, rfl, by decide⟩

theorem argumentsText_delimited :
    Delimited argumentsText (SameItems Value.SameUnits) (fun values => ∀ entry ∈ values, ValidItem entry) Anything := by
  have sorted : ∀ values : List (Text × Value), (sortedValues values).Perm values :=
    fun values => perm_insertionSort _ values
  have objects := (memberText_delimited.joined (fun entry _ => memberText_starts entry) (by decide)).after (lit "\x7b")
  intro vs ws r s isV isW endsV endsW whole
  rw [argumentsText_eq, argumentsText_eq] at whole
  obtain ⟨items, rests⟩ := objects (a := sortedValues vs) (b := sortedValues ws)
    (fun entry mem => isV entry ((sorted vs).mem_iff.mp mem))
    (fun entry mem => isW entry ((sorted ws).mem_iff.mp mem)) endsV endsW whole
  obtain ⟨ws', matched, isPerm⟩ := perm_comp_forall₂ (sorted vs).symm items
  exact ⟨⟨ws', isPerm.trans (sorted ws), matched⟩, rests⟩

theorem insertionSort_perm {items others : List (Text × Text)} (distinct : (items.map Prod.fst).Nodup)
    (perm : items.Perm others) :
    items.insertionSort (fun a b => a.1 ≤ b.1) = others.insertionSort fun a b => a.1 ≤ b.1 := by
  have total : Std.Total fun a b : Text × Text => a.1 ≤ b.1 := ⟨fun a b => le_total a.1 b.1⟩
  have trans : IsTrans (Text × Text) fun a b => a.1 ≤ b.1 := ⟨fun _ _ _ first second => le_trans first second⟩
  have inItems := fun a : Text × Text => (perm_insertionSort (fun a b : Text × Text => a.1 ≤ b.1) items).mem_iff (a := a)
  have inOthers := fun a : Text × Text => (perm_insertionSort (fun a b : Text × Text => a.1 ≤ b.1) others).mem_iff (a := a)
  refine @List.Perm.eq_of_pairwise _ (fun a b => a.1 ≤ b.1) _ _ (fun a b isA isB le ge => ?_)
    (pairwise_insertionSort _ _) (pairwise_insertionSort _ _)
    ((perm_insertionSort _ _).trans (perm.trans (perm_insertionSort _ _).symm))
  exact inj_on_of_nodup_map distinct ((inItems a).mp isA) (perm.mem_iff.mpr ((inOthers b).mp isB))
    (le_antisymm le ge)

theorem argumentsText_congr (distinct : (vs.map Prod.fst).Nodup) (items : SameItems Value.SameUnits vs ws) :
    argumentsText vs = argumentsText ws := by
  obtain ⟨ws', isPerm, matched⟩ := items
  have written : ∀ {xs ys : List (Text × Value)}, List.Forall₂ (fun a b => a.1 = b.1 ∧ a.2.SameUnits b.2) xs ys →
      xs.map (fun value => (value.1, jsonValue value.2)) = ys.map fun value => (value.1, jsonValue value.2) := by
    intro xs ys all
    induction all with
    | nil => rfl
    | cons first _ ih => rw [map_cons, map_cons, first.1, first.2.jsonValue_eq, ih]
  unfold argumentsText jsonObject
  rw [@insertionSort_perm _ (ws.map fun value => (value.1, jsonValue value.2)) ?_ ?_]
  · rw [map_map]
    exact distinct
  · rw [written matched]
    exact isPerm.map _

end Items

/-! ### What an approval is bound to -/

variable (py) in
/-- A call whose arguments were parsed; the texts among them are such as a `str` can hold. -/
structure BoundCall where
  spec : ToolSpec
  arguments : Supplied
  context : TaskContext py
  parsed : ParsedArguments py
  accepted : parseArguments py spec arguments context.scope = .ok parsed
  strings : ∀ entry ∈ parsed.values, entry.2.IsStr

namespace BoundCall

variable (a b : BoundCall py)

def document : Text := callDocument a.spec.name a.parsed.values a.context

/-- `compute_call_hash`. -/
def hash : CallHash := computeCallHash py a.spec.name a.parsed.values a.context

def SameParties : Prop :=
  a.spec.name = b.spec.name ∧ a.context.taskId = b.context.taskId ∧ a.context.delegatorId = b.context.delegatorId ∧
    a.context.grant.agentId = b.context.grant.agentId

def Same : Prop := a.SameParties b ∧ a.parsed.values.Perm b.parsed.values

/-- A text of one call is not that of the other, and every difference is one between a code point beyond U+FFFF and
the surrogates that stand for it. -/
def Respelled : Prop :=
  a.SameParties b ∧ SameItems Value.SameUnits a.parsed.values b.parsed.values ∧
    ∃ name t u, (name, .text t) ∈ a.parsed.values ∧ (name, .text u) ∈ b.parsed.values ∧ t ≠ u

/-- No text of the call holds a high surrogate directly before a low one. -/
def Unpaired : Prop := ∀ name t, (name, .text t) ∈ a.parsed.values → ¬ Paired t

variable {a b}

theorem distinct : (a.parsed.values.map Prod.fst).Nodup := (parseArguments_values a.accepted).1.nodup a.spec.distinct

theorem validItem : ∀ entry ∈ a.parsed.values, ValidItem entry := by
  intro entry mem
  obtain ⟨argument, raw, target, declared, -⟩ := (parseArguments_values a.accepted).2 entry mem
  exact ⟨a.spec.isArgumentName declared, a.strings entry mem⟩

theorem document_eq_iff :
    a.document = b.document ↔ a.SameParties b ∧ SameItems Value.SameUnits a.parsed.values b.parsed.values := by
  unfold document
  rw [callDocument_eq, callDocument_eq]
  constructor
  · intro whole
    obtain ⟨sameAgent, rests⟩ := uuid_delimited.after (lit "\x7b\"agent\":") trivial trivial trivial trivial
      (by simpa only [append_assoc] using whole)
    obtain ⟨sameArguments, rests⟩ := argumentsText_delimited.after (lit ",\"arguments\":") validItem validItem trivial trivial
      (by simpa only [append_assoc] using rests)
    obtain ⟨sameTask, rests⟩ := uuid_delimited.after (lit ",\"task\":") trivial trivial trivial trivial
      (by simpa only [append_assoc] using rests)
    obtain ⟨sameTool, rests⟩ := jsonText_clean.after (lit ",\"tool\":") (clean_lit _) (clean_lit _) trivial trivial
      (by simpa only [append_assoc] using rests)
    obtain ⟨sameUser, -⟩ := uuid_delimited.after (lit ",\"user\":") trivial trivial trivial trivial
      (by simpa only [append_assoc] using rests)
    exact ⟨⟨lit_injective sameTool, sameTask, sameUser, sameAgent⟩, sameArguments⟩
  · rintro ⟨⟨sameTool, sameTask, sameUser, sameAgent⟩, items⟩
    rw [sameTool, sameTask, sameUser, sameAgent, argumentsText_congr distinct items]

theorem same_iff (parties : a.SameParties b) (items : SameItems Value.SameUnits a.parsed.values b.parsed.values) :
    a.Same b ↔ ¬ a.Respelled b := by
  constructor
  · rintro ⟨-, perm⟩ ⟨-, -, name, t, u, inA, inB, apart⟩
    have sameItem := inj_on_of_nodup_map (b.distinct) (perm.mem_iff.mp inA) inB rfl
    rw [Prod.mk.injEq, Value.text.injEq] at sameItem
    exact apart sameItem.2
  · intro notRespelled
    refine ⟨parties, ?_⟩
    have kept := items
    obtain ⟨ws', isPerm, matched⟩ := items
    have allSame : ∀ {xs ys : List (Text × Value)}, (∀ entry ∈ xs, entry ∈ a.parsed.values) →
        (∀ entry ∈ ys, entry ∈ b.parsed.values) →
        List.Forall₂ (fun a b => a.1 = b.1 ∧ a.2.SameUnits b.2) xs ys → xs = ys := by
      intro xs ys inA inB all
      induction all with
      | nil => rfl
      | @cons x y xs ys first _ ih =>
        obtain ⟨name, v⟩ := x
        obtain ⟨name', w⟩ := y
        obtain ⟨rfl, sameUnits⟩ := first
        change v.SameUnits w at sameUnits
        have rest := ih (fun entry mem => inA entry (mem_cons_of_mem _ mem))
          fun entry mem => inB entry (mem_cons_of_mem _ mem)
        have isV := inA _ mem_cons_self
        have isW := inB _ mem_cons_self
        have sameValue : v = w := by
          cases v with
          | text t =>
            cases w with
            | text u =>
              by_contra apart
              exact notRespelled ⟨parties, kept, name, t, u, isV, isW, fun isSame => apart (congrArg Value.text isSame)⟩
            | integer | boolean => cases sameUnits
          | integer | boolean => exact sameUnits
        rw [sameValue, rest]
    rw [allSame (fun entry mem => mem) (fun entry mem => isPerm.mem_iff.mp mem) matched]
    exact isPerm

theorem not_respelled_of_unpaired (unpaired : a.Unpaired) (unpaired' : b.Unpaired) : ¬ a.Respelled b := by
  rintro ⟨-, ⟨ws', isPerm, matched⟩, name, t, u, inA, inB, apart⟩
  obtain ⟨other, inOther, isSame, sameUnits⟩ : ∃ other ∈ ws', name = other.1 ∧ (Value.text t).SameUnits other.2 := by
    have found := forall₂_iff_get.mp matched
    obtain ⟨i, isI, isEntry⟩ := mem_iff_getElem.mp inA
    have both := found.2 i isI (found.1 ▸ isI)
    rw [get_eq_getElem, get_eq_getElem, isEntry] at both
    exact ⟨_, getElem_mem _, both⟩
  obtain ⟨name', value⟩ := other
  obtain rfl : name' = name := isSame.symm
  have isU := inj_on_of_nodup_map (b.distinct) (isPerm.mem_iff.mp inOther) inB rfl
  rw [Prod.mk.injEq] at isU
  rw [isU.2] at sameUnits
  exact apart (utf16_injective (a.strings _ inA) (b.strings _ inB) (unpaired _ t inA) (unpaired' _ u inB) sameUnits)

end BoundCall

/-- **A document stands for one call** exactly where the other call is not respelled, and so does a hash, collisions
of the digest apart; where no text holds a pair of surrogates, no call is respelled. -/
theorem callHash_binds_iff (a b : BoundCall py) :
    ((a.document = b.document → a.Same b) ↔ ¬ a.Respelled b) ∧
      ((a.hash = b.hash → a.Same b ∨ a.document ≠ b.document) ↔ ¬ a.Respelled b) ∧
      (a.Unpaired → b.Unpaired → ¬ a.Respelled b) := by
  have one : (a.document = b.document → a.Same b) ↔ ¬ a.Respelled b := by
    constructor
    · intro stands respelled
      have isSame := stands (BoundCall.document_eq_iff.mpr ⟨respelled.1, respelled.2.1⟩)
      exact (BoundCall.same_iff respelled.1 respelled.2.1).mp isSame respelled
    · intro notRespelled isSame
      obtain ⟨parties, items⟩ := BoundCall.document_eq_iff.mp isSame
      exact (BoundCall.same_iff parties items).mpr notRespelled
  refine ⟨one, ?_, BoundCall.not_respelled_of_unpaired⟩
  rw [← one]
  constructor
  · intro stands isSame
    have sameHash : a.hash = b.hash := congrArg py.sha256 isSame
    rcases stands sameHash with isCall | apart
    · exact isCall
    · exact absurd isSame apart
  · intro stands _
    by_cases isSame : a.document = b.document
    · exact Or.inl (stands isSame)
    · exact Or.inr isSame

/-! ### Two calls that share their document -/

def Platform.surrogates : Platform where
  category c := if 0xD800 ≤ c ∧ c < 0xE000 then .cs else Stdlib.ascii.category c
  nfkc := Stdlib.ascii.nfkc
  nfkc_nil := Stdlib.ascii.nfkc_nil
  nfkc_slash := Stdlib.ascii.nfkc_slash
  ipv6 := Stdlib.ascii.ipv6
  ipv6_idem := Stdlib.ascii.ipv6_idem
  ipv6_plain := Stdlib.ascii.ipv6_plain
  sha256 _ := 0

def parsesTo (py : Platform) (spec : ToolSpec) (arguments : Supplied) (scope : TaskScope py.toStdlib)
    (values : List (Text × Value)) : Bool :=
  (parseArguments py spec arguments scope).toOption.any fun parsed => decide (parsed.values = values)

theorem parsed_of_parsesTo {spec : ToolSpec} {arguments : Supplied} {scope : TaskScope py.toStdlib}
    {values : List (Text × Value)} (parses : parsesTo py spec arguments scope values = true) :
    ∃ parsed, parseArguments py spec arguments scope = .ok parsed ∧ parsed.values = values := by
  obtain ⟨parsed, accepted, isValues⟩ := exists_of_toOption_any parses
  exact ⟨parsed, accepted, of_decide_eq_true isValues⟩

def sampleLease : Tasks.QueueLease := ⟨1, lit "w", 1, by rfl, by rfl, by rfl⟩

theorem notes_bound : ∃ context : TaskContext .surrogates, ∀ t ∈ [[0x10000], [0xD800, 0xDC00]], ∃ a : BoundCall .surrogates,
    a.spec = noteTool ∧ a.context = context ∧ a.parsed.values = [(lit "note", .text t)] := by
  have built : (TaskScope.make Platform.surrogates.toStdlib ⟨[lit "/w"], [], [(1, .active)], [], [], [], []⟩).toOption.any
      (fun scope => (scope.project 1).isSome && [[0x10000], [0xD800, 0xDC00]].all fun t =>
        parsesTo .surrogates noteTool (some [(some (lit "note"), .text t)]) scope [(lit "note", .text t)]) = true := by
    decide
  have strings : ∀ t ∈ [[0x10000], [0xD800, 0xDC00]], ∀ c ∈ t, c < 0x110000 := by decide
  obtain ⟨scope, -, holds⟩ := exists_of_toOption_any built
  obtain ⟨known, parses⟩ := Bool.and_eq_true_iff.mp holds
  let context : TaskContext .surrogates := ⟨1, 2, ⟨3, [], none⟩, scope, 1, TaskRun.first, sampleLease, known, by decide⟩
  refine ⟨context, fun t isNote => ?_⟩
  obtain ⟨parsed, accepted, values⟩ := parsed_of_parsesTo (all_eq_true.mp parses t isNote)
  refine ⟨⟨noteTool, _, context, parsed, accepted, fun entry isIn => ?_⟩, rfl, rfl, values⟩
  cases mem_singleton.mp (values ▸ isIn)
  exact strings t isNote

/-- Two calls that are not the same, and have one document. -/
theorem note_respelled : ∃ a b : BoundCall .surrogates, a.document = b.document ∧ ¬ a.Same b := by
  obtain ⟨context, bound⟩ := notes_bound
  obtain ⟨a, spec, isContext, values⟩ := bound [0x10000] (by decide)
  obtain ⟨b, spec', isContext', values'⟩ := bound [0xD800, 0xDC00] (by decide)
  refine ⟨a, b, BoundCall.document_eq_iff.mpr ⟨?_, b.parsed.values, List.Perm.refl _, ?_⟩, ?_⟩
  · unfold BoundCall.SameParties
    rw [spec, spec', isContext, isContext']
    exact ⟨rfl, rfl, rfl, rfl⟩
  · have sameUnits : utf16 [0x10000] = utf16 [0xD800, 0xDC00] := by decide
    rw [values, values']
    exact List.Forall₂.cons ⟨rfl, sameUnits⟩ List.Forall₂.nil
  · rintro ⟨-, isSame⟩
    rw [values, values', singleton_perm_singleton] at isSame
    cases isSame

end PawBackend.Tools
