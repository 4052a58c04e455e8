/-
**The text of a JSON string.**

`json.dumps` writes a text between quotes. With `ensure_ascii` each UTF-16 code unit is written for itself, so what
can be read back is the list of the code units (`asciiString_delimited`): a code point beyond the basic plane and the
pair of surrogates that stands for it are written alike.
-/

import PawBackend.Lib.Delimited

namespace PawBackend.Lib.Json

open Text List

/-! ### Code units -/

/-- What a `str` can hold: code points, surrogates included. -/
def IsStr (t : Text) : Prop := ∀ c ∈ t, c < 0x110000

/-- The UTF-16 code units of a code point. -/
def units (c : ℕ) : List ℕ :=
  if c < 0x10000 then [c] else [0xD800 + (c - 0x10000) / 0x400, 0xDC00 + (c - 0x10000) % 0x400]

def utf16 (t : Text) : List ℕ := t.flatMap units

/-- The first half of a pair, and the second. -/
def IsHigh (c : ℕ) : Prop := 0xD800 ≤ c ∧ c < 0xDC00

def IsLow (c : ℕ) : Prop := 0xDC00 ≤ c ∧ c < 0xE000

def Paired (t : Text) : Prop := ∃ before high low after, t = before ++ high :: low :: after ∧ IsHigh high ∧ IsLow low

variable {c : ℕ} {t u : Text}

theorem Paired.cons (paired : Paired t) : Paired (c :: t) := by
  obtain ⟨before, high, low, after, rfl, isHigh, isLow⟩ := paired
  exact ⟨c :: before, high, low, after, rfl, isHigh, isLow⟩

theorem units_lt (small : c < 0x110000) : ∀ unit ∈ units c, unit < 0x10000 := by
  unfold units
  intro unit mem
  split_ifs at mem with basic
  · rw [mem_singleton.mp mem]
    exact basic
  · simp only [mem_cons, not_mem_nil, or_false] at mem
    omega

theorem utf16_lt (isStr : IsStr t) : ∀ unit ∈ utf16 t, unit < 0x10000 := by
  intro unit mem
  obtain ⟨c, inText, inUnits⟩ := mem_flatMap.mp mem
  exact units_lt (isStr c inText) unit inUnits

theorem units_of_le (small : c < 0x110000) (beyond : 0x10000 ≤ c) :
    ∃ high low, units c = [high, low] ∧ IsHigh high ∧ IsLow low ∧ c = 0x10000 + (high - 0xD800) * 0x400 + (low - 0xDC00) := by
  refine ⟨0xD800 + (c - 0x10000) / 0x400, 0xDC00 + (c - 0x10000) % 0x400, if_neg (by omega), ?_, ?_, ?_⟩
  · unfold IsHigh
    omega
  · unfold IsLow
    omega
  · omega

theorem units_of_lt (basic : c < 0x10000) : units c = [c] := if_pos basic

theorem head_of_low {low : ℕ} {rest : Text} (isStr : IsStr (c :: t)) (isLow : IsLow low)
    (same : utf16 (c :: t) = low :: rest) : c = low := by
  unfold utf16 at same
  rw [flatMap_cons] at same
  rcases Nat.lt_or_ge c 0x10000 with basic | beyond
  · rw [units_of_lt basic] at same
    exact (List.cons.inj same).1
  · obtain ⟨high, other, isUnits, isHigh, -⟩ := units_of_le (isStr c (.head _)) beyond
    rw [isUnits] at same
    have isSame := (List.cons.inj same).1
    unfold IsHigh at isHigh
    unfold IsLow at isLow
    omega

theorem not_beyond {d : ℕ} (isStr : IsStr (c :: t)) (isStr' : IsStr (d :: u)) (unpaired : ¬ Paired (d :: u))
    (beyond : 0x10000 ≤ c) (basic : d < 0x10000) : utf16 (c :: t) ≠ utf16 (d :: u) := by
  intro same
  obtain ⟨high, low, isUnits, isHigh, isLow, -⟩ := units_of_le (isStr c (.head _)) beyond
  unfold utf16 at same
  rw [flatMap_cons, flatMap_cons, isUnits, units_of_lt basic] at same
  have isHead := (List.cons.inj same).1
  have tails : low :: t.flatMap units = utf16 u := (List.cons.inj same).2
  cases u with
  | nil => cases tails
  | cons e u =>
    have isNext := head_of_low (fun x mem => isStr' x (.tail _ mem)) isLow tails.symm
    exact unpaired ⟨[], d, e, u, rfl, isHead ▸ isHigh, isNext.symm ▸ isLow⟩

theorem utf16_injective (isStr : IsStr t) (isStr' : IsStr u) (unpaired : ¬ Paired t) (unpaired' : ¬ Paired u)
    (same : utf16 t = utf16 u) : t = u := by
  have nonempty : ∀ (c : ℕ) (rest : Text), utf16 (c :: rest) ≠ [] := by
    intro c rest isEmpty
    unfold utf16 units at isEmpty
    rw [flatMap_cons] at isEmpty
    split_ifs at isEmpty <;> cases isEmpty
  induction t generalizing u with
  | nil =>
    cases u with
    | nil => rfl
    | cons d u => exact absurd same.symm (nonempty d u)
  | cons c t ih =>
    cases u with
    | nil => exact absurd same (nonempty c t)
    | cons d u =>
      have tails : utf16 t = utf16 u → t = u :=
        ih (fun x mem => isStr x (.tail _ mem))
          (fun x mem => isStr' x (.tail _ mem)) (fun paired => unpaired paired.cons)
          (fun paired => unpaired' paired.cons)
      rcases Nat.lt_or_ge c 0x10000 with basic | beyond <;> rcases Nat.lt_or_ge d 0x10000 with basic' | beyond'
      · unfold utf16 at same
        rw [flatMap_cons, flatMap_cons, units_of_lt basic, units_of_lt basic'] at same
        rw [(List.cons.inj same).1, tails (List.cons.inj same).2]
      · exact absurd same.symm (not_beyond isStr' isStr unpaired beyond' basic)
      · exact absurd same (not_beyond isStr isStr' unpaired' beyond basic')
      · obtain ⟨high, low, isUnits, isHigh, isLow, isCode⟩ := units_of_le (isStr c (.head _)) beyond
        obtain ⟨high', low', isUnits', isHigh', isLow', isCode'⟩ := units_of_le (isStr' d (.head _)) beyond'
        unfold utf16 at same
        rw [flatMap_cons, flatMap_cons, isUnits, isUnits'] at same
        simp only [cons_append, nil_append, List.cons.injEq] at same
        obtain ⟨sameHigh, sameLow, rests⟩ := same
        rw [isCode, isCode', sameHigh, sameLow, tails rests]

/-! ### Escapes -/

def hexDigit (n : ℕ) : ℕ := if n < 10 then 48 + n else 87 + n

def hexValue (c : ℕ) : ℕ := if c < 58 then c - 48 else c - 87

theorem hexValue_hexDigit {n : ℕ} (small : n < 16) : hexValue (hexDigit n) = n := by
  unfold hexValue hexDigit
  split_ifs <;> omega

/-- One code unit as `\uXXXX`. -/
def unitEscape (unit : ℕ) : Text :=
  [92, 117, hexDigit (unit / 4096 % 16), hexDigit (unit / 256 % 16), hexDigit (unit / 16 % 16), hexDigit (unit % 16)]

/-- One code unit of a string, with `ensure_ascii`. -/
def escapeUnit (unit : ℕ) : Text :=
  if unit = 34 then [92, 34]
  else if unit = 92 then [92, 92]
  else if unit = 10 then [92, 110]
  else if unit = 13 then [92, 114]
  else if unit = 9 then [92, 116]
  else if unit = 12 then [92, 102]
  else if unit = 8 then [92, 98]
  else if 32 ≤ unit ∧ unit ≤ 126 then [unit]
  else unitEscape unit

def unescape (letter : ℕ) : ℕ :=
  if letter = 110 then 10 else if letter = 114 then 13 else if letter = 116 then 9
  else if letter = 102 then 12 else if letter = 98 then 8 else letter

def readUnit (t : Text) : Option (ℕ × Text) :=
  match t with
  | [] => none
  | c :: t =>
    if c ≠ 92 then some (c, t)
    else
      match t with
      | [] => none
      | letter :: t =>
        if letter ≠ 117 then some (unescape letter, t)
        else
          match t with
          | a :: b :: c :: d :: t =>
            some (hexValue a * 4096 + hexValue b * 256 + hexValue c * 16 + hexValue d, t)
          | _ => none

theorem readUnit_escapeUnit {unit : ℕ} (small : unit < 0x10000) (rest : Text) :
    readUnit (escapeUnit unit ++ rest) = some (unit, rest) := by
  unfold escapeUnit
  split_ifs with isQuote isBackslash isNewline isReturn isTab isFeed isBack printable
  iterate 7
    · subst unit
      rfl
  · show (if unit ≠ 92 then some (unit, rest) else _) = some (unit, rest)
    rw [if_pos isBackslash]
  · show some (hexValue (hexDigit (unit / 4096 % 16)) * 4096 + hexValue (hexDigit (unit / 256 % 16)) * 256 +
      hexValue (hexDigit (unit / 16 % 16)) * 16 + hexValue (hexDigit (unit % 16)), rest) = some (unit, rest)
    rw [hexValue_hexDigit (by omega), hexValue_hexDigit (by omega), hexValue_hexDigit (by omega),
      hexValue_hexDigit (by omega)]
    congr 2
    omega

theorem escapeUnit_starts (unit : ℕ) : ∃ c rest, escapeUnit unit = c :: rest ∧ c ≠ 34 := by
  unfold escapeUnit unitEscape
  split_ifs with isQuote
  iterate 7 exact ⟨_, _, rfl, by decide⟩
  · exact ⟨_, _, rfl, isQuote⟩
  · exact ⟨_, _, rfl, by decide⟩

theorem escapeUnit_delimited : Delimited escapeUnit (· = ·) (· < 0x10000) Anything := by
  intro a b r s isA isB _ _ whole
  have read := readUnit_escapeUnit isA r
  rw [whole, readUnit_escapeUnit isB s, Option.some.injEq, Prod.mk.injEq] at read
  exact ⟨read.1.symm, read.2.symm⟩

/-! ### Strings -/

/-- `json.dumps` of a text, with `ensure_ascii`. -/
def asciiString (t : Text) : Text := 34 :: ((utf16 t).flatMap escapeUnit ++ [34])

/-- One character of a string, without `ensure_ascii`. -/
def escapeChar (c : ℕ) : Text :=
  if c = 34 then [92, 34]
  else if c = 92 then [92, 92]
  else if c = 10 then [92, 110]
  else if c = 13 then [92, 114]
  else if c = 9 then [92, 116]
  else if c = 12 then [92, 102]
  else if c = 8 then [92, 98]
  else if c < 32 then unitEscape c
  else [c]

/-- `json.dumps` of a text, without `ensure_ascii`. -/
def plainString (t : Text) : Text := 34 :: (t.flatMap escapeChar ++ [34])

theorem asciiString_delimited : Delimited asciiString (fun t u => utf16 t = utf16 u) IsStr Anything := by
  intro t u r s isT isU endsT endsU whole
  unfold asciiString at whole
  rw [cons_append, cons_append] at whole
  exact Delimited.spelled escapeUnit_delimited (fun unit _ => escapeUnit_starts unit) (utf16_lt isT) (utf16_lt isU) endsT endsU
    (List.cons.inj whole).2

theorem asciiString_congr (same : utf16 t = utf16 u) : asciiString t = asciiString u := by
  unfold asciiString
  rw [same]

def Clean (t : Text) : Prop := ∀ c ∈ t, c < 0xD800 ∨ (0xE000 ≤ c ∧ c < 0x110000)

theorem Clean.isStr (clean : Clean t) : IsStr t := by
  intro c mem
  have isClean := clean c mem
  omega

theorem Clean.unpaired (clean : Clean t) : ¬ Paired t := by
  rintro ⟨before, high, low, after, rfl, isHigh, -⟩
  have isClean := clean high (mem_append_right _ (.head _))
  unfold IsHigh at isHigh
  omega

theorem asciiString_clean : Delimited asciiString (· = ·) Clean Anything := by
  intro t u r s isT isU endsT endsU whole
  obtain ⟨same, rests⟩ := asciiString_delimited isT.isStr isU.isStr endsT endsU whole
  exact ⟨utf16_injective isT.isStr isU.isStr isT.unpaired isU.unpaired same, rests⟩

end PawBackend.Lib.Json
