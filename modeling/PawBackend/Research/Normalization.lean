/-
**The normal form of a text** (`research/privacy/rules.py`).

`normalize_text` folds a text to NFKC, turns white space into blanks, drops control and format characters and
collapses the blanks. The normal form of the Unicode tables is a parameter; `NormalForm` is what is used of it.
-/

import PawBackend.Lib.Text

namespace PawBackend.Research

open Lib List
open Lib.Text

section Normalization

variable (u : Unicode)

def isDropped (c : ℕ) : Bool := decide (u.category c = .cc ∨ u.category c = .cf)

/-- What the loop of `normalize_text` makes of a character. -/
def printable (c : ℕ) : Option ℕ :=
  if isSpace c then some 32 else if isDropped u c then none else some c

/-- `text.split()`. -/
def split (t : Text) : List Text := (t.splitOnP isSpace).filter fun word => decide (word ≠ [])

/-- `_collapse`. -/
def collapse (t : Text) : Text := join 32 (split t)

def normalizeText (t : Text) : Text := collapse ((u.nfkc t).filterMap (printable u))

def kept (word : Text) : Text := word.filter fun c => !isDropped u c

def Plain (c : ℕ) : Prop := isSpace c = false ∧ isDropped u c = false

/-- What is used of the normal form: a blank takes no part in a composition; the characters of a normal form are in
normal form by themselves, and where none of them is white space or dropped, nor is a character they compose. -/
structure NormalForm : Prop where
  space : ∀ first rest, u.nfkc (first ++ 32 :: rest) = u.nfkc first ++ 32 :: u.nfkc rest
  single : ∀ t, ∀ c ∈ u.nfkc t, u.nfkc [c] = [c]
  plain : ∀ t, (∀ c ∈ t, u.nfkc [c] = [c] ∧ Plain u c) → ∀ c ∈ u.nfkc t, Plain u c

/-! ### Words -/

theorem of_mem_splitOnP {p : ℕ → Bool} {t word : Text} (isPiece : word ∈ t.splitOnP p) :
    ∀ c ∈ word, c ∈ t ∧ p c = false := by
  induction t generalizing word with
  | nil =>
    rw [splitOnP_nil, mem_singleton] at isPiece
    simp [isPiece]
  | cons x t ih =>
    rw [splitOnP_cons_eq_if_modifyHead] at isPiece
    have later : ∀ piece ∈ t.splitOnP p, ∀ c ∈ piece, c ∈ x :: t ∧ p c = false :=
      fun piece isPiece c isIn => ⟨.tail _ (ih isPiece c isIn).1, (ih isPiece c isIn).2⟩
    split_ifs at isPiece with stops
    · rcases mem_cons.mp isPiece with rfl | isPiece
      · simp
      · exact later word isPiece
    · obtain ⟨first, rest, isSplit⟩ := exists_cons_of_ne_nil (splitOnP_ne_nil p t)
      rw [isSplit, modifyHead_cons] at isPiece
      rcases mem_cons.mp isPiece with rfl | isPiece
      · exact forall_mem_cons.mpr ⟨⟨.head _, by simpa using stops⟩, later first (isSplit ▸ .head _)⟩
      · exact later word (isSplit ▸ .tail _ isPiece)

theorem splitOnP_join {words : List Text} (nonempty : words ≠ [])
    (clean : ∀ word ∈ words, ∀ c ∈ word, isSpace c = false) : (join 32 words).splitOnP isSpace = words := by
  induction words with
  | nil => exact absurd rfl nonempty
  | cons word rest ih =>
    rw [forall_mem_cons] at clean
    by_cases last : rest = []
    · rw [last, join_singleton, splitOnP_eq_singleton clean.1]
    · rw [join_cons 32 word last, splitOnP_append_cons_of_forall_mem clean.1 32 rfl, ih last clean.2]

theorem split_join {words : List Text} (clean : ∀ word ∈ words, ∀ c ∈ word, isSpace c = false) :
    split (join 32 words) = words.filter fun word => decide (word ≠ []) := by
  by_cases empty : words = []
  · rw [empty]
    rfl
  · rw [split, splitOnP_join empty clean]

variable {u}

/-- The characters of a text that are kept, piece by piece. -/
theorem splitOnP_printable (t : Text) :
    (t.filterMap (printable u)).splitOnP isSpace = (t.splitOnP isSpace).map (kept u) := by
  induction t with
  | nil => rfl
  | cons c t ih =>
    obtain ⟨first, rest, isSplit⟩ := exists_cons_of_ne_nil (splitOnP_ne_nil isSpace t)
    rw [filterMap_cons, splitOnP_cons_eq_if_modifyHead]
    by_cases blank : isSpace c = true
    · rw [printable, if_pos blank, if_pos blank]
      dsimp only
      rw [splitOnP_cons_eq_if_modifyHead, if_pos (show isSpace 32 = true from rfl), ih, map_cons]
      rfl
    · by_cases removed : isDropped u c = true
      · simp [printable, blank, removed, ih, isSplit, kept]
      · simp [printable, blank, removed, splitOnP_cons_eq_if_modifyHead, ih, isSplit, kept]

def wordsOf (u : Unicode) (t : Text) : List Text :=
  ((t.splitOnP isSpace).map (kept u)).filter fun word => decide (word ≠ [])

theorem normalizeText_eq (t : Text) : normalizeText u t = join 32 (wordsOf u (u.nfkc t)) := by
  rw [normalizeText, collapse, split, splitOnP_printable]
  rfl

theorem of_mem_wordsOf {t word : Text} (isWord : word ∈ wordsOf u t) : word ≠ [] ∧ ∀ c ∈ word, c ∈ t ∧ Plain u c := by
  obtain ⟨isKept, nonempty⟩ := mem_filter.mp isWord
  obtain ⟨piece, isPiece, rfl⟩ := mem_map.mp isKept
  refine ⟨of_decide_eq_true nonempty, fun c isIn => ?_⟩
  obtain ⟨isIn, stays⟩ := mem_filter.mp isIn
  obtain ⟨inText, noSpace⟩ := of_mem_splitOnP isPiece c isIn
  exact ⟨inText, noSpace, by simpa using stays⟩

/-- Of plain words separated by blanks, all that are not empty are kept. -/
theorem wordsOf_join {words : List Text} (plain : ∀ word ∈ words, ∀ c ∈ word, Plain u c) :
    wordsOf u (join 32 words) = words.filter fun word => decide (word ≠ []) := by
  by_cases empty : words = []
  · rw [empty]
    rfl
  · rw [wordsOf, splitOnP_join empty fun word isWord c isIn => (plain word isWord c isIn).1]
    refine congrArg _ ((map_congr_left fun word isWord => ?_).trans (map_id _))
    exact filter_eq_self.mpr fun c isIn => by simp [(plain word isWord c isIn).2]

theorem NormalForm.nfkc_join (form : NormalForm u) (words : List Text) :
    u.nfkc (join 32 words) = join 32 (words.map u.nfkc) := by
  induction words with
  | nil => exact u.nfkc_nil
  | cons word rest ih =>
    by_cases last : rest = []
    · simp [last]
    · rw [join_cons 32 word last, form.space, ih, map_cons, join_cons 32 _ (by simpa using last)]

/-- **Where the normal form is stable**: each word of NFKC is in NFKC without its dropped characters. -/
theorem normalizeText_idempotent_iff (form : NormalForm u) (t : Text) :
    normalizeText u (normalizeText u t) = normalizeText u t ↔
      ∀ word ∈ split (u.nfkc t), u.nfkc (kept u word) = kept u word := by
  have isWord : ∀ word ∈ wordsOf u (u.nfkc t), word ≠ [] ∧ ∀ c ∈ word, c ∈ u.nfkc t ∧ Plain u c :=
    fun word => of_mem_wordsOf
  have plain : ∀ word ∈ (wordsOf u (u.nfkc t)).map u.nfkc, ∀ c ∈ word, Plain u c := by
    intro word isIn
    obtain ⟨old, isOld, rfl⟩ := mem_map.mp isIn
    exact form.plain old fun c isIn => ⟨form.single t c ((isWord old isOld).2 c isIn).1, ((isWord old isOld).2 c isIn).2⟩
  have fixed : (∀ word ∈ split (u.nfkc t), u.nfkc (kept u word) = kept u word) ↔
      ∀ word ∈ wordsOf u (u.nfkc t), u.nfkc word = word := by
    constructor
    · intro stable word isIn
      obtain ⟨isKept, nonempty⟩ := mem_filter.mp isIn
      obtain ⟨piece, isPiece, rfl⟩ := mem_map.mp isKept
      refine stable piece (mem_filter.mpr ⟨isPiece, decide_eq_true fun none => ?_⟩)
      exact of_decide_eq_true nonempty (by rw [none]; rfl)
    · intro stable word isIn
      by_cases nothing : kept u word = []
      · rw [nothing, u.nfkc_nil]
      · exact stable _ (mem_filter.mpr
          ⟨mem_map_of_mem (mem_filter.mp isIn).1, decide_eq_true nothing⟩)
  have nonempty : (wordsOf u (u.nfkc t)).filter (fun word => decide (word ≠ [])) = wordsOf u (u.nfkc t) :=
    filter_eq_self.mpr fun word isIn => decide_eq_true (isWord word isIn).1
  rw [fixed, normalizeText_eq (normalizeText u t), normalizeText_eq t, form.nfkc_join, wordsOf_join plain]
  constructor
  · intro same
    -- The words of both sides are read back from between the blanks.
    have words := congrArg split same
    rw [split_join fun word isIn c inWord => (plain word (mem_of_mem_filter isIn) c inWord).1,
      split_join fun word isIn c inWord => ((isWord word isIn).2 c inWord).2.1, filter_filter, nonempty] at words
    simp only [Bool.and_self] at words
    have all : (wordsOf u (u.nfkc t)).map u.nfkc = wordsOf u (u.nfkc t) :=
      (filter_sublist.eq_of_length (by rw [words, length_map])).symm.trans words
    exact map_inj_left.mp (all.trans (map_id _).symm)
  · intro stable
    rw [(map_congr_left stable).trans (map_id' _), nonempty]

/-! ### A composition -/

/-- A letter before a mark that composes with it. -/
def attach (c : ℕ) (rest : Text) : Text := if c = 97 ∧ rest.head? = some 769 then 225 :: rest.tail else c :: rest

def composed (t : Text) : Text := t.foldr attach []

theorem composed_append {c : ℕ} (apart : c ≠ 97 ∧ c ≠ 769) (first rest : Text) :
    composed (first ++ c :: rest) = composed first ++ c :: composed rest := by
  induction first with
  | nil => simp [composed, attach, apart.1]
  | cons x first ih =>
    show attach x (composed (first ++ c :: rest)) = attach x (composed first) ++ c :: composed rest
    rw [ih]
    cases composed first with
    | nil => simp [attach, apart.2]
    | cons y others => by_cases joins : x = 97 ∧ y = 769 <;> simp [attach, joins]

theorem length_composed_le (t : Text) : (composed t).length ≤ t.length := by
  induction t with
  | nil => rfl
  | cons c t ih =>
    show (attach c (composed t)).length ≤ t.length + 1
    unfold attach
    split_ifs <;> simp <;> omega

theorem of_mem_composed {t : Text} {c : ℕ} (isIn : c ∈ composed t) : c = 225 ∨ c ∈ t := by
  induction t with
  | nil => cases isIn
  | cons x t ih =>
    change c ∈ attach x (composed t) at isIn
    unfold attach at isIn
    split_ifs at isIn
    · rcases mem_cons.mp isIn with rfl | isIn
      · exact .inl rfl
      · exact (ih (mem_of_mem_tail isIn)).imp_right (.tail _)
    · rcases mem_cons.mp isIn with rfl | isIn
      · exact .inr (.head _)
      · exact (ih isIn).imp_right (.tail _)

theorem composed_slash (first rest : Text) : composed (first ++ 47 :: rest) = first ++ 47 :: rest ↔
    composed first = first ∧ composed rest = rest := by
  rw [composed_append (by decide)]
  constructor
  · intro same
    have lengths := congrArg List.length same
    have atMost := length_composed_le first
    have atMost' := length_composed_le rest
    simp only [length_append, length_cons] at lengths
    obtain ⟨heads, tails⟩ := append_inj same (by omega)
    exact ⟨heads, (List.cons.inj tails).2⟩
  · rintro ⟨heads, tails⟩
    rw [heads, tails]

def sampleTables : Unicode where
  category c := if c = 8203 then .cf else .other
  nfkc := composed
  nfkc_nil := rfl
  nfkc_slash := composed_slash

theorem sampleTables_normalForm : NormalForm sampleTables where
  space first rest := composed_append (by decide) first rest
  single t c _ := by simp [sampleTables, composed, attach]
  plain t plain c isIn := by
    rcases of_mem_composed isIn with rfl | isIn
    · exact ⟨by decide, by decide⟩
    · exact (plain c isIn).2

theorem normalizeText_idempotent_sample :
    normalizeText sampleTables (normalizeText sampleTables [97, 8203, 98]) = normalizeText sampleTables [97, 8203, 98] :=
  (normalizeText_idempotent_iff sampleTables_normalForm _).mpr (by decide)

/-- A letter, a zero-width space and a mark. -/
theorem normalizeText_not_idempotent : ¬∀ u, NormalForm u → ∀ t,
    normalizeText u (normalizeText u t) = normalizeText u t := by
  intro always
  have same := always sampleTables sampleTables_normalForm [97, 8203, 769]
  revert same
  decide

end Normalization

end PawBackend.Research
