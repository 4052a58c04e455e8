/-
**The copied stretches of a text** (`research/privacy/rules.py`).

`find_copied_spans` folds the case of the text and of the source, looks for the windows of the folded text that occur
in the folded source, and traces what they cover back to the characters of the text.
-/

import PawBackend.Lib.Runs
import PawBackend.Lib.Text
import Mathlib.Data.List.GetD

namespace PawBackend.Research

open Lib List

/-- `str.casefold` of one character: it never folds to nothing. -/
structure CaseFold where
  fold : ℕ → Text
  nonempty : ∀ c, fold c ≠ []

variable (u : CaseFold)

def foldForMatch (t : Text) : Text := t.flatMap u.fold

/-- For each folded character, the place of the character it comes from. -/
def origins (t : Text) : List ℕ := t.zipIdx.flatMap fun p => List.replicate (u.fold p.1).length p.2

def foldWithOrigin (t : Text) : Text × Option (List ℕ) :=
  if (foldForMatch u t).length = t.length then (foldForMatch u t, none) else (foldForMatch u t, some (origins u t))

/-- `t[i : i + window]`. -/
def windowAt (t : Text) (window i : ℕ) : Text := (t.drop i).take window

/-- `known`. -/
def knownWindows (source : Text) (window : ℕ) : List Text :=
  (List.range (source.length - window + 1)).map (windowAt source window)

def coveredRuns (foldedText foldedSource : Text) (window : ℕ) : List (ℕ × ℕ) :=
  (List.range (foldedText.length - window + 1)).foldl
    (fun runs j =>
      if windowAt foldedText window j ∈ knownWindows foldedSource window then
        pushRun (fun _ stop => stop) runs (j, j + window)
      else runs) []

/-- The characters a run of folded positions comes from. -/
def spanOf (origin : List ℕ) (run : ℕ × ℕ) : ℕ × ℕ := (origin.getD run.1 0, origin.getD (run.2 - 1) 0 + 1)

def findCopiedSpans (text source : Text) (window : ℤ) : Except String (List (ℕ × ℕ)) :=
  if window < 1 then .error "window must be at least 1"
  else
    let (foldedText, origin) := foldWithOrigin u text
    let foldedSource := foldForMatch u source
    if foldedText.length < window ∨ foldedSource.length < window then .ok []
    else
      let runs := coveredRuns foldedText foldedSource window.toNat
      match origin with
      | none => .ok runs
      | some origin => .ok (runs.foldl (fun spans run => pushRun max spans (spanOf origin run)) [])

/-! ### What is copied -/

def Covered (foldedText foldedSource : Text) (window i : ℕ) : Prop :=
  ∃ j, j ≤ i ∧ i < j + window ∧ j + window ≤ foldedText.length ∧ windowAt foldedText window j <:+: foldedSource

def foldedStart (t : Text) (k : ℕ) : ℕ := (foldForMatch u (t.take k)).length

/-- A folded position comes from a character. -/
def Owns (t : Text) (k i : ℕ) : Prop := k < t.length ∧ foldedStart u t k ≤ i ∧ i < foldedStart u t (k + 1)

def Copied (text source : Text) (window k : ℕ) : Prop :=
  ∃ i, Owns u text k i ∧ Covered (foldForMatch u text) (foldForMatch u source) window i

variable {u} {t text source foldedText foldedSource : Text} {window i j k l : ℕ}

theorem mem_knownWindows (short : window ≤ source.length) {stretch : Text} (isLong : stretch.length = window) :
    stretch ∈ knownWindows source window ↔ stretch <:+: source := by
  simp only [knownWindows, mem_map, mem_range]
  constructor
  · rintro ⟨i, -, rfl⟩
    exact ( take_prefix _ _).isInfix.trans (drop_suffix _ _).isInfix
  · rintro ⟨before, after, rfl⟩
    refine ⟨before.length, ?_, ?_⟩
    · simp only [length_append] at short ⊢
      omega
    · simp [windowAt, ← isLong]

theorem coveredRuns_runs (positive : 1 ≤ window) (fits : window ≤ foldedText.length)
    (short : window ≤ foldedSource.length) :
    Runs (Covered foldedText foldedSource window) (coveredRuns foldedText foldedSource window) := by
  let found := (List.range (foldedText.length - window + 1)).filter fun j =>
    decide (windowAt foldedText window j ∈ knownWindows foldedSource window)
  have loop : coveredRuns foldedText foldedSource window =
      (found.map fun j => (j, j + window)).foldl (pushRun fun _ stop => stop) [] := by
    rw [foldl_map, foldl_filter]
    simp only [coveredRuns, decide_eq_true_eq]
  have ordered : (found.map fun j => (j, j + window)).Pairwise fun a b => a.1 ≤ b.1 ∧ a.2 ≤ b.2 := by
    rw [pairwise_map]
    refine (pairwise_lt_range.filter _).imp fun less => ?_
    dsimp only
    omega
  rw [loop]
  refine (runs_foldl (fun _ _ _ => rfl) ordered (by simp; omega)).congr fun i => ?_
  have isWindow : ∀ j, j < foldedText.length - window + 1 → (windowAt foldedText window j ∈ knownWindows foldedSource window ↔
      windowAt foldedText window j <:+: foldedSource) := by
    intro j isPlace
    refine mem_knownWindows short ?_
    rw [windowAt, length_take, length_drop]
    omega
  simp only [mem_map, found, mem_filter, mem_range, decide_eq_true_eq, Covered]
  constructor
  · rintro ⟨_, ⟨j, ⟨isPlace, isKnown⟩, rfl⟩, start, stop⟩
    exact ⟨j, start, stop, by omega, (isWindow j isPlace).mp isKnown⟩
  · rintro ⟨j, start, stop, inText, occurs⟩
    exact ⟨(j, j + window), ⟨j, ⟨by omega, (isWindow j (by omega)).mpr occurs⟩, rfl⟩, start, stop⟩

theorem Covered.lt (covered : Covered foldedText foldedSource window i) : i < foldedText.length := by
  obtain ⟨j, -, stop, inText, -⟩ := covered
  omega

theorem not_covered (long : foldedText.length < window ∨ foldedSource.length < window) :
    ¬Covered foldedText foldedSource window i := by
  rintro ⟨j, -, -, inText, occurs⟩
  have isLong := occurs.length_le
  rw [windowAt, length_take, length_drop] at isLong
  omega

/-! ### From a folded character back -/

theorem foldedStart_succ (inText : k < t.length) :
    foldedStart u t (k + 1) = foldedStart u t k + (u.fold t[k]).length := by
  unfold foldedStart foldForMatch
  rw [take_succ_eq_append_getElem inText, flatMap_append, length_append, flatMap_singleton]

theorem foldedStart_add_le (inText : k + l ≤ t.length) : foldedStart u t k + l ≤ foldedStart u t (k + l) := by
  induction l with
  | zero => exact le_rfl
  | succ l ih =>
    have some_ := length_pos_iff.mpr (u.nonempty t[k + l])
    rw [← Nat.add_assoc k l 1, foldedStart_succ (by omega)]
    have before := ih (by omega)
    omega

theorem foldedStart_mono (notAfter : k ≤ l) (inText : l ≤ t.length) : foldedStart u t k ≤ foldedStart u t l := by
  have step := foldedStart_add_le (u := u) (t := t) (k := k) (l := l - k) (by omega)
  rw [Nat.add_sub_of_le notAfter] at step
  omega

theorem foldedStart_length : foldedStart u t t.length = (foldForMatch u t).length := by simp [foldedStart]

theorem Owns.mono (first : Owns u t k i) (second : Owns u t l j) (notAfter : i ≤ j) : k ≤ l := by
  by_contra before
  have between := foldedStart_mono (u := u) (t := t) (k := l + 1) (l := k) (by omega) first.1.le
  have starts := first.2.1
  have stops := second.2.2
  omega

theorem origins_concat (front : Text) (c : ℕ) :
    origins u (front ++ [c]) = origins u front ++ List.replicate (u.fold c).length front.length := by
  simp [origins, zipIdx_append]

theorem length_origins : (origins u t).length = (foldForMatch u t).length := by
  induction t using List.reverseRecOn with
  | nil => rfl
  | append_singleton front c ih => simp [origins_concat, ih, foldForMatch]

theorem foldedStart_append (front rest : Text) (inFront : k ≤ front.length) :
    foldedStart u (front ++ rest) k = foldedStart u front k := by
  rw [foldedStart, take_append_of_le_length inFront, foldedStart]

theorem owns_of_origins (isOrigin : (origins u t)[i]? = some k) : Owns u t k i := by
  induction t using List.reverseRecOn with
  | nil => simp [origins] at isOrigin
  | append_singleton front c ih =>
    rw [origins_concat, getElem?_append] at isOrigin
    split_ifs at isOrigin with earlier
    · obtain ⟨inFront, starts, stops⟩ := ih isOrigin
      refine ⟨by simp; omega, ?_, ?_⟩
      · rwa [foldedStart_append _ _ inFront.le]
      · rwa [foldedStart_append _ _ inFront]
    · rw [length_origins, ← foldedStart_length] at earlier isOrigin
      obtain ⟨isIn, rfl⟩ := by simpa [getElem?_replicate] using isOrigin
      have start : foldedStart u (front ++ [c]) front.length = foldedStart u front front.length :=
        foldedStart_append _ _ le_rfl
      refine ⟨by simp, by omega, ?_⟩
      rw [foldedStart_succ (by simp), start]
      simp only [getElem_concat_length]
      omega

theorem owns_origin (inText : i < (foldForMatch u t).length) : Owns u t ((origins u t).getD i 0) i := by
  rw [← length_origins] at inText
  refine owns_of_origins ?_
  rw [getD_eq_getElem _ _ inText, getElem?_eq_getElem inText]

theorem spans_runs {runs : List (ℕ × ℕ)}
    (found : Runs (Covered (foldForMatch u text) (foldForMatch u source) window) runs) :
    Runs (Copied u text source window)
      (runs.foldl (fun spans run => pushRun max spans (spanOf (origins u text) run)) []) := by
  have owned : ∀ r ∈ runs, ∀ i, Inside r i → Owns u text ((origins u text).getD i 0) i := fun r isRun i inside =>
    owns_origin ((found.covers i).mpr ⟨r, isRun, inside⟩).lt
  have first : ∀ r ∈ runs, Inside r r.1 := fun r isRun => ⟨le_rfl, found.proper r isRun⟩
  have last : ∀ r ∈ runs, Inside r (r.2 - 1) := fun r isRun => by
    have proper := found.proper r isRun
    exact ⟨by omega, by omega⟩
  have ordered : (runs.map (spanOf (origins u text))).Pairwise fun a b => a.1 ≤ b.1 ∧ a.2 ≤ b.2 := by
    rw [pairwise_map]
    refine found.apart.imp_of_mem fun {a b} isA isB before => ?_
    have properA := found.proper a isA
    have properB := found.proper b isB
    exact ⟨(owned a isA _ (first a isA)).mono (owned b isB _ (first b isB)) (by omega),
      Nat.succ_le_succ ((owned a isA _ (last a isA)).mono (owned b isB _ (last b isB)) (by omega))⟩
  have proper : ∀ s ∈ runs.map (spanOf (origins u text)), s.1 < s.2 := by
    intro s mem
    obtain ⟨r, isRun, rfl⟩ := mem_map.mp mem
    have properRun := found.proper r isRun
    exact Nat.lt_succ_of_le ((owned r isRun _ (first r isRun)).mono (owned r isRun _ (last r isRun)) (by omega))
  rw [← foldl_map]
  refine (runs_foldl (fun _ _ => max_eq_right) ordered proper).congr fun k => ?_
  simp only [mem_map, exists_exists_and_eq_and]
  constructor
  · rintro ⟨r, isRun, starts, stops⟩
    have begins := owned r isRun _ (first r isRun)
    have ends := owned r isRun _ (last r isRun)
    have notAfter : k ≤ (origins u text).getD (r.2 - 1) 0 := Nat.le_of_lt_succ stops
    have inText : k < text.length := notAfter.trans_lt ends.1
    have startsBefore := (foldedStart_mono (u := u) notAfter ends.1.le).trans ends.2.1
    have nonempty := foldedStart_mono (u := u) (Nat.succ_le_succ starts) inText
    have grows := foldedStart_add_le (u := u) (t := text) (k := k) (l := 1) inText
    have properRun := found.proper r isRun
    have stopsAfter := begins.2.2
    -- The first folded position of the character that is in the run.
    refine ⟨max r.1 (foldedStart u text k), ⟨inText, le_max_right _ _, ?_⟩,
      (found.covers _).mpr ⟨r, isRun, le_max_left _ _, ?_⟩⟩
    · exact max_lt (stopsAfter.trans_le nonempty) grows
    · exact max_lt properRun (by omega)
  · rintro ⟨i, owns, covered⟩
    obtain ⟨r, isRun, start, stop⟩ := (found.covers i).mp covered
    exact ⟨r, isRun, (owned r isRun _ (first r isRun)).mono owns start,
      Nat.lt_succ_of_le (owns.mono (owned r isRun _ (last r isRun)) (by omega))⟩

theorem copied_iff_covered (same : (foldForMatch u text).length = text.length) :
    Covered (foldForMatch u text) (foldForMatch u source) window k ↔ Copied u text source window k := by
  have place : ∀ k, k ≤ text.length → foldedStart u text k = k := by
    intro k inText
    have least := foldedStart_add_le (u := u) (t := text) (k := 0) (l := k) (by omega)
    have most := foldedStart_add_le (u := u) (t := text) (k := k) (l := text.length - k) (by omega)
    rw [Nat.add_sub_of_le inText, foldedStart_length] at most
    rw [Nat.zero_add] at least
    omega
  constructor
  · intro covered
    have inText : k < text.length := same ▸ covered.lt
    exact ⟨k, ⟨inText, (place k inText.le).le, by rw [place (k + 1) inText]; omega⟩, covered⟩
  · rintro ⟨i, ⟨inText, starts, stops⟩, covered⟩
    rw [place k inText.le] at starts
    rw [place (k + 1) inText] at stops
    obtain rfl : i = k := by omega
    exact covered

theorem findCopiedSpans_runs {window : ℤ} (positive : 1 ≤ window) :
    ∃ spans, findCopiedSpans u text source window = .ok spans ∧ Runs (Copied u text source window.toNat) spans := by
  unfold findCopiedSpans
  rw [if_neg (by omega)]
  have isFolded : (foldWithOrigin u text).1 = foldForMatch u text := by
    unfold foldWithOrigin
    split_ifs <;> rfl
  dsimp only
  rw [isFolded]
  split_ifs with long
  · refine ⟨[], rfl, .nil, by simp, fun k => ⟨?_, by simp⟩⟩
    rintro ⟨i, -, covered⟩
    exact absurd covered (not_covered (by omega))
  · have found : Runs (Covered (foldForMatch u text) (foldForMatch u source) window.toNat) _ :=
      coveredRuns_runs (by omega) (by omega) (by omega)
    unfold foldWithOrigin
    split_ifs with same
    · exact ⟨_, rfl, found.congr fun _ => copied_iff_covered same⟩
    · exact ⟨_, rfl, spans_runs found⟩

/-- **The result is its specification**: the maximal runs of copied characters, sorted, no two of which touch, within
the text. -/
theorem findCopiedSpans_maximal (u : CaseFold) (text source : Text) {window : ℤ} (positive : 1 ≤ window) :
    ∃ spans, findCopiedSpans u text source window = .ok spans ∧
      (spans.Pairwise fun a b => a.2 < b.1) ∧
      (∀ s, s ∈ spans ↔ MaximalRun (Copied u text source window.toNat) s) ∧ ∀ s ∈ spans, s.2 ≤ text.length := by
  obtain ⟨spans, returned, runs⟩ : ∃ spans, findCopiedSpans u text source window = .ok spans ∧
      Runs (Copied u text source window.toNat) spans := findCopiedSpans_runs positive
  refine ⟨spans, returned, runs.apart, fun s => runs.mem_iff, fun s isRun => ?_⟩
  have proper := runs.proper s isRun
  obtain ⟨_, ⟨inText, -⟩, -⟩ := (runs.maximal isRun).all (s.2 - 1) ⟨by omega, by omega⟩
  omega

/-- A fold that makes two characters of `ß` and leaves the others. -/
def sampleFold : CaseFold where
  fold c := if c = 223 then [115, 115] else [c]
  nonempty c := by split_ifs <;> simp

theorem findCopiedSpans_maximal_sample :
    ∃ spans, findCopiedSpans sampleFold [120, 120, 223, 97] [120, 120, 115] 3 = .ok spans ∧
      (spans.Pairwise fun a b => a.2 < b.1) ∧
      (∀ s, s ∈ spans ↔ MaximalRun (Copied sampleFold [120, 120, 223, 97] [120, 120, 115] 3) s) ∧ ∀ s ∈ spans, s.2 ≤ 4 :=
  findCopiedSpans_maximal sampleFold [120, 120, 223, 97] [120, 120, 115] (by decide)

end PawBackend.Research
