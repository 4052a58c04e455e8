/-
**Cutting a text** around a match, and at its ends.

`Regex.find` cuts a text around the leftmost match of a pattern, with the end the matcher prefers there, and `trimBy`
leaves out the characters of a kind at both ends.

* `Regex.find_eq_some_iff`, `Regex.find_eq_none_iff`: the cut is `FirstMatch`;
* `trimBy_eq_iff`: what is left is `Trimmed`, and trimming again changes nothing (`trimBy_trimBy`).
-/

import PawBackend.Lib.Regex

namespace PawBackend.Lib

open List

/-! ### The ends of a text -/

section Ends

variable {p : ℕ → Bool} {t words : Text}

def trimBy (p : ℕ → Bool) (t : Text) : Text := (t.dropWhile p).rdropWhile p

/-- What stands between the characters of a kind at both ends. -/
def Trimmed (p : ℕ → Bool) (t words : Text) : Prop :=
  ∃ lead tail, t = lead ++ (words ++ tail) ∧ (∀ c ∈ lead, p c = true) ∧ (∀ c ∈ tail, p c = true) ∧
    (∀ c ∈ words.head?, p c = false) ∧ ∀ c ∈ words.getLast?, p c = false

theorem not_of_mem_head?_dropWhile {c : ℕ} (isFirst : c ∈ (t.dropWhile p).head?) : p c = false := by
  have first := head?_dropWhile_not p t
  rw [isFirst] at first
  exact first

theorem trimBy_of_trimmed (trimmed : Trimmed p t words) : trimBy p t = words := by
  obtain ⟨lead, tail, rfl, allLead, allTail, firstKept, lastKept⟩ := trimmed
  unfold trimBy
  rw [dropWhile_append_of_pos allLead]
  have dropped : (words ++ tail).dropWhile p = if words = [] then [] else words ++ tail := by
    cases words with
    | nil => rw [if_pos rfl, nil_append, dropWhile_eq_nil_iff.mpr allTail]
    | cons c words => rw [if_neg (cons_ne_nil _ _), cons_append,
        dropWhile_cons_of_neg (by rw [firstKept c rfl]; exact Bool.false_ne_true)]
  rw [dropped]
  split_ifs with isEmpty
  · rw [isEmpty, rdropWhile_nil]
  · unfold List.rdropWhile
    rw [reverse_append, Text.dropWhile_append_stop (fun c isIn => allTail c (mem_reverse.mp isIn)),
      reverse_reverse]
    intro c isLast
    exact lastKept c (head?_reverse ▸ isLast)

theorem trimmed_trimBy (p : ℕ → Bool) (t : Text) : Trimmed p t (trimBy p t) := by
  unfold trimBy
  refine ⟨t.takeWhile p, (t.dropWhile p).rtakeWhile p, ?_, fun c => mem_takeWhile_imp, ?_, ?_, ?_⟩
  · rw [rdropWhile_append_rtakeWhile, takeWhile_append_dropWhile]
  · intro c isIn
    exact mem_rtakeWhile_imp isIn
  · intro c isFirst
    obtain ⟨tail, whole⟩ := rdropWhile_prefix p (t.dropWhile p)
    refine not_of_mem_head?_dropWhile (t := t) ?_
    rw [← whole, head?_append, isFirst]
    rfl
  · intro c isLast
    unfold List.rdropWhile at isLast
    rw [getLast?_reverse] at isLast
    exact not_of_mem_head?_dropWhile isLast

theorem trimBy_eq_iff : trimBy p t = words ↔ Trimmed p t words :=
  ⟨fun same => same ▸ trimmed_trimBy p t, trimBy_of_trimmed⟩

theorem trimBy_trimBy (p : ℕ → Bool) (t : Text) : trimBy p (trimBy p t) = trimBy p t := by
  obtain ⟨-, -, -, -, -, firstKept, lastKept⟩ := trimmed_trimBy p t
  refine trimBy_of_trimmed ⟨[], [], ?_, nofun, nofun, firstKept, lastKept⟩
  rw [append_nil, nil_append]

theorem mem_of_mem_trimBy {c : ℕ} (isIn : c ∈ trimBy p t) : c ∈ t := by
  obtain ⟨lead, tail, whole, -⟩ := trimmed_trimBy p t
  rw [whole]
  exact mem_append_right _ (mem_append_left _ isIn)

theorem length_trimBy_le (p : ℕ → Bool) (t : Text) : (trimBy p t).length ≤ t.length := by
  obtain ⟨lead, tail, whole, -⟩ := trimmed_trimBy p t
  have lengths := congrArg List.length whole
  rw [length_append, length_append] at lengths
  omega

theorem mem_trimBy {c : ℕ} (isIn : c ∈ t) (kept : p c = false) : c ∈ trimBy p t := by
  obtain ⟨lead, tail, whole, allLead, allTail, -⟩ := trimmed_trimBy p t
  rw [whole, mem_append, mem_append] at isIn
  rcases isIn with isLead | isIn | isTail
  · exact absurd (allLead c isLead) (by rw [kept]; exact Bool.false_ne_true)
  · exact isIn
  · exact absurd (allTail c isTail) (by rw [kept]; exact Bool.false_ne_true)

theorem trimBy_eq_nil : trimBy p t = [] ↔ ∀ c ∈ t, p c = true := by
  constructor
  · intro isEmpty c isIn
    by_contra notKind
    have kept := mem_trimBy isIn (Bool.eq_false_iff.mpr notKind)
    rw [isEmpty] at kept
    cases kept
  · intro all
    exact trimBy_of_trimmed ⟨t, [], by rw [append_nil, append_nil], all, nofun, nofun, nofun⟩

end Ends

/-! ### Matches -/

namespace Regex

/-- `search`, as a cut: what stands before the match, the match, and what stands after it. -/
def findFrom (pattern : Regex) : Text → Text → Option (Text × Text × Text)
  | read, [] => (pattern.ends ⟨read, []⟩).head?.map fun last => (read.reverse, [], last.rest)
  | read, c :: rest =>
    match (pattern.ends ⟨read, c :: rest⟩).head? with
    | some last => some (read.reverse, (c :: rest).take ((c :: rest).length - last.rest.length), last.rest)
    | none => pattern.findFrom (c :: read) rest

def find (pattern : Regex) (t : Text) : Option (Text × Text × Text) := pattern.findFrom [] t

/-! ### Places -/

section Places

variable {pattern first second : Regex} {place last : Cursor} {w : Text}

structure Behind (place : Cursor) (w : Text) (last : Cursor) : Prop where
  rest_eq : place.rest = w ++ last.rest
  read_eq : last.read = w.reverse ++ place.read

theorem Behind.refl (place : Cursor) : Behind place [] place := ⟨rfl, rfl⟩

theorem Behind.trans {middle : Cursor} {u v : Text} (left : Behind place u middle) (right : Behind middle v last) :
    Behind place (u ++ v) last := by
  refine ⟨?_, ?_⟩
  · rw [left.rest_eq, right.rest_eq, append_assoc]
  · rw [right.read_eq, left.read_eq, reverse_append, append_assoc]

theorem behind_of_mem_advance {accepts : ℕ → Bool} {most : Option ℕ} {read rest : Text}
    (mem : last ∈ advance accepts most read rest) :
    ∃ w, Behind ⟨read, rest⟩ w last ∧ ∀ c ∈ w, accepts c = true := by
  induction rest generalizing most read with
  | nil =>
    rw [advance, mem_singleton] at mem
    exact ⟨[], mem ▸ .refl _, nofun⟩
  | cons c rest ih =>
    rw [advance, mem_cons] at mem
    rcases mem with rfl | mem
    · exact ⟨[], .refl _, nofun⟩
    · split_ifs at mem with goesOn
      · obtain ⟨w, behind, accepted⟩ := ih mem
        refine ⟨c :: w, ⟨?_, ?_⟩, forall_mem_cons.mpr ⟨goesOn.1, accepted⟩⟩
        · rw [cons_append, ← behind.rest_eq]
        · rw [behind.read_eq, reverse_cons, append_assoc]
          rfl
      · cases mem

theorem behind_of_mem_ends (mem : last ∈ pattern.ends place) : ∃ w, Behind place w last := by
  induction pattern generalizing place last with
  | empty =>
    rw [ends, mem_singleton] at mem
    exact ⟨[], mem ▸ .refl _⟩
  | set accepts =>
    obtain ⟨read, rest⟩ := place
    cases rest with
    | nil => cases mem
    | cons c rest =>
      rw [ends] at mem
      dsimp only at mem
      split_ifs at mem
      · rw [mem_singleton] at mem
        exact ⟨[c], mem ▸ ⟨rfl, rfl⟩⟩
      · cases mem
  | seq first second ihFirst ihSecond =>
    rw [ends, mem_flatMap] at mem
    obtain ⟨middle, isMiddle, isLast⟩ := mem
    obtain ⟨u, left⟩ := ihFirst isMiddle
    obtain ⟨v, right⟩ := ihSecond isLast
    exact ⟨u ++ v, left.trans right⟩
  | alt first second ihFirst ihSecond =>
    rw [ends, mem_append] at mem
    exact mem.elim ihFirst ihSecond
  | optional part ih =>
    rw [ends, mem_append, mem_singleton] at mem
    rcases mem with mem | rfl
    · exact ih mem
    · exact ⟨[], .refl _⟩
  | many accepts least most greedy =>
    rw [ends] at mem
    have mem : last ∈ (advance accepts most place.read place.rest).drop least := by
      split_ifs at mem
      · exact mem_reverse.mp mem
      · exact mem
    obtain ⟨w, behind, -⟩ := behind_of_mem_advance (mem_of_mem_drop mem)
    exact ⟨w, behind⟩
  | notAfter accepts =>
    rw [ends] at mem
    split_ifs at mem
    · cases mem
    · rw [mem_singleton] at mem
      exact ⟨[], mem ▸ .refl _⟩
  | notBefore | finish =>
    rw [ends] at mem
    split_ifs at mem
    · rw [mem_singleton] at mem
      exact ⟨[], mem ▸ .refl _⟩
    · cases mem

end Places

/-! ### The first match -/

section First

variable {pattern : Regex} {read rest before found after : Text}

/-- Once the first characters are read, a text is cut around the leftmost match, which ends where the matcher
prefers. -/
structure FirstFrom (pattern : Regex) (read rest before found after : Text) : Prop where
  whole : read.reverse ++ rest = before ++ (found ++ after)
  notBefore : read.length ≤ before.length
  here : (pattern.ends ⟨before.reverse, found ++ after⟩).head? = some ⟨(before ++ found).reverse, after⟩
  first : ∀ earlier later, read.reverse ++ rest = earlier ++ later → read.length ≤ earlier.length →
    earlier.length < before.length → pattern.ends ⟨earlier.reverse, later⟩ = []

abbrev FirstMatch (pattern : Regex) (t before found after : Text) : Prop := pattern.FirstFrom [] t before found after

theorem firstFrom_iff_of_head {last : Cursor} (isFirst : (pattern.ends ⟨read, rest⟩).head? = some last) :
    pattern.FirstFrom read rest before found after ↔
      (read.reverse, rest.take (rest.length - last.rest.length), last.rest) = (before, found, after) := by
  obtain ⟨w, behind⟩ := behind_of_mem_ends (mem_of_mem_head? isFirst)
  have isRest : rest = w ++ last.rest := behind.rest_eq
  have taken : rest.take (rest.length - last.rest.length) = w := by
    rw [isRest, length_append, Nat.add_sub_cancel, take_left]
  rw [taken, Prod.mk.injEq, Prod.mk.injEq]
  constructor
  · rintro ⟨whole, notBefore, here, first⟩
    have sameLength : before.length = read.reverse.length := by
      rw [length_reverse]
      refine Nat.le_antisymm (Nat.le_of_not_lt fun later => ?_) notBefore
      have isEmpty := first read.reverse rest rfl (by rw [length_reverse]) (by rwa [length_reverse])
      rw [reverse_reverse] at isEmpty
      rw [isEmpty] at isFirst
      cases isFirst
    obtain ⟨rfl, isAfter⟩ := append_inj whole sameLength.symm
    rw [reverse_reverse, ← isAfter, isFirst, Option.some_inj] at here
    subst here
    exact ⟨rfl, append_cancel_right (isRest.symm.trans isAfter), rfl⟩
  · rintro ⟨rfl, rfl, rfl⟩
    refine ⟨by rw [isRest], by rw [length_reverse], ?_, fun earlier later _ notBefore isEarlier => ?_⟩
    · rw [reverse_reverse, ← isRest, isFirst, reverse_append, reverse_reverse, ← behind.read_eq]
    · rw [length_reverse] at isEarlier
      exact absurd isEarlier (Nat.not_lt.mpr notBefore)

theorem firstFrom_cons {c : ℕ} (isEmpty : pattern.ends ⟨read, c :: rest⟩ = []) :
    pattern.FirstFrom read (c :: rest) before found after ↔ pattern.FirstFrom (c :: read) rest before found after := by
  have sameText : (c :: read).reverse ++ rest = read.reverse ++ c :: rest := by
    rw [reverse_cons, append_assoc, singleton_append]
  constructor
  · rintro ⟨whole, notBefore, here, first⟩
    refine ⟨sameText.trans whole, Nat.lt_of_le_of_ne notBefore fun same => ?_, here,
      fun earlier later isCut isLater => first earlier later (sameText.symm.trans isCut) (Nat.le_of_lt isLater)⟩
    obtain ⟨rfl, isRest⟩ := append_inj whole (by rw [length_reverse, same])
    rw [reverse_reverse, ← isRest, isEmpty] at here
    cases here
  · rintro ⟨whole, notBefore, here, first⟩
    refine ⟨sameText.symm.trans whole, Nat.le_of_lt notBefore, here, fun earlier later isCut isLater isEarlier => ?_⟩
    rcases Nat.lt_or_eq_of_le isLater with isLater | same
    · exact first earlier later (sameText.trans isCut) isLater isEarlier
    · obtain ⟨rfl, rfl⟩ := append_inj isCut (by rw [length_reverse, same])
      rwa [reverse_reverse]

theorem findFrom_eq_some_iff :
    pattern.findFrom read rest = some (before, found, after) ↔ pattern.FirstFrom read rest before found after := by
  induction rest generalizing read with
  | nil =>
    rw [findFrom]
    cases isFirst : (pattern.ends ⟨read, []⟩).head? with
    | some last => rw [Option.map_some, firstFrom_iff_of_head isFirst, Option.some_inj, take_nil]
    | none =>
      refine iff_of_false nofun fun cut => ?_
      have whole := cut.whole
      rw [append_nil] at whole
      have lengths := congrArg List.length whole
      rw [length_reverse, length_append, length_append] at lengths
      have notBefore := cut.notBefore
      have noFound : found = [] := length_eq_zero_iff.mp (by omega)
      have noAfter : after = [] := length_eq_zero_iff.mp (by omega)
      subst noFound noAfter
      rw [append_nil, append_nil] at whole
      have here := cut.here
      rw [← whole, reverse_reverse, append_nil, isFirst] at here
      cases here
  | cons c rest ih =>
    rw [findFrom]
    cases isFirst : (pattern.ends ⟨read, c :: rest⟩).head? with
    | some last => rw [firstFrom_iff_of_head isFirst, Option.some_inj]
    | none =>
      rw [firstFrom_cons (head?_eq_none_iff.mp isFirst)]
      exact ih

theorem find_eq_some_iff {t : Text} :
    pattern.find t = some (before, found, after) ↔ pattern.FirstMatch t before found after :=
  findFrom_eq_some_iff

theorem find_eq_none_iff {t : Text} :
    pattern.find t = none ↔ ∀ before found after, ¬ pattern.FirstMatch t before found after := by
  rw [Option.eq_none_iff_forall_ne_some]
  exact ⟨fun none before found after cut => none _ (find_eq_some_iff.mpr cut),
    fun none cut isCut => none _ _ _ (find_eq_some_iff.mp isCut)⟩

end First

end Regex

end PawBackend.Lib
