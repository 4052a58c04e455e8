/-
**Parsing a read is canonical** (`sandbox/gitargs.py`).

A parsed call is written out again by `GitReadArgs.words`: its options, its revisions (a negated one and the
positive one after it as a range), and its paths, after `--` only where a path would be read as something
else. That takes no more words than the call had, and parses to the same call (`parseGitRead_words`).

* `CanonicalOption`: the options that come out of `_option`, and `option_canonical`: each is its own spelling;
* `CanonicalText`: the revisions that come out of `canonical_revision`, and `canonicalRevision_idem`.
-/

import PawBackend.Sandbox.GitArgs

namespace PawBackend.Sandbox

open Lib Lib.Text
open Tools (decimal length_decimal isDigit_of_mem_decimal decimal_ne_nil toNat_decimal firsts firsts_of_nodup nodup_firsts mem_firsts)

/-! ### Numbers -/

variable {n maximum : ℕ} {args : GitReadArgs}

theorem number_decimal (small : n ≤ maximum) (bounded : maximum < 10 ^ 6) :
    number (decimal n) maximum = .ok n := by
  have digits : (decimal n).length ≤ 5 + 1 := length_decimal (by omega)
  have some : 1 ≤ (decimal n).length := List.length_pos_iff.mpr (decimal_ne_nil n)
  have formed : numberText (decimal n) = true := by
    unfold numberText
    rw [Bool.and_eq_true, List.all_eq_true, decide_eq_true_eq]
    exact ⟨fun c mem => isDigit_of_mem_decimal mem, some, digits⟩
  unfold number
  rw [toNat_decimal, if_pos ⟨formed, small⟩]

theorem number_eq_ok {t : Text} (accepted : number t maximum = .ok n) : n ≤ maximum := by
  unfold number at accepted
  split_ifs at accepted with fits
  cases accepted
  exact fits.2

/-! ### Options -/

inductive CanonicalOption (sub : ReadSubcommand) : Text → Prop
  | table {word : Text} (listed : word ∈ (optionTable sub).map Prod.snd) : CanonicalOption sub word
  | count {n : ℕ} (takes : sub.counted = true) (small : n ≤ maxCount) :
    CanonicalOption sub (lit "--max-count=" ++ decimal n)
  | skip {n : ℕ} (takes : sub.counted = true) (small : n ≤ maxCount) : CanonicalOption sub (lit "--skip=" ++ decimal n)
  | context {n : ℕ} (takes : sub.context = true) (small : n ≤ maxContextLines) :
    CanonicalOption sub (lit "--unified=" ++ decimal n)
  | format {name : Text} (takes : sub.formatted = true) (known : name ∈ formats) :
    CanonicalOption sub (lit "--format=" ++ name)

theorem numbered_eq_ok {name t : Text} {found : Option Text} {used : Bool}
    (accepted : numbered name t maximum = .ok (found, used)) :
    ∃ n ≤ maximum, found = some (name ++ decimal n) ∧ used = false := by
  obtain ⟨n, isNumber, same⟩ := map_eq_ok.mp accepted
  cases same
  exact ⟨n, number_eq_ok isNumber, rfl, rfl⟩

section Accepted

variable {sub : ReadSubcommand} {word canonical : Text} {following : List Text} {used : Bool}

theorem formatOption_eq_ok (accepted : formatOption sub word = .ok (some canonical, used)) :
    CanonicalOption sub canonical := by
  unfold formatOption namedFormat at accepted
  split_ifs at accepted with takes pretty known known known known
  · cases accepted
    exact .format takes (by decide)
  · cases accepted
    exact .format takes ‹_›
  · cases accepted
    exact .format takes ‹_›

theorem contextOption_eq_ok (accepted : contextOption sub word = .ok (some canonical, used)) :
    CanonicalOption sub canonical := by
  unfold contextOption at accepted
  split_ifs at accepted with long short
  · obtain ⟨n, small, same, -⟩ := numbered_eq_ok accepted
    cases same
    exact .context (Bool.and_eq_true _ _ ▸ long).1 small
  · obtain ⟨n, small, same, -⟩ := numbered_eq_ok accepted
    cases same
    rw [Bool.and_eq_true, Bool.and_eq_true] at short
    exact .context short.1.1 small
  · exact formatOption_eq_ok accepted

theorem countOption_eq_ok (accepted : countOption sub word following = .ok (some canonical, used)) :
    CanonicalOption sub canonical := by
  unfold countOption at accepted
  by_cases takes : sub.counted = true
  · rw [if_pos takes] at accepted
    split_ifs at accepted
    · cases following with
      | nil => cases accepted
      | cons value rest =>
        obtain ⟨n, isNumber, same⟩ := map_eq_ok.mp accepted
        cases same
        exact .count takes (number_eq_ok isNumber)
    · obtain ⟨n, small, same, -⟩ := numbered_eq_ok accepted
      cases same
      exact .count takes small
    · obtain ⟨n, small, same, -⟩ := numbered_eq_ok accepted
      cases same
      exact .count takes small
    · obtain ⟨n, small, same, -⟩ := numbered_eq_ok accepted
      cases same
      exact .count takes small
    · obtain ⟨n, small, same, -⟩ := numbered_eq_ok accepted
      cases same
      exact .skip takes small
    · exact contextOption_eq_ok accepted
  · rw [if_neg takes] at accepted
    exact contextOption_eq_ok accepted

theorem option_eq_ok (accepted : option sub word following = .ok (some canonical, used)) :
    CanonicalOption sub canonical := by
  unfold option at accepted
  split_ifs at accepted
  · cases accepted
  · split at accepted
    · cases accepted
      rename_i found
      exact .table (List.mem_map.mpr ⟨_, mem_of_lookup found, rfl⟩)
    · exact countOption_eq_ok accepted

end Accepted

theorem table_canonical (sub : ReadSubcommand) : ∀ word ∈ (optionTable sub).map Prod.snd,
    (optionTable sub).lookup word = some word ∧ ¬(word ∈ dropped ∧ sub ≠ .status) := by
  cases sub <;> simp only [optionTable, diffOutput, plainly, dropped, List.map_cons, List.map_nil]
  all_goals
    repeat rw [Text.lit_ofList]
    decide

def valuedNames : List Text := [lit "--max-count=", lit "--skip=", lit "--unified=", lit "--format="]

theorem table_plain (sub : ReadSubcommand) : ∀ name ∈ valuedNames,
    (∀ entry ∈ optionTable sub, startsWith entry.1 name = false) ∧ ∀ word ∈ dropped, startsWith word name = false := by
  cases sub <;> decide

theorem startsWith_append (name t : Text) : startsWith (name ++ t) name = true := by
  unfold startsWith
  rw [List.isPrefixOf_iff_prefix]
  exact List.prefix_append name t

theorem option_valued {sub : ReadSubcommand} {name t : Text} (known : name ∈ valuedNames) (following : List Text) :
    option sub (name ++ t) following = countOption sub (name ++ t) following := by
  obtain ⟨notListed, notDropped⟩ := table_plain sub name known
  have kept : ¬(name ++ t ∈ dropped ∧ sub ≠ .status) := by
    rintro ⟨isDropped, -⟩
    have starts := notDropped _ isDropped
    rw [startsWith_append] at starts
    cases starts
  have absent : (optionTable sub).lookup (name ++ t) = none := by
    rw [List.lookup_eq_none_iff]
    intro entry mem
    rw [bne_iff_ne]
    rintro same
    have starts := notListed entry mem
    rw [← same, startsWith_append] at starts
    cases starts
  unfold option
  rw [if_neg kept, absent]

theorem countOption_other {sub : ReadSubcommand} {word : Text} {following : List Text}
    (notCount : word ≠ lit "-n" ∧ word ≠ lit "--max-count" ∧ word.startsWith (lit "--max-count=") = false)
    (notShort : word.startsWith (lit "-n") = false) (notNumber : numberText (word.drop 1) = false)
    (notSkip : word.startsWith (lit "--skip=") = false) :
    countOption sub word following = contextOption sub word := by
  unfold countOption
  rw [if_neg (not_or.mpr ⟨notCount.1, notCount.2.1⟩), notCount.2.2, notShort, notNumber, notSkip]
  simp

theorem option_canonical {sub : ReadSubcommand} {word : Text} (canonical : CanonicalOption sub word)
    (following : List Text) : option sub word following = .ok (some word, false) := by
  cases canonical with
  | table listed =>
    obtain ⟨same, kept⟩ := table_canonical sub word listed
    unfold option
    rw [if_neg kept, same]
  | @count n takes small =>
    rw [option_valued (by decide) following]
    unfold countOption
    rw [if_pos takes, if_neg (by simp [lit]), if_pos (startsWith_append _ _)]
    show numbered _ (decimal n) _ = _
    unfold numbered
    rw [number_decimal small (by decide)]
    rfl
  | @skip n takes small =>
    rw [option_valued (by decide) following]
    have notCount : startsWith (lit "--skip=" ++ decimal n) (lit "--max-count=") = false := rfl
    have notShort : startsWith (lit "--skip=" ++ decimal n) (lit "-n") = false := rfl
    have notNumber : numberText ((lit "--skip=" ++ decimal n).drop 1) = false := rfl
    unfold countOption
    rw [if_pos takes, if_neg (by simp [lit]), notCount, notShort, notNumber, startsWith_append]
    show numbered _ (decimal n) _ = _
    unfold numbered
    rw [number_decimal small (by decide)]
    rfl
  | @context n takes small =>
    rw [option_valued (by decide) following, countOption_other ⟨by simp [lit], by simp [lit], rfl⟩ rfl rfl rfl]
    unfold contextOption
    rw [takes, startsWith_append]
    show numbered _ (decimal n) _ = _
    unfold numbered
    rw [number_decimal small (by decide)]
    rfl
  | @format name takes known =>
    rw [option_valued (by decide) following, countOption_other ⟨by simp [lit], by simp [lit], rfl⟩ rfl rfl rfl]
    have notContext : contextOption sub (lit "--format=" ++ name) = formatOption sub (lit "--format=" ++ name) := by
      unfold contextOption
      rw [if_neg (by rw [Bool.and_eq_true]; exact fun both => Bool.false_ne_true both.2),
        if_neg (by rw [Bool.and_eq_true, Bool.and_eq_true]; exact fun both => Bool.false_ne_true both.1.2)]
    rw [notContext]
    unfold formatOption
    rw [if_pos takes, if_neg (by simp [lit]), if_pos (startsWith_append _ _)]
    exact if_pos known

/-! ### Revisions -/

def alphanumeric (c : ℕ) : Bool := isDigit c || isLower c || isUpper c

structure RevisionText (t : Text) : Prop where
  chars : ∀ c ∈ t, branchChar c = true ∨ c = 126
  first : ∃ c rest, t = c :: rest ∧ alphanumeric c = true
  last : t.getLast? ≠ some 46
  dots : partition (lit "..") t = none
  short : t.length ≤ 221

theorem partition_cons_eq_none {separator t : Text} {c : ℕ} :
    partition separator (c :: t) = none ↔ startsWith (c :: t) separator = false ∧ partition separator t = none := by
  rw [partition]
  split_ifs with starts
  · simp [starts]
  · simp [starts]

theorem partition_eq_none_of_not_mem {separator t : Text} {c : ℕ} (isIn : c ∈ separator) (absent : c ∉ t) :
    partition separator t = none := by
  induction t with
  | nil => exact if_neg fun empty => by rw [empty] at isIn; cases isIn
  | cons d rest ih =>
    refine partition_cons_eq_none.mpr ⟨?_, ih fun mem => absent (List.mem_cons_of_mem _ mem)⟩
    rw [Bool.eq_false_iff]
    intro starts
    exact absent ((List.isPrefixOf_iff_prefix.mp starts).subset isIn)

theorem partition_dots_append {before t : Text} (absent : 46 ∉ before) (rest : partition (lit "..") t = none) :
    partition (lit "..") (before ++ t) = none := by
  induction before with
  | nil => exact rest
  | cons c more ih =>
    rw [List.mem_cons, not_or] at absent
    refine partition_cons_eq_none.mpr ⟨?_, ih absent.2⟩
    rw [Bool.eq_false_iff]
    intro starts
    have first := List.isPrefixOf_iff_prefix.mp starts
    exact absent.1 (List.cons_prefix_cons.mp (show 46 :: [46] <+: c :: (more ++ t) from first)).1

theorem revisionText_of_plain {t : Text} (chars : ∀ c ∈ t, alphanumeric c = true ∨ c = 126)
    (first : ∃ c rest, t = c :: rest ∧ alphanumeric c = true) (short : t.length ≤ 221) : RevisionText t where
  chars c mem := by
    rcases chars c mem with plain | tilde
    · refine Or.inl ?_
      unfold branchChar
      rw [Bool.or_eq_true]
      exact Or.inl plain
    · exact Or.inr tilde
  first := first
  last isDot := by
    rcases chars 46 (List.mem_of_getLast? isDot) with plain | tilde
    · cases plain
    · cases tilde
  dots := by
    refine partition_eq_none_of_not_mem (c := 46) List.mem_cons_self fun mem => ?_
    rcases chars 46 mem with plain | tilde
    · cases plain
    · cases tilde
  short := short

theorem revisionText_of_objectId {t : Text} (isId : objectId t = true) : RevisionText t := by
  unfold objectId at isId
  rw [Bool.and_eq_true, List.all_eq_true, decide_eq_true_eq] at isId
  obtain ⟨hex, length⟩ := isId
  have plain : ∀ c ∈ t, alphanumeric c = true := by
    intro c mem
    have isHex := hex c mem
    simp only [Sandbox.isHex, alphanumeric, isDigit, isLower, isUpper, Bool.or_eq_true, decide_eq_true_eq] at isHex ⊢
    omega
  refine revisionText_of_plain (fun c mem => Or.inl (plain c mem)) ?_ (by omega)
  cases t with
  | nil => simp at length
  | cons c rest => exact ⟨c, rest, rfl, plain c List.mem_cons_self⟩

theorem revisionText_headText {depth : ℕ} (small : depth ≤ maxHeadDepth) : RevisionText (headText depth) := by
  have length : (decimal depth).length ≤ 4 + 1 := length_decimal (by unfold maxHeadDepth at small; omega)
  unfold headText
  split_ifs
  · exact revisionText_of_plain (by decide) ⟨72, _, rfl, by decide⟩ (by decide)
  · refine revisionText_of_plain ?_ ⟨72, _, rfl, by decide⟩ ?_
    · intro c mem
      rcases List.mem_append.mp mem with inHead | inNumber
      · exact (show ∀ c ∈ lit "HEAD~", alphanumeric c = true ∨ c = 126 by decide) c inHead
      · refine Or.inl ?_
        unfold alphanumeric
        rw [isDigit_of_mem_decimal inNumber]
        rfl
    · rw [List.length_append]
      have : (lit "HEAD~").length = 5 := rfl
      omega

theorem revisionText_of_baseRef {t : Text} (isRef : baseRefText t = true) : RevisionText t := by
  unfold baseRefText at isRef
  obtain ⟨first, known, both⟩ := List.any_eq_true.mp isRef
  rw [Bool.and_eq_true] at both
  obtain ⟨branch, rfl⟩ := List.isPrefixOf_iff_prefix.mp both.1
  have valid := both.2
  rw [List.drop_left] at valid
  simp only [validBranch, Bool.and_eq_true, Bool.not_eq_true'] at valid
  obtain ⟨⟨⟨⟨formed, noDots⟩, -⟩, notDot⟩, -⟩ := valid
  -- the two names of a base ref hold letters, slashes and hyphens only
  have names : (∀ c ∈ first, branchChar c = true) ∧ 46 ∉ first ∧ first.length ≤ 21 ∧
      ∃ c rest, first = c :: rest ∧ alphanumeric c = true := by
    simp only [List.mem_cons, List.not_mem_nil, or_false] at known
    rcases known with rfl | rfl
    · exact ⟨by decide, by decide, by decide, 114, _, rfl, by decide⟩
    · exact ⟨by decide, by decide, by decide, 114, _, rfl, by decide⟩
  obtain ⟨firstChars, firstDots, firstShort, c, rest, isFirst, plain⟩ := names
  cases branch with
  | nil => cases formed
  | cons d more =>
    simp only [branchText, Bool.and_eq_true, List.all_eq_true, decide_eq_true_eq] at formed
    obtain ⟨⟨start, chars⟩, short⟩ := formed
    refine ⟨?_, ⟨c, rest ++ d :: more, by rw [isFirst, List.cons_append], plain⟩, ?_, ?_, ?_⟩
    · intro e mem
      refine Or.inl ?_
      rcases List.mem_append.mp mem with inFirst | inBranch
      · exact firstChars e inFirst
      · rcases List.mem_cons.mp inBranch with rfl | inMore
        · unfold branchChar
          rw [start]
          rfl
        · exact chars e inMore
    · rw [List.getLast?_append]
      intro isDot
      have lastDot : (d :: more).getLast? = some 46 := by
        cases found : (d :: more).getLast? with
        | none => cases List.getLast?_eq_none_iff.mp found
        | some e =>
          rw [found] at isDot
          exact isDot
      obtain ⟨front, isFront⟩ := List.getLast?_eq_some_iff.mp lastDot
      have ends : endsWith (d :: more) (lit ".") = true := by
        rw [isFront]
        exact List.isSuffixOf_iff_suffix.mpr (List.suffix_append front [46])
      rw [notDot] at ends
      cases ends
    · refine partition_dots_append firstDots ?_
      unfold holds at noDots
      rwa [Option.isSome_eq_false_iff, Option.isNone_iff_eq_none] at noDots
    · rw [List.length_append, List.length_cons]
      omega

theorem headDepth_headText {depth : ℕ} (small : depth ≤ maxHeadDepth) : headDepth (headText depth) = some depth := by
  unfold headText
  split_ifs with zero
  · rw [zero]
    decide
  · have short : (decimal depth).length ≤ 4 + 1 := length_decimal (by unfold maxHeadDepth at small; omega)
    have digits : (decimal depth).all isDigit = true :=
      List.all_eq_true.mpr fun c mem => isDigit_of_mem_decimal mem
    show (if (decimal depth).all isDigit = true ∧ (decimal depth).length ≤ 5 then
      some (if decimal depth = [] then 1 else Text.toNat 10 (decimal depth)) else none) = some depth
    rw [if_pos ⟨digits, short⟩, if_neg (decimal_ne_nil depth), toNat_decimal]

theorem objectId_headText (depth : ℕ) : objectId (headText depth) = false := by
  unfold headText
  split_ifs
  · decide
  · rfl

theorem canonicalRevision_idem {word t : Text} (canonical : canonicalRevision word = some t) :
    canonicalRevision t = some t ∧ RevisionText t := by
  unfold canonicalRevision at canonical
  by_cases isId : objectId word = true
  · rw [if_pos isId] at canonical
    cases canonical
    refine ⟨?_, revisionText_of_objectId isId⟩
    unfold canonicalRevision
    rw [if_pos isId]
  · rw [if_neg isId] at canonical
    cases head : headDepth word with
    | some depth =>
      simp only [head] at canonical
      split_ifs at canonical with small
      cases canonical
      refine ⟨?_, revisionText_headText small⟩
      unfold canonicalRevision
      rw [objectId_headText, if_neg Bool.false_ne_true, headDepth_headText small]
      exact if_pos small
    | none =>
      simp only [head] at canonical
      split_ifs at canonical with isRef
      cases canonical
      refine ⟨?_, revisionText_of_baseRef isRef⟩
      unfold canonicalRevision
      rw [if_neg isId, head]
      exact if_pos isRef

/-! ### Ranges and negated revisions -/

section Ranges

variable {a b : Text}

theorem partition_three_of_two (noDots : partition (lit "..") a = none) : partition (lit "...") a = none := by
  induction a with
  | nil => rfl
  | cons c rest ih =>
    obtain ⟨notHere, later⟩ := partition_cons_eq_none.mp noDots
    refine partition_cons_eq_none.mpr ⟨?_, ih later⟩
    rw [Bool.eq_false_iff] at notHere ⊢
    intro starts
    refine notHere (List.isPrefixOf_iff_prefix.mpr ?_)
    exact (show lit ".." <+: lit "..." from ⟨[46], rfl⟩).trans (List.isPrefixOf_iff_prefix.mp starts)

theorem dots_not_before {c : ℕ} {rest : Text} (last : (c :: rest).getLast? ≠ some 46)
    (notHere : startsWith (c :: rest) (lit "..") = false) :
    startsWith (c :: rest ++ 46 :: 46 :: b) (lit "..") = false := by
  rw [Bool.eq_false_iff] at notHere ⊢
  intro starts
  have dots : 46 :: [46] <+: c :: (rest ++ 46 :: 46 :: b) := List.isPrefixOf_iff_prefix.mp starts
  obtain ⟨rfl, second⟩ := List.cons_prefix_cons.mp dots
  cases rest with
  | nil => exact last rfl
  | cons d more =>
    obtain ⟨rfl, -⟩ := List.cons_prefix_cons.mp second
    exact notHere (List.isPrefixOf_iff_prefix.mpr ⟨more, rfl⟩)

theorem partition_range (noDots : partition (lit "..") a = none) (last : a.getLast? ≠ some 46) :
    partition (lit "..") (a ++ 46 :: 46 :: b) = some (a, b) := by
  induction a with
  | nil => rfl
  | cons c rest ih =>
    obtain ⟨notHere, later⟩ := partition_cons_eq_none.mp noDots
    have further := dots_not_before (b := b) last notHere
    have restLast : rest.getLast? ≠ some 46 := by
      cases rest with
      | nil => simp
      | cons d more => rwa [List.getLast?_cons_cons] at last
    rw [List.cons_append] at further ⊢
    rw [partition, if_neg (by rw [further]; exact Bool.false_ne_true), ih later restLast]
    rfl

theorem partition_three_range (noDots : partition (lit "..") a = none) (last : a.getLast? ≠ some 46)
    (after : partition (lit "..") b = none) (first : b.head? ≠ some 46) :
    partition (lit "...") (a ++ 46 :: 46 :: b) = none := by
  induction a with
  | nil =>
    have apart : ¬ [46] <+: b := by
      intro starts
      cases b with
      | nil => cases List.prefix_nil.mp starts
      | cons c rest =>
        obtain ⟨rfl, -⟩ := List.cons_prefix_cons.mp (show 46 :: [] <+: c :: rest from starts)
        exact first rfl
    refine partition_cons_eq_none.mpr ⟨?_, partition_cons_eq_none.mpr ⟨?_, partition_three_of_two after⟩⟩
    · rw [Bool.eq_false_iff]
      intro starts
      have dots : 46 :: 46 :: [46] <+: 46 :: 46 :: b := List.isPrefixOf_iff_prefix.mp starts
      exact apart (List.cons_prefix_cons.mp (List.cons_prefix_cons.mp dots).2).2
    · rw [Bool.eq_false_iff]
      intro starts
      have dots : 46 :: 46 :: [46] <+: 46 :: b := List.isPrefixOf_iff_prefix.mp starts
      exact apart ((show [46] <+: [46, 46] from ⟨[46], rfl⟩).trans (List.cons_prefix_cons.mp dots).2)
  | cons c rest ih =>
    obtain ⟨notHere, later⟩ := partition_cons_eq_none.mp noDots
    have further := dots_not_before (b := b) last notHere
    have restLast : rest.getLast? ≠ some 46 := by
      cases rest with
      | nil => simp
      | cons d more => rwa [List.getLast?_cons_cons] at last
    refine partition_cons_eq_none.mpr ⟨?_, ih later restLast⟩
    rw [Bool.eq_false_iff] at further ⊢
    intro starts
    refine further (List.isPrefixOf_iff_prefix.mpr ?_)
    exact (show lit ".." <+: lit "..." from ⟨[46], rfl⟩).trans (List.isPrefixOf_iff_prefix.mp starts)

end Ranges

def CanonicalRevision (t : Text) : Prop := canonicalRevision t = some t ∧ RevisionText t

namespace CanonicalRevision

variable {t a b : Text}

theorem not_starting {c : ℕ} (canonical : CanonicalRevision t) (notPlain : alphanumeric c = false) :
    startsWith t [c] = false := by
  obtain ⟨d, rest, rfl, plain⟩ := canonical.2.first
  rw [Bool.eq_false_iff]
  intro starts
  have same : c :: [] <+: d :: rest := List.isPrefixOf_iff_prefix.mp starts
  rw [(List.cons_prefix_cons.mp same).1, plain] at notPlain
  cases notPlain

theorem revisionsOf_positive (canonical : CanonicalRevision t) (sub : ReadSubcommand) :
    revisionsOf t sub = .ok [⟨t, false⟩] := by
  have three : holds t (lit "...") = false := by
    unfold holds
    rw [partition_three_of_two canonical.2.dots]
    rfl
  have notCaret : startsWith t (lit "^") = false := canonical.not_starting rfl
  unfold revisionsOf
  rw [three, if_neg Bool.false_ne_true, canonical.2.dots]
  simp only [notCaret, Bool.false_and, Bool.false_eq_true, if_false, canonical.1]

theorem revisionsOf_negated (canonical : CanonicalRevision t) : revisionsOf (94 :: t) .log = .ok [⟨t, true⟩] := by
  have two : partition (lit "..") (94 :: t) = none := partition_cons_eq_none.mpr ⟨rfl, canonical.2.dots⟩
  have three : holds (94 :: t) (lit "...") = false := by
    unfold holds
    rw [partition_three_of_two two]
    rfl
  have notBrace : startsWith (94 :: t) (lit "^\x7b") = false := by
    have plain := canonical.not_starting (c := 123) rfl
    exact plain
  unfold revisionsOf
  rw [three, if_neg Bool.false_ne_true, two]
  have caret : startsWith (94 :: t) (lit "^") = true := rfl
  simp only [caret, notBrace, Bool.not_false, Bool.and_true, if_true, List.drop_one, List.tail_cons, canonical.1]

theorem revisionsOf_range (left : CanonicalRevision a) (right : CanonicalRevision b) {sub : ReadSubcommand}
    (ranges : sub = .diff ∨ sub = .log) :
    revisionsOf (a ++ 46 :: 46 :: b) sub = .ok [⟨a, true⟩, ⟨b, false⟩] := by
  obtain ⟨c, rest, isA, -⟩ := left.2.first
  obtain ⟨d, more, isB, plain⟩ := right.2.first
  have first : b.head? ≠ some 46 := by
    rw [isB]
    rintro same
    cases same
    cases plain
  have three : holds (a ++ 46 :: 46 :: b) (lit "...") = false := by
    unfold holds
    rw [partition_three_range left.2.dots left.2.last right.2.dots first]
    rfl
  have leftHead : orHead a = a := if_neg (by rw [isA]; exact List.cons_ne_nil _ _)
  have rightHead : orHead b = b := if_neg (by rw [isB]; exact List.cons_ne_nil _ _)
  unfold revisionsOf
  rw [three, if_neg Bool.false_ne_true, partition_range left.2.dots left.2.last]
  simp only [leftHead, rightHead, left.1, right.1, if_pos ranges]

end CanonicalRevision

/-! ### The revisions of a call -/

/-- The revisions that a number of words can give: a word is a revision, a range or a negated revision. -/
inductive RevisionsGiven (sub : ReadSubcommand) : List Revision → ℕ → Prop
  | none : RevisionsGiven sub [] 0
  | positive {t : Text} {rest : List Revision} {n : ℕ} (canonical : CanonicalRevision t)
    (given : RevisionsGiven sub rest n) : RevisionsGiven sub (⟨t, false⟩ :: rest) (n + 1)
  | negated {t : Text} {rest : List Revision} {n : ℕ} (canonical : CanonicalRevision t) (logs : sub = .log)
    (given : RevisionsGiven sub rest n) : RevisionsGiven sub (⟨t, true⟩ :: rest) (n + 1)
  | range {a b : Text} {rest : List Revision} {n : ℕ} (left : CanonicalRevision a) (right : CanonicalRevision b)
    (ranges : sub = .diff ∨ sub = .log) (given : RevisionsGiven sub rest n) :
    RevisionsGiven sub (⟨a, true⟩ :: ⟨b, false⟩ :: rest) (n + 1)

def revisionsText : List Revision → List Text
  | ⟨a, true⟩ :: ⟨b, false⟩ :: rest => (a ++ 46 :: 46 :: b) :: revisionsText rest
  | ⟨a, true⟩ :: rest => (94 :: a) :: revisionsText rest
  | ⟨a, false⟩ :: rest => a :: revisionsText rest
  | [] => []

theorem revisionsOf_eq_ok {word : Text} {sub : ReadSubcommand} {found rest : List Revision}
    (accepted : revisionsOf word sub = .ok found) (given : RevisionsGiven sub rest n) :
    RevisionsGiven sub (found ++ rest) (n + 1) := by
  by_cases three : holds word (lit "...") = true
  · rw [revisionsOf, if_pos three] at accepted
    cases accepted
  · rw [revisionsOf, if_neg three] at accepted
    cases parts : partition (lit "..") word with
    | some sides =>
      simp only [parts] at accepted
      cases left : canonicalRevision (orHead sides.1) with
      | none =>
        simp only [left] at accepted
        cases accepted
      | some start =>
        cases right : canonicalRevision (orHead sides.2) with
        | none =>
          simp only [left, right] at accepted
          cases accepted
        | some stop =>
          simp only [left, right] at accepted
          split_ifs at accepted with ranges
          cases accepted
          exact .range (canonicalRevision_idem left) (canonicalRevision_idem right) ranges given
    | none =>
      simp only [parts] at accepted
      by_cases caret : (startsWith word (lit "^") && !startsWith word (lit "^\x7b")) = true
      · rw [if_pos caret] at accepted
        cases one : canonicalRevision (word.drop 1) with
        | none =>
          simp only [one] at accepted
          cases accepted
        | some t =>
          simp only [one] at accepted
          split_ifs at accepted with logs
          cases accepted
          exact .negated (canonicalRevision_idem one) logs given
      · rw [if_neg caret] at accepted
        cases one : canonicalRevision word with
        | none =>
          simp only [one] at accepted
          cases accepted
        | some t =>
          simp only [one] at accepted
          cases accepted
          exact .positive (canonicalRevision_idem one) given

theorem revisionsText_length {sub : ReadSubcommand} {revisions : List Revision}
    (given : RevisionsGiven sub revisions n) : (revisionsText revisions).length ≤ n := by
  induction revisions using revisionsText.induct generalizing n with
  | case1 a b rest ih =>
    rw [revisionsText, List.length_cons]
    cases given with
    | negated _ _ given =>
      cases given with
      | positive _ given => have := ih given; omega
    | range _ _ _ given => exact Nat.succ_le_succ (ih given)
  | case2 a rest notRange ih =>
    cases given with
    | negated _ _ given =>
      rw [revisionsText, List.length_cons]
      · exact Nat.succ_le_succ (ih given)
      · exact notRange
    | range _ _ _ _ => exact absurd rfl (notRange _ _)
  | case3 a rest ih =>
    rw [revisionsText, List.length_cons]
    cases given with
    | positive _ given => exact Nat.succ_le_succ (ih given)
  | case4 => exact Nat.zero_le n

/-! ### The loop over the words -/

/-- A path that is read as something else unless it stands after `--`. -/
def needsSeparator (sub : ReadSubcommand) (path : Text) : Bool :=
  optionWord path || decide (sub ≠ .status) && looksLikeRevision path

/-- What the loop finds in some words. -/
structure Parsed (sub : ReadSubcommand) (words options : List Text) (revisions : List Revision) (paths : List Text)
    (n : ℕ) : Prop where
  canonical : ∀ option ∈ options, CanonicalOption sub option
  given : RevisionsGiven sub revisions n
  status : sub = .status → revisions = []
  own : ∀ path ∈ paths, path ∈ words
  few : options.length + n + paths.length + (if paths.any (needsSeparator sub) then 1 else 0) ≤ words.length

theorem parseWords_eq_ok {sub : ReadSubcommand} {words : List Text} {used : Bool} {parsed : GitReadArgs}
    (accepted : parseWords sub used words args = .ok parsed) :
    ∃ options revisions paths n, Parsed sub words options revisions paths n ∧
      parsed = ⟨args.subcommand, args.options ++ options, args.revisions ++ revisions, args.paths ++ paths⟩ := by
  induction words generalizing used args with
  | nil =>
    cases accepted
    exact ⟨[], [], [], 0, ⟨by simp, .none, fun _ => rfl, by simp, by simp⟩, by simp⟩
  | cons word rest ih =>
    cases used with
    | true =>
      obtain ⟨options, revisions, paths, n, found, rfl⟩ := ih accepted
      refine ⟨options, revisions, paths, n, ⟨found.canonical, found.given, found.status, ?_, ?_⟩, rfl⟩
      · exact fun path mem => List.mem_cons_of_mem _ (found.own path mem)
      · exact found.few.trans (Nat.le_succ _)
    | false =>
      rw [parseWords] at accepted
      split_ifs at accepted with separator isOption isRevision
      · cases accepted
        refine ⟨[], [], rest, 0, ⟨by simp, .none, fun _ => rfl, ?_, ?_⟩, by simp⟩
        · exact fun path mem => List.mem_cons_of_mem _ mem
        · simp only [List.length_nil, List.length_cons]
          split_ifs <;> omega
      · cases isFound : option sub word rest with
        | error refusal =>
          simp only [isFound] at accepted
          cases accepted
        | ok result =>
          simp only [isFound] at accepted
          obtain ⟨options, revisions, paths, n, found, rfl⟩ := ih accepted
          refine ⟨result.1.toList ++ options, revisions, paths, n,
            ⟨?_, found.given, found.status, ?_, ?_⟩, by simp⟩
          · intro canonical mem
            rcases List.mem_append.mp mem with isNew | isOld
            · rw [Option.mem_toList] at isNew
              obtain ⟨first, second⟩ := result
              cases isNew
              exact option_eq_ok isFound
            · exact found.canonical canonical isOld
          · exact fun path mem => List.mem_cons_of_mem _ (found.own path mem)
          · have one : result.1.toList.length ≤ 1 := by cases result.1 <;> simp
            have := found.few
            rw [List.length_append, List.length_cons]
            omega
      · cases isFound : revisionsOf word sub with
        | error refusal =>
          simp only [isFound] at accepted
          cases accepted
        | ok result =>
          simp only [isFound] at accepted
          obtain ⟨options, revisions, paths, n, found, rfl⟩ := ih accepted
          refine ⟨options, result ++ revisions, paths, n + 1, ⟨found.canonical,
            revisionsOf_eq_ok isFound found.given, fun isStatus => absurd isStatus isRevision.1, ?_, ?_⟩, by simp⟩
          · exact fun path mem => List.mem_cons_of_mem _ (found.own path mem)
          · have := found.few
            rw [List.length_cons]
            omega
      · obtain ⟨options, revisions, paths, n, found, rfl⟩ := ih accepted
        have plain : needsSeparator sub word = false := by
          unfold needsSeparator
          rw [Bool.or_eq_false_iff, Bool.eq_false_iff, Bool.eq_false_iff, Ne, Ne, Bool.and_eq_true, decide_eq_true_eq]
          exact ⟨isOption, isRevision⟩
        refine ⟨options, revisions, word :: paths, n, ⟨found.canonical, found.given, found.status, ?_, ?_⟩, by simp⟩
        · intro path mem
          rcases List.mem_cons.mp mem with rfl | mem
          · exact List.mem_cons_self
          · exact List.mem_cons_of_mem _ (found.own path mem)
        · have := found.few
          rw [List.any_cons, plain, Bool.false_or, List.length_cons, List.length_cons]
          omega

/-! ### A call written out again -/

def GitReadArgs.words (args : GitReadArgs) : List Text :=
  args.subcommand.name :: (args.options ++ (revisionsText args.revisions ++
    ((if args.paths.any (needsSeparator args.subcommand) then [lit "--"] else []) ++ args.paths)))

theorem CanonicalOption.word {sub : ReadSubcommand} {word : Text} (canonical : CanonicalOption sub word) :
    optionWord word = true ∧ word ≠ lit "--" ∧ 0 ∉ word ∧ word.length ≤ 31 := by
  have valued : ∀ name ∈ valuedNames, ∀ t : Text, 0 ∉ t → t.length ≤ 9 →
      optionWord (name ++ t) = true ∧ name ++ t ≠ lit "--" ∧ 0 ∉ name ++ t ∧ (name ++ t).length ≤ 31 := by
    intro name known t noNul short
    simp only [valuedNames, List.mem_cons, List.not_mem_nil, or_false] at known
    rcases known with rfl | rfl | rfl | rfl <;>
      · refine ⟨by simp [optionWord, lit, startsWith], by simp [lit], ?_, ?_⟩
        · rw [List.mem_append, not_or]
          exact ⟨by decide, noNul⟩
        · rw [List.length_append]
          simp only [lit, List.length_map]
          have : ∀ s ∈ ["--max-count=", "--skip=", "--unified=", "--format="], s.toList.length ≤ 12 := by decide
          simp at this ⊢
          omega
  have digits : ∀ n ≤ maxCount, 0 ∉ decimal n ∧ (decimal n).length ≤ 9 := by
    intro n small
    refine ⟨fun zero => Bool.false_ne_true (isDigit_of_mem_decimal zero), ?_⟩
    have short : (decimal n).length ≤ 5 + 1 := length_decimal (by unfold maxCount at small; omega)
    omega
  cases canonical with
  | table listed =>
    revert word
    cases sub <;> decide
  | count takes small => exact valued _ (by decide) _ (digits _ small).1 (digits _ small).2
  | skip takes small => exact valued _ (by decide) _ (digits _ small).1 (digits _ small).2
  | context takes small =>
    have small := small.trans (show maxContextLines ≤ maxCount by decide)
    exact valued _ (by decide) _ (digits _ small).1 (digits _ small).2
  | format takes known =>
    have plain : ∀ name ∈ formats, 0 ∉ name ∧ name.length ≤ 9 := by decide
    exact valued _ (by decide) _ (plain _ known).1 (plain _ known).2

section Written

variable {sub : ReadSubcommand} {rest : List Text}

theorem parseWords_options {options : List Text} (canonical : ∀ option ∈ options, CanonicalOption sub option)
    (args : GitReadArgs) :
    parseWords sub false (options ++ rest) args = parseWords sub false rest { args with options := args.options ++ options } := by
  induction options generalizing args with
  | nil => simp
  | cons word more ih =>
    obtain ⟨own, others⟩ := List.forall_mem_cons.mp canonical
    obtain ⟨isOption, notSeparator, -⟩ := own.word
    rw [List.cons_append, parseWords, if_neg notSeparator, if_pos isOption, option_canonical own]
    simp only [ih others, Option.toList_some, List.append_assoc, List.singleton_append]

theorem parseWords_revision {word : Text} {found : List Revision} (notStatus : sub ≠ .status)
    (notOption : startsWith word (lit "-") = false) (looks : looksLikeRevision word = true)
    (accepted : revisionsOf word sub = .ok found) (args : GitReadArgs) :
    parseWords sub false (word :: rest) args = parseWords sub false rest { args with revisions := args.revisions ++ found } := by
  have notSeparator : word ≠ lit "--" := by
    rintro rfl
    cases notOption
  have plain : ¬ optionWord word = true := by
    unfold optionWord
    rw [notOption]
    exact Bool.false_ne_true
  rw [parseWords, if_neg notSeparator, if_neg plain, if_pos ⟨notStatus, looks⟩, accepted]

theorem parseWords_range {a b : Text} (left : CanonicalRevision a) (right : CanonicalRevision b)
    (ranges : sub = .diff ∨ sub = .log) (args : GitReadArgs) :
    parseWords sub false ((a ++ 46 :: 46 :: b) :: rest) args =
      parseWords sub false rest { args with revisions := args.revisions ++ [⟨a, true⟩, ⟨b, false⟩] } := by
  have notStatus : sub ≠ .status := by
    rcases ranges with rfl | rfl <;> decide
  have notOption : startsWith (a ++ 46 :: 46 :: b) (lit "-") = false := by
    obtain ⟨c, more, rfl, -⟩ := left.2.first
    exact left.not_starting (c := 45) rfl
  refine parseWords_revision notStatus notOption ?_ (left.revisionsOf_range right ranges) args
  have dots : holds (a ++ 46 :: 46 :: b) (lit "..") = true := by
    unfold holds
    rw [partition_range left.2.dots left.2.last]
    rfl
  simp [looksLikeRevision, dots]

theorem parseWords_revisions {revisions : List Revision} {n : ℕ} (given : RevisionsGiven sub revisions n)
    (notStatus : sub ≠ .status) (args : GitReadArgs) :
    parseWords sub false (revisionsText revisions ++ rest) args =
      parseWords sub false rest { args with revisions := args.revisions ++ revisions } := by
  induction revisions using revisionsText.induct generalizing n args with
  | case1 a b more ih =>
    rw [revisionsText, List.cons_append]
    cases given with
    | negated left logs given =>
      cases given with
      | positive right given =>
        rw [parseWords_range left right (Or.inr logs), ih given]
        simp
    | range left right ranges given =>
      rw [parseWords_range left right ranges, ih given]
      simp
  | case2 a more notRange ih =>
    cases given with
    | negated canonical logs given =>
      subst logs
      rw [revisionsText, List.cons_append,
        parseWords_revision notStatus rfl (by simp [looksLikeRevision, lit, startsWith]) canonical.revisionsOf_negated,
        ih given]
      · simp
      · exact notRange
    | range _ _ _ _ => exact absurd rfl (notRange _ _)
  | case3 a more ih =>
    cases given with
    | positive canonical given =>
      rw [revisionsText, List.cons_append, parseWords_revision notStatus (canonical.not_starting rfl) ?_
        (canonical.revisionsOf_positive sub), ih given]
      · simp
      · simp [looksLikeRevision, canonical.1]
  | case4 => simp [revisionsText]

theorem parseWords_paths (paths : List Text) (args : GitReadArgs) :
    parseWords sub false ((if paths.any (needsSeparator sub) then [lit "--"] else []) ++ paths) args =
      .ok { args with paths := args.paths ++ paths } := by
  by_cases separated : paths.any (needsSeparator sub) = true
  · rw [if_pos separated, List.singleton_append, parseWords, if_pos rfl]
  · rw [if_neg separated, List.nil_append]
    rw [Bool.not_eq_true, List.any_eq_false] at separated
    induction paths generalizing args with
    | nil => simp [parseWords_nil]
    | cons path more ih =>
      obtain ⟨plain, others⟩ := List.forall_mem_cons.mp separated
      unfold needsSeparator at plain
      rw [Bool.or_eq_true, not_or, Bool.and_eq_true, decide_eq_true_eq] at plain
      have notSeparator : path ≠ lit "--" := by
        rintro rfl
        exact plain.1 rfl
      rw [parseWords, if_neg notSeparator, if_neg plain.1, if_neg plain.2, ih _ others]
      simp

end Written

theorem checkWord_eq_ok {word : Text} : checkWord word = .ok () ↔ 0 ∉ word ∧ word.length ≤ maxWordChars := by
  unfold checkWord
  split_ifs with nul long
  · exact iff_of_false (by simp) fun both => both.1 nul
  · exact iff_of_false (by simp) fun both => by omega
  · exact iff_of_true rfl ⟨nul, by omega⟩

theorem CanonicalRevision.no_nul {t : Text} (canonical : CanonicalRevision t) : 0 ∉ t := by
  intro zero
  rcases canonical.2.chars 0 zero with plain | tilde
  · cases plain
  · cases tilde

theorem checkWord_revisionsText {sub : ReadSubcommand} {revisions : List Revision}
    (given : RevisionsGiven sub revisions n) : ∀ word ∈ revisionsText revisions, checkWord word = .ok () := by
  have range : ∀ {a b : Text}, CanonicalRevision a → CanonicalRevision b → checkWord (a ++ 46 :: 46 :: b) = .ok () := by
    intro a b left right
    have leftShort := left.2.short
    have rightShort := right.2.short
    refine checkWord_eq_ok.mpr ⟨?_, ?_⟩
    · simp [left.no_nul, right.no_nul]
    · simp only [List.length_append, List.length_cons, maxWordChars]
      omega
  have single : ∀ {t : Text}, CanonicalRevision t → checkWord t = .ok () ∧ checkWord (94 :: t) = .ok () := by
    intro t canonical
    have short := canonical.2.short
    refine ⟨checkWord_eq_ok.mpr ⟨canonical.no_nul, ?_⟩, checkWord_eq_ok.mpr ⟨by simp [canonical.no_nul], ?_⟩⟩
    · unfold maxWordChars
      omega
    · simp only [List.length_cons, maxWordChars]
      omega
  induction revisions using revisionsText.induct generalizing n with
  | case1 a b more ih =>
    rw [revisionsText, List.forall_mem_cons]
    cases given with
    | negated left logs given =>
      cases given with
      | positive right given => exact ⟨range left right, ih given⟩
    | range left right ranges given => exact ⟨range left right, ih given⟩
  | case2 a more notRange ih =>
    cases given with
    | negated canonical logs given =>
      rw [revisionsText, List.forall_mem_cons]
      · exact ⟨(single canonical).2, ih given⟩
      · exact notRange
    | range _ _ _ _ => exact absurd rfl (notRange _ _)
  | case3 a more ih =>
    rw [revisionsText, List.forall_mem_cons]
    cases given with
    | positive canonical given => exact ⟨(single canonical).1, ih given⟩
  | case4 => simp [revisionsText]

theorem named_name (sub : ReadSubcommand) : ReadSubcommand.named sub.name = some sub ∧ pagerWord sub.name = false ∧
    checkWord sub.name = .ok () := by
  cases sub <;> decide

theorem parseGitRead_eq_ok {argv : List Text} (accepted : parseGitRead argv = .ok args) :
    ∃ words options n, Parsed args.subcommand words options args.revisions args.paths n ∧
      args.options = firsts options ∧ fewRevisions args = true ∧
      (∀ word ∈ words, checkWord word = .ok ()) ∧ words.length < maxWords := by
  simp only [parseGitRead, ↓check_eq_ok, bind_eq_ok] at accepted
  obtain ⟨few, _, checked, accepted⟩ := accepted
  have short : (argv.dropWhile pagerWord).length ≤ argv.length := (List.dropWhile_suffix pagerWord).length_le
  have own : ∀ word ∈ argv.dropWhile pagerWord, word ∈ argv := fun word mem =>
    (List.dropWhile_suffix pagerWord).subset mem
  cases isWords : argv.dropWhile pagerWord with
  | nil =>
    simp only [isWords] at accepted
    cases accepted
  | cons first rest =>
    rw [isWords] at short own
    simp only [isWords, ↓check_eq_ok, bind_eq_ok, orThrow_eq_ok, pure_eq_ok, Bool.not_eq_true', Bool.not_eq_false]
      at accepted
    obtain ⟨sub, -, found, loop, bounded, rfl⟩ := accepted
    obtain ⟨options, revisions, paths, n, parsed, rfl⟩ := parseWords_eq_ok loop
    refine ⟨rest, options, n, parsed, rfl, bounded, ?_, ?_⟩
    · exact fun word mem => forM_eq_ok.mp checked word (own word (List.mem_cons_of_mem _ mem))
    · rw [List.length_cons] at short
      omega

theorem parseGitRead_words {argv : List Text} (accepted : parseGitRead argv = .ok args) :
    parseGitRead args.words = .ok args := by
  obtain ⟨words, options, n, parsed, isOptions, bounded, checked, short⟩ := parseGitRead_eq_ok accepted
  obtain ⟨sub, canonical, revisions, paths⟩ := args
  dsimp only at parsed isOptions
  have fewer : canonical.length ≤ options.length := by
    rw [isOptions]
    unfold firsts
    rw [List.length_reverse]
    exact (List.dedup_sublist _).length_le.trans_eq (List.length_reverse)
  have own : ∀ option ∈ canonical, CanonicalOption sub option := by
    intro option mem
    rw [isOptions, mem_firsts] at mem
    exact parsed.canonical option mem
  have once : firsts canonical = canonical := by
    rw [isOptions, firsts_of_nodup (nodup_firsts options)]
  have loop : parseWords sub false (canonical ++ (revisionsText revisions ++
      ((if paths.any (needsSeparator sub) then [lit "--"] else []) ++ paths))) ⟨sub, [], [], []⟩ =
      .ok ⟨sub, canonical, revisions, paths⟩ := by
    rw [parseWords_options own]
    by_cases isStatus : sub = .status
    · rw [parsed.status isStatus]
      exact parseWords_paths paths _
    · rw [parseWords_revisions parsed.given isStatus]
      exact parseWords_paths paths _
  obtain ⟨named, notPager, nameChecked⟩ := named_name sub
  simp only [parseGitRead, ↓check_eq_ok, bind_eq_ok]
  refine ⟨?_, (), forM_eq_ok.mpr ?_, ?_⟩
  · have written := revisionsText_length parsed.given
    have count := parsed.few
    simp only [GitReadArgs.words, List.length_cons, List.length_append]
    split_ifs at count ⊢
    · simp only [List.length_singleton]
      omega
    · simp only [List.length_nil]
      omega
  · simp only [GitReadArgs.words, List.forall_mem_cons, List.forall_mem_append]
    refine ⟨nameChecked, ?_, checkWord_revisionsText parsed.given, ?_, ?_⟩
    · intro option mem
      obtain ⟨-, -, noNul, length⟩ := (own option mem).word
      exact checkWord_eq_ok.mpr ⟨noNul, length.trans (by decide)⟩
    · intro word mem
      split_ifs at mem
      · rw [List.mem_singleton.mp mem]
        decide
      · cases mem
    · exact fun path mem => checked path (parsed.own path mem)
  · rw [GitReadArgs.words, List.dropWhile_cons_of_neg (by rw [notPager]; exact Bool.false_ne_true)]
    simp only [↓check_eq_ok, bind_eq_ok, orThrow_eq_ok, pure_eq_ok, Bool.not_eq_true', Bool.not_eq_false]
    refine ⟨sub, named, _, loop, bounded, ?_⟩
    rw [once]

end PawBackend.Sandbox
