/-
**Python strings.** A `str` is a sequence of code points, lone surrogates included, so a `Text` is a list
of numbers. The operations are those of `str` on the arguments they are used with here: one-character
separators, ASCII case.

`Unicode` is what is taken from the Unicode database: the general category of a code point, and the normal form NFKC.
-/

import Mathlib.Data.List.Infix
import Mathlib.Data.List.DropRight

namespace PawBackend.Lib

open List

/-- A `str`: its code points. -/
abbrev Text := List ℕ

instance Text.lawfulBEq : LawfulBEq Text := inferInstance

namespace Text

def lit (s : String) : Text := s.toList.map Char.toNat

theorem lit_ofList (cs : List Char) : lit (String.ofList cs) = cs.map Char.toNat := by
  unfold lit
  rw [String.toList_ofList]

def startsWith (t head : Text) : Bool := head.isPrefixOf t

def endsWith (t tail : Text) : Bool := tail.isSuffixOf t

/-- `sep.join(parts)`. -/
def join (separator : ℕ) (parts : List Text) : Text := [separator].intercalate parts

/-- `text.strip(chars)`. -/
def strip (t chars : Text) : Text := (t.dropWhile (· ∈ chars)).rdropWhile (· ∈ chars)

/-- `text.rstrip(chars)`. -/
def rstrip (t chars : Text) : Text := t.rdropWhile (· ∈ chars)

/-- `text.partition(sep)` without the separator, where it occurs. -/
def partition (separator : Text) : Text → Option (Text × Text)
  | [] => if separator = [] then some ([], []) else none
  | c :: rest =>
    if startsWith (c :: rest) separator then some ([], (c :: rest).drop separator.length)
    else (partition separator rest).map fun (before, after) => (c :: before, after)

def before (c : ℕ) (t : Text) : Text := t.takeWhile (· ≠ c)

def isAscii (t : Text) : Bool := t.all (· < 128)

def isDigit (c : ℕ) : Bool := 48 ≤ c ∧ c ≤ 57

def isLower (c : ℕ) : Bool := 97 ≤ c ∧ c ≤ 122

def isUpper (c : ℕ) : Bool := 65 ≤ c ∧ c ≤ 90

/-- `text.isdigit()` of an ASCII text. -/
def isDigits (t : Text) : Bool := !t.isEmpty && t.all isDigit

/-- `text.lower()` of an ASCII text. -/
def lower (t : Text) : Text := t.map fun c => if isUpper c then c + 32 else c

def digit (c : ℕ) : ℕ := if isDigit c then c - 48 else if 97 ≤ c ∧ c ≤ 102 then c - 87 else 0

def toNat (base : ℕ) (t : Text) : ℕ := t.foldl (fun n c => n * base + digit c) 0

/-- White space, as `str.isspace` and `\s` know it. -/
def isSpace (c : ℕ) : Bool :=
  (9 ≤ c ∧ c ≤ 13) ∨ (28 ≤ c ∧ c ≤ 32) ∨ c = 0x85 ∨ c = 0xA0 ∨ c = 0x1680 ∨
    (0x2000 ≤ c ∧ c ≤ 0x200A) ∨ c = 0x2028 ∨ c = 0x2029 ∨ c = 0x202F ∨ c = 0x205F ∨ c = 0x3000

/-! ### Splitting and joining -/

theorem join_cons (separator : ℕ) (part : Text) {rest : List Text} (nonempty : rest ≠ []) :
    join separator (part :: rest) = part ++ separator :: join separator rest := by
  unfold join
  rw [intercalate_cons_of_ne_nil nonempty]
  simp

@[simp]
theorem join_singleton (separator : ℕ) (part : Text) : join separator [part] = part :=
  intercalate_singleton

variable {separator : ℕ} {parts : List Text}

theorem join_append {first rest : List Text} (nonempty : first ≠ []) (more : rest ≠ []) :
    join separator (first ++ rest) = join separator first ++ separator :: join separator rest := by
  induction first with
  | nil => exact absurd rfl nonempty
  | cons part others ih =>
    by_cases last : others = []
    · rw [last, singleton_append, join_cons separator part more, join_singleton]
    · rw [cons_append, join_cons separator part (append_ne_nil_of_left_ne_nil last _), ih last,
        join_cons separator part last, append_assoc, cons_append]

theorem join_splitOn (separator : ℕ) (t : Text) : join separator (t.splitOn separator) = t :=
  intercalate_splitOn separator

theorem not_mem_of_mem_splitOn {t part : Text} (mem : part ∈ t.splitOn separator) :
    separator ∉ part := by
  induction t generalizing part with
  | nil =>
    rw [splitOn_nil, mem_singleton] at mem
    rw [mem]
    exact not_mem_nil
  | cons c rest ih =>
    rw [splitOn_cons_eq_if_modifyHead] at mem
    split_ifs at mem with same
    · rcases mem_cons.mp mem with rfl | mem
      · exact not_mem_nil
      · exact ih mem
    · obtain ⟨first, others, isSplit⟩ := exists_cons_of_ne_nil (splitOn_ne_nil separator rest)
      rw [isSplit] at mem
      rcases mem_cons.mp mem with rfl | mem
      · have absent : separator ∉ first := ih (by rw [isSplit]; exact (.head _))
        rw [mem_cons, not_or]
        exact ⟨fun this => same (by simp [this]), absent⟩
      · exact ih (by rw [isSplit]; exact .tail _ mem)

theorem infix_join {part : Text} (mem : part ∈ parts) :
    part <:+: join separator parts := by
  induction parts with
  | nil => cases mem
  | cons first rest ih =>
    by_cases last : rest = []
    · subst last
      rw [mem_singleton] at mem
      rw [mem, join_singleton]
    · rw [join_cons separator first last]
      rcases mem_cons.mp mem with rfl | mem
      · exact ⟨[], _, rfl⟩
      · refine (ih mem).trans ⟨first ++ [separator], [], ?_⟩
        simp

theorem infix_of_infix_cons {w first rest : Text} (absent : separator ∉ w)
    (here : w <:+: first ++ separator :: rest) : w <:+: first ∨ w <:+: rest := by
  obtain ⟨left, right, isWhole⟩ := here
  rw [append_assoc] at isWhole
  rcases append_eq_append_iff.mp isWhole with ⟨more, isFirst, isRest⟩ | ⟨more, isLeft, isRest⟩
  · rcases append_eq_append_iff.mp isRest with ⟨tail, isMore, -⟩ | ⟨tail, isW, isTail⟩
    · exact Or.inl ⟨left, tail, by rw [isFirst, isMore, append_assoc]⟩
    · cases tail with
      | nil =>
        refine Or.inl ⟨left, [], ?_⟩
        rw [isFirst, isW]
        simp
      | cons c tail =>
        rw [cons_append, List.cons.injEq] at isTail
        refine absurd ?_ absent
        rw [isW, isTail.1]
        simp
  · cases more with
    | nil =>
      rw [nil_append] at isRest
      cases w with
      | nil => exact Or.inl ( nil_infix)
      | cons c w =>
        rw [cons_append, List.cons.injEq] at isRest
        refine absurd ?_ absent
        rw [isRest.1]
        exact .head _
    | cons c more =>
      rw [cons_append, List.cons.injEq] at isRest
      exact Or.inr ⟨more, right, by rw [isRest.2, append_assoc]⟩

theorem infix_of_infix_join {w : Text} (nonempty : w ≠ []) (absent : separator ∉ w)
    (here : w <:+: join separator parts) : ∃ part ∈ parts, w <:+: part := by
  induction parts with
  | nil => exact absurd (infix_nil.mp here) nonempty
  | cons first rest ih =>
    by_cases last : rest = []
    · subst last
      rw [join_singleton] at here
      exact ⟨first, .head _, here⟩
    · rw [join_cons separator first last] at here
      rcases infix_of_infix_cons absent here with here | here
      · exact ⟨first, .head _, here⟩
      · obtain ⟨part, mem, inPart⟩ := ih here
        exact ⟨part, .tail _ mem, inPart⟩

theorem length_join_filter_le (separator : ℕ) (p : Text → Bool) (parts : List Text) :
    (join separator (parts.filter p)).length ≤ (join separator parts).length := by
  induction parts with
  | nil => exact le_rfl
  | cons first rest ih =>
    by_cases last : rest = []
    · subst last
      rw [filter_singleton, join_singleton]
      cases p first <;> simp [join]
    · rw [join_cons separator first last, length_append, length_cons]
      by_cases kept : p first = true
      · rw [filter_cons_of_pos kept]
        by_cases others : rest.filter p = []
        · rw [others, join_singleton]
          omega
        · rw [join_cons separator first others, length_append, length_cons]
          omega
      · rw [filter_cons_of_neg kept]
        omega

theorem mem_join {c : ℕ} (mem : c ∈ join separator parts) :
    c = separator ∨ ∃ part ∈ parts, c ∈ part := by
  induction parts with
  | nil => cases mem
  | cons first rest ih =>
    by_cases last : rest = []
    · subst last
      rw [join_singleton] at mem
      exact Or.inr ⟨first, .head _, mem⟩
    · rw [join_cons separator first last, mem_append, mem_cons] at mem
      rcases mem with mem | isSeparator | mem
      · exact Or.inr ⟨first, .head _, mem⟩
      · exact Or.inl isSeparator
      · rcases ih mem with isSeparator | ⟨part, inRest, inPart⟩
        · exact Or.inl isSeparator
        · exact Or.inr ⟨part, .tail _ inRest, inPart⟩

/-! ### Cutting a text -/

section Cuts

theorem startsWith_iff {mark t : Text} : startsWith t mark = true ↔ ∃ tail, t = mark ++ tail := by
  unfold startsWith
  rw [ isPrefixOf_iff_prefix]
  exact ⟨fun ⟨tail, isWhole⟩ => ⟨tail, isWhole.symm⟩, fun ⟨tail, isWhole⟩ => ⟨tail, isWhole.symm⟩⟩

variable {p : ℕ → Bool} {first rest : Text}

theorem takeWhile_append_stop (all : ∀ c ∈ first, p c = true) (stop : ∀ c ∈ rest.head?, p c = false) :
    (first ++ rest).takeWhile p = first := by
  rw [takeWhile_append_of_pos all]
  cases rest with
  | nil => simp
  | cons c rest => rw [takeWhile_cons_of_neg (by rw [stop c rfl]; exact Bool.false_ne_true), append_nil]

theorem dropWhile_append_stop (all : ∀ c ∈ first, p c = true) (stop : ∀ c ∈ rest.head?, p c = false) :
    (first ++ rest).dropWhile p = rest := by
  rw [dropWhile_append_of_pos all]
  cases rest with
  | nil => rfl
  | cons c rest => rw [dropWhile_cons_of_neg (by rw [stop c rfl]; exact Bool.false_ne_true)]

theorem partition_append {c : ℕ} (separator : Text) (absent : c ∉ first) (rest : Text) :
    partition (c :: separator) (first ++ (c :: separator ++ rest)) = some (first, rest) := by
  induction first with
  | nil =>
    rw [nil_append, cons_append, partition]
    have starts : startsWith (c :: (separator ++ rest)) (c :: separator) = true := startsWith_iff.mpr ⟨rest, rfl⟩
    rw [if_pos starts, ← cons_append, drop_left]
  | cons d first ih =>
    rw [mem_cons, not_or] at absent
    have starts : ¬ startsWith (d :: (first ++ (c :: separator ++ rest))) (c :: separator) = true := by
      rw [startsWith_iff]
      rintro ⟨tail, isWhole⟩
      exact absent.1 (List.cons.inj isWhole).1.symm
    rw [cons_append, partition, if_neg starts, ih absent.2]
    rfl

theorem partition_eq_none {c : ℕ} (absent : c ∉ first) : partition [c] first = none := by
  induction first with
  | nil => rfl
  | cons d first ih =>
    rw [mem_cons, not_or] at absent
    have starts : ¬ startsWith (d :: first) [c] = true := by
      rw [startsWith_iff]
      rintro ⟨tail, isWhole⟩
      exact absent.1 (List.cons.inj isWhole).1.symm
    rw [partition, if_neg starts, ih absent.2]
    rfl

theorem partition_eq_some {separator before after t : Text} (found : partition separator t = some (before, after)) :
    t = before ++ separator ++ after := by
  induction t generalizing before with
  | nil =>
    unfold partition at found
    split_ifs at found with isEmpty
    cases found
    rw [isEmpty]
    rfl
  | cons c rest ih =>
    unfold partition at found
    split_ifs at found with starts
    · cases found
      obtain ⟨tail, isWhole⟩ := startsWith_iff.mp starts
      rw [isWhole, drop_left, nil_append]
    · rw [Option.map_eq_some_iff] at found
      obtain ⟨⟨front, back⟩, isCut, isSame⟩ := found
      cases isSame
      rw [ih isCut, cons_append, cons_append]

end Cuts

section Strip

variable {chars first rest : Text}

theorem rstrip_append_of_kept (kept : rstrip first chars = first) :
    rstrip (first ++ rest) chars = first ++ rstrip rest chars := by
  unfold rstrip at kept ⊢
  induction rest using List.reverseRecOn with
  | nil => rw [append_nil, rdropWhile_nil, append_nil, kept]
  | append_singleton rest c ih =>
    rw [← append_assoc, rdropWhile_concat, rdropWhile_concat]
    split_ifs
    · exact ih
    · exact append_assoc _ _ _

theorem rstrip_append_of_ne_nil (nonempty : rstrip rest chars ≠ []) :
    rstrip (first ++ rest) chars = first ++ rstrip rest chars := by
  unfold rstrip at nonempty ⊢
  induction rest using List.reverseRecOn with
  | nil => exact absurd (rdropWhile_nil _) nonempty
  | append_singleton rest c ih =>
    rw [rdropWhile_concat] at nonempty
    rw [← append_assoc, rdropWhile_concat, rdropWhile_concat]
    split_ifs at nonempty ⊢
    · exact ih nonempty
    · exact append_assoc _ _ _

theorem rstrip_rstrip (t chars : Text) : rstrip (rstrip t chars) chars = rstrip t chars :=
  rdropWhile_idempotent _ _

theorem mem_of_mem_rstrip {t : Text} {c : ℕ} (mem : c ∈ rstrip t chars) : c ∈ t :=
  ( rdropWhile_prefix _ _).subset mem

end Strip

end Text

/-! ### The Unicode database -/

/-- The general categories that are told apart here; `other` stands for all the rest. -/
inductive Category
  | cc
  | cf
  | cs
  | co
  | cn
  | zl
  | zp
  | zs
  | other
  deriving DecidableEq, Repr

structure Unicode where
  category : ℕ → Category
  nfkc : Text → Text
  nfkc_nil : nfkc [] = []
  nfkc_slash : ∀ first rest, nfkc (first ++ 47 :: rest) = first ++ 47 :: rest ↔
    nfkc first = first ∧ nfkc rest = rest

theorem Unicode.nfkc_join (u : Unicode) {parts : List Text} :
    u.nfkc (Text.join 47 parts) = Text.join 47 parts ↔ ∀ part ∈ parts, u.nfkc part = part := by
  induction parts with
  | nil => exact iff_of_true u.nfkc_nil (by simp)
  | cons first rest ih =>
    by_cases last : rest = []
    · subst last
      simp
    · rw [Text.join_cons 47 first last, u.nfkc_slash, ih]
      simp

end PawBackend.Lib
