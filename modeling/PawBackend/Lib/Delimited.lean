/-
**Codes that show where they end.**

A code is `Delimited` where two words of it, each followed by something it may be followed by, are the same text
only if they stand for the same thing and the same follows. Such codes compose:

* `Delimited.run`: an injective code whose words are the longest run of their characters;
* `Delimited.pair`: one code after another;
* `Delimited.spelled`: letters up to a closing character that begins none of them;
* `Delimited.joined`: items with a separator between them and a closing character behind the last.
-/

import PawBackend.Lib.Text

namespace PawBackend.Lib

open Text List

variable {α β : Type} {code : α → Text} {same : α → α → Prop} {valid : α → Prop} {stop : Text → Prop}

/-- Words of the code end where they end, before whatever `stop` allows. -/
def Delimited (code : α → Text) (same : α → α → Prop) (valid : α → Prop) (stop : Text → Prop) : Prop :=
  ∀ ⦃a b : α⦄ ⦃r s : Text⦄, valid a → valid b → stop r → stop s → code a ++ r = code b ++ s → same a b ∧ r = s

/-- What may follow an item: one of two characters. -/
def Followed (separator close : ℕ) (r : Text) : Prop := ∃ c rest, r = c :: rest ∧ (c = separator ∨ c = close)

/-- Anything may follow. -/
def Anything (_ : Text) : Prop := True

namespace Delimited

theorem mono {valid' : α → Prop} {stop' : Text → Prop} (delimited : Delimited code same valid stop)
    (fewer : ∀ a, valid' a → valid a) (less : ∀ r, stop' r → stop r) : Delimited code same valid' stop' :=
  fun _ _ _ _ isA isB endsA endsB whole =>
    delimited (fewer _ isA) (fewer _ isB) (less _ endsA) (less _ endsB) whole

theorem after (front : Text) (delimited : Delimited code same valid stop) :
    Delimited (fun a => front ++ code a) same valid stop := by
  intro a b r s isA isB endsA endsB whole
  rw [append_assoc, append_assoc] at whole
  exact delimited isA isB endsA endsB (append_cancel_left whole)

theorem run {p : ℕ → Bool} (chars : ∀ a, valid a → ∀ c ∈ code a, p c = true)
    (told : ∀ a b, valid a → valid b → code a = code b → same a b)
    (ends : ∀ r, stop r → ∀ c ∈ r.head?, p c = false) : Delimited code same valid stop := by
  intro a b r s isA isB endsA endsB whole
  have words : code a = code b := by
    rw [← takeWhile_append_stop (chars a isA) (ends r endsA), whole, takeWhile_append_stop (chars b isB) (ends s endsB)]
  have rests : r = s := by
    rw [← dropWhile_append_stop (chars a isA) (ends r endsA), whole, dropWhile_append_stop (chars b isB) (ends s endsB)]
  exact ⟨told a b isA isB words, rests⟩

theorem pair {other : β → Text} {sameOther : β → β → Prop} {validOther : β → Prop} {between : Text → Prop}
    (first : Delimited code same valid between) (second : Delimited other sameOther validOther stop)
    (follows : ∀ b r, validOther b → stop r → between (other b ++ r)) :
    Delimited (fun both : α × β => code both.1 ++ other both.2)
      (fun one two => same one.1 two.1 ∧ sameOther one.2 two.2) (fun both => valid both.1 ∧ validOther both.2) stop := by
  intro one two r s isOne isTwo endsOne endsTwo whole
  rw [append_assoc, append_assoc] at whole
  obtain ⟨sameFirst, rests⟩ :=
    first isOne.1 isTwo.1 (follows _ _ isOne.2 endsOne) (follows _ _ isTwo.2 endsTwo) whole
  obtain ⟨sameSecond, rests⟩ := second isOne.2 isTwo.2 endsOne endsTwo rests
  exact ⟨⟨sameFirst, sameSecond⟩, rests⟩

theorem spelled {close : ℕ} (letters : Delimited code (· = ·) valid Anything)
    (starts : ∀ a, valid a → ∃ c rest, code a = c :: rest ∧ c ≠ close) :
    Delimited (fun word : List α => word.flatMap code ++ [close]) (· = ·) (fun word => ∀ a ∈ word, valid a) Anything := by
  intro word other r s isWord isOther _ _ whole
  dsimp only at whole
  induction word generalizing other with
  | nil =>
    cases other with
    | nil => exact ⟨rfl, (List.cons.inj whole).2⟩
    | cons b other =>
      obtain ⟨c, rest, isCode, isNot⟩ := starts b (isOther b (.head _))
      rw [flatMap_cons, isCode] at whole
      exact absurd (List.cons.inj whole).1.symm isNot
  | cons a word ih =>
    cases other with
    | nil =>
      obtain ⟨c, rest, isCode, isNot⟩ := starts a (isWord a (.head _))
      rw [flatMap_cons, isCode] at whole
      exact absurd (List.cons.inj whole).1 isNot
    | cons b other =>
      simp only [flatMap_cons, append_assoc] at whole
      obtain ⟨rfl, rests⟩ :=
        letters (isWord a (.head _)) (isOther b (.head _)) trivial trivial whole
      obtain ⟨rfl, same⟩ := ih (fun c mem => isWord c (.tail _ mem))
        (fun c mem => isOther c (.tail _ mem)) (by simpa only [append_assoc] using rests)
      exact ⟨rfl, same⟩

theorem join_followed (code : α → Text) (separator close : ℕ) (a : α) (items : List α) (r : Text) :
    ∃ rest, join separator ((a :: items).map code) ++ [close] ++ r = code a ++ rest ∧
      ((items = [] ∧ rest = close :: r) ∨
        (items ≠ [] ∧ rest = separator :: (join separator (items.map code) ++ [close] ++ r))) := by
  by_cases last : items = []
  · refine ⟨close :: r, ?_, Or.inl ⟨last, rfl⟩⟩
    rw [last, map_cons, map_nil, join_singleton, append_assoc]
    rfl
  · have more : items.map code ≠ [] := fun none => last (map_eq_nil_iff.mp none)
    refine ⟨_, ?_, Or.inr ⟨last, rfl⟩⟩
    rw [map_cons, join_cons separator _ more]
    simp only [append_assoc, cons_append]

theorem joined {separator close : ℕ} (items : Delimited code same valid (Followed separator close))
    (starts : ∀ a, valid a → ∃ c rest, code a = c :: rest ∧ c ≠ close) (apart : separator ≠ close) :
    Delimited (fun list : List α => join separator (list.map code) ++ [close]) (List.Forall₂ same)
      (fun list => ∀ a ∈ list, valid a) Anything := by
  intro list other r s isList isOther _ _ whole
  dsimp only at whole
  induction list generalizing other with
  | nil =>
    cases other with
    | nil => exact ⟨List.Forall₂.nil, (List.cons.inj whole).2⟩
    | cons b other =>
      obtain ⟨c, front, isCode, isNot⟩ := starts b (isOther b (.head _))
      obtain ⟨rest, isRest, -⟩ := join_followed code separator close b other s
      rw [isRest, isCode] at whole
      exact absurd (List.cons.inj whole).1.symm isNot
  | cons a list ih =>
    obtain ⟨rest, isRest, follows⟩ := join_followed code separator close a list r
    cases other with
    | nil =>
      obtain ⟨c, front, isCode, isNot⟩ := starts a (isList a (.head _))
      rw [isRest, isCode] at whole
      exact absurd (List.cons.inj whole).1 isNot
    | cons b other =>
      obtain ⟨rest', isRest', follows'⟩ := join_followed code separator close b other s
      rw [isRest, isRest'] at whole
      have followed : Followed separator close rest := by
        rcases follows with ⟨-, rfl⟩ | ⟨-, rfl⟩
        · exact ⟨close, _, rfl, Or.inr rfl⟩
        · exact ⟨separator, _, rfl, Or.inl rfl⟩
      have followed' : Followed separator close rest' := by
        rcases follows' with ⟨-, rfl⟩ | ⟨-, rfl⟩
        · exact ⟨close, _, rfl, Or.inr rfl⟩
        · exact ⟨separator, _, rfl, Or.inl rfl⟩
      obtain ⟨sameItem, rests⟩ :=
        items (isList a (.head _)) (isOther b (.head _)) followed followed' whole
      rcases follows with ⟨isLast, rfl⟩ | ⟨-, rfl⟩
      · rcases follows' with ⟨isLast', rfl⟩ | ⟨-, rfl⟩
        · rw [isLast, isLast']
          exact ⟨List.Forall₂.cons sameItem List.Forall₂.nil, (List.cons.inj rests).2⟩
        · exact absurd (List.cons.inj rests).1.symm apart
      · rcases follows' with ⟨-, rfl⟩ | ⟨-, rfl⟩
        · exact absurd (List.cons.inj rests).1 apart
        · obtain ⟨others, isSame⟩ := ih (fun c mem => isList c (.tail _ mem))
            (fun c mem => isOther c (.tail _ mem)) (List.cons.inj rests).2
          exact ⟨List.Forall₂.cons sameItem others, isSame⟩

end Delimited

end PawBackend.Lib
