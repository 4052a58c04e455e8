/-
**Regular expressions**, as a backtracking matcher tries them.

`ends` lists where a match from a place in a text can end, the preferred end first: a sequence tries every end of its
first part in order, and a repetition of a character class is greedy or lazy.
-/

import PawBackend.Lib.Text

namespace PawBackend.Lib

structure Cursor where
  read : Text
  rest : Text
  deriving DecidableEq, Repr

inductive Regex
  | empty
  | set (accepts : ℕ → Bool)
  | seq (first second : Regex)
  | alt (first second : Regex)
  | optional (part : Regex)
  | many (accepts : ℕ → Bool) (least : ℕ) (most : Option ℕ) (greedy : Bool)
  /-- `(?<!...)` of a character class. -/
  | notAfter (accepts : ℕ → Bool)
  /-- `(?!...)`. -/
  | notBefore (part : Regex)
  /-- `\Z`. -/
  | finish

namespace Regex

/-- The places after none, one, two and more characters of a class. -/
def advance (accepts : ℕ → Bool) : Option ℕ → Text → Text → List Cursor
  | _, read, [] => [⟨read, []⟩]
  | most, read, c :: rest =>
    ⟨read, c :: rest⟩ ::
      if accepts c ∧ most ≠ some 0 then advance accepts (most.map (· - 1)) (c :: read) rest else []

def ends : Regex → Cursor → List Cursor
  | .empty, place => [place]
  | .set accepts, place =>
    match place.rest with
    | c :: rest => if accepts c then [⟨c :: place.read, rest⟩] else []
    | [] => []
  | .seq first second, place => (first.ends place).flatMap second.ends
  | .alt first second, place => first.ends place ++ second.ends place
  | .optional part, place => part.ends place ++ [place]
  | .many accepts least most greedy, place =>
    let places := (advance accepts most place.read place.rest).drop least
    if greedy then places.reverse else places
  | .notAfter accepts, place => if place.read.head?.any accepts then [] else [place]
  | .notBefore part, place => if (part.ends place).isEmpty then [place] else []
  | .finish, place => if place.rest.isEmpty then [place] else []

def text (t : Text) : Regex := t.foldr (fun c rest => .seq (.set fun d => decide (d = c)) rest) .empty

/-- Parts in sequence, and alternatives. -/
def sequence (parts : List Regex) : Regex := parts.foldr .seq .empty

def oneOf : List Regex → Regex
  | [] => .set fun _ => false
  | [part] => part
  | part :: rest => .alt part (oneOf rest)

/-- `search`. -/
def searchFrom (pattern : Regex) : Text → Text → Bool
  | read, [] => !(pattern.ends ⟨read, []⟩).isEmpty
  | read, c :: rest => !(pattern.ends ⟨read, c :: rest⟩).isEmpty || pattern.searchFrom (c :: read) rest

def search (pattern : Regex) (t : Text) : Bool := pattern.searchFrom [] t

def fullmatch (pattern : Regex) (t : Text) : Bool :=
  (pattern.ends ⟨[], t⟩).any fun place => place.rest.isEmpty

end Regex

structure Substitution where
  head : Regex := .empty
  tail : Regex

namespace Substitution

variable (pattern : Substitution) (new : Text)

def matchAt (place : Cursor) : Option (Cursor × Cursor) :=
  ((pattern.head.ends place).flatMap fun kept => (pattern.tail.ends kept).map fun last => (kept, last)).head?

def between (first second : Cursor) : Text :=
  (second.read.take (second.read.length - first.read.length)).reverse

/-- `subn`, with one unit of fuel for each character, where no match is empty. -/
def subnFrom : ℕ → Cursor → Text × ℕ
  | 0, place => (place.rest, 0)
  | fuel + 1, place =>
    match place.rest with
    | [] => ([], 0)
    | c :: rest =>
      match pattern.matchAt place with
      | some (kept, last) =>
        let (out, count) := subnFrom fuel last
        (between place kept ++ new ++ out, count + 1)
      | none =>
        let (out, count) := subnFrom fuel ⟨c :: place.read, rest⟩
        (c :: out, count)

def subn (t : Text) : Text × ℕ := pattern.subnFrom new t.length ⟨[], t⟩

end Substitution

end PawBackend.Lib
