/-
**Credential plaintext: detection and redaction of a text** (`tools/credentials.py`).

The patterns are written out as the source has them, in its order. Under `(?i)` a letter also stands for the other
case, and the four letters beyond ASCII that fold into `a-z` count as letters.
-/

import PawBackend.Lib.Regex
import PawBackend.Tools.Targets

namespace PawBackend.Tools

open Lib Lib.Text

namespace Pattern

/-! ### Character classes -/

def letter (c : ℕ) : Bool := isUpper c || isLower c

def letterOrDigit (c : ℕ) : Bool := letter c || isDigit c

/-- A letter or digit under `(?i)`: the dotted capital i, the dotless i, the long s and the kelvin sign fold
into `a-z`. -/
def foldedLetter (c : ℕ) : Bool := letter c || decide (c ∈ [0x130, 0x131, 0x17F, 0x212A])

def foldedLetterOrDigit (c : ℕ) : Bool := foldedLetter c || isDigit c

def orAny (accepts : ℕ → Bool) (chars : String) (c : ℕ) : Bool := accepts c || decide (c ∈ lit chars)

/-- Whether a character is a given letter under `(?i)`. -/
def folds (letter c : ℕ) : Bool :=
  decide (c = letter) || (isLower letter && decide (c + 32 = letter)) ||
    decide ((letter, c) ∈ [(105, 0x130), (105, 0x131), (115, 0x17F), (107, 0x212A)])

/-- A lower-case text under `(?i)`. -/
def foldedText (t : String) : Regex :=
  (lit t).foldr (fun letter rest => .seq (.set (folds letter)) rest) .empty

def word (t : String) : Regex := .text (lit t)

/-- `_B`, also under `(?i)`. -/
def boundary : Regex := .notAfter letterOrDigit

def foldedBoundary : Regex := .notAfter foldedLetterOrDigit

def times (accepts : ℕ → Bool) (least most : ℕ) : Regex := .many accepts least (some most) true

/-- A prefix that is recognised, and the characters that follow it. -/
def token (start : Regex) (accepts : ℕ → Bool) (least most : ℕ) : Regex :=
  .sequence [boundary, start, times accepts least most]

/-! ### The patterns -/

def keyLine (kind : String) : Regex :=
  .sequence [word ("-----" ++ kind ++ " "), times (fun c => isUpper c || isDigit c || decide (c = 32)) 0 40,
    word "PRIVATE KEY", .optional (word " BLOCK"), word "-----"]

def highConfidence : List Regex :=
  let name := orAny letterOrDigit "_-"
  [.sequence [keyLine "BEGIN", .many (fun _ => true) 0 none false, .alt (keyLine "END") .finish],
    token (.seq (.oneOf [word "ghp", word "gho", word "ghu", word "ghs", word "ghr"]) (word "_")) letterOrDigit 30 255,
    token (word "github_pat_") (orAny letterOrDigit "_") 20 255,
    token (word "glpat-") name 20 255,
    token (word "sk-") name 20 256,
    token (.sequence [.oneOf [word "sk", word "rk"], word "_", .oneOf [word "live", word "test"], word "_"])
      letterOrDigit 16 255,
    .seq (token (.oneOf [word "AKIA", word "ASIA", word "AGPA", word "AIDA", word "AROA", word "ANPA"])
      (fun c => isDigit c || isUpper c) 16 16) (.notBefore (.set letterOrDigit)),
    token (word "AIza") name 35 35,
    token (word "ya29.") name 20 512,
    token (.sequence [word "xox", .set fun c => decide (c ∈ lit "abprs"), word "-"]) (orAny letterOrDigit "-") 10 256,
    .seq (word "https://hooks.slack.com/services/") (times (orAny letterOrDigit "/_-") 20 200),
    token (word "npm_") letterOrDigit 36 36,
    token (word "pypi-") name 50 255,
    token (word "hf_") letterOrDigit 30 255,
    .sequence [token (word "SG.") name 22 22, word ".", times name 43 43],
    token (word "dckr_pat_") name 20 255,
    token (word "dop_v1_") (fun c => isDigit c || decide (97 ≤ c ∧ c ≤ 102)) 64 64,
    .sequence [token (word "eyJ") name 8 2048, word ".", times name 8 2048, word ".", times name 8 2048],
    .sequence [foldedBoundary, .oneOf [foldedText "bearer", foldedText "basic"], .many isSpace 1 none true,
      times (orAny foldedLetterOrDigit "._~+/=-") 16 2048],
    .sequence [foldedBoundary, .set foldedLetter, times (orAny foldedLetterOrDigit "+.-") 0 15, word "://",
      times (fun c => !(isSpace c || decide (c ∈ lit "/:@"))) 1 256, word ":",
      times (fun c => !(isSpace c || decide (c ∈ lit "/@"))) 1 256, word "@"]]

def keywords : Regex :=
  let dash : Regex := .optional (.set fun c => decide (c ∈ lit "_-"))
  .oneOf [
    .seq (foldedText "pass") (.oneOf [foldedText "word", foldedText "wd", foldedText "phrase"]),
    foldedText "secret", foldedText "token", .sequence [foldedText "api", dash, foldedText "key"],
    .sequence [foldedText "access", dash, foldedText "key"], .sequence [foldedText "private", dash, foldedText "key"],
    foldedText "authorization", foldedText "credential", .sequence [foldedText "account", dash, foldedText "key"],
    .sequence [foldedText "shared", dash, foldedText "access", dash,
      .oneOf [foldedText "key", foldedText "signature"]]]

def assignment : Substitution where
  head :=
    let name := orAny foldedLetterOrDigit "_-"
    .sequence [.notAfter name, .many name 0 (some 64) false, keywords, times name 0 32,
      .optional (.set fun c => decide (c = 34 ∨ c = 39)), .many isSpace 0 none true,
      .set fun c => decide (c = 58 ∨ c = 61), .many isSpace 0 none true]
  tail :=
    let quoted := fun quote : ℕ => Regex.sequence [.set fun c => decide (c = quote),
      times (fun c => decide (c ≠ quote ∧ c ≠ 13 ∧ c ≠ 10)) 1 512, .set fun c => decide (c = quote)]
    .seq
      (.notBefore (.sequence [.optional (.set fun c => decide (c = 34 ∨ c = 39)), foldedText "cred_",
        times (fun c => isDigit c || decide (97 ≤ c ∧ c ≤ 102) || decide (65 ≤ c ∧ c ≤ 70)) 32 32]))
      (.oneOf [quoted 34, quoted 39,
        .many (fun c => !(isSpace c || decide (c = 34 ∨ c = 39 ∨ c = 44 ∨ c = 59))) 6 none true])

def flag : Substitution where
  head :=
    let name := orAny foldedLetterOrDigit "-"
    .sequence [foldedBoundary, word "--", times name 0 32,
      .oneOf [foldedText "password", foldedText "passwd", foldedText "token", foldedText "secret",
        .sequence [foldedText "api", .optional (word "-"), foldedText "key"]],
      times name 0 16, .many isSpace 1 none true]
  tail := .seq (.notBefore (word "-")) (.many (fun c => !isSpace c) 6 none true)

end Pattern

/-! ### Detection and redaction -/

def redacted : Text := lit "[REDACTED]"

def truncated : Text := lit "[TRUNCATED]"

def maxTextChars : ℕ := 1000000

def isCredentialHandle (value : Text) : Bool :=
  value.startsWith (lit "cred_") && decide (value.length = 37) &&
    (value.drop 5).all fun c => isDigit c || decide (97 ≤ c ∧ c ≤ 102)

variable (py : Stdlib)

def clean (t : Text) : Text := py.nfkc (t.filter fun c => decide (py.category c ≠ .cf))

def containsCredentialPlaintext (t : Text) : Bool :=
  Pattern.highConfidence.any fun pattern => pattern.search (clean py t)

/-- One pass of `redact_text` over what the passes before it left, and how much was replaced so far. -/
def redactWith (result : Text × ℕ) (pattern : Substitution) : Text × ℕ :=
  let (out, replaced) := pattern.subn redacted result.1
  (out, result.2 + replaced)

def redactText (t : Text) : Text × ℕ :=
  let patterns := Pattern.highConfidence.map (fun tail => { tail := tail : Substitution }) ++
    [Pattern.assignment, Pattern.flag]
  let (result, count) := patterns.foldl redactWith (clean py (t.take maxTextChars), 0)
  if maxTextChars < t.length then (result ++ truncated, count + 1)
  else if count = 0 then (t, 0)
  else (result, count)

end PawBackend.Tools
