/-
**The normalisation of everything a call may touch** (`tools/scope.py`; `authz/subjects.py`: `to_uuid`).

Each target is brought to one canonical spelling, and tricks are refused.
-/

import PawBackend.Tools.ApprovalTypes
import PawBackend.Lib.Text

namespace PawBackend.Tools

open Lib Lib.Text List

/-- What is taken from `unicodedata` and `ipaddress`. -/
structure Stdlib extends Unicode where
  /-- `IPv6Address(text).compressed`, where the text is an address. -/
  ipv6 : Text → Option Text
  ipv6_idem : ∀ t address, ipv6 t = some address → ipv6 address = some address
  ipv6_plain : ∀ t address, ipv6 t = some address → address.length ≤ 45 ∧
    ∀ c ∈ address, (isDigit c || decide (97 ≤ c ∧ c ≤ 102) || decide (c = 58) || decide (c = 46)) = true

/-- `TargetError`; the message never echoes the value. -/
structure TargetError where
  message : String
  deriving DecidableEq, Repr

variable (py : Stdlib)

/-! ### Texts and paths -/

def maxPathLength : ℕ := 1024
def maxUrlLength : ℕ := 2048
def maxHostLength : ℕ := 253

/-- `_FORBIDDEN_CATEGORIES`, and separators other than the space. -/
def forbidden (c : ℕ) : Bool :=
  match py.category c with
  | .cc | .cf | .cs | .co | .cn | .zl | .zp => true
  | .zs => c ≠ 32
  | .other => false

def checkText (value : Text) (maxLength : ℕ) : Except TargetError Unit :=
  if value = [] ∨ maxLength < value.length then .error ⟨"target is not a valid text"⟩
  else if value.any (forbidden py) then .error ⟨"target contains a forbidden character"⟩
  else if py.nfkc value ≠ value then .error ⟨"target is not in normal form"⟩
  else .ok ()

/-- `_PERCENT_SEPARATOR.search`: a percent-encoded `.`, `/` or `\`. -/
def hasPercentSeparator (t : Text) : Bool :=
  [lit "%2e", lit "%2E", lit "%2f", lit "%2F", lit "%5c", lit "%5C"].any fun w => decide (w <:+: t)

def keptSegment (segment : Text) : Bool := decide (segment ≠ [] ∧ segment ≠ lit ".")

/-- `..`, `...`, `. .` and the like. -/
def parentSegment (segment : Text) : Bool := decide (segment.strip (lit " .") = [])

def absolute (segments : List Text) : Text := 47 :: join 47 segments

/-- The second half of `normalise_path`: the segments of an absolute path. -/
def normaliseSegments (raw : Text) : Except TargetError Text :=
  let kept := (raw.splitOn 47).filter keptSegment
  if kept.any parentSegment then .error ⟨"target path has a parent-directory segment"⟩
  else .ok (absolute kept)

def normalisePath (value : Text) (base : Option Text) : Except TargetError Text :=
  match checkText py value maxPathLength with
  | .error error => .error error
  | .ok () =>
    if 92 ∈ value ∨ value.startsWith (lit "~") ∨ hasPercentSeparator value then
      .error ⟨"target path is not allowed"⟩
    else if value.startsWith (lit "/") then normaliseSegments value
    else
      match base with
      | some base =>
        if base.startsWith (lit "/") then normaliseSegments (base ++ lit "/" ++ value)
        else .error ⟨"target path is not absolute"⟩
      | none => .error ⟨"target path is not absolute"⟩

/-- `path_within`: the canonical path is the root or below it (never for `/`). -/
def pathWithin (path root : Text) : Bool :=
  decide (root ≠ lit "/") && (decide (path = root) || path.startsWith (root ++ lit "/"))

/-! ### Hosts -/

def isAlnum (c : ℕ) : Bool := isDigit c || isLower c

/-- `_LABEL.fullmatch`. -/
def isLabel (label : Text) : Bool :=
  decide (1 ≤ label.length ∧ label.length ≤ 63) && label.all (fun c => isAlnum c || decide (c = 45)) &&
    (label.head?.any isAlnum && label.getLast?.any isAlnum)

/-- `IPv4Address(host)`: the strict dotted-quad spelling. -/
def isIpv4 (host : Text) : Bool :=
  let octets := host.splitOn 46
  decide (octets.length = 4) && octets.all fun octet =>
    isDigits octet && decide (octet.length ≤ 3) &&
      (decide (octet = lit "0") || !startsWith octet (lit "0")) && decide (toNat 10 octet ≤ 255)

def withoutDot (host : Text) : Text := if host.endsWith (lit ".") then host.dropLast else host

/-- The rest of `normalise_host`, for a host that is not in brackets. -/
def normaliseName (host : Text) : Except TargetError Text :=
  if host = [] ∨ maxHostLength < host.length then .error ⟨"target host is not valid"⟩
  else if !(host.splitOn 46).all isLabel then .error ⟨"target host is not valid"⟩
  else
    let last := (host.splitOn 46).getLastD []
    if isDigits last || startsWith last (lit "0x") then
      if isIpv4 host then .ok host else .error ⟨"target host is not valid"⟩
    else .ok host

def normaliseHost (value : Text) : Except TargetError Text :=
  if value = [] ∨ maxHostLength + 2 < value.length then .error ⟨"target host is not valid"⟩
  else if !value.isAscii then .error ⟨"target host is not ASCII"⟩
  else
    let host := value.lower
    if host.startsWith (lit "[") then
      if !host.endsWith (lit "]") ∨ 37 ∈ host then .error ⟨"target host is not valid"⟩
      else
        match py.ipv6 (host.drop 1).dropLast with
        | none => .error ⟨"target host is not valid"⟩
        | some address => .ok (lit "[" ++ address ++ lit "]")
    else normaliseName (withoutDot host)

/-! ### URLs -/

structure UrlParts where
  scheme : Text
  authority : Text
  path : Text
  query : Text
  deriving DecidableEq

/-- `_URL.fullmatch`. Each part ends where a character of the next begins, so the longest run of its
characters is the only match. -/
def matchUrl (value : Text) : Option UrlParts :=
  match partition (lit "://") value with
  | none => none
  | some (scheme, rest) =>
    let letter := fun c => isLower c || isUpper c
    let follows := fun c => letter c || isDigit c || decide (c ∈ lit "+.-")
    if !(scheme.head?.any letter && scheme.all follows) then none
    else
      let inAuthority := fun c => !decide (c ∈ lit "/?#@\\") && !isSpace c
      let authority := rest.takeWhile inAuthority
      let rest := rest.dropWhile inAuthority
      let inPath := fun c => !decide (c ∈ lit "?#") && !isSpace c
      let path := if startsWith rest (lit "/") then rest.takeWhile inPath else []
      let rest := if startsWith rest (lit "/") then rest.dropWhile inPath else rest
      let inQuery := fun c => !decide (c ∈ lit "#") && !isSpace c
      let query := if startsWith rest (lit "?") then rest.takeWhile inQuery else []
      let rest := if startsWith rest (lit "?") then rest.dropWhile inQuery else rest
      let fragment := decide (rest = []) || (startsWith rest (lit "#") && rest.all fun c => !isSpace c)
      if authority ≠ [] ∧ fragment then some ⟨scheme, authority, path, query⟩ else none

/-- `_DEFAULT_PORTS`. -/
def defaultPort (scheme : Text) : Option ℕ :=
  if scheme = lit "http" then some 80 else if scheme = lit "https" then some 443 else none

def splitAuthority (authority : Text) : Except TargetError (Text × Option Text) :=
  if authority.startsWith (lit "[") then
    match partition (lit "]") authority with
    | none => .error ⟨"target url is not valid"⟩
    | some (bracketed, rest) =>
      if rest = [] then .ok (bracketed ++ lit "]", none)
      else if startsWith rest (lit ":") then .ok (bracketed ++ lit "]", some (rest.drop 1))
      else .error ⟨"target url is not valid"⟩
  else if 1 < authority.count 58 then .error ⟨"target url is not valid"⟩
  else
    match partition (lit ":") authority with
    | some (host, port) => .ok (host, some port)
    | none => .ok (authority, none)

def checkPort (scheme : Text) (port : Option Text) : Except TargetError Unit :=
  match port with
  | none => .ok ()
  | some port =>
    if !isDigits port ∨ 5 < port.length then .error ⟨"target url port is not valid"⟩
    else if defaultPort scheme ≠ some (toNat 10 port) then .error ⟨"target url port is not allowed"⟩
    else .ok ()

/-- `normalise_url`: the canonical URL and its host. -/
def normaliseUrl (value : Text) : Except TargetError (Text × Text) :=
  if value = [] ∨ maxUrlLength < value.length then .error ⟨"target url is not valid"⟩
  else if !value.isAscii ∨ value.any (fun c => c < 32 ∨ c = 127) then .error ⟨"target url is not valid"⟩
  else
    match matchUrl value with
    | none => .error ⟨"target url is not valid"⟩
    | some parts =>
      let scheme := parts.scheme.lower
      if defaultPort scheme = none then .error ⟨"target url scheme is not allowed"⟩
      else
        match splitAuthority parts.authority with
        | .error error => .error error
        | .ok (hostText, port) =>
          match checkPort scheme port with
          | .error error => .error error
          | .ok () =>
            match normaliseHost py hostText with
            | .error error => .error error
            | .ok host => .ok (scheme ++ lit "://" ++ host ++ parts.path ++ parts.query, host)

def safeTail (tail : Text) : Bool :=
  !decide (92 ∈ tail) && !decide (59 ∈ tail) && !hasPercentSeparator tail &&
    (tail.splitOn 47).all fun segment => segment.isEmpty || !parentSegment segment

def normaliseRemote (value : Text) : Except TargetError Text :=
  match normaliseUrl py value with
  | .error error => .error error
  | .ok (url, _) =>
    let rest := ((partition (lit "://") url).map Prod.snd).getD []
    let path := (((partition (lit "/") rest).map Prod.snd).getD []).rstrip (lit "/")
    if 63 ∈ url ∨ path = [] ∨ !safeTail path then .error ⟨"target remote is not valid"⟩
    else .ok (url.rstrip (lit "/"))

def urlWithin (url remote : Text) : Bool :=
  let path := url.before 63
  decide (path = remote) ||
    (path.startsWith (remote ++ lit "/") && safeTail (path.drop (remote.length + 1)))

/-! ### Ids -/

def hexDigit (n : ℕ) : ℕ := if n < 10 then 48 + n else 87 + n

/-- The last digits of a number in base sixteen. -/
def hexDigits : ℕ → ℕ → Text
  | 0, _ => []
  | k + 1, n => hexDigits k (n / 16) ++ [hexDigit (n % 16)]

/-- `str(uuid)`. -/
def uuidText (id : Uuid) : Text :=
  let hex := hexDigits 32 id.toNat
  join 45 [hex.take 8, (hex.drop 8).take 4, (hex.drop 12).take 4, (hex.drop 16).take 4, hex.drop 20]

/-- `to_uuid` of a text: only the canonical text of an id is accepted. -/
def toUuid (value : Text) : Option Uuid :=
  let parsed : Uuid := BitVec.ofNat 128 (toNat 16 (value.filter (· ≠ 45)))
  if uuidText parsed = value then some parsed else none

theorem digit_hexDigit : ∀ n < 16, digit (hexDigit n) = n := by decide

theorem le_hexDigit (n : ℕ) : 48 ≤ hexDigit n := by
  unfold hexDigit
  split_ifs <;> omega

theorem toNat_hexDigits (k n : ℕ) : toNat 16 (hexDigits k n) = n % 16 ^ k := by
  induction k generalizing n with
  | zero => exact (Nat.mod_one n).symm
  | succ k ih =>
    have step : toNat 16 (hexDigits k (n / 16) ++ [hexDigit (n % 16)]) =
        toNat 16 (hexDigits k (n / 16)) * 16 + digit (hexDigit (n % 16)) := by
      unfold Text.toNat
      rw [foldl_append]
      rfl
    rw [hexDigits, step, ih, digit_hexDigit _ (Nat.mod_lt n (by decide)), Nat.pow_succ, Nat.mul_comm (16 ^ k), Nat.mod_mul]
    omega

theorem le_of_mem_hexDigits {c k n : ℕ} (isIn : c ∈ hexDigits k n) : 48 ≤ c := by
  induction k generalizing n with
  | zero => cases isIn
  | succ k ih =>
    rw [hexDigits, mem_append, mem_singleton] at isIn
    rcases isIn with inFront | rfl
    · exact ih inFront
    · exact le_hexDigit _

theorem filter_uuidText (id : Uuid) : (uuidText id).filter (· ≠ 45) = hexDigits 32 id.toNat := by
  have digits : ∀ part : Text, (∀ c ∈ part, c ∈ hexDigits 32 id.toNat) → part.filter (· ≠ 45) = part := by
    intro part isPart
    refine filter_eq_self.mpr fun c isIn => decide_eq_true fun isHyphen => ?_
    have := le_of_mem_hexDigits (isHyphen ▸ isPart c isIn)
    omega
  have cut : ∀ a b : ℕ, ∀ t : Text, (t.drop a).take b ++ t.drop (a + b) = t.drop a := by
    intro a b t
    rw [← drop_drop, take_append_drop]
  unfold uuidText
  dsimp only
  rw [Text.join_cons _ _ (by simp), Text.join_cons _ _ (by simp), Text.join_cons _ _ (by simp), Text.join_cons _ _ (by simp),
    Text.join_singleton]
  simp only [filter_append, filter_cons]
  rw [digits _ fun c isIn => mem_of_mem_take isIn, digits _ fun c isIn => mem_of_mem_drop (mem_of_mem_take isIn),
    digits _ fun c isIn => mem_of_mem_drop (mem_of_mem_take isIn),
    digits _ fun c isIn => mem_of_mem_drop (mem_of_mem_take isIn), digits _ fun c isIn => mem_of_mem_drop isIn]
  simp only [ne_eq, not_true_eq_false, decide_false, Bool.false_eq_true, if_false]
  rw [cut 16 4, cut 12 4, cut 8 4, take_append_drop]

theorem of_mem_uuidText {id : Uuid} {c : ℕ} (isIn : c ∈ uuidText id) : c = 45 ∨ 48 ≤ c := by
  by_cases hyphen : c = 45
  · exact .inl hyphen
  · have isDigit : c ∈ (uuidText id).filter (· ≠ 45) := mem_filter.mpr ⟨isIn, by simpa using hyphen⟩
    rw [filter_uuidText] at isDigit
    exact .inr (le_of_mem_hexDigits isDigit)

theorem toUuid_uuidText (id : Uuid) : toUuid (uuidText id) = some id := by
  have parsed : BitVec.ofNat 128 (toNat 16 ((uuidText id).filter (· ≠ 45))) = id := by
    rw [filter_uuidText, toNat_hexDigits]
    have small : id.toNat % 16 ^ 32 = id.toNat := Nat.mod_eq_of_lt id.isLt
    rw [small, BitVec.ofNat_toNat, BitVec.setWidth_eq]
  unfold toUuid
  dsimp only
  rw [parsed, if_pos rfl]

theorem uuidText_injective : Function.Injective uuidText := by
  intro a b same
  have back := toUuid_uuidText a
  rw [same, toUuid_uuidText, Option.some.injEq] at back
  exact back.symm
def normaliseProject (value : Text) : Except TargetError Uuid :=
  match toUuid value with
  | some id => .ok id
  | none => .error ⟨"target project is not valid"⟩

def normaliseRepository (value : Text) : Except TargetError Uuid :=
  match toUuid value with
  | some id => .ok id
  | none => .error ⟨"target repository is not valid"⟩

/-! ### What is accepted is in normal form -/

section Paths

variable {py} {raw path root : Text}

def CanonicalSegments (segments : List Text) : Prop :=
  ∀ segment ∈ segments, keptSegment segment = true ∧ parentSegment segment = false ∧ 47 ∉ segment

theorem canonicalSegments_of_splitOn {segments : List Text}
    (isSegments : segments = (raw.splitOn 47).filter keptSegment)
    (noParent : segments.any parentSegment = false) : CanonicalSegments segments := by
  intro segment mem
  have inSplit := mem
  rw [isSegments, mem_filter] at inSplit
  refine ⟨inSplit.2, ?_, not_mem_of_mem_splitOn inSplit.1⟩
  rw [any_eq_false] at noParent
  exact Bool.eq_false_iff.mpr (noParent segment mem)

theorem splitOn_absolute {segments : List Text} (canonical : CanonicalSegments segments)
    (nonempty : segments ≠ []) : (absolute segments).splitOn 47 = [] :: segments := by
  unfold absolute join
  rw [splitOn_cons_eq_if_modifyHead, if_pos (by simp),
    splitOn_intercalate 47 (fun segment mem => (canonical segment mem).2.2) nonempty]

theorem filter_absolute {segments : List Text} (canonical : CanonicalSegments segments) :
    ((absolute segments).splitOn 47).filter keptSegment = segments := by
  by_cases nonempty : segments = []
  · subst nonempty
    rfl
  · rw [splitOn_absolute canonical nonempty, filter_cons_of_neg (by decide)]
    exact filter_eq_self.mpr fun segment mem => (canonical segment mem).1

theorem normaliseSegments_absolute {segments : List Text} (canonical : CanonicalSegments segments) :
    normaliseSegments (absolute segments) = .ok (absolute segments) := by
  have noParent : ¬ segments.any parentSegment = true := by
    rw [any_eq_true]
    rintro ⟨segment, mem, isParent⟩
    rw [(canonical segment mem).2.1] at isParent
    cases isParent
  unfold normaliseSegments
  rw [filter_absolute canonical]
  exact if_neg noParent

theorem checkText_eq_ok {value : Text} {maxLength : ℕ} :
    checkText py value maxLength = .ok () ↔
      value ≠ [] ∧ value.length ≤ maxLength ∧ (∀ c ∈ value, forbidden py c = false) ∧
        py.nfkc value = value := by
  unfold checkText
  split_ifs with bad forbids unstable
  · refine iff_of_false (by simp) ?_
    rintro ⟨nonempty, short, -⟩
    rcases bad with isEmpty | long
    · exact nonempty isEmpty
    · omega
  · refine iff_of_false (by simp) ?_
    rintro ⟨-, -, allowed, -⟩
    obtain ⟨c, mem, isForbidden⟩ := any_eq_true.mp forbids
    rw [allowed c mem] at isForbidden
    cases isForbidden
  · exact iff_of_false (by simp) fun all => unstable all.2.2.2
  · refine iff_of_true rfl ⟨fun isEmpty => bad (Or.inl isEmpty), ?_, fun c mem => ?_,
      not_not.mp unstable⟩
    · by_contra long
      exact bad (Or.inr (by omega))
    · rw [Bool.eq_false_iff]
      exact fun isForbidden => forbids (any_eq_true.mpr ⟨c, mem, isForbidden⟩)

theorem startsWith_slash : startsWith raw (lit "/") = true ↔ ∃ rest, raw = 47 :: rest := by
  unfold startsWith
  rw [ isPrefixOf_iff_prefix]
  constructor
  · rintro ⟨rest, rfl⟩
    exact ⟨rest, rfl⟩
  · rintro ⟨rest, rfl⟩
    exact ⟨rest, rfl⟩

theorem normalisePath_eq_ok :
    normalisePath py raw none = .ok path ↔
      checkText py raw maxPathLength = .ok () ∧ 92 ∉ raw ∧ hasPercentSeparator raw = false ∧
      (∃ rest, raw = 47 :: rest) ∧ ((raw.splitOn 47).filter keptSegment).any parentSegment = false ∧
      path = absolute ((raw.splitOn 47).filter keptSegment) := by
  unfold normalisePath
  cases checked : checkText py raw maxPathLength with
  | error error => exact iff_of_false (by simp) (by simp)
  | ok =>
    dsimp only
    by_cases slash : ∃ rest, raw = 47 :: rest
    · have starts := startsWith_slash.mpr slash
      have notHome : startsWith raw (lit "~") = false := by
        obtain ⟨rest, rfl⟩ := slash
        rfl
      rw [starts, if_pos rfl, notHome]
      unfold normaliseSegments
      dsimp only
      by_cases tricks : 92 ∈ raw ∨ hasPercentSeparator raw = true
      · have refused : 92 ∈ raw ∨ false = true ∨ hasPercentSeparator raw = true := by
          rcases tricks with backslash | percent
          · exact Or.inl backslash
          · exact Or.inr (Or.inr percent)
        rw [if_pos refused]
        refine iff_of_false (by simp) ?_
        rintro ⟨-, noBackslash, noPercent, -⟩
        rcases tricks with backslash | percent
        · exact noBackslash backslash
        · rw [noPercent] at percent
          cases percent
      · rw [not_or] at tricks
        rw [if_neg (by simp [tricks.1, tricks.2])]
        cases parents : ((raw.splitOn 47).filter keptSegment).any parentSegment with
        | true => exact iff_of_false (by simp) (by simp)
        | false =>
          rw [if_neg Bool.false_ne_true, Except.ok.injEq]
          constructor
          · rintro rfl
            exact ⟨rfl, tricks.1, Bool.eq_false_iff.mpr tricks.2, slash, rfl, rfl⟩
          · rintro ⟨-, -, -, -, -, rfl⟩
            rfl
    · have notStarts : ¬ startsWith raw (lit "/") = true := fun starts =>
        slash (startsWith_slash.mp starts)
      refine iff_of_false ?_ fun all => slash all.2.2.2.1
      rw [if_neg notStarts]
      split_ifs <;> simp

theorem mem_of_mem_absolute {c : ℕ} (slash : 47 ∈ raw)
    (mem : c ∈ absolute ((raw.splitOn 47).filter keptSegment)) : c ∈ raw := by
  rcases mem_cons.mp mem with rfl | mem
  · exact slash
  · rcases mem_join mem with rfl | ⟨part, inSegments, inPart⟩
    · exact slash
    · have inSplit := mem_of_mem_filter inSegments
      have inside : part <:+: raw := join_splitOn 47 raw ▸ infix_join inSplit
      exact inside.subset inPart

theorem percentWords_plain : ∀ w ∈ [lit "%2e", lit "%2E", lit "%2f", lit "%2F", lit "%5c", lit "%5C"], w ≠ [] ∧ 47 ∉ w := by
  decide

theorem hasPercentSeparator_append {first rest : Text} :
    hasPercentSeparator (first ++ 47 :: rest) = true ↔ hasPercentSeparator first = true ∨ hasPercentSeparator rest = true := by
  unfold hasPercentSeparator
  simp only [any_eq_true, decide_eq_true_eq]
  constructor
  · rintro ⟨w, isWord, here⟩
    rcases infix_of_infix_cons (percentWords_plain w isWord).2 here with inFirst | inRest
    · exact Or.inl ⟨w, isWord, inFirst⟩
    · exact Or.inr ⟨w, isWord, inRest⟩
  · rintro (⟨w, isWord, inFirst⟩ | ⟨w, isWord, inRest⟩)
    · exact ⟨w, isWord, inFirst.trans ⟨[], 47 :: rest, rfl⟩⟩
    · exact ⟨w, isWord, inRest.trans ⟨first ++ [47], [], by simp⟩⟩

theorem hasPercentSeparator_join {parts : List Text} :
    hasPercentSeparator (join 47 parts) = true ↔ ∃ part ∈ parts, hasPercentSeparator part = true := by
  unfold hasPercentSeparator
  simp only [any_eq_true, decide_eq_true_eq]
  constructor
  · rintro ⟨w, isWord, here⟩
    obtain ⟨nonempty, absent⟩ := percentWords_plain w isWord
    obtain ⟨part, mem, inPart⟩ := infix_of_infix_join nonempty absent here
    exact ⟨part, mem, w, isWord, inPart⟩
  · rintro ⟨part, mem, w, isWord, inPart⟩
    exact ⟨w, isWord, inPart.trans (infix_join mem)⟩

variable (py) in
/-- An already normalised path: absolute, of segments that are neither empty nor `.` nor like `..`, in normal
form, without a backslash or a percent-encoded separator. It may be longer than what is accepted as a value. -/
structure Normal (path : Text) : Prop where
  canonical : ∃ segments, CanonicalSegments segments ∧ path = absolute segments
  allowed : ∀ c ∈ path, forbidden py c = false
  stable : py.nfkc path = path
  noBackslash : 92 ∉ path
  noPercent : hasPercentSeparator path = false

theorem normal_of_kept (slash : 47 ∈ raw) (allowed : ∀ c ∈ raw, forbidden py c = false) (stable : py.nfkc raw = raw)
    (noBackslash : 92 ∉ raw) (noPercent : hasPercentSeparator raw = false)
    (noParent : ((raw.splitOn 47).filter keptSegment).any parentSegment = false) :
    Normal py (absolute ((raw.splitOn 47).filter keptSegment)) := by
  have chars := fun c mem => mem_of_mem_absolute (c := c) slash mem
  have pieces : ∀ segment ∈ (raw.splitOn 47).filter keptSegment, segment ∈ raw.splitOn 47 :=
    fun segment mem => mem_of_mem_filter mem
  refine ⟨⟨_, canonicalSegments_of_splitOn rfl noParent, rfl⟩, fun c mem => allowed c (chars c mem), ?_,
    fun backslash => noBackslash (chars 92 backslash), ?_⟩
  · rw [← join_splitOn 47 raw, py.nfkc_join] at stable
    have inside := py.nfkc_join.mpr fun segment mem => stable segment (pieces segment mem)
    exact (py.nfkc_slash [] _).mpr ⟨py.nfkc_nil, inside⟩
  · rw [Bool.eq_false_iff] at noPercent ⊢
    intro here
    rcases (@hasPercentSeparator_append [] _).mp here with inNil | inJoin
    · exact absurd inNil (by decide)
    · obtain ⟨segment, mem, inSegment⟩ := hasPercentSeparator_join.mp inJoin
      refine noPercent ?_
      rw [← join_splitOn 47 raw]
      exact hasPercentSeparator_join.mpr ⟨segment, pieces segment mem, inSegment⟩

theorem Normal.accepted (normal : Normal py path) (short : path.length ≤ maxPathLength) (base : Option Text) :
    normalisePath py path base = .ok path := by
  obtain ⟨segments, canonical, isPath⟩ := normal.canonical
  have starts : startsWith path (lit "/") = true := startsWith_slash.mpr ⟨_, isPath⟩
  have notHome : startsWith path (lit "~") = false := by
    rw [isPath]
    rfl
  have checked : checkText py path maxPathLength = .ok () :=
    checkText_eq_ok.mpr ⟨isPath ▸ cons_ne_nil _ _, short, normal.allowed, normal.stable⟩
  have noTrick : ¬ (92 ∈ path ∨ startsWith path (lit "~") = true ∨ hasPercentSeparator path = true) := by
    rw [notHome, normal.noPercent]
    simpa using normal.noBackslash
  unfold normalisePath
  rw [checked]
  dsimp only
  rw [if_neg noTrick, if_pos starts, isPath]
  exact normaliseSegments_absolute canonical

theorem normal_of_normalisePath {base : Option Text} (normalBase : ∀ b, base = some b → Normal py b)
    (accepted : normalisePath py raw base = .ok path) : Normal py path := by
  have ofSegments : ∀ {whole : Text}, 47 ∈ whole → (∀ c ∈ whole, forbidden py c = false) → py.nfkc whole = whole →
      92 ∉ whole → hasPercentSeparator whole = false → normaliseSegments whole = .ok path → Normal py path := by
    intro whole slash allowed stable noBackslash noPercent kept
    unfold normaliseSegments at kept
    dsimp only at kept
    split_ifs at kept with parents
    rw [← Except.ok.inj kept]
    exact normal_of_kept slash allowed stable noBackslash noPercent (Bool.eq_false_iff.mpr parents)
  unfold normalisePath at accepted
  cases checked : checkText py raw maxPathLength with
  | error error =>
    rw [checked] at accepted
    cases accepted
  | ok =>
    obtain ⟨-, -, allowed, stable⟩ := checkText_eq_ok.mp checked
    rw [checked] at accepted
    dsimp only at accepted
    split_ifs at accepted with tricks starts
    all_goals
      rw [not_or, not_or] at tricks
      have noPercent := Bool.eq_false_iff.mpr tricks.2.2
    · obtain ⟨rest, isRaw⟩ := startsWith_slash.mp starts
      exact ofSegments (isRaw ▸ mem_cons_self) allowed stable tricks.1 noPercent accepted
    · cases base with
      | none => cases accepted
      | some base =>
        have normal := normalBase base rfl
        dsimp only at accepted
        split_ifs at accepted
        have isWhole : base ++ lit "/" ++ raw = base ++ 47 :: raw := by
          rw [append_assoc]
          rfl
        rw [isWhole] at accepted
        refine ofSegments ?_ ?_ ((py.nfkc_slash base raw).mpr ⟨normal.stable, stable⟩) ?_ ?_ accepted
        · exact mem_append_right _ mem_cons_self
        · intro c mem
          rcases mem_append.mp mem with inBase | mem
          · exact normal.allowed c inBase
          · rcases mem_cons.mp mem with rfl | inRaw
            · obtain ⟨segments, -, isBase⟩ := normal.canonical
              exact normal.allowed 47 (isBase ▸ mem_cons_self)
            · exact allowed c inRaw
        · rw [mem_append, mem_cons, not_or, not_or]
          exact ⟨normal.noBackslash, by decide, tricks.1⟩
        · rw [Bool.eq_false_iff, Ne, hasPercentSeparator_append, normal.noPercent, noPercent]
          simp

theorem normalisePath_idem (accepted : normalisePath py raw none = .ok path) :
    normalisePath py path none = .ok path := by
  obtain ⟨checked, -, -, ⟨rest, isRaw⟩, -, isPath⟩ := normalisePath_eq_ok.mp accepted
  have shorter : path.length ≤ raw.length := by
    have dropped : (raw.splitOn 47).filter keptSegment = (rest.splitOn 47).filter keptSegment := by
      rw [isRaw, splitOn_cons_eq_if_modifyHead, if_pos (by simp), filter_cons_of_neg (by decide)]
    have bound := length_join_filter_le 47 keptSegment (rest.splitOn 47)
    rw [join_splitOn, ← dropped] at bound
    rw [isPath, isRaw]
    unfold absolute
    rw [length_cons, length_cons, ← isRaw]
    omega
  have normal := normal_of_normalisePath (fun _ none => absurd none (Option.some_ne_none _).symm) accepted
  exact normal.accepted (shorter.trans (checkText_eq_ok.mp checked).2.1) none

theorem pathWithin_iff :
    pathWithin path root = true ↔ root ≠ lit "/" ∧ (path = root ∨ ∃ tail, path = root ++ 47 :: tail) := by
  unfold pathWithin startsWith
  rw [Bool.and_eq_true, Bool.or_eq_true, decide_eq_true_eq, decide_eq_true_eq,
    isPrefixOf_iff_prefix]
  refine and_congr_right fun _ => or_congr_right ?_
  constructor
  · rintro ⟨tail, rfl⟩
    exact ⟨tail, by simp [lit]⟩
  · rintro ⟨tail, rfl⟩
    exact ⟨tail, by simp [lit]⟩

def segmentsOf (path : Text) : List Text := (path.splitOn 47).filter keptSegment

theorem absolute_append {first rest : List Text} (nonempty : first ≠ []) (more : rest ≠ []) :
    absolute (first ++ rest) = absolute first ++ 47 :: join 47 rest := by
  unfold absolute
  rw [cons_append, join_append nonempty more]

theorem pathWithin_iff_prefix {below above : List Text} (canonical : CanonicalSegments below)
    (canonicalAbove : CanonicalSegments above) (nonempty : above ≠ []) :
    pathWithin (absolute below) (absolute above) = true ↔ above <+: below := by
  have notRoot : absolute above ≠ lit "/" := by
    intro isRoot
    have same := filter_absolute canonicalAbove
    rw [isRoot] at same
    exact nonempty same.symm
  rw [pathWithin_iff]
  constructor
  · rintro ⟨-, same | ⟨tail, isBelow⟩⟩
    · rw [← filter_absolute canonical, same, filter_absolute canonicalAbove]
    · have someBelow : below ≠ [] := by
        rintro rfl
        have size := congrArg List.length isBelow
        rw [length_append, length_cons] at size
        unfold absolute at size
        rw [length_cons, length_cons] at size
        simp only [join, intercalate_nil, length_nil] at size
        omega
      have split : [] :: below = ([] :: above) ++ tail.splitOn 47 := by
        rw [← splitOn_absolute canonical someBelow, isBelow, splitOn_append_cons_self,
          splitOn_absolute canonicalAbove nonempty]
      rw [cons_append, List.cons.injEq] at split
      exact ⟨tail.splitOn 47, split.2.symm⟩
  · rintro ⟨more, rfl⟩
    refine ⟨notRoot, ?_⟩
    by_cases same : more = []
    · exact Or.inl (by rw [same, append_nil])
    · exact Or.inr ⟨join 47 more, absolute_append nonempty same⟩

end Paths

section Hosts

variable {py} {value host : Text}

def nameChar (c : ℕ) : Bool := isAlnum c || decide (c = 45) || decide (c = 46)

theorem nameChar_of_labels (labels : (host.splitOn 46).all isLabel = true) :
    ∀ c ∈ host, nameChar c = true := by
  intro c mem
  rw [← join_splitOn 46 host] at mem
  unfold nameChar
  rcases mem_join mem with rfl | ⟨label, isPart, inLabel⟩
  · simp
  · have valid := all_eq_true.mp labels label isPart
    unfold isLabel at valid
    rw [Bool.and_eq_true, Bool.and_eq_true, all_eq_true] at valid
    rw [valid.1.2 c inLabel, Bool.true_or]

theorem plain_of_nameChar {c : ℕ} (isName : nameChar c = true) :
    c < 128 ∧ isUpper c = false ∧ c ≠ 91 := by
  unfold nameChar isAlnum isDigit isLower at isName
  unfold isUpper
  simp only [Bool.or_eq_true, decide_eq_true_eq, decide_eq_false_iff_not] at isName ⊢
  omega

theorem isAscii_of_plain (plain : ∀ c ∈ host, c < 128) : isAscii host = true := by
  unfold isAscii
  simpa using plain

theorem lower_of_plain (plain : ∀ c ∈ host, isUpper c = false) : lower host = host := by
  unfold lower
  refine (map_congr_left fun c mem => ?_).trans (map_id host)
  rw [if_neg (by rw [plain c mem]; exact Bool.false_ne_true)]
  rfl

theorem normaliseName_eq_ok (accepted : normaliseName value = .ok host) :
    host = value ∧ value ≠ [] ∧ value.length ≤ maxHostLength ∧
      (value.splitOn 46).all isLabel = true := by
  unfold normaliseName at accepted
  dsimp only at accepted
  split_ifs at accepted with bad unlabelled
  all_goals
    rw [not_or] at bad
    refine ⟨(Except.ok.inj accepted).symm, bad.1, by omega, ?_⟩
    simpa using unlabelled

theorem withoutDot_of_labels (labels : (host.splitOn 46).all isLabel = true) :
    withoutDot host = host := by
  unfold withoutDot
  rw [if_neg]
  intro ends
  unfold endsWith at ends
  rw [isSuffixOf_iff_suffix] at ends
  obtain ⟨first, isHost⟩ := ends
  have isHost : host = first ++ 46 :: [] := isHost.symm
  have last : ([] : Text) ∈ host.splitOn 46 := by
    rw [isHost, splitOn_append_cons_self]
    exact mem_append_right _ (by simp)
  have valid := all_eq_true.mp labels [] last
  cases valid

theorem normaliseHost_bracketed {t address : Text} (parsed : py.ipv6 t = some address) :
    normaliseHost py (lit "[" ++ address ++ lit "]") = .ok (lit "[" ++ address ++ lit "]") := by
  obtain ⟨short, chars⟩ := py.ipv6_plain t address parsed
  have plain : ∀ c ∈ lit "[" ++ address ++ lit "]", c < 128 ∧ isUpper c = false ∧ c ≠ 37 := by
    intro c mem
    rw [mem_append, mem_append] at mem
    rcases mem with (mem | mem) | mem
    · rw [show lit "[" = [91] from rfl, mem_singleton] at mem
      subst mem
      decide
    · have isPlain := chars c mem
      unfold isDigit at isPlain
      unfold isUpper
      simp only [Bool.or_eq_true, decide_eq_true_eq, decide_eq_false_iff_not] at isPlain ⊢
      omega
    · rw [show lit "]" = [93] from rfl, mem_singleton] at mem
      subst mem
      decide
  have lowered := lower_of_plain fun c mem => (plain c mem).2.1
  have inside : ((lit "[" ++ address ++ lit "]").drop 1).dropLast = address := by
    show (address ++ [93]).dropLast = address
    exact dropLast_concat
  have fits : ¬ (lit "[" ++ address ++ lit "]" = [] ∨
      maxHostLength + 2 < (lit "[" ++ address ++ lit "]").length) := by
    rw [not_or, length_append, length_append]
    refine ⟨cons_ne_nil _ _, ?_⟩
    show ¬ maxHostLength + 2 < 1 + address.length + 1
    unfold maxHostLength
    omega
  have ends : endsWith (lit "[" ++ address ++ lit "]") (lit "]") = true := by
    unfold endsWith
    rw [isSuffixOf_iff_suffix]
    exact ⟨_, rfl⟩
  have noPercent : 37 ∉ lit "[" ++ address ++ lit "]" := fun mem => (plain 37 mem).2.2 rfl
  have starts : startsWith (lit "[" ++ address ++ lit "]") (lit "[") = true := by
    unfold startsWith
    rw [ isPrefixOf_iff_prefix, append_assoc]
    exact ⟨_, rfl⟩
  unfold normaliseHost
  rw [if_neg fits, isAscii_of_plain fun c mem => (plain c mem).1]
  dsimp only
  rw [if_neg (by decide), lowered, starts, if_pos rfl, ends, if_neg (by simpa using noPercent),
    inside, py.ipv6_idem t address parsed]

theorem normaliseHost_idem (accepted : normaliseHost py value = .ok host) :
    normaliseHost py host = .ok host := by
  have byName : ∀ {name : Text}, normaliseName name = .ok host → normaliseHost py host = .ok host := by
    intro name named
    obtain ⟨rfl, nonempty, short, labels⟩ := normaliseName_eq_ok named
    have plain := fun c mem => plain_of_nameChar (nameChar_of_labels labels c mem)
    have notBracketed : startsWith host (lit "[") = false := by
      rw [Bool.eq_false_iff]
      unfold startsWith
      rw [Ne, isPrefixOf_iff_prefix]
      rintro ⟨rest, isHost⟩
      exact (plain 91 (isHost ▸ mem_append_left _ (by decide))).2.2 rfl
    have fits : ¬ (host = [] ∨ maxHostLength + 2 < host.length) := by
      rw [not_or]
      exact ⟨nonempty, by omega⟩
    unfold normaliseHost
    rw [if_neg fits, isAscii_of_plain fun c mem => (plain c mem).1]
    dsimp only
    rw [if_neg (by decide), lower_of_plain fun c mem => (plain c mem).2.1, notBracketed,
      if_neg Bool.false_ne_true, withoutDot_of_labels labels, named]
  unfold normaliseHost at accepted
  dsimp only at accepted
  split_ifs at accepted with bad notAscii bracketed unclosed
  · cases parsed : py.ipv6 ((lower value).drop 1).dropLast with
    | none =>
      rw [parsed] at accepted
      cases accepted
    | some address =>
      rw [parsed] at accepted
      rw [← Except.ok.inj accepted]
      exact normaliseHost_bracketed parsed
  · exact byName accepted

end Hosts

theorem unchanged_nil : ([] : Text) = [] := rfl

theorem unchanged_slash (first rest : Text) : first ++ 47 :: rest = first ++ 47 :: rest ↔ first = first ∧ rest = rest :=
  iff_of_true rfl ⟨rfl, rfl⟩

theorem no_address (t address : Text) (found : (none : Option Text) = some address) :
    (none : Option Text) = some address :=
  found

theorem no_address_plain (t address : Text) (found : (none : Option Text) = some address) : address.length ≤ 45 ∧
    ∀ c ∈ address, (isDigit c || decide (97 ≤ c ∧ c ≤ 102) || decide (c = 58) || decide (c = 46)) = true :=
  absurd found (Option.some_ne_none _).symm

/-- The library on ASCII texts, without IPv6 addresses. -/
def Stdlib.ascii : Stdlib where
  category c := if c < 32 ∨ c = 127 then .cc else if c = 32 then .zs else .other
  nfkc t := t
  nfkc_nil := unchanged_nil
  nfkc_slash := unchanged_slash
  ipv6 _ := none
  ipv6_idem := no_address
  ipv6_plain := no_address_plain

end PawBackend.Tools
