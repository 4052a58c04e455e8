/-
**One spelling for each target** (`tools/scope.py`: `normalise_url`, `normalise_remote`, `path_within`).

What is compared with a scope, hashed for an approval or kept in a grant is what the normalisers return, so a
second pass has to return it again:

* `UrlForm`: the parts a canonical URL is made of. `normaliseUrl_form` finds them for every URL that is accepted,
  and `UrlForm.accepted` accepts every URL made of such parts, as it is;
* `normaliseRemote_idem`: the slashes a remote loses at its end are not missed by a second pass.
-/

import PawBackend.Tools.Targets

namespace PawBackend.Tools

open Lib Lib.Text List

variable {py : Stdlib}

/-! ### The parts of a URL -/

def authorityChar (c : ℕ) : Bool := !decide (c ∈ lit "/?#@\\") && !isSpace c

def pathChar (c : ℕ) : Bool := !decide (c ∈ lit "?#") && !isSpace c

def queryChar (c : ℕ) : Bool := !decide (c ∈ lit "#") && !isSpace c

variable (py) in
structure UrlForm (url scheme host path query : Text) : Prop where
  known : scheme = lit "http" ∨ scheme = lit "https"
  normal : normaliseHost py host = .ok host
  pathStart : path = [] ∨ ∃ rest, path = 47 :: rest
  pathChars : ∀ c ∈ path, pathChar c = true
  queryStart : query = [] ∨ ∃ rest, query = 63 :: rest
  queryChars : ∀ c ∈ query, queryChar c = true
  printable : ∀ c ∈ path ++ query, 32 ≤ c ∧ c < 127
  shape : url = scheme ++ lit "://" ++ host ++ path ++ query

theorem defaultPort_ne_none {scheme : Text} :
    defaultPort scheme ≠ none ↔ scheme = lit "http" ∨ scheme = lit "https" := by
  unfold defaultPort
  split_ifs with isHttp isHttps
  · exact iff_of_true (by simp) (Or.inl isHttp)
  · exact iff_of_true (by simp) (Or.inr isHttps)
  · exact iff_of_false (by simp) (by rw [not_or]; exact ⟨isHttp, isHttps⟩)

section Parts

variable {p : ℕ → Bool} {mark : Text} {c : ℕ}

theorem optionalPart (isMark : mark = [c]) (kept : p c = true) (t : Text) :
    ((if startsWith t mark then t.takeWhile p else []) = [] ∨
      ∃ rest, (if startsWith t mark then t.takeWhile p else []) = c :: rest) ∧
    (∀ d ∈ (if startsWith t mark then t.takeWhile p else []), p d = true ∧ d ∈ t) ∧
    ∀ d ∈ (if startsWith t mark then t.dropWhile p else t), d ∈ t := by
  split_ifs with starts
  · obtain ⟨tail, rfl⟩ := startsWith_iff.mp starts
    refine ⟨Or.inr ⟨tail.takeWhile p, ?_⟩, fun d mem => ?_, fun d mem => (dropWhile_suffix p).subset mem⟩
    · rw [isMark, singleton_append, takeWhile_cons_of_pos kept]
    · exact ⟨mem_takeWhile_imp mem, ( takeWhile_prefix p).subset mem⟩
  · exact ⟨Or.inl rfl, fun d mem => absurd mem not_mem_nil, fun d mem => mem⟩

end Parts

theorem matchUrl_eq_some {value : Text} {parts : UrlParts} (matched : matchUrl value = some parts) :
    (parts.path = [] ∨ ∃ rest, parts.path = 47 :: rest) ∧ (∀ c ∈ parts.path, pathChar c = true) ∧
      (parts.query = [] ∨ ∃ rest, parts.query = 63 :: rest) ∧ (∀ c ∈ parts.query, queryChar c = true) ∧
      ∀ c ∈ parts.path ++ parts.query, c ∈ value := by
  unfold matchUrl at matched
  cases cut : partition (lit "://") value with
  | none =>
    rw [cut] at matched
    cases matched
  | some cutParts =>
    obtain ⟨scheme, rest⟩ := cutParts
    have isValue := partition_eq_some cut
    rw [cut] at matched
    dsimp only at matched
    rw [Option.ite_none_left_eq_some, Option.ite_none_right_eq_some, Option.some.injEq] at matched
    obtain ⟨-, -, rfl⟩ := matched
    generalize isTail : rest.dropWhile (fun c => !decide (c ∈ lit "/?#@\\") && !isSpace c) = tail
    obtain ⟨pathStart, pathChars, pathRest⟩ :=
      optionalPart (show lit "/" = [47] from rfl) (show pathChar 47 = true by decide) tail
    obtain ⟨queryStart, queryChars, -⟩ :=
      optionalPart (show lit "?" = [63] from rfl) (show queryChar 63 = true by decide)
        (if startsWith tail (lit "/") then tail.dropWhile pathChar else tail)
    have inValue : ∀ c ∈ tail, c ∈ value := by
      intro c mem
      rw [isValue]
      exact mem_append_right _ ((dropWhile_suffix _).subset (isTail ▸ mem))
    refine ⟨pathStart, fun c mem => (pathChars c mem).1, queryStart, fun c mem => (queryChars c mem).1, ?_⟩
    intro c mem
    rcases mem_append.mp mem with inPath | inQuery
    · exact inValue c (pathChars c inPath).2
    · exact inValue c (pathRest c (queryChars c inQuery).2)

theorem matchUrl_of_parts {scheme authority path query : Text} (known : scheme = lit "http" ∨ scheme = lit "https")
    (nonempty : authority ≠ []) (authorityChars : ∀ c ∈ authority, authorityChar c = true)
    (pathStart : path = [] ∨ ∃ rest, path = 47 :: rest) (pathChars : ∀ c ∈ path, pathChar c = true)
    (queryStart : query = [] ∨ ∃ rest, query = 63 :: rest) (queryChars : ∀ c ∈ query, queryChar c = true) :
    matchUrl (scheme ++ lit "://" ++ authority ++ path ++ query) = some ⟨scheme, authority, path, query⟩ := by
  have cut : partition (lit "://") (scheme ++ lit "://" ++ authority ++ path ++ query) =
      some (scheme, authority ++ (path ++ query)) := by
    have absent : 58 ∉ scheme := by rcases known with rfl | rfl <;> decide
    have found := partition_append [47, 47] absent (authority ++ (path ++ query))
    rw [← found]
    simp [lit]
  have stopPath : ∀ c ∈ query.head?, pathChar c = false := by
    rcases queryStart with rfl | ⟨rest, rfl⟩
    · simp
    · intro c isHead
      cases isHead
      decide
  have stopAuthority : ∀ c ∈ (path ++ query).head?, authorityChar c = false := by
    rcases pathStart with rfl | ⟨rest, rfl⟩
    · rcases queryStart with rfl | ⟨rest, rfl⟩
      · simp
      · intro c isHead
        cases isHead
        decide
    · intro c isHead
      cases isHead
      decide
  have isPath : (if startsWith (path ++ query) (lit "/") then (path ++ query).takeWhile pathChar else []) = path := by
    rcases pathStart with rfl | ⟨rest, rfl⟩
    · rw [if_neg]
      rw [startsWith_iff]
      rintro ⟨tail, isQuery⟩
      rcases queryStart with rfl | ⟨rest, rfl⟩
      · cases isQuery
      · exact absurd (List.cons.inj isQuery).1 (by decide)
    · have starts : startsWith (47 :: rest ++ query) (lit "/") = true := startsWith_iff.mpr ⟨rest ++ query, rfl⟩
      rw [if_pos starts, takeWhile_append_stop pathChars stopPath]
  have isRest : (if startsWith (path ++ query) (lit "/") then (path ++ query).dropWhile pathChar else path ++ query) =
      query := by
    split_ifs with starts
    · exact dropWhile_append_stop pathChars stopPath
    · rcases pathStart with rfl | ⟨rest, rfl⟩
      · rfl
      · exact absurd (startsWith_iff.mpr ⟨rest ++ query, rfl⟩) starts
  have noTail : ∀ c ∈ ([] : Text).head?, queryChar c = false := by simp
  have isQuery : (if startsWith query (lit "?") then query.takeWhile queryChar else []) = query := by
    rcases queryStart with rfl | ⟨rest, rfl⟩
    · rfl
    · have starts : startsWith (63 :: rest) (lit "?") = true := startsWith_iff.mpr ⟨rest, rfl⟩
      rw [if_pos starts]
      have whole := takeWhile_append_stop queryChars noTail
      rwa [append_nil] at whole
  have isEnd : (if startsWith query (lit "?") then query.dropWhile queryChar else query) = [] := by
    rcases queryStart with rfl | ⟨rest, rfl⟩
    · rfl
    · have starts : startsWith (63 :: rest) (lit "?") = true := startsWith_iff.mpr ⟨rest, rfl⟩
      rw [if_pos starts]
      have whole := dropWhile_append_stop queryChars noTail
      rwa [append_nil] at whole
  have inScheme : ¬ (!(scheme.head?.any (fun c => isLower c || isUpper c) &&
      scheme.all fun c => isLower c || isUpper c || isDigit c || decide (c ∈ lit "+.-"))) = true := by
    rcases known with rfl | rfl <;> decide
  have isAuthority := takeWhile_append_stop authorityChars stopAuthority
  have afterAuthority := dropWhile_append_stop authorityChars stopAuthority
  unfold authorityChar at isAuthority afterAuthority
  unfold pathChar at isPath isRest
  unfold queryChar at isQuery isEnd
  unfold matchUrl
  rw [cut]
  dsimp only
  rw [if_neg inScheme, isAuthority, afterAuthority, isPath, isRest, isQuery, isEnd, if_pos]
  exact ⟨nonempty, rfl⟩

/-! ### Canonical URLs -/

/-- A character of a compressed IPv6 address. -/
def addressChar (c : ℕ) : Bool := isDigit c || decide (97 ≤ c ∧ c ≤ 102) || decide (c = 58) || decide (c = 46)

theorem host_cases {value host : Text} (accepted : normaliseHost py value = .ok host) :
    (∃ address, host = lit "[" ++ address ++ lit "]" ∧ ∀ c ∈ address, addressChar c = true) ∨
      (host ≠ [] ∧ ∀ c ∈ host, nameChar c = true) := by
  have byName : ∀ {name : Text}, normaliseName name = .ok host → host ≠ [] ∧ ∀ c ∈ host, nameChar c = true := by
    intro name named
    obtain ⟨rfl, nonempty, -, labels⟩ := normaliseName_eq_ok named
    exact ⟨nonempty, nameChar_of_labels labels⟩
  unfold normaliseHost at accepted
  dsimp only at accepted
  split_ifs at accepted with bad notAscii bracketed unclosed
  · cases parsed : py.ipv6 ((lower value).drop 1).dropLast with
    | none =>
      rw [parsed] at accepted
      cases accepted
    | some address =>
      rw [parsed] at accepted
      exact Or.inl ⟨address, (Except.ok.inj accepted).symm, (py.ipv6_plain _ address parsed).2⟩
  · exact Or.inr (byName accepted)

theorem plain_of_hostChar : ∀ c < 127, addressChar c = true ∨ nameChar c = true ∨ c = 91 ∨ c = 93 →
    authorityChar c = true ∧ 32 ≤ c := by
  decide

theorem host_plain {value host : Text} (accepted : normaliseHost py value = .ok host) :
    host ≠ [] ∧ ∀ c ∈ host, authorityChar c = true ∧ 32 ≤ c ∧ c < 127 := by
  have plain : ∀ c, addressChar c = true ∨ nameChar c = true ∨ c = 91 ∨ c = 93 →
      authorityChar c = true ∧ 32 ≤ c ∧ c < 127 := by
    intro c isOne
    have small : c < 127 := by
      unfold addressChar nameChar isAlnum isDigit isLower at isOne
      simp only [Bool.or_eq_true, decide_eq_true_eq] at isOne
      omega
    obtain ⟨inAuthority, printable⟩ := plain_of_hostChar c small isOne
    exact ⟨inAuthority, printable, small⟩
  rcases host_cases accepted with ⟨address, rfl, chars⟩ | ⟨nonempty, chars⟩
  · refine ⟨cons_ne_nil _ _, fun c mem => plain c ?_⟩
    rw [mem_append, mem_append] at mem
    rcases mem with (isOpen | inAddress) | isClose
    · exact Or.inr (Or.inr (Or.inl (mem_singleton.mp isOpen)))
    · exact Or.inl (chars c inAddress)
    · exact Or.inr (Or.inr (Or.inr (mem_singleton.mp isClose)))
  · exact ⟨nonempty, fun c mem => plain c (Or.inr (Or.inl (chars c mem)))⟩

theorem splitAuthority_host {value host : Text} (accepted : normaliseHost py value = .ok host) :
    splitAuthority host = .ok (host, none) := by
  unfold splitAuthority
  rcases host_cases accepted with ⟨address, rfl, chars⟩ | ⟨-, chars⟩
  · have starts : startsWith (lit "[" ++ address ++ lit "]") (lit "[") = true :=
      startsWith_iff.mpr ⟨address ++ lit "]", append_assoc _ _ _⟩
    have absent : 93 ∉ lit "[" ++ address := by
      rw [mem_append, not_or]
      exact ⟨by decide, fun inAddress => absurd (chars 93 inAddress) (by decide)⟩
    have cut : partition (lit "]") (lit "[" ++ address ++ lit "]") = some (lit "[" ++ address, []) :=
      partition_append [] absent []
    rw [if_pos starts, cut]
    rfl
  · have noColon : 58 ∉ host := fun inHost => absurd (chars 58 inHost) (by decide)
    have noBracket : ¬ startsWith host (lit "[") = true := by
      rw [startsWith_iff]
      rintro ⟨tail, isHost⟩
      exact absurd (chars 91 (isHost ▸ mem_append_left _ (by decide))) (by decide)
    have cut : partition (lit ":") host = none := partition_eq_none noColon
    rw [if_neg noBracket, count_eq_zero_of_not_mem noColon, if_neg (by decide), cut]

theorem normaliseUrl_form {value url host : Text} (accepted : normaliseUrl py value = .ok (url, host)) :
    ∃ scheme path query, UrlForm py url scheme host path query := by
  unfold normaliseUrl at accepted
  split_ifs at accepted with bad notPlain
  cases matched : matchUrl value with
  | none =>
    rw [matched] at accepted
    cases accepted
  | some parts =>
    rw [matched] at accepted
    dsimp only at accepted
    split_ifs at accepted with unknown
    obtain ⟨pathStart, pathChars, queryStart, queryChars, inValue⟩ := matchUrl_eq_some matched
    cases cut : splitAuthority parts.authority with
    | error error =>
      rw [cut] at accepted
      cases accepted
    | ok authority =>
      rw [cut] at accepted
      dsimp only at accepted
      cases port : checkPort parts.scheme.lower authority.2 with
      | error error =>
        rw [port] at accepted
        cases accepted
      | ok =>
        rw [port] at accepted
        dsimp only at accepted
        cases normal : normaliseHost py authority.1 with
        | error error =>
          rw [normal] at accepted
          cases accepted
        | ok canonical =>
          rw [normal] at accepted
          cases accepted
          refine ⟨parts.scheme.lower, parts.path, parts.query, defaultPort_ne_none.mp unknown, normaliseHost_idem normal,
            pathStart, pathChars, queryStart, queryChars, fun c mem => ?_, rfl⟩
          rw [not_or] at notPlain
          have ascii : ∀ d ∈ value, d < 128 := by simpa [isAscii] using notPlain.1
          have plain : ∀ d ∈ value, 32 ≤ d ∧ d ≠ 127 := by simpa using notPlain.2
          have small := ascii c (inValue c mem)
          have isPlain := plain c (inValue c mem)
          omega

namespace UrlForm

variable {url scheme host path query : Text}

theorem chars (form : UrlForm py url scheme host path query) : ∀ c ∈ url, 32 ≤ c ∧ c < 127 := by
  have schemeChars : ∀ c ∈ scheme ++ lit "://", 32 ≤ c ∧ c < 127 := by
    rcases form.known with rfl | rfl <;> decide
  intro c mem
  have shape : url = (scheme ++ lit "://") ++ (host ++ (path ++ query)) := by rw [form.shape]; simp
  rw [shape] at mem
  rcases mem_append.mp mem with inScheme | mem
  · exact schemeChars c inScheme
  rcases mem_append.mp mem with inHost | inRest
  · exact ((host_plain form.normal).2 c inHost).2
  · exact form.printable c inRest

theorem accepted (form : UrlForm py url scheme host path query) (short : url.length ≤ maxUrlLength) :
    normaliseUrl py url = .ok (url, host) := by
  obtain ⟨nonempty, plain⟩ := host_plain form.normal
  have matched := matchUrl_of_parts form.known nonempty (fun c mem => (plain c mem).1) form.pathStart form.pathChars
    form.queryStart form.queryChars
  rw [← form.shape] at matched
  have fits : ¬ (url = [] ∨ maxUrlLength < url.length) := by
    rw [not_or, not_lt]
    refine ⟨fun isEmpty => ?_, short⟩
    have shape := form.shape
    rw [isEmpty] at shape
    exact absurd (congrArg List.length shape) (by simp [lit])
  have ascii : isAscii url = true := isAscii_of_plain fun c mem => (form.chars c mem).2.trans (by decide)
  have printable : ¬ ((!isAscii url) = true ∨ (url.any fun c => decide (c < 32 ∨ c = 127)) = true) := by
    rw [ascii, not_or]
    refine ⟨by decide, ?_⟩
    rw [Bool.not_eq_true, any_eq_false]
    intro c mem
    have isPlain := form.chars c mem
    rw [decide_eq_true_eq]
    omega
  have lowered : lower scheme = scheme := by rcases form.known with rfl | rfl <;> decide
  unfold normaliseUrl
  rw [if_neg fits, if_neg printable, matched]
  dsimp only
  rw [lowered, if_neg (defaultPort_ne_none.mpr form.known), splitAuthority_host form.normal]
  dsimp only [checkPort]
  rw [form.normal]
  dsimp only
  rw [form.shape]

end UrlForm

theorem normaliseUrl_idem {value url host : Text} (accepted : normaliseUrl py value = .ok (url, host))
    (short : url.length ≤ maxUrlLength) : normaliseUrl py url = .ok (url, host) := by
  obtain ⟨scheme, path, query, form⟩ := normaliseUrl_form accepted
  exact form.accepted short

/-! ### Remotes -/

namespace UrlForm

variable {url scheme host path query : Text}

theorem afterScheme (form : UrlForm py url scheme host path query) :
    partition (lit "://") url = some (scheme, host ++ (path ++ query)) := by
  have absent : 58 ∉ scheme := by rcases form.known with rfl | rfl <;> decide
  have found := partition_append [47, 47] absent (host ++ (path ++ query))
  rw [← found, form.shape]
  simp [lit]

theorem noSlash (form : UrlForm py url scheme host path query) : 47 ∉ host := fun inHost =>
  absurd ((host_plain form.normal).2 47 inHost).1 (by decide)

theorem afterHost (form : UrlForm py url scheme host path []) (rest : Text) (isPath : path = 47 :: rest) :
    partition (lit "/") (host ++ (path ++ [])) = some (host, rest) := by
  have found := partition_append [] form.noSlash rest
  rw [← found, isPath]
  simp [lit]

end UrlForm

theorem normaliseRemote_form {value remote : Text} (accepted : normaliseRemote py value = .ok remote) :
    ∃ (scheme host rest : Text), UrlForm py remote scheme host (47 :: rest) [] ∧ rest ≠ [] ∧ 63 ∉ remote ∧
      rstrip rest (lit "/") = rest ∧ safeTail rest = true := by
  unfold normaliseRemote at accepted
  cases normal : normaliseUrl py value with
  | error error =>
    rw [normal] at accepted
    cases accepted
  | ok both =>
    obtain ⟨url, host⟩ := both
    obtain ⟨scheme, path, query, form⟩ := normaliseUrl_form normal
    rw [normal] at accepted
    dsimp only at accepted
    rw [form.afterScheme] at accepted
    simp only [Option.map_some, Option.getD_some] at accepted
    split_ifs at accepted with bad
    rw [not_or, not_or] at bad
    obtain ⟨noQuery, nonempty, safe⟩ := bad
    have isQuery : query = [] := by
      rcases form.queryStart with isEmpty | ⟨tail, isTail⟩
      · exact isEmpty
      · refine absurd ?_ noQuery
        rw [form.shape, isTail]
        exact mem_append_right _ mem_cons_self
    subst isQuery
    rcases form.pathStart with isEmpty | ⟨rest, isPath⟩
    · refine absurd ?_ nonempty
      rw [isEmpty, append_nil, append_nil, show partition (lit "/") host = none from partition_eq_none form.noSlash]
      rfl
    · rw [form.afterHost rest isPath] at nonempty safe
      simp only [Option.map_some, Option.getD_some] at nonempty safe
      have same : rstrip (47 :: rest) (lit "/") = 47 :: rstrip rest (lit "/") :=
        @rstrip_append_of_ne_nil _ [47] _ nonempty
      have isRemote : remote = scheme ++ lit "://" ++ host ++ 47 :: rstrip rest (lit "/") ++ [] := by
        rw [← Except.ok.inj accepted, form.shape, isPath, append_nil, append_nil, ← same]
        exact rstrip_append_of_ne_nil (same ▸ cons_ne_nil _ _)
      have shorter : ∀ c ∈ 47 :: rstrip rest (lit "/"), c ∈ path := by
        rw [isPath, ← same]
        exact fun c mem => mem_of_mem_rstrip mem
      refine ⟨scheme, host, rstrip rest (lit "/"), ⟨form.known, form.normal, Or.inr ⟨_, rfl⟩,
        fun c mem => form.pathChars c (shorter c mem), Or.inl rfl, fun c mem => absurd mem not_mem_nil,
        fun c mem => ?_, isRemote⟩, nonempty, fun mem => noQuery ?_, rstrip_rstrip _ _, by simpa using safe⟩
      · rw [append_nil] at mem
        exact form.printable c (mem_append_left _ (shorter c mem))
      · rw [← Except.ok.inj accepted] at mem
        exact mem_of_mem_rstrip mem

theorem normaliseRemote_idem {value remote : Text} (accepted : normaliseRemote py value = .ok remote)
    (short : remote.length ≤ maxUrlLength) : normaliseRemote py remote = .ok remote := by
  obtain ⟨scheme, host, rest, form, nonempty, noQuery, kept, safe⟩ := normaliseRemote_form accepted
  have keptWhole : rstrip remote (lit "/") = remote := by
    have keptPath : rstrip (47 :: rest) (lit "/") = 47 :: rest := by
      have same : rstrip ([47] ++ rest) (lit "/") = [47] ++ rstrip rest (lit "/") :=
        rstrip_append_of_ne_nil (kept.symm ▸ nonempty)
      rwa [kept] at same
    have shape := form.shape
    rw [append_nil] at shape
    have whole : rstrip (scheme ++ lit "://" ++ host ++ 47 :: rest) (lit "/") =
        scheme ++ lit "://" ++ host ++ rstrip (47 :: rest) (lit "/") :=
      rstrip_append_of_ne_nil (keptPath.symm ▸ cons_ne_nil _ _)
    rw [shape, whole, keptPath]
  have noTrick : ¬ (63 ∈ remote ∨ rest = [] ∨ (!safeTail rest) = true) := by
    rw [safe, not_or, not_or]
    exact ⟨noQuery, nonempty, by decide⟩
  unfold normaliseRemote
  rw [form.accepted short]
  simp only [form.afterScheme, Option.map_some, Option.getD_some, form.afterHost rest rfl, kept]
  rw [if_neg noTrick, keptWhole]

/-! ### The order of the canonical paths -/

theorem pathWithin_iff_segments {path root : Text} (normal : Normal py path) (normalRoot : Normal py root)
    (notTop : root ≠ lit "/") : pathWithin path root = true ↔ segmentsOf root <+: segmentsOf path := by
  obtain ⟨below, canonical, rfl⟩ := normal.canonical
  obtain ⟨above, canonicalAbove, rfl⟩ := normalRoot.canonical
  have nonempty : above ≠ [] := by
    rintro rfl
    exact notTop rfl
  unfold segmentsOf
  rw [filter_absolute canonical, filter_absolute canonicalAbove, pathWithin_iff_prefix canonical canonicalAbove nonempty]

theorem Normal.eq_of_segments {path other : Text} (normal : Normal py path) (normalOther : Normal py other)
    (same : segmentsOf path = segmentsOf other) : path = other := by
  obtain ⟨segments, canonical, rfl⟩ := normal.canonical
  obtain ⟨others, canonicalOthers, rfl⟩ := normalOther.canonical
  unfold segmentsOf at same
  rw [filter_absolute canonical, filter_absolute canonicalOthers] at same
  rw [same]

theorem pathWithin_partialOrder : IsPartialOrder { path : Text // Normal py path ∧ path ≠ lit "/" }
    fun path root => pathWithin path.val root.val = true where
  refl path := (pathWithin_iff_segments path.2.1 path.2.1 path.2.2).mpr (prefix_refl _)
  trans a b c inB inC := by
    rw [pathWithin_iff_segments a.2.1 b.2.1 b.2.2] at inB
    rw [pathWithin_iff_segments b.2.1 c.2.1 c.2.2] at inC
    exact (pathWithin_iff_segments a.2.1 c.2.1 c.2.2).mpr (inC.trans inB)
  antisymm a b inB inA := by
    rw [pathWithin_iff_segments a.2.1 b.2.1 b.2.2] at inB
    rw [pathWithin_iff_segments b.2.1 a.2.1 a.2.2] at inA
    exact Subtype.ext (a.2.1.eq_of_segments b.2.1 (inA.eq_of_length_le inB.length_le))

/-- **Target normalisation is canonical.** What a normaliser accepts, a second pass accepts as it is, where its
length is within the limit; every accepted path is a normalised one; and below the file system root `path_within`
is the prefix order of the segments. -/
theorem targets_canonical (py : Stdlib) :
    (∀ value base path, (∀ b, base = some b → Normal py b) → normalisePath py value base = .ok path →
      Normal py path ∧ (path.length ≤ maxPathLength → ∀ other, normalisePath py path other = .ok path)) ∧
    (∀ value host, normaliseHost py value = .ok host → normaliseHost py host = .ok host) ∧
    (∀ value url host, normaliseUrl py value = .ok (url, host) → url.length ≤ maxUrlLength →
      normaliseUrl py url = .ok (url, host)) ∧
    (∀ value remote, normaliseRemote py value = .ok remote → remote.length ≤ maxUrlLength →
      normaliseRemote py remote = .ok remote) ∧
    (∀ path root, Normal py path → Normal py root → path ≠ lit "/" → root ≠ lit "/" →
      (pathWithin path root = true ↔ segmentsOf root <+: segmentsOf path)) ∧
    IsPartialOrder { path : Text // Normal py path ∧ path ≠ lit "/" } fun path root =>
      pathWithin path.val root.val = true := by
  refine ⟨fun value base path normalBase accepted => ?_, fun _ _ => normaliseHost_idem, fun _ _ _ => normaliseUrl_idem,
    fun _ _ => normaliseRemote_idem, fun path root normal normalRoot _ notTop =>
      pathWithin_iff_segments normal normalRoot notTop, pathWithin_partialOrder⟩
  have normal := normal_of_normalisePath normalBase accepted
  exact ⟨normal, fun short other => normal.accepted short other⟩

end PawBackend.Tools
