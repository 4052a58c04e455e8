/-
**A grant covers the same or narrower calls** (`tools/grant_pattern.py`: `GrantPattern.covers`, `grant_pattern_of`).

What a pattern compares is texts with a slash between them, and what it means is segments:

* `GrantedCall.covers_iff`: a pattern covers another exactly where the call behind the other is the same or narrower,
  argument by argument (`GrantedCall.Narrower`): paths and URLs by segments, texts by what their digests tell apart.
-/

import PawBackend.Tools.CallHashes
import PawBackend.Tools.UrlForms

namespace PawBackend.Tools

open Lib Lib.Text Lib.Json List

/-! ### Tails that cannot climb out -/

section Tails

variable {t first rest : Text}

theorem safeTail_iff : safeTail t = true ↔ 92 ∉ t ∧ 59 ∉ t ∧ hasPercentSeparator t = false ∧
    ∀ segment ∈ t.splitOn 47, segment ≠ [] → parentSegment segment = false := by
  unfold safeTail
  simp only [Bool.and_eq_true, Bool.not_eq_true', decide_eq_false_iff_not, all_eq_true, Bool.or_eq_true,
    List.isEmpty_iff, and_assoc]
  refine and_congr_right fun _ => and_congr_right fun _ => and_congr_right fun _ => ?_
  refine forall₂_congr fun segment _ => ⟨fun either nonempty => either.resolve_left nonempty, fun safe => ?_⟩
  by_cases isEmpty : segment = []
  · exact Or.inl isEmpty
  · exact Or.inr (safe isEmpty)

theorem safeTail_append :
    safeTail (first ++ 47 :: rest) = true ↔ safeTail first = true ∧ safeTail rest = true := by
  have percent : hasPercentSeparator (first ++ 47 :: rest) = false ↔
      hasPercentSeparator first = false ∧ hasPercentSeparator rest = false := by
    rw [Bool.eq_false_iff, Ne, hasPercentSeparator_append, not_or, Bool.eq_false_iff, Bool.eq_false_iff]
  simp only [safeTail_iff, percent, splitOn_append_cons_self, mem_append, mem_cons, not_or]
  constructor
  · rintro ⟨⟨noBackslash, -, noBackslash'⟩, ⟨noParameter, -, noParameter'⟩, ⟨noPercent, noPercent'⟩, segments⟩
    exact ⟨⟨noBackslash, noParameter, noPercent, fun segment mem => segments segment (Or.inl mem)⟩,
      noBackslash', noParameter', noPercent', fun segment mem => segments segment (Or.inr mem)⟩
  · rintro ⟨⟨noBackslash, noParameter, noPercent, segments⟩, noBackslash', noParameter', noPercent', segments'⟩
    refine ⟨⟨noBackslash, by decide, noBackslash'⟩, ⟨noParameter, by decide, noParameter'⟩, ⟨noPercent, noPercent'⟩, ?_⟩
    rintro segment (mem | mem)
    · exact segments segment mem
    · exact segments' segment mem

theorem safeTail_nil : safeTail [] = true := by decide

theorem safeTail_rstrip : safeTail (rstrip t (lit "/")) = safeTail t := by
  unfold rstrip
  induction t using List.reverseRecOn with
  | nil => rw [rdropWhile_nil]
  | append_singleton t c ih =>
    rw [rdropWhile_concat]
    split_ifs with isSlash
    · rw [decide_eq_true_eq] at isSlash
      obtain rfl : c = 47 := mem_singleton.mp isSlash
      rw [ih, Bool.eq_iff_iff, safeTail_append]
      exact ⟨fun safe => ⟨safe, safeTail_nil⟩, fun safe => safe.1⟩
    · rfl

end Tails

/-! ### One argument -/

/-- A text is another one, or what a slash and more follow. -/
def Extends (later own : Text) : Prop := later = own ∨ ∃ tail, later = own ++ 47 :: tail

theorem urlWithin_iff {url remote : Text} (noQuery : 63 ∉ url) :
    urlWithin url remote = true ↔ url = remote ∨ ∃ tail, url = remote ++ 47 :: tail ∧ safeTail tail = true := by
  have isBefore : Text.before 63 url = url := by
    unfold Text.before
    refine takeWhile_eq_self_iff.mpr fun c mem => decide_eq_true fun isQuery => noQuery (isQuery ▸ mem)
  unfold urlWithin
  rw [isBefore]
  simp only [Bool.or_eq_true, decide_eq_true_eq, Bool.and_eq_true]
  refine or_congr_right ⟨?_, ?_⟩
  · rintro ⟨starts, safe⟩
    obtain ⟨tail, isUrl⟩ := startsWith_iff.mp starts
    have isUrl : url = remote ++ 47 :: tail := by rw [isUrl, append_assoc]; rfl
    refine ⟨tail, isUrl, ?_⟩
    rwa [isUrl, show remote ++ 47 :: tail = (remote ++ [47]) ++ tail by simp, drop_left' (by simp)] at safe
  · rintro ⟨tail, rfl, safe⟩
    refine ⟨startsWith_iff.mpr ⟨tail, by rw [append_assoc]; rfl⟩, ?_⟩
    rwa [show remote ++ 47 :: tail = (remote ++ [47]) ++ tail by simp, drop_left' (by simp)]

namespace GrantArgument

variable {own other later : GrantArgument}

theorem covers_iff : own.covers other = true ↔ (other.name = own.name ∧ other.kind = own.kind ∧ other.matching = own.matching) ∧
    (own.matching ≠ .under → other.value = own.value) ∧
    (own.matching = .under → own.kind = .path → own.value = lit "/" ∨ Extends other.value own.value) ∧
    (own.matching = .under → own.kind ≠ .path → 63 ∉ other.value ∧
      (other.value = own.value ∨ ∃ tail, other.value = own.value ++ 47 :: tail ∧ safeTail tail = true)) := by
  have starts : ∀ t u : Text, startsWith t (u ++ lit "/") = true ↔ ∃ tail, t = u ++ 47 :: tail := by
    intro t u
    rw [startsWith_iff]
    simp only [append_assoc]
    exact Iff.rfl
  unfold covers
  split_ifs with differ notUnder isPath
  · rw [Ne, Prod.mk.injEq, Prod.mk.injEq] at differ
    exact iff_of_false not_false fun all => differ all.1
  all_goals
    rw [not_not, Prod.mk.injEq, Prod.mk.injEq] at differ
    rw [and_iff_right differ]
  · rw [decide_eq_true_eq]
    refine ⟨fun same => ⟨fun _ => same, fun isUnder => absurd isUnder notUnder, fun isUnder => absurd isUnder notUnder⟩,
      fun all => all.1 notUnder⟩
  · rw [not_not] at notUnder
    rw [Bool.or_eq_true, Bool.or_eq_true, decide_eq_true_eq, decide_eq_true_eq, starts]
    constructor
    · intro either
      refine ⟨fun isNot => absurd notUnder isNot, fun _ _ => ?_, fun _ isNot => absurd isPath isNot⟩
      rcases either with (same | isTop) | below
      · exact Or.inr (Or.inl same)
      · exact Or.inl isTop
      · exact Or.inr (Or.inr below)
    · rintro ⟨-, path, -⟩
      rcases path notUnder isPath with isTop | same | below
      · exact Or.inl (Or.inr isTop)
      · exact Or.inl (Or.inl same)
      · exact Or.inr below
  · rw [not_not] at notUnder
    rw [Bool.and_eq_true, Bool.not_eq_true', decide_eq_false_iff_not]
    constructor
    · rintro ⟨noQuery, within⟩
      exact ⟨fun isNot => absurd notUnder isNot, fun _ isPath' => absurd isPath' isPath,
        fun _ _ => ⟨noQuery, (urlWithin_iff noQuery).mp within⟩⟩
    · rintro ⟨-, -, url⟩
      obtain ⟨noQuery, within⟩ := url notUnder isPath
      exact ⟨noQuery, (urlWithin_iff noQuery).mpr within⟩

/-- A URL compared by its path has no query. -/
def Plain (item : GrantArgument) : Prop := item.matching = .under → item.kind ≠ .path → 63 ∉ item.value

theorem covers_refl (plain : own.Plain) : own.covers own = true :=
  (covers_iff).mpr ⟨⟨rfl, rfl, rfl⟩, fun _ => rfl, fun _ _ => Or.inr (Or.inl rfl), fun isUnder notPath =>
    ⟨plain isUnder notPath, Or.inl rfl⟩⟩

theorem covers_trans (nonempty : own.value ≠ []) (first : own.covers other = true) (second : other.covers later = true) :
    own.covers later = true := by
  obtain ⟨⟨name, kind, matching⟩, equal, path, url⟩ := (covers_iff).mp first
  obtain ⟨⟨name', kind', matching'⟩, equal', path', url'⟩ := (covers_iff).mp second
  rw [kind, matching] at path' url'
  rw [matching] at equal'
  refine (covers_iff).mpr ⟨⟨name'.trans name, kind'.trans kind, matching'.trans matching⟩, fun notUnder =>
    (equal' notUnder).trans (equal notUnder), fun isUnder isPath => ?_, fun isUnder notPath => ?_⟩
  · rcases path isUnder isPath with isTop | below
    · exact Or.inl isTop
    rcases path' isUnder isPath with isTop' | below'
    · rcases below with same | ⟨tail, isOther⟩
      · exact Or.inl (same ▸ isTop')
      · -- the file system root lies below nothing but itself
        rw [isTop'] at isOther
        have size := congrArg List.length isOther
        rw [length_append, length_cons] at size
        have : 0 < own.value.length := length_pos_iff.mpr nonempty
        have : (lit "/").length = 1 := rfl
        omega
    · refine Or.inr ?_
      rcases below with same | ⟨tail, isOther⟩
      · rwa [same] at below'
      · rcases below' with same' | ⟨tail', isLater⟩
        · exact Or.inr ⟨tail, same'.trans isOther⟩
        · exact Or.inr ⟨tail ++ 47 :: tail', by rw [isLater, isOther, append_assoc, cons_append]⟩
  · obtain ⟨-, below⟩ := url isUnder notPath
    obtain ⟨noQuery, below'⟩ := url' isUnder notPath
    refine ⟨noQuery, ?_⟩
    rcases below with same | ⟨tail, isOther, safe⟩
    · rwa [same] at below'
    · rcases below' with same' | ⟨tail', isLater, safe'⟩
      · exact Or.inr ⟨tail, same'.trans isOther, safe⟩
      · exact Or.inr ⟨tail ++ 47 :: tail', by rw [isLater, isOther, append_assoc, cons_append],
          safeTail_append.mpr ⟨safe, safe'⟩⟩

end GrantArgument

/-! ### Patterns -/

namespace GrantPattern

variable {own call later : GrantPattern}

theorem covers_iff : own.covers call = true ↔ call.scope.rank.getD 0 ≤ own.scope.rank.getD 0 ∧
    (∀ item ∈ call.arguments, ∃ mine ∈ own.arguments, mine.name = item.name) ∧
    ∀ item ∈ own.arguments, ∃ other ∈ call.arguments, other.name = item.name ∧ item.covers other = true := by
  unfold covers
  simp only [Bool.and_eq_true, decide_eq_true_eq, all_eq_true, mem_map, and_assoc]
  refine and_congr_right fun _ => and_congr_right fun _ => forall₂_congr fun item _ => ?_
  rw [Option.any_eq_true]
  constructor
  · rintro ⟨other, found, covered⟩
    exact ⟨other, mem_of_find?_eq_some found, by simpa using find?_some found, covered⟩
  · rintro ⟨other, mem, named, covered⟩
    refine ⟨other, ?_, covered⟩
    cases found : call.arguments.find? fun other => decide (other.name = item.name) with
    | none => exact absurd (decide_eq_true named) (find?_eq_none.mp found other mem)
    | some first =>
      have isFirst : first.name = item.name := by simpa using find?_some found
      rw [inj_on_of_nodup_map call.distinct (mem_of_find?_eq_some found) mem (isFirst.trans named.symm)]

theorem covers_refl (plain : ∀ item ∈ own.arguments, item.Plain) : own.covers own = true :=
  (covers_iff).mpr ⟨le_rfl, fun item mem => ⟨item, mem, rfl⟩, fun item mem =>
    ⟨item, mem, rfl, GrantArgument.covers_refl (plain item mem)⟩⟩

theorem covers_trans (nonempty : ∀ item ∈ own.arguments, item.value ≠ []) (first : own.covers call = true)
    (second : call.covers later = true) : own.covers later = true := by
  obtain ⟨rank, names, items⟩ := (covers_iff).mp first
  obtain ⟨rank', names', items'⟩ := (covers_iff).mp second
  refine (covers_iff).mpr ⟨rank'.trans rank, fun item mem => ?_, fun item mem => ?_⟩
  · obtain ⟨mid, inCall, named⟩ := names' item mem
    obtain ⟨mine, inOwn, named'⟩ := names mid inCall
    exact ⟨mine, inOwn, named'.trans named⟩
  · obtain ⟨mid, inCall, named, covered⟩ := items item mem
    obtain ⟨last, inLater, named', covered'⟩ := items' mid inCall
    exact ⟨last, inLater, named'.trans named, GrantArgument.covers_trans (nonempty item mem) covered covered'⟩

end GrantPattern

variable {py : Platform}

/-! ### What is compared, and what it means -/

namespace UrlForm

variable {lib : Stdlib} {url scheme host path query : Text}

theorem matched (form : UrlForm lib url scheme host path query) : matchUrl url = some ⟨scheme, host, path, query⟩ := by
  obtain ⟨nonempty, plain⟩ := host_plain form.normal
  rw [form.shape]
  exact matchUrl_of_parts form.known nonempty (fun c mem => (plain c mem).1) form.pathStart form.pathChars
    form.queryStart form.queryChars

theorem noQuery_iff (form : UrlForm lib url scheme host path query) : 63 ∉ url ↔ query = [] := by
  have elsewhere : 63 ∉ scheme ++ lit "://" ++ host ++ path := by
    have inScheme : 63 ∉ scheme ++ lit "://" := by rcases form.known with rfl | rfl <;> decide
    rw [mem_append, mem_append, not_or, not_or]
    exact ⟨⟨inScheme, fun inHost => absurd ((host_plain form.normal).2 63 inHost).1 (by decide)⟩,
      fun inPath => absurd (form.pathChars 63 inPath) (by decide)⟩
  rw [form.shape, mem_append, not_or, and_iff_right elsewhere]
  rcases form.queryStart with rfl | ⟨rest, rfl⟩
  · exact iff_of_true not_mem_nil rfl
  · exact iff_of_false (fun absent => absent mem_cons_self) (cons_ne_nil _ _)

theorem urlPathIsSafe_eq (form : UrlForm lib url scheme host path []) : urlPathIsSafe url = safeTail path := by
  have isBefore : Text.before 63 url = url := by
    unfold Text.before
    exact takeWhile_eq_self_iff.mpr fun c mem => decide_eq_true fun isQuery =>
      form.noQuery_iff.mpr rfl (isQuery ▸ mem)
  unfold urlPathIsSafe
  rw [isBefore, form.afterScheme]
  simp only [Option.map_some, Option.getD_some]
  rcases form.pathStart with isEmpty | ⟨rest, isPath⟩
  · subst isEmpty
    rw [append_nil, append_nil, show partition (lit "/") host = none from partition_eq_none form.noSlash]
    rfl
  · rw [form.afterHost rest isPath, isPath]
    simp only [Option.map_some, Option.getD_some]
    rw [Bool.eq_iff_iff, show (47 :: rest : Text) = [] ++ 47 :: rest from rfl, safeTail_append]
    exact ⟨fun safe => ⟨safeTail_nil, safe⟩, fun safe => safe.2⟩

theorem rstrip_eq (form : UrlForm lib url scheme host path []) :
    rstrip url (lit "/") = scheme ++ (lit "://" ++ (host ++ rstrip path (lit "/"))) := by
  have kept : rstrip (scheme ++ lit "://" ++ host) (lit "/") = scheme ++ lit "://" ++ host := by
    unfold rstrip
    refine rdropWhile_eq_self_iff.mpr fun nonempty isSlash => ?_
    obtain ⟨hostNonempty, -⟩ := host_plain form.normal
    rw [getLast_append_of_ne_nil _ hostNonempty, decide_eq_true_eq] at isSlash
    have isLast : host.getLast hostNonempty = 47 := mem_singleton.mp isSlash
    exact form.noSlash (isLast ▸ getLast_mem hostNonempty)
  have shape := form.shape
  rw [append_nil] at shape
  rw [shape, rstrip_append_of_kept kept, append_assoc, append_assoc]

end UrlForm

/-- A text that is empty or begins with a slash. -/
def PathLike (t : Text) : Prop := t = [] ∨ ∃ rest, t = 47 :: rest

theorem pathLike_rstrip {t : Text} (pathLike : PathLike t) : PathLike (rstrip t (lit "/")) := by
  rcases pathLike with rfl | ⟨rest, rfl⟩
  · exact Or.inl (rdropWhile_nil _)
  · have isPrefix : rstrip (47 :: rest) (lit "/") <+: 47 :: rest := rdropWhile_prefix _ _
    cases stripped : rstrip (47 :: rest) (lit "/") with
    | nil => exact Or.inl rfl
    | cons c more =>
      rw [stripped, cons_prefix_cons] at isPrefix
      exact Or.inr ⟨more, by rw [isPrefix.1]⟩

theorem origin_injective {scheme host path scheme' host' path' : Text} (colon : 58 ∉ scheme) (colon' : 58 ∉ scheme')
    (slash : 47 ∉ host) (slash' : 47 ∉ host') (pathLike : PathLike path) (pathLike' : PathLike path')
    (same : scheme ++ (lit "://" ++ (host ++ path)) = scheme' ++ (lit "://" ++ (host' ++ path'))) :
    scheme = scheme' ∧ host = host' ∧ path = path' := by
  have cut := partition_append [47, 47] colon (host ++ path)
  have cut' := partition_append [47, 47] colon' (host' ++ path')
  have isSame : scheme ++ ([58, 47, 47] ++ (host ++ path)) = scheme' ++ ([58, 47, 47] ++ (host' ++ path')) := same
  rw [isSame, cut', Option.some.injEq, Prod.mk.injEq] at cut
  have stop : ∀ {t : Text}, PathLike t → ∀ c ∈ t.head?, decide (c ≠ 47) = false := by
    rintro t (rfl | ⟨rest, rfl⟩) c isHead
    · cases isHead
    · cases isHead
      rfl
  have plain : ∀ {t : Text}, 47 ∉ t → ∀ c ∈ t, decide (c ≠ 47) = true := by
    intro t absent c mem
    exact decide_eq_true fun isSlash => absent (isSlash ▸ mem)
  have hosts : host' = host := by
    rw [← takeWhile_append_stop (plain slash') (stop pathLike'), cut.2, takeWhile_append_stop (plain slash) (stop pathLike)]
  have paths : path' = path := by
    rw [← dropWhile_append_stop (plain slash') (stop pathLike'), cut.2, dropWhile_append_stop (plain slash) (stop pathLike)]
  exact ⟨cut.1.symm, hosts.symm, paths.symm⟩

/-- The texts of two values differ and have one digest. -/
def Collide (py : Platform) (v w : Value) : Prop :=
  jsonValue v ≠ jsonValue w ∧ py.sha256 (jsonValue v) = py.sha256 (jsonValue w)

def ComparedWhole (url : Text) : Prop := 63 ∈ url ∨ urlPathIsSafe url = false

/-- A URL without a query, of the same scheme and host as another: no segment of either can climb out, and its path is
the other's or lies below it, slashes at the end apart. -/
def UrlBelow (lib : Stdlib) (own later : Text) : Prop :=
  ∃ scheme host path path', UrlForm lib own scheme host path [] ∧ UrlForm lib later scheme host path' [] ∧
    safeTail path = true ∧ safeTail path' = true ∧
    (rstrip path (lit "/")).splitOn 47 <+: (rstrip path' (lit "/")).splitOn 47

/-- What a later value of a kind may be; `same` compares what is compared by its digest, collisions apart. -/
def NarrowerValue (py : Platform) (same : Value → Value → Prop) (kind : ArgumentKind) (own later : Value) : Prop :=
  match kind with
  | .path => ∃ root path, own = .text root ∧ later = .text path ∧ segmentsOf root <+: segmentsOf path
  | .url => ∃ url url', own = .text url ∧ later = .text url' ∧
      (url' = url ∨ (ComparedWhole url ∧ ComparedWhole url' ∧ Collide py own later) ∨ UrlBelow py.toStdlib url url')
  | .host | .project | .repository => later = own
  | _ => same own later ∨ Collide py own later

theorem urlWithin_iff_below {lib : Stdlib} {own later scheme host path query scheme' host' path' query' : Text}
    (form : UrlForm lib own scheme host path query) (form' : UrlForm lib later scheme' host' path' query')
    (byPath : ¬ ComparedWhole own) (byPath' : ¬ ComparedWhole later) :
    (63 ∉ rstrip later (lit "/") ∧ (rstrip later (lit "/") = rstrip own (lit "/") ∨
      ∃ tail, rstrip later (lit "/") = rstrip own (lit "/") ++ 47 :: tail ∧ safeTail tail = true)) ↔
    (later = own ∨ UrlBelow lib own later) := by
  obtain ⟨noQuery, safe⟩ := not_or.mp byPath
  obtain ⟨noQuery', safe'⟩ := not_or.mp byPath'
  obtain rfl := form.noQuery_iff.mp noQuery
  obtain rfl := form'.noQuery_iff.mp noQuery'
  rw [Bool.not_eq_false, form.urlPathIsSafe_eq] at safe
  rw [Bool.not_eq_false, form'.urlPathIsSafe_eq] at safe'
  have stripped : 63 ∉ rstrip later (lit "/") := fun mem => noQuery' (mem_of_mem_rstrip mem)
  have colon : 58 ∉ scheme := by rcases form.known with rfl | rfl <;> decide
  have colon' : 58 ∉ scheme' := by rcases form'.known with rfl | rfl <;> decide
  have likePath := pathLike_rstrip form.pathStart
  have likePath' := pathLike_rstrip form'.pathStart
  rw [and_iff_right stripped, form.rstrip_eq, form'.rstrip_eq]
  constructor
  · rintro (same | ⟨tail, isLater, -⟩)
    · obtain ⟨rfl, rfl, paths⟩ := origin_injective colon' colon form'.noSlash form.noSlash likePath' likePath same
      exact Or.inr ⟨scheme', host', path, path', form, form', safe, safe', paths ▸ prefix_refl _⟩
    · have likeBoth : PathLike (rstrip path (lit "/") ++ 47 :: tail) := by
        rcases likePath with isEmpty | ⟨rest, isRest⟩
        · exact Or.inr ⟨tail, by rw [isEmpty, nil_append]⟩
        · exact Or.inr ⟨rest ++ 47 :: tail, by rw [isRest, cons_append]⟩
      simp only [append_assoc] at isLater
      obtain ⟨rfl, rfl, same⟩ := origin_injective colon' colon form'.noSlash form.noSlash likePath' likeBoth isLater
      refine Or.inr ⟨scheme', host', path, path', form, form', safe, safe', ?_⟩
      rw [same, splitOn_append_cons_self]
      exact prefix_append _ _
  · rintro (rfl | ⟨scheme₁, host₁, path₁, path₂, form₁, form₂, -, -, more, isMore⟩)
    · have isSame := form.matched.symm.trans form'.matched
      rw [Option.some.injEq, UrlParts.mk.injEq] at isSame
      obtain ⟨rfl, rfl, rfl, -⟩ := isSame
      exact Or.inl rfl
    · have isOwn := form.matched.symm.trans form₁.matched
      have isLater := form'.matched.symm.trans form₂.matched
      rw [Option.some.injEq, UrlParts.mk.injEq] at isOwn isLater
      obtain ⟨rfl, rfl, rfl, -⟩ := isOwn
      obtain ⟨rfl, rfl, rfl, -⟩ := isLater
      have whole := join_splitOn 47 (rstrip path' (lit "/"))
      rw [← isMore] at whole
      by_cases none : more = []
      · rw [none, append_nil, join_splitOn] at whole
        exact Or.inl (by rw [whole])
      · rw [join_append (splitOn_ne_nil _ _) none, join_splitOn] at whole
        refine Or.inr ⟨join 47 more, by rw [← whole]; simp only [append_assoc], ?_⟩
        rw [← safeTail_rstrip, ← whole, safeTail_append] at safe'
        exact safe'.2

theorem digest_eq_iff {v w : Value} (isStr : v.IsStr) (isStr' : w.IsStr) :
    digest py w = digest py v ↔ v.SameUnits w ∨ Collide py v w := by
  have injective : ∀ a b : CallHash, hexDigest a = hexDigest b → a = b := by
    intro a b same
    have numbers := congrArg (toNat 16) same
    unfold hexDigest at numbers
    rw [toNat_hexDigits, toNat_hexDigits] at numbers
    have small : ∀ hash : CallHash, hash.toNat < 16 ^ 64 := fun hash => lt_of_lt_of_eq hash.isLt (by norm_num)
    rw [Nat.mod_eq_of_lt (small a), Nat.mod_eq_of_lt (small b)] at numbers
    exact BitVec.eq_of_toNat_eq numbers
  have comma : Followed 44 125 [44] := ⟨44, [], rfl, Or.inl rfl⟩
  constructor
  · intro same
    have hashes := injective _ _ same
    by_cases texts : jsonValue v = jsonValue w
    · exact Or.inl (jsonValue_delimited isStr isStr' comma comma (by rw [texts])).1
    · exact Or.inr ⟨texts, hashes.symm⟩
  · rintro (same | collide)
    · unfold digest
      rw [same.jsonValue_eq]
    · unfold digest
      rw [collide.2]

/-! ### The pattern of a call -/

theorem parseValue_kind {argument : ArgumentSpec} {raw : ArgumentValue} {base : Option Text} {value : Value}
    {target : Option Target} (normalBase : ∀ b, base = some b → Normal py.toStdlib b)
    (parsed : parseValue py argument raw base = .ok (value, target)) :
    (argument.kind = .path → ∃ path, value = .text path ∧ Normal py.toStdlib path) ∧
    (argument.kind = .url → ∃ url scheme host path query, value = .text url ∧
      UrlForm py.toStdlib url scheme host path query) ∧
    (argument.kind = .host ∨ argument.kind = .project ∨ argument.kind = .repository → ∃ t, value = .text t) := by
  have byText : ∀ t, parseText py argument t base = .ok (value, target) →
      (argument.kind = .path → ∃ path, value = .text path ∧ Normal py.toStdlib path) ∧
      (argument.kind = .url → ∃ url scheme host path query, value = .text url ∧
        UrlForm py.toStdlib url scheme host path query) ∧
      (argument.kind = .host ∨ argument.kind = .project ∨ argument.kind = .repository → ∃ t, value = .text t) := by
    intro t accepted
    refine ⟨fun kind => ?_, fun kind => ?_, ?_⟩
    · simp only [parseText, kind, ↓check_eq_ok, bind_eq_ok, orInvalidTarget_eq_ok, pure_eq_ok] at accepted
      obtain ⟨-, -, path, isPath, same⟩ := accepted
      cases same
      exact ⟨path, rfl, normal_of_normalisePath normalBase isPath⟩
    · simp only [parseText, kind, ↓check_eq_ok, bind_eq_ok, orInvalidTarget_eq_ok, pure_eq_ok] at accepted
      obtain ⟨-, -, ⟨url, host⟩, isUrl, same⟩ := accepted
      cases same
      obtain ⟨scheme, path, query, form⟩ := normaliseUrl_form isUrl
      exact ⟨url, scheme, host, path, query, rfl, form⟩
    · rintro (kind | kind | kind)
      all_goals
        simp only [parseText, kind, ↓check_eq_ok, bind_eq_ok, orInvalidTarget_eq_ok, pure_eq_ok] at accepted
        obtain ⟨-, -, id, -, same⟩ := accepted
        cases same
        exact ⟨_, rfl⟩
  unfold parseValue at parsed
  split at parsed
  · rename_i kind
    rw [kind]
    exact ⟨fun wrong => absurd wrong (by decide), fun wrong => absurd wrong (by decide), fun wrong => absurd wrong (by decide)⟩
  · cases parsed
  · rename_i kind
    rw [kind]
    exact ⟨fun wrong => absurd wrong (by decide), fun wrong => absurd wrong (by decide), fun wrong => absurd wrong (by decide)⟩
  · cases parsed
  all_goals first | exact byText _ parsed | cases parsed

theorem GrantArgument.make_eq_ok {name value : Text} {kind : ArgumentKind} {matching : GrantMatch} {item : GrantArgument}
    (made : GrantArgument.make name kind matching value = .ok item) :
    item = ⟨name, kind, matching, value⟩ ∧ value ≠ [] ∧ kind.isNeverGranted = false := by
  simp only [GrantArgument.make, ↓check_eq_ok, pure_eq_ok] at made
  obtain ⟨-, bounded, -, granted, same⟩ := made
  refine ⟨same.symm, fun isEmpty => bounded ?_, by simpa using granted⟩
  rw [isEmpty]
  rfl

theorem grantArgumentOf_eq_ok {name : Text} {kind : ArgumentKind} {value : Value} {item : GrantArgument}
    (made : grantArgumentOf py name kind value = .ok item) :
    item.name = name ∧ item.kind = kind ∧ item.value ≠ [] ∧ kind.isNeverGranted = false ∧
      (kind = .path → item.matching = .under ∧ item.value = shown value) ∧
      (kind = .url → ComparedWhole (shown value) → item.matching = .digest ∧ item.value = digest py (.text (shown value))) ∧
      (kind = .url → ¬ ComparedWhole (shown value) → item.matching = .under ∧ item.value = rstrip (shown value) (lit "/")) ∧
      (kind = .host ∨ kind = .project ∨ kind = .repository → item.matching = .equal ∧ item.value = shown value) ∧
      (kind = .text ∨ kind = .integer ∨ kind = .boolean → item.matching = .digest ∧ item.value = digest py value) := by
  have whole : (63 ∈ shown value ∨ (!urlPathIsSafe (shown value)) = true) ↔ ComparedWhole (shown value) := by
    unfold ComparedWhole
    rw [Bool.not_eq_true']
  unfold grantArgumentOf at made
  cases kind
  case path =>
    obtain ⟨rfl, nonempty, granted⟩ := GrantArgument.make_eq_ok made
    exact ⟨rfl, rfl, nonempty, granted, fun _ => ⟨rfl, rfl⟩, by simp, by simp, by simp, by simp⟩
  case url =>
    dsimp only at made
    split_ifs at made with isWhole
    all_goals
      rw [whole] at isWhole
      obtain ⟨rfl, nonempty, granted⟩ := GrantArgument.make_eq_ok made
    · exact ⟨rfl, rfl, nonempty, granted, by simp, fun _ _ => ⟨rfl, rfl⟩, fun _ byPath => absurd isWhole byPath,
        by simp, by simp⟩
    · exact ⟨rfl, rfl, nonempty, granted, by simp, fun _ wrong => absurd wrong isWhole, fun _ _ => ⟨rfl, rfl⟩,
        by simp, by simp⟩
  case host | project | repository =>
    obtain ⟨rfl, nonempty, granted⟩ := GrantArgument.make_eq_ok made
    exact ⟨rfl, rfl, nonempty, granted, by simp, by simp, by simp, fun _ => ⟨rfl, rfl⟩, by simp⟩
  case text | integer | boolean =>
    obtain ⟨rfl, nonempty, granted⟩ := GrantArgument.make_eq_ok made
    exact ⟨rfl, rfl, nonempty, granted, by simp, by simp, by simp, by simp, fun _ => ⟨rfl, rfl⟩⟩
  case credentialHandle | workingSetRepository =>
    obtain ⟨-, -, granted⟩ := GrantArgument.make_eq_ok made
    exact absurd granted (by decide)

variable (py) in
structure GrantedCall extends BoundCall py where
  status : ScopeStatus
  level : ApprovalLevel
  pattern : GrantPattern
  built : grantPatternOf py spec parsed.values status level = .ok (some pattern)

namespace GrantedCall

variable {a b c : GrantedCall py}

def Argument (a : GrantedCall py) (name : Text) (kind : ArgumentKind) (value : Value) : Prop :=
  ∃ argument, (name, argument) ∈ a.spec.arguments ∧ argument.kind = kind ∧ (name, value) ∈ a.parsed.values

theorem items (a : GrantedCall py) : a.pattern.scope = a.status ∧
    (∀ item ∈ a.pattern.arguments, ∃ value, a.Argument item.name item.kind value ∧
      grantArgumentOf py item.name item.kind value = .ok item) ∧
    ∀ name kind value, a.Argument name kind value →
      ∃ item ∈ a.pattern.arguments, grantArgumentOf py name kind value = .ok item := by
  have built := a.built
  unfold grantPatternOf at built
  split_ifs at built
  · cases built
  obtain ⟨items, made, rest⟩ := bind_eq_ok.mp built
  obtain ⟨pattern, isPattern, same⟩ := bind_eq_ok.mp rest
  rw [pure_eq_ok, Option.some.injEq] at same
  subst same
  have shape : a.pattern.scope = a.status ∧ a.pattern.arguments = items := by
    unfold GrantPattern.make at isPattern
    split_ifs at isPattern
    rw [← Except.ok.inj isPattern]
    exact ⟨rfl, rfl⟩
  have found : ∀ name value, a.parsed.values.lookup name = some value ↔ (name, value) ∈ a.parsed.values := by
    intro name value
    constructor
    · intro isFound
      obtain ⟨before, after, isSplit, -⟩ := lookup_eq_some_iff.mp isFound
      rw [isSplit]
      exact mem_append_right _ mem_cons_self
    · intro mem
      cases isFound : a.parsed.values.lookup name with
      | none => exact absurd (lookup_eq_none_iff.mp isFound (name, value) mem) (by simp)
      | some other =>
        obtain ⟨before, after, isSplit, -⟩ := lookup_eq_some_iff.mp isFound
        have inValues : (name, other) ∈ a.parsed.values := by
          rw [isSplit]
          exact mem_append_right _ mem_cons_self
        have same := inj_on_of_nodup_map a.distinct inValues mem rfl
        rw [Prod.mk.injEq] at same
        rw [same.2]
  refine ⟨shape.1, fun item mem => ?_, fun name kind value isArgument => ?_⟩
  · rw [shape.2] at mem
    obtain ⟨⟨name, kind, value⟩, inEntries, isItem⟩ := exists_of_mem_mapM made mem
    obtain ⟨⟨declared, argument⟩, inSpec, isEntry⟩ := mem_filterMap.mp inEntries
    rw [Option.map_eq_some_iff] at isEntry
    obtain ⟨found', isFound, same⟩ := isEntry
    cases same
    obtain ⟨named, kinded, -⟩ := grantArgumentOf_eq_ok isItem
    rw [named, kinded]
    exact ⟨value, ⟨argument, inSpec, rfl, (found declared value).mp isFound⟩, isItem⟩
  · obtain ⟨argument, inSpec, rfl, inValues⟩ := isArgument
    have inEntries : (name, argument.kind, value) ∈ a.spec.arguments.filterMap fun argument =>
        (a.parsed.values.lookup argument.1).map fun value => (argument.1, argument.2.kind, value) := by
      refine mem_filterMap.mpr ⟨(name, argument), inSpec, ?_⟩
      rw [(found name value).mpr inValues]
      rfl
    obtain ⟨item, inItems, isItem⟩ := exists_mapM_of_mem made inEntries
    exact ⟨item, shape.2 ▸ inItems, isItem⟩

variable {name : Text} {kind : ArgumentKind}

theorem Argument.value_kind {value : Value} (isArgument : a.Argument name kind value) :
    (kind = .path → ∃ path, value = .text path ∧ Normal py.toStdlib path) ∧
    (kind = .url → ∃ url scheme host path query, value = .text url ∧ UrlForm py.toStdlib url scheme host path query) ∧
    (kind = .host ∨ kind = .project ∨ kind = .repository → ∃ t, value = .text t) ∧ value.IsStr := by
  obtain ⟨argument, declared, rfl, inValues⟩ := isArgument
  obtain ⟨other, raw, target, declared', parsed⟩ := (parseArguments_values a.accepted).2 _ inValues
  have same := inj_on_of_nodup_map a.spec.distinct declared declared' rfl
  rw [Prod.mk.injEq] at same
  rw [← same.2] at parsed
  have normalBase : ∀ base, a.context.scope.base = some base → Normal py.toStdlib base := by
    intro base isBase
    unfold TaskScope.base at isBase
    obtain ⟨root, -, rfl⟩ := Option.map_eq_some_iff.mp isBase
    exact normal_of_normalisePath (fun _ none => absurd none (Option.some_ne_none _).symm) root.2.1
  obtain ⟨path, url, text⟩ := parseValue_kind normalBase parsed
  exact ⟨path, url, text, a.strings _ inValues⟩

structure Narrower (same : Value → Value → Prop) (a b : GrantedCall py) : Prop where
  scope : b.status.rank.getD 0 ≤ a.status.rank.getD 0
  arguments : ∀ name kind, (∃ value, a.Argument name kind value) ↔ ∃ value, b.Argument name kind value
  values : ∀ name kind own later, a.Argument name kind own → b.Argument name kind later →
    NarrowerValue py same kind own later

theorem item_covers_iff {own later : Value} {item other : GrantArgument}
    (isArgument : a.Argument name kind own) (isArgument' : b.Argument name kind later)
    (made : grantArgumentOf py name kind own = .ok item) (made' : grantArgumentOf py name kind later = .ok other) :
    item.covers other = true ↔ NarrowerValue py Value.SameUnits kind own later := by
  obtain ⟨isPath, isUrl, isText, isStr⟩ := isArgument.value_kind
  obtain ⟨isPath', isUrl', isText', isStr'⟩ := isArgument'.value_kind
  obtain ⟨named, kinded, -, granted, path, whole, byPath, equal, digested⟩ := grantArgumentOf_eq_ok made
  obtain ⟨named', kinded', -, -, path', whole', byPath', equal', digested'⟩ := grantArgumentOf_eq_ok made'
  rw [GrantArgument.covers_iff, named, named', kinded, kinded']
  cases kind
  case path =>
    obtain ⟨root, rfl, normal⟩ := isPath rfl
    obtain ⟨below, rfl, normal'⟩ := isPath' rfl
    obtain ⟨under, isRoot⟩ := path rfl
    obtain ⟨under', isBelow⟩ := path' rfl
    rw [under, under', isRoot, isBelow]
    show _ ↔ ∃ root' path', Value.text root = .text root' ∧ Value.text below = .text path' ∧ segmentsOf root' <+: segmentsOf path'
    have segments : (shown (.text root) = lit "/" ∨ Extends (shown (.text below)) (shown (.text root))) ↔
        segmentsOf root <+: segmentsOf below := by
      show (root = lit "/" ∨ Extends below root) ↔ _
      by_cases isTop : root = lit "/"
      · have noSegments : segmentsOf root = [] := by rw [isTop]; rfl
        rw [noSegments]
        exact iff_of_true (Or.inl isTop) ( nil_prefix)
      · rw [← pathWithin_iff_segments normal' normal isTop, pathWithin_iff]
        exact ⟨fun either => ⟨isTop, either.resolve_left isTop⟩, fun both => Or.inr both.2⟩
    rw [segments]
    constructor
    · rintro ⟨-, -, extends', -⟩
      exact ⟨root, below, rfl, rfl, extends' rfl rfl⟩
    · rintro ⟨root', path', same, same', segments⟩
      cases same
      cases same'
      exact ⟨⟨rfl, rfl, rfl⟩, by simp, fun _ _ => segments, by simp⟩
  case url =>
    obtain ⟨url, scheme, host, path₁, query, rfl, form⟩ := isUrl rfl
    obtain ⟨url', scheme', host', path₂, query', rfl, form'⟩ := isUrl' rfl
    show _ ↔ ∃ one two, Value.text url = .text one ∧ Value.text url' = .text two ∧ (two = one ∨
      (ComparedWhole one ∧ ComparedWhole two ∧ Collide py (.text url) (.text url')) ∨ UrlBelow py.toStdlib one two)
    have ascii : ∀ {u scheme host path query}, UrlForm py.toStdlib u scheme host path query → Clean u := fun form =>
      clean_of_ascii fun c mem => (form.chars c mem).2.trans (by decide)
    have belowByPath : ∀ {one two : Text}, UrlBelow py.toStdlib one two → ¬ ComparedWhole one ∧ ¬ ComparedWhole two := by
      rintro one two ⟨s, h, p, p', f, f', safe, safe', -⟩
      unfold ComparedWhole
      rw [f.urlPathIsSafe_eq, f'.urlPathIsSafe_eq, safe, safe']
      exact ⟨fun wrong => wrong.elim (f.noQuery_iff.mpr rfl) (by simp), fun wrong => wrong.elim (f'.noQuery_iff.mpr rfl) (by simp)⟩
    by_cases isWhole : ComparedWhole url <;> by_cases isWhole' : ComparedWhole url'
    · obtain ⟨isDigest, isValue⟩ := whole rfl isWhole
      obtain ⟨isDigest', isValue'⟩ := whole' rfl isWhole'
      rw [isDigest, isDigest', isValue, isValue']
      have digests : digest py (.text (shown (.text url'))) = digest py (.text (shown (.text url))) ↔
          url' = url ∨ Collide py (.text url) (.text url') := by
        rw [show shown (.text url') = url' from rfl, show shown (.text url) = url from rfl, digest_eq_iff isStr isStr']
        refine or_congr_left ⟨fun same => ?_, fun same => same ▸ Value.SameUnits.refl _⟩
        exact (utf16_injective (ascii form).isStr (ascii form').isStr (ascii form).unpaired (ascii form').unpaired same).symm
      constructor
      · rintro ⟨-, same, -⟩
        refine ⟨url, url', rfl, rfl, ?_⟩
        rcases digests.mp (same (by simp)) with same | collide
        · exact Or.inl same
        · exact Or.inr (Or.inl ⟨isWhole, isWhole', collide⟩)
      · rintro ⟨one, two, isOne, isTwo, narrower⟩
        cases isOne
        cases isTwo
        refine ⟨⟨rfl, rfl, rfl⟩, fun _ => digests.mpr ?_, by simp, by simp⟩
        rcases narrower with same | ⟨-, -, collide⟩ | below
        · exact Or.inl same
        · exact Or.inr collide
        · exact absurd isWhole (belowByPath below).1
    · rw [(whole rfl isWhole).1, (byPath' rfl isWhole').1]
      refine iff_of_false (by simp) ?_
      rintro ⟨one, two, isOne, isTwo, narrower⟩
      cases isOne
      cases isTwo
      rcases narrower with same | ⟨-, other, -⟩ | below
      · exact isWhole' (same ▸ isWhole)
      · exact isWhole' other
      · exact (belowByPath below).1 isWhole
    · rw [(byPath rfl isWhole).1, (whole' rfl isWhole').1]
      refine iff_of_false (by simp) ?_
      rintro ⟨one, two, isOne, isTwo, narrower⟩
      cases isOne
      cases isTwo
      rcases narrower with same | ⟨other, -⟩ | below
      · exact isWhole (same ▸ isWhole')
      · exact isWhole other
      · exact (belowByPath below).2 isWhole'
    · obtain ⟨isUnder, isValue⟩ := byPath rfl isWhole
      obtain ⟨isUnder', isValue'⟩ := byPath' rfl isWhole'
      rw [isUnder, isUnder', isValue, isValue']
      have within := urlWithin_iff_below form form' isWhole isWhole'
      constructor
      · rintro ⟨-, -, -, isBelow⟩
        rcases within.mp (isBelow rfl (by simp)) with same | below
        · exact ⟨url, url', rfl, rfl, Or.inl same⟩
        · exact ⟨url, url', rfl, rfl, Or.inr (Or.inr below)⟩
      · rintro ⟨one, two, isOne, isTwo, narrower⟩
        cases isOne
        cases isTwo
        refine ⟨⟨rfl, rfl, rfl⟩, by simp, by simp, fun _ _ => within.mpr ?_⟩
        rcases narrower with same | ⟨wrong, -⟩ | below
        · exact Or.inl same
        · exact absurd wrong isWhole
        · exact Or.inr below
  case host | project | repository =>
    obtain ⟨t, rfl⟩ := isText (by simp)
    obtain ⟨t', rfl⟩ := isText' (by simp)
    obtain ⟨isEqual, isValue⟩ := equal (by simp)
    obtain ⟨isEqual', isValue'⟩ := equal' (by simp)
    rw [isEqual, isEqual', isValue, isValue']
    show _ ↔ Value.text t' = Value.text t
    exact ⟨fun all => congrArg Value.text (all.2.1 (by simp)), fun same =>
      ⟨⟨rfl, rfl, rfl⟩, fun _ => congrArg shown same, by simp, by simp⟩⟩
  case text | integer | boolean =>
    obtain ⟨isDigest, isValue⟩ := digested (by simp)
    obtain ⟨isDigest', isValue'⟩ := digested' (by simp)
    rw [isDigest, isDigest', isValue, isValue']
    show _ ↔ Value.SameUnits own later ∨ Collide py own later
    rw [← digest_eq_iff isStr isStr']
    exact ⟨fun all => all.2.1 (by simp), fun same => ⟨⟨rfl, rfl, rfl⟩, fun _ => same, by simp, by simp⟩⟩
  case credentialHandle | workingSetRepository => exact absurd granted (by decide)

theorem Argument.unique {v w : Value} (isV : a.Argument name kind v) (isW : a.Argument name kind w) : v = w := by
  obtain ⟨-, -, -, inValues⟩ := isV
  obtain ⟨-, -, -, inValues'⟩ := isW
  have same := inj_on_of_nodup_map a.distinct inValues inValues' rfl
  rw [Prod.mk.injEq] at same
  exact same.2

theorem covers_iff : a.pattern.covers b.pattern = true ↔ Narrower Value.SameUnits a b := by
  obtain ⟨scope, isItem, toItem⟩ := a.items
  obtain ⟨scope', isItem', toItem'⟩ := b.items
  have theirs : ∀ {item other : GrantArgument}, item ∈ b.pattern.arguments → other ∈ b.pattern.arguments →
      item.name = other.name → item = other :=
    fun isIn isIn' named => inj_on_of_nodup_map b.pattern.distinct isIn isIn' named
  have mine : ∀ {item other : GrantArgument}, item ∈ a.pattern.arguments → other ∈ a.pattern.arguments →
      item.name = other.name → item = other :=
    fun isIn isIn' named => inj_on_of_nodup_map a.pattern.distinct isIn isIn' named
  rw [GrantPattern.covers_iff, scope, scope']
  constructor
  · rintro ⟨rank, names, covered⟩
    -- the argument of the later pattern with the name of one of the earlier
    have matching : ∀ {name : Text} {kind : ArgumentKind} {value : Value}, a.Argument name kind value →
        ∃ item other later, other ∈ b.pattern.arguments ∧ grantArgumentOf py name kind value = .ok item ∧
          other.name = name ∧ item.covers other = true ∧ b.Argument name kind later ∧
          grantArgumentOf py name kind later = .ok other := by
      intro name kind value isArgument
      obtain ⟨item, mem, made⟩ := toItem name kind value isArgument
      obtain ⟨other, member', named, isCovered⟩ := covered item mem
      obtain ⟨isName, isKind, -⟩ := grantArgumentOf_eq_ok made
      obtain ⟨⟨-, sameKind, -⟩, -⟩ := GrantArgument.covers_iff.mp isCovered
      obtain ⟨later, isLater, made'⟩ := isItem' other member'
      rw [named, sameKind, isName, isKind] at isLater made'
      exact ⟨item, other, later, member', made, named.trans isName, isCovered, isLater, made'⟩
    refine ⟨rank, fun name kind => ⟨?_, ?_⟩, fun name kind own later isOwn isLater => ?_⟩
    · rintro ⟨value, isArgument⟩
      obtain ⟨-, -, later, -, -, -, -, isLater, -⟩ := matching isArgument
      exact ⟨later, isLater⟩
    · rintro ⟨later, isLater⟩
      obtain ⟨other, member', made'⟩ := toItem' name kind later isLater
      obtain ⟨item, mem, named⟩ := names other member'
      obtain ⟨value, isArgument, made⟩ := isItem item mem
      obtain ⟨item', other', later', memberB, -, named', isCovered, isLater', madeB⟩ := matching isArgument
      obtain ⟨isName', isKind', -⟩ := grantArgumentOf_eq_ok made'
      obtain ⟨-, isKindB, -⟩ := grantArgumentOf_eq_ok madeB
      have same := theirs memberB member' (named'.trans named)
      rw [same] at isKindB
      rw [isKind'] at isKindB
      rw [← isKindB, named, isName'] at isArgument
      exact ⟨value, isArgument⟩
    · obtain ⟨item, other, later', memberB, made, named, isCovered, isLater', made'⟩ := matching isOwn
      obtain rfl := isLater.unique isLater'
      exact (item_covers_iff isOwn isLater made made').mp isCovered
  · rintro ⟨rank, arguments, values⟩
    refine ⟨rank, fun other member' => ?_, fun item mem => ?_⟩
    · obtain ⟨later, isLater, -⟩ := isItem' other member'
      obtain ⟨value, isArgument⟩ := (arguments _ _).mpr ⟨later, isLater⟩
      obtain ⟨item, mem, made⟩ := toItem _ _ _ isArgument
      exact ⟨item, mem, (grantArgumentOf_eq_ok made).1⟩
    · obtain ⟨value, isArgument, made⟩ := isItem item mem
      obtain ⟨later, isLater⟩ := (arguments _ _).mp ⟨value, isArgument⟩
      obtain ⟨other, member', made'⟩ := toItem' _ _ _ isLater
      exact ⟨other, member', (grantArgumentOf_eq_ok made').1,
        (item_covers_iff isArgument isLater made made').mpr (values _ _ _ _ isArgument isLater)⟩

theorem pattern_covers_refl (a : GrantedCall py) : a.pattern.covers a.pattern = true := by
  refine GrantPattern.covers_refl fun item mem => ?_
  obtain ⟨-, isItem, -⟩ := a.items
  obtain ⟨value, isArgument, made⟩ := isItem item mem
  obtain ⟨-, -, -, -, -, whole, byPath, equal, digested⟩ := grantArgumentOf_eq_ok made
  intro isUnder notPath
  by_cases isUrl : item.kind = .url
  · obtain ⟨url, -, -, -, -, rfl, -⟩ := isArgument.value_kind.2.1 isUrl
    by_cases isWhole : ComparedWhole (shown (.text url))
    · rw [(whole isUrl isWhole).1] at isUnder
      cases isUnder
    · rw [(byPath isUrl isWhole).2]
      exact fun mem => (not_or.mp isWhole).1 (mem_of_mem_rstrip mem)
  · by_cases isEqual : item.kind = .host ∨ item.kind = .project ∨ item.kind = .repository
    · rw [(equal isEqual).1] at isUnder
      cases isUnder
    · have isDigest : item.kind = .text ∨ item.kind = .integer ∨ item.kind = .boolean := by
        have granted := (grantArgumentOf_eq_ok made).2.2.2.1
        revert notPath isUrl isEqual granted
        generalize item.kind = kind
        cases kind <;> decide
      rw [(digested isDigest).1] at isUnder
      cases isUnder

theorem pattern_covers_trans (first : a.pattern.covers b.pattern = true) (second : b.pattern.covers c.pattern = true) :
    a.pattern.covers c.pattern = true := by
  refine GrantPattern.covers_trans (fun item mem => ?_) first second
  obtain ⟨-, isItem, -⟩ := a.items
  obtain ⟨value, -, made⟩ := isItem item mem
  exact (grantArgumentOf_eq_ok made).2.2.1

/-- The later call is the same or narrower but for a text argument that is not the granted one, and has its UTF-16
code units. -/
def Respelled (a b : GrantedCall py) : Prop :=
  Narrower Value.SameUnits a b ∧
    ∃ name t u, a.Argument name .text (.text t) ∧ b.Argument name .text (.text u) ∧ t ≠ u ∧ utf16 t = utf16 u

theorem Argument.kind_of_text {t : Text} (isArgument : a.Argument name kind (.text t)) :
    kind ≠ .integer ∧ kind ≠ .boolean := by
  obtain ⟨argument, declared, rfl, inValues⟩ := isArgument
  obtain ⟨other, raw, target, declared', parsed⟩ := (parseArguments_values a.accepted).2 _ inValues
  have same := inj_on_of_nodup_map a.spec.distinct declared declared' rfl
  rw [Prod.mk.injEq] at same
  rw [← same.2] at parsed
  constructor
  · intro kind
    unfold parseValue at parsed
    rw [kind] at parsed
    cases raw
    case integer n =>
      dsimp only at parsed
      split_ifs at parsed
      cases parsed
    all_goals cases parsed
  · intro kind
    unfold parseValue at parsed
    rw [kind] at parsed
    cases raw <;> cases parsed

theorem narrower_of_not_respelled (narrower : Narrower Value.SameUnits a b) (notRespelled : ¬ a.Respelled b) :
    Narrower (· = ·) a b := by
  refine ⟨narrower.scope, narrower.arguments, fun name kind own later isOwn isLater => ?_⟩
  have values := narrower.values name kind own later isOwn isLater
  have byDigest : Value.SameUnits own later ∨ Collide py own later →
      kind ≠ .path ∧ kind ≠ .url ∧ kind ≠ .host ∧ kind ≠ .project ∧ kind ≠ .repository ∧ kind ≠ .credentialHandle ∧
        kind ≠ .workingSetRepository → own = later ∨ Collide py own later := by
    rintro (same | collide) ⟨notPath, notUrl, notHost, notProject, notRepository, notHandle, notWorkingSet⟩
    · refine Or.inl ?_
      cases own with
      | text t =>
        cases later with
        | text u =>
          by_contra apart
          obtain ⟨notInteger, notBoolean⟩ := isOwn.kind_of_text
          have isText : kind = .text := by cases kind <;> first | rfl | contradiction
          subst isText
          exact notRespelled ⟨narrower, name, t, u, isOwn, isLater, fun isSame => apart (congrArg Value.text isSame), same⟩
        | integer n => cases same
        | boolean b => cases same
      | integer n => exact same
      | boolean b => exact same
    · exact Or.inr collide
  cases kind
  case path | url | host | project | repository => exact values
  case text | integer | boolean => exact byDigest values (by decide)
  case credentialHandle | workingSetRepository =>
    obtain ⟨item, -, made⟩ := a.items.2.2 _ _ _ isOwn
    exact absurd (grantArgumentOf_eq_ok made).2.2.2.1 (by decide)

theorem not_respelled_of_unpaired (unpaired : a.Unpaired) (unpaired' : b.Unpaired) : ¬ a.Respelled b := by
  rintro ⟨-, name, t, u, isT, isU, apart, same⟩
  obtain ⟨-, -, -, strT⟩ := isT.value_kind
  obtain ⟨-, -, -, strU⟩ := isU.value_kind
  obtain ⟨-, -, -, inA⟩ := isT
  obtain ⟨-, -, -, inB⟩ := isU
  exact apart (utf16_injective strT strU (unpaired name t inA) (unpaired' name u inB) same)

end GrantedCall

open GrantedCall in
/-- **A grant covers the same or narrower calls only.** The patterns that were built are ordered by what they cover,
and what is covered is the same or narrower exactly where no text argument is respelled. -/
theorem covers_narrower_iff (py : Platform) :
    (∀ a : GrantedCall py, a.pattern.covers a.pattern = true) ∧
    (∀ a b c : GrantedCall py, a.pattern.covers b.pattern = true → b.pattern.covers c.pattern = true →
      a.pattern.covers c.pattern = true) ∧
    ∀ a b : GrantedCall py, ((a.pattern.covers b.pattern = true → Narrower (· = ·) a b) ↔ ¬ a.Respelled b) ∧
      (a.Unpaired → b.Unpaired → ¬ a.Respelled b) := by
  refine ⟨pattern_covers_refl, fun _ _ _ => pattern_covers_trans, fun a b => ⟨⟨?_, ?_⟩, not_respelled_of_unpaired⟩⟩
  · rintro only ⟨narrower, name, t, u, isT, isU, apart, same⟩
    have exactly := (only (GrantedCall.covers_iff.mpr narrower)).values name .text _ _ isT isU
    rcases exactly with isSame | ⟨texts, -⟩
    · exact apart (Value.text.inj isSame)
    · exact texts (Value.SameUnits.jsonValue_eq same)
  · exact fun notRespelled covered => narrower_of_not_respelled (GrantedCall.covers_iff.mp covered) notRespelled

/-- A grant for one note covers a call with another. -/
theorem note_covered : ∃ a b : GrantedCall .surrogates,
    a.pattern.covers b.pattern = true ∧ ¬ GrantedCall.Narrower (· = ·) a b := by
  obtain ⟨context, bound⟩ := notes_bound
  have granted : ∀ t ∈ [[0x10000], [0xD800, 0xDC00]], ∃ a : GrantedCall .surrogates, a.status = .inScope ∧
      ∀ name kind value, a.Argument name kind value ↔ name = lit "note" ∧ kind = .text ∧ value = .text t := by
    have each : ∀ t ∈ [[0x10000], [0xD800, 0xDC00]],
        (grantPatternOf .surrogates noteTool [(lit "note", .text t)] .inScope .approval).toOption.any Option.isSome = true := by
      decide
    intro t isNote
    obtain ⟨call, spec, -, values⟩ := bound t isNote
    obtain ⟨pattern, isBuilt, isSome⟩ := exists_of_toOption_any (each t isNote)
    obtain ⟨pattern, rfl⟩ := Option.isSome_iff_exists.mp isSome
    refine ⟨⟨call, .inScope, .approval, pattern, by rw [spec, values, isBuilt]⟩, rfl, fun name kind value => ⟨?_, ?_⟩⟩
    · rintro ⟨argument, declared, rfl, inValues⟩
      change _ ∈ call.parsed.values at inValues
      change _ ∈ call.spec.arguments at declared
      rw [values, mem_singleton, Prod.mk.injEq] at inValues
      rw [spec] at declared
      cases mem_singleton.mp (show (name, argument) ∈ [(lit "note", ({ kind := .text } : ArgumentSpec))] from declared)
      exact ⟨rfl, rfl, inValues.2⟩
    · rintro ⟨rfl, rfl, rfl⟩
      refine ⟨{ kind := .text }, ?_, rfl, ?_⟩
      · show _ ∈ call.spec.arguments
        rw [spec]
        exact mem_singleton.mpr rfl
      · show _ ∈ call.parsed.values
        rw [values]
        exact mem_singleton.mpr rfl
  obtain ⟨a, status, arguments⟩ := granted [0x10000] (by decide)
  obtain ⟨b, status', arguments'⟩ := granted [0xD800, 0xDC00] (by decide)
  have sameUnits : utf16 [0x10000] = utf16 [0xD800, 0xDC00] := by decide
  refine ⟨a, b, GrantedCall.covers_iff.mpr ⟨(status.trans status'.symm) ▸ le_rfl, fun name kind => ?_, ?_⟩, fun narrower => ?_⟩
  · simp only [arguments, arguments', exists_and_left, exists_eq]
  · intro name kind own later isOwn isLater
    obtain ⟨rfl, rfl, rfl⟩ := (arguments _ _ _).mp isOwn
    obtain ⟨-, -, rfl⟩ := (arguments' _ _ _).mp isLater
    exact Or.inl sameUnits
  · rcases narrower.values _ _ _ _ ((arguments _ _ _).mpr ⟨rfl, rfl, rfl⟩) ((arguments' _ _ _).mpr ⟨rfl, rfl, rfl⟩) with
      same | ⟨texts, -⟩
    · cases same
    · exact texts (Value.SameUnits.jsonValue_eq sameUnits)

end PawBackend.Tools
