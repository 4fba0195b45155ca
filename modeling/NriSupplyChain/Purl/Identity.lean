import NriSupplyChain.Purl.Pieces

/-!
The key that packages are compared by. It joins the type, the namespace and the
name, each in lower case. The type ends at the first slash of the key, but a
namespace and a name may both hold slashes, so the key does not always tell them
apart.
-/

namespace NriSupplyChain.Purl

open NriSupplyChain.Lib

variable {charset : Charset}

section types

/-- The type of a parsed package URL: valid and in lower case. -/
structure Canonical (charset : Charset) (typ : Text) : Prop where
  valid : validType typ = true
  lowered : charset.lower typ = typ

variable {typ : Text}

theorem Canonical.no_slash (h : Canonical charset typ) : '/' ∉ typ := by
  intro hmem
  rcases validWord_chars h.valid '/' hmem with hstart | hdigit
  · exact absurd hstart (by decide)
  · exact absurd hdigit (by decide)

theorem Canonical.ne_nil (h : Canonical charset typ) : typ ≠ [] := by
  rintro rfl
  cases h.valid

theorem Canonical.toLowerASCII_eq (h : Canonical charset typ) : toLowerASCII typ = typ := by
  rw [← lower_validType charset h.valid, h.lowered]

theorem Canonical.isPathChar (h : Canonical charset typ) : ∀ c ∈ typ, isPathChar c = true := by
  intro c hc
  have hnot : ∀ d, isWordStart '+' d = false → d.isDigit = false → c ≠ d := by
    rintro d hstart hdigit rfl
    rcases validWord_chars h.valid c hc with hbad | hbad
    · rw [hstart] at hbad
      cases hbad
    · rw [hdigit] at hbad
      cases hbad
  have hquestion := hnot '?' (by decide) (by decide)
  have hhash := hnot '#' (by decide) (by decide)
  simp [Purl.isPathChar, hquestion, hhash]

theorem canonical_of_normalForm {p normed : PackageURL} (h : normalForm charset p = some normed) :
    Canonical charset normed.typ := by
  obtain ⟨hvalid, -, -, htyp, -⟩ := normalForm_eq_some h
  refine ⟨hvalid, ?_⟩
  rw [htyp, charset.lower_lower]

theorem parse_canonical {raw : Text} {p : PackageURL} (h : parse charset raw = some p) :
    Canonical charset p.typ := by
  rw [parse_eq] at h
  obtain ⟨parts, -, hread⟩ := Option.bind_eq_some_iff.mp h
  obtain ⟨_, _, _, _, _, _, _, hnormal, _⟩ := read_eq_some hread
  exact canonical_of_normalForm hnormal

end types

section names

/-- The name that packages of a type are compared by. -/
def comparedName (charset : Charset) (typ name : Text) : Text :=
  charset.lower (normalizeName charset typ name)

theorem normalizeName_eq {typ : Text} (h : Canonical charset typ) (name : Text) :
    normalizeName charset typ name =
      if typ = typePyPI then joinSeparators false false (charset.lower name) else name := by
  have hpypi : isAscii typePyPI := fun c hc =>
    of_decide_eq_true (List.all_eq_true.mp
      (by decide : typePyPI.all (fun c => decide (c.toNat < 128)) = true) c hc)
  have hlowered : typePyPI.map Char.toLower = typePyPI := by decide
  have hsame : typ.map Char.toLower = typ := h.toLowerASCII_eq
  unfold normalizeName
  rw [charset.equalFold_ascii typ typePyPI (validWord_ascii (by decide) h.valid) hpypi, hlowered,
    hsame]
  by_cases htyp : typ = typePyPI <;> simp [htyp]

def dashed (text : Text) : Text :=
  text.map fun c => if c = '_' then '-' else c

theorem joinSeparators_dashed (separator started : Bool) (text : Text) :
    joinSeparators separator started (dashed text) = joinSeparators separator started text := by
  induction text generalizing separator started with
  | nil => rfl
  | cons c rest ih =>
    unfold dashed at ih ⊢
    by_cases hc : c = '_' <;> simp [joinSeparators, hc, ih]

theorem dashed_of_not_mem {text : Text} (h : '_' ∉ text) : dashed text = text := by
  have hsame : ∀ c ∈ text, (if c = '_' then '-' else c) = id c := by
    intro c hc
    apply if_neg
    rintro rfl
    exact h hc
  unfold dashed
  rw [List.map_congr_left hsame, List.map_id]

/-- Underscores are lowered to underscores, and nothing else is. -/
theorem lower_dashed (text : Text) : charset.lower (dashed text) = dashed (charset.lower text) := by
  induction hlen : text.length using Nat.strong_induction_on generalizing text with
  | _ n ih =>
    obtain ⟨run, rest, rfl, hrun, hrest⟩ := Charset.foreign_run text
    have hno : '_' ∉ run := by
      intro hmem
      exact absurd (hrun '_' hmem) (by decide)
    have hlower : '_' ∉ charset.lower run := by
      intro hmem
      exact hno (charset.mem_of_mem_lower (by decide) (by decide) hmem)
    rcases hrest with rfl | ⟨c, tail, rfl, hc⟩
    · rw [List.append_nil, dashed_of_not_mem hno, dashed_of_not_mem hlower]
    · have htail : charset.lower (dashed tail) = dashed (charset.lower tail) := by
        apply ih tail.length _ tail rfl
        rw [← hlen, List.length_append, List.length_cons]
        omega
      have hsplit : dashed (run ++ c :: tail) =
          dashed run ++ (if c = '_' then '-' else c) :: dashed tail := List.map_append
      have hsplit' : dashed (charset.lower run ++ c.toLower :: charset.lower tail) =
          dashed (charset.lower run) ++ (if c.toLower = '_' then '-' else c.toLower) ::
            dashed (charset.lower tail) := List.map_append
      have hchar : (if c = '_' then '-' else c).toNat < 128 ∧
          (if c = '_' then '-' else c).toLower = if c.toLower = '_' then '-' else c.toLower :=
        ascii_induction (P := fun c => (if c = '_' then '-' else c).toNat < 128 ∧
          (if c = '_' then '-' else c).toLower = if c.toLower = '_' then '-' else c.toLower)
          (by decide) hc
      rw [hsplit, charset.lower_ascii _ _ _ hchar.1, charset.lower_ascii _ _ _ hc, hsplit',
        dashed_of_not_mem hno, dashed_of_not_mem hlower, htail, hchar.2]

/-- The adjustments of a name do not change what it is compared by. -/
theorem comparedName_adjusted {typ : Text} (h : Canonical charset typ) (name : Text)
    (qualifiers : List (Text × Text)) :
    comparedName charset typ (typeAdjustName charset typ name qualifiers) =
      comparedName charset typ name := by
  have hlower : ∀ text, comparedName charset typ (charset.lower text) =
      comparedName charset typ text := by
    intro text
    unfold comparedName
    rw [normalizeName_eq h, normalizeName_eq h, charset.lower_lower]
    split
    · rfl
    · exact charset.lower_lower text
  unfold typeAdjustName
  split
  · exact hlower name
  · split
    · next hpypi =>
      unfold comparedName
      rw [normalizeName_eq h, normalizeName_eq h, if_pos hpypi, if_pos hpypi, charset.lower_lower]
      change charset.lower (joinSeparators _ _ (charset.lower (dashed name))) = _
      rw [lower_dashed, joinSeparators_dashed]
    · split
      · unfold adjustMlflowName
        split
        · split
          · exact hlower name
          · rfl
        · rfl
      · rfl

theorem lower_adjustedNamespace (typ ns : Text) :
    charset.lower (typeAdjustNamespace charset typ ns) = charset.lower ns := by
  unfold typeAdjustNamespace
  split
  · exact charset.lower_lower ns
  · rfl

theorem trimSlashes_idem (text : Text) : trimSlashes (trimSlashes text) = trimSlashes text := by
  have hdrop : (trimSlashes text).dropWhile (· = '/') = trimSlashes text := by
    rw [List.dropWhile_eq_self_iff]
    intro hlen hslash
    have hpre : trimSlashes text <+: text.dropWhile (· = '/') := List.rdropWhile_prefix _ _
    have hget := hpre.getElem hlen
    have hpos : 0 < (text.dropWhile (· = '/')).length := hlen.trans_le hpre.length_le
    have hnot := List.dropWhile_get_zero_not (fun c => decide (c = '/')) text hpos
    rw [hget] at hslash
    exact hnot hslash
  unfold trimSlashes at hdrop ⊢
  rw [hdrop, List.rdropWhile_idempotent]

/-- What a key says about the namespace and the name. -/
def keyPath (charset : Charset) (typ ns name : Text) : Text :=
  charset.lower ns ++ '/' :: comparedName charset typ name

theorem key_eq (p : PackageURL) (h : Canonical charset p.typ) :
    key charset p = p.typ ++ '/' :: keyPath charset p.typ p.ns p.name := by
  have hslash : ('/' : Char).toNat < 128 := by decide
  have hlower : ('/' : Char).toLower = '/' := by decide
  unfold key
  rw [List.append_assoc, List.cons_append, charset.lower_ascii _ _ _ hslash,
    charset.lower_ascii _ _ _ hslash, hlower, h.lowered]
  rfl

theorem key_congr {p q : PackageURL} (hp : Canonical charset p.typ) (htyp : p.typ = q.typ)
    (hpath : keyPath charset p.typ p.ns p.name = keyPath charset q.typ q.ns q.name) :
    key charset p = key charset q := by
  have hq : Canonical charset q.typ := htyp ▸ hp
  rw [key_eq p hp, key_eq q hq, hpath, htyp]

/-- Packages with the same key have the same type. -/
theorem key_inj {p q : PackageURL} (hp : Canonical charset p.typ) (hq : Canonical charset q.typ)
    (h : key charset p = key charset q) :
    p.typ = q.typ ∧ keyPath charset p.typ p.ns p.name = keyPath charset q.typ q.ns q.name := by
  rw [key_eq p hp, key_eq q hq] at h
  have hcut := congrArg (cut '/') h
  rw [cut_append hp.no_slash, cut_append hq.no_slash] at hcut
  exact Prod.mk.inj (Option.some.inj hcut)

end names

section rendering

/-- The characters that stand for themselves inside a segment. -/
def isSegmentChar (c : Char) : Bool :=
  c ≠ '%' && c ≠ '/' && c ≠ '@' && c ≠ '?' && c ≠ '#'

def quote (text : Text) : Text :=
  escapeWith isSegmentChar text

/-- A package URL for any namespace and name of a type. -/
def render (typ ns name : Text) : Text :=
  scheme ++ typ ++ '/' :: ((if ns = [] then [] else quote ns ++ ['/']) ++ quote name)

theorem pathUnescape_quote (text : Text) : pathUnescape (quote text) = some text := by
  apply pathUnescape_escapeWith rfl
  intro c _
  by_cases hc : c.toNat < 128
  · right
    omega
  · left
    have hne : ∀ d : Char, d.toNat < 128 → c ≠ d := by
      rintro d hd rfl
      exact hc hd
    simp [isSegmentChar, hne '%' (by decide), hne '/' (by decide), hne '@' (by decide),
      hne '?' (by decide), hne '#' (by decide)]

variable {c : Char}

theorem not_mem_quote (hsegment : isSegmentChar c = false) (hescape : isEscapeChar c = false)
    (text : Text) : c ∉ quote text :=
  not_mem_escapeWith hsegment hescape text

theorem quote_ne_nil {text : Text} (h : text ≠ []) : quote text ≠ [] :=
  escapeWith_ne_nil h

theorem not_mem_namespace (hslash : c ≠ '/') (hsegment : isSegmentChar c = false)
    (hescape : isEscapeChar c = false) (ns : Text) :
    c ∉ if ns = [] then [] else quote ns ++ ['/'] := by
  split
  · exact List.not_mem_nil
  · simp [hslash, not_mem_quote hsegment hescape]

theorem rightmostSplit_rendered (ns name : Text) :
    rightmostSplit ((if ns = [] then [] else quote ns ++ ['/']) ++ quote name) '/' =
      (quote ns, quote name) := by
  have hno : '/' ∉ quote name := not_mem_quote (by decide) (by decide) name
  unfold rightmostSplit
  split
  · next hnil =>
    rw [List.nil_append, cutLast_eq_none_iff.mpr hno, hnil]
    rfl
  · rw [List.append_assoc, List.singleton_append, cutLast_append '/' _ hno]
    rfl

theorem segments_rendered (ns : Text) :
    (((quote ns).splitOn '/').filter (· ≠ [])).mapM pathUnescape =
      some (if ns = [] then [] else [ns]) := by
  have hno : ∀ segment ∈ [quote ns], '/' ∉ segment := by
    intro segment hmem
    rw [List.mem_singleton.mp hmem]
    exact not_mem_quote (by decide) (by decide) ns
  have hsplit : (quote ns).splitOn '/' = [quote ns] := by
    have hone := List.splitOn_intercalate '/' hno (by simp)
    rwa [List.intercalate_singleton] at hone
  rw [hsplit]
  by_cases hns : ns = []
  · rw [if_pos hns, hns]
    rfl
  · have hquote : quote ns ≠ [] := quote_ne_nil hns
    rw [if_neg hns]
    simp [hquote, pathUnescape_quote]

variable {name : Text}

theorem split_rendered {ns : Text} (hname : name ≠ []) :
    splitNamespaceNameVersion ((if ns = [] then [] else quote ns ++ ['/']) ++ quote name) =
      some (ns, name, []) := by
  have hat : '@' ∉ (if ns = [] then [] else quote ns ++ ['/']) ++ quote name := by
    rw [List.mem_append, not_or]
    exact ⟨not_mem_namespace (by decide) (by decide) (by decide) ns,
      not_mem_quote (by decide) (by decide) name⟩
  have hcut : versionCut ((if ns = [] then [] else quote ns ++ ['/']) ++ quote name) = none := by
    unfold versionCut
    rw [cutLast_eq_none_iff.mpr hat]
    rfl
  unfold splitNamespaceNameVersion
  rw [hcut]
  dsimp only [Option.getD_none]
  rw [rightmostSplit_rendered]
  dsimp only
  rw [segments_rendered, pathUnescape_quote]
  by_cases hns : ns = [] <;> simp [hns, hname, pathUnescape]

/-- A path without a version or slashes around it is left as it is. -/
theorem stripPath_plain {before : Text} (hat : '@' ∉ before ++ name) (hname : name ≠ [])
    (hslash : '/' ∉ name) (hhead : (before ++ name).head? ≠ some '/') :
    stripPath (before ++ name) = before ++ name := by
  have hdrop : (before ++ name).dropWhile (· = '/') = before ++ name := by
    cases hall : before ++ name with
    | nil => rfl
    | cons c rest =>
      rw [hall] at hhead
      have hc : c ≠ '/' := fun heq => hhead (by rw [heq]; rfl)
      simp [hc]
  have hcut : versionCut (before ++ name) = none := by
    unfold versionCut
    rw [cutLast_eq_none_iff.mpr hat]
    rfl
  have hend : name.rdropWhile (· = '/') = name := by
    rw [List.rdropWhile_eq_self_iff]
    intro hne hlast
    apply hslash
    rw [← of_decide_eq_true hlast]
    exact List.getLast_mem hne
  rw [stripPath_of_none (by rw [hdrop]; exact hcut), hdrop,
    rdropWhile_append_of_ne_nil (by rw [hend]; exact hname), hend]

variable {typ : Text}

theorem adjustedName_ne_nil (h : name ≠ []) (qualifiers : List (Text × Text)) :
    typeAdjustName charset typ name qualifiers ≠ [] := by
  have hlower : charset.lower name ≠ [] := charset.lower_ne_nil name h
  unfold typeAdjustName
  split
  · exact hlower
  · split
    · apply charset.lower_ne_nil
      intro hnil
      exact h (List.map_eq_nil_iff.mp hnil)
    · split
      · unfold adjustMlflowName
        split
        · split
          · exact hlower
          · exact h
        · exact h
      · exact h

theorem head_rendered {ns : Text} (hname : name ≠ []) (hsegment : isSegmentChar c = false)
    (hescape : isEscapeChar c = false) :
    ((if ns = [] then [] else quote ns ++ ['/']) ++ quote name).head? ≠ some c := by
  have hhead : ∀ {text rest : Text}, text ≠ [] → (quote text ++ rest).head? ≠ some c := by
    intro text rest hne hsome
    apply not_mem_quote hsegment hescape text
    cases hquote : quote text with
    | nil => exact absurd hquote (quote_ne_nil hne)
    | cons d tail =>
      rw [hquote] at hsome
      rw [← Option.some.inj hsome]
      exact List.mem_cons_self
  split
  · rw [List.nil_append, ← List.append_nil (quote name)]
    exact hhead hname
  · next hns =>
    rw [List.append_assoc]
    exact hhead hns

theorem isPathChar_rendered (ns name : Text) :
    ∀ c ∈ (if ns = [] then [] else quote ns ++ ['/']) ++ quote name, isPathChar c = true := by
  intro c hc
  have hnot : ∀ d, d ≠ '/' → isSegmentChar d = false → isEscapeChar d = false → c ≠ d := by
    rintro d hslash hsegment hescape rfl
    rcases List.mem_append.mp hc with hc | hc
    · exact not_mem_namespace hslash hsegment hescape ns hc
    · exact not_mem_quote hsegment hescape name hc
  have hquestion := hnot '?' (by decide) (by decide) (by decide)
  have hhash := hnot '#' (by decide) (by decide) (by decide)
  simp [isPathChar, hquestion, hhash]

/-- The canonical form of a package URL without qualifiers and subpath. -/
theorem normalForm_plain (h : Canonical charset typ) (hname : name ≠ []) (ns version : Text) :
    normalForm charset ⟨typ, ns, name, version, [], []⟩ =
      some ⟨typ, typeAdjustNamespace charset typ (trimSlashes ns),
        typeAdjustName charset typ name [], typeAdjustVersion charset typ version, [], []⟩ := by
  have hqual : normalizeQualifiers [] = some [] := by decide
  have hsub : validSubpath [] = true := by decide
  unfold normalForm
  simp only [h.lowered, h.valid, hqual, hname, hsub, guard_true, Option.pure_def,
    Option.bind_eq_bind, Option.bind_some, ne_eq, not_false_eq_true]
  rfl

theorem parseQualifiers_nil : parseQualifiers charset [] = some [] := by
  simp [parseQualifiers, parseQualifier]

/-- A rendered package URL parses to what it was rendered from. -/
theorem parse_render (h : Canonical charset typ) (ns : Text) (hname : name ≠ []) :
    parse charset (render typ ns name) =
      some ⟨typ, typeAdjustNamespace charset typ (trimSlashes ns),
      typeAdjustName charset typ name [], typeAdjustVersion charset typ [], [], []⟩ := by
  generalize hpath : (if ns = [] then [] else quote ns ++ ['/']) ++ quote name = path
  have hchars : ∀ c ∈ typ ++ '/' :: path, isPathChar c = true := by
    intro c hc
    rw [List.mem_append, List.mem_cons] at hc
    rcases hc with hc | rfl | hc
    · exact h.isPathChar c hc
    · decide
    · rw [← hpath] at hc
      exact isPathChar_rendered ns name c hc
  have hstrip : stripPath path = path := by
    rw [← hpath]
    apply stripPath_plain
    · rw [List.mem_append, not_or]
      exact ⟨not_mem_namespace (by decide) (by decide) (by decide) ns,
        not_mem_quote (by decide) (by decide) name⟩
    · exact quote_ne_nil hname
    · exact not_mem_quote (by decide) (by decide) name
    · exact head_rendered hname (by decide) (by decide)
  have hne : stripPath path ≠ [] := by
    rw [hstrip, ← hpath]
    simp [quote_ne_nil hname]
  have hat : path.head? ≠ some '@' := by
    rw [← hpath]
    exact head_rendered hname (by decide) (by decide)
  have hpieces : pieces charset (scheme ++ typ ++ '/' :: path ++ []) =
      some ⟨typ, stripPath path, [], []⟩ :=
    pieces_append h.ne_nil h.no_slash hchars (by simp) hne
  have hsplit : splitNamespaceNameVersion path = some (ns, name, []) := by
    rw [← hpath]
    exact split_rendered hname
  have hsub : percentDecodeSubpath [] = some [] := by decide
  rw [List.append_nil, hstrip] at hpieces
  rw [parse_eq, render, hpath, hpieces]
  change Pieces.read charset _ = _
  unfold Pieces.read
  simp only [hsub, parseQualifiers_nil, h.toLowerASCII_eq, separate_plain hat, hsplit,
    normalForm_plain h hname, Option.bind_eq_bind, Option.bind_some]
  have hpattern : typePattern typ = true := h.valid
  simp [hpattern, hat, h.ne_nil, adjustedName_ne_nil hname]

end rendering

section upstream

variable {q : Text × Text}

theorem parseQualifier_eq_some {text : Text} {part : List (Text × Text)}
    (h : parseQualifier charset text = some part) (hq : q ∈ part) :
    q.1 = charset.lower (cutOr '=' text).1 ∧ validQualifierKey q.1 = true ∧
      pathUnescape (cutOr '=' text).2 = some q.2 := by
  unfold parseQualifier at h
  simp only [Option.bind_eq_bind, Option.bind_eq_some_iff, Option.guard_eq_some'] at h
  obtain ⟨_, _, h⟩ := h
  split at h
  · cases h
    cases hq
  · simp only [Option.bind_eq_some_iff, Option.guard_eq_some'] at h
    obtain ⟨_, hvalid, value, hvalue, hpart⟩ := h
    cases hpart
    cases List.mem_singleton.mp hq
    exact ⟨rfl, hvalid, hvalue⟩

/-- A qualifier that has a value stands in the query, behind a separator. -/
theorem mem_parseQualifiers {rawQuery : Text} {qualifiers : List (Text × Text)}
    (h : parseQualifiers charset rawQuery = some qualifiers) (hq : q ∈ qualifiers)
    (hvalue : q.2 ≠ []) :
    validQualifierKey q.1 = true ∧ ∃ written before behind, charset.lower written = q.1 ∧
      '&' :: rawQuery = before ++ '&' :: written ++ '=' :: behind := by
  obtain ⟨parts, hparts, rfl⟩ := Option.map_eq_some_iff.mp h
  obtain ⟨part, hpart, hmem⟩ := List.mem_flatten.mp hq
  obtain ⟨text, htext, hparse⟩ := mem_of_mapM_eq_some hparts hpart
  obtain ⟨before, behind, hquery⟩ := mem_splitOn htext
  obtain ⟨hkey, hvalid, hdecoded⟩ := parseQualifier_eq_some hparse hmem
  have hne : (cutOr '=' text).2 ≠ [] := by
    intro hnil
    rw [hnil] at hdecoded
    exact hvalue (Option.some.inj hdecoded).symm
  refine ⟨hvalid, (cutOr '=' text).1, before, (cutOr '=' text).2 ++ behind, hkey.symm, ?_⟩
  rw [cutOr_snd_ne_nil hne] at hquery
  rw [hquery]
  simp

theorem mem_normalizeQualifiers {qualifiers normed : List (Text × Text)}
    (h : normalizeQualifiers qualifiers = some normed) (hq : q ∈ normed) :
    ∃ written ∈ qualifiers, written.2 ≠ [] ∧ q = (toLowerASCII written.1, written.2) := by
  unfold normalizeQualifiers at h
  simp only [Option.bind_eq_bind, Option.bind_eq_some_iff, Option.guard_eq_some'] at h
  obtain ⟨_, _, _, _, _, _, hnormed⟩ := h
  cases hnormed
  obtain ⟨written, hmem, rfl⟩ := List.mem_map.mp hq
  obtain ⟨hwritten, hvalue⟩ := List.mem_filter.mp hmem
  exact ⟨written, hwritten, of_decide_eq_true hvalue, rfl⟩

variable {raw : Text}

/-- The query is a part of the package URL, behind a question mark. -/
theorem rawQuery_in_raw {parts : Pieces} (h : pieces charset raw = some parts)
    (hne : parts.rawQuery ≠ []) :
    ∃ before behind, raw = before ++ '?' :: parts.rawQuery ++ behind := by
  obtain ⟨_, path, _, _, _, _, hquery⟩ := pieces_eq_some h
  generalize hsuffix : (body raw).dropWhile isPathChar = suffix at hquery
  rw [hquery] at hne ⊢
  have htail : suffix <:+ raw := by
    have hbody : body raw <:+ raw :=
      (List.dropWhile_suffix _).trans (List.drop_suffix _ _)
    rw [← hsuffix]
    exact (List.dropWhile_suffix _).trans hbody
  obtain ⟨start, hstart⟩ := htail
  obtain ⟨fragment, hfragment⟩ := cutOr_fst_prefix '#' suffix
  refine ⟨start ++ (cutOr '?' (cutOr '#' suffix).1).1, fragment, ?_⟩
  have hcut := cutOr_snd_ne_nil hne
  calc raw = start ++ suffix := hstart.symm
    _ = start ++ ((cutOr '#' suffix).1 ++ fragment) := by rw [hfragment]
    _ = start ++ (((cutOr '?' (cutOr '#' suffix).1).1 ++
          '?' :: (cutOr '?' (cutOr '#' suffix).1).2) ++ fragment) := by rw [← hcut]
    _ = _ := by simp

variable {p : PackageURL}

/-- A qualifier of a parsed package URL is visible in the text in lower case. -/
theorem qualifier_in_lower (h : parse charset raw = some p) (hq : q ∈ p.qualifiers) :
    q.1 ++ ['='] <:+: charset.lower raw := by
  rw [parse_eq] at h
  obtain ⟨parts, hpieces, hread⟩ := Option.bind_eq_some_iff.mp h
  obtain ⟨_, qualifiers, _, _, _, hqual, _, hnormal, _⟩ := read_eq_some hread
  obtain ⟨_, hnormed, _⟩ := normalForm_eq_some hnormal
  obtain ⟨written, hwritten, hvalue, rfl⟩ := mem_normalizeQualifiers hnormed hq
  obtain ⟨hvalid, name, before, behind, hname, hquery⟩ :=
    mem_parseQualifiers hqual hwritten hvalue
  have hsame : toLowerASCII written.1 = charset.lower name := by
    have hascii : isAscii written.1 := validWord_ascii (by decide) hvalid
    rw [← charset.lower_lower, hname]
    exact (charset.lower_of_ascii hascii).symm
  have hne : parts.rawQuery ≠ [] := by
    intro hnil
    rw [hnil] at hquery
    have hlen := congrArg List.length hquery
    simp at hlen
    omega
  obtain ⟨start, tail, hraw⟩ := rawQuery_in_raw hpieces hne
  -- The separator before the qualifier is the question mark or an ampersand.
  have hsep : ∃ before sep behind, sep.toNat < 128 ∧
      raw = before ++ sep :: (name ++ '=' :: behind) := by
    cases before with
    | nil =>
      have hrest : parts.rawQuery = name ++ '=' :: behind := by simpa using hquery
      refine ⟨start, '?', behind ++ tail, by decide, ?_⟩
      rw [hraw, hrest]
      simp
    | cons c rest =>
      have hrest : parts.rawQuery = rest ++ '&' :: (name ++ '=' :: behind) := by
        have htail := congrArg List.tail hquery
        simpa using htail
      refine ⟨start ++ '?' :: rest, '&', behind ++ tail, by decide, ?_⟩
      rw [hraw, hrest]
      simp
  obtain ⟨before, sep, behind, hascii, rfl⟩ := hsep
  have hequals : ('=' : Char).toNat < 128 := by decide
  rw [charset.lower_ascii _ _ _ hascii, charset.lower_ascii _ _ _ hequals, hsame]
  refine ⟨charset.lower before ++ [sep.toLower], charset.lower behind, ?_⟩
  have hlower : ('=' : Char).toLower = '=' := by decide
  simp [hlower]

theorem upstream_qualifier {source : Text × Text} (h : upstream charset p = some source) :
    ∃ value, p.qualifiers.lookup qualifierUpstream = some value := by
  cases hlookup : p.qualifiers.lookup qualifierUpstream with
  | some value => exact ⟨value, rfl⟩
  | none =>
    have hnil : charset.trimSpace [] = [] := charset.trimSpace_ascii [] (by simp [isAscii])
    unfold upstream at h
    rw [hlookup] at h
    simp [hnil] at h

/-- A package with an upstream package says so in its text. -/
theorem upstreamKey_visible (h : parse charset raw = some p) {source : Text × Text}
    (hsource : upstreamKey charset p = some source) :
    qualifierUpstream ++ ['='] <:+: charset.lower raw := by
  unfold upstreamKey at hsource
  obtain ⟨named, hup, -⟩ := Option.bind_eq_some_iff.mp hsource
  obtain ⟨value, hlookup⟩ := upstream_qualifier hup
  obtain ⟨before, behind, hsplit, -⟩ := List.lookup_eq_some_iff.mp hlookup
  have hmem : (qualifierUpstream, value) ∈ p.qualifiers := by simp [hsplit]
  exact qualifier_in_lower h hmem

end upstream

end NriSupplyChain.Purl
