import NriSupplyChain.Sbom.Components

/-!
Components whose package URL does not parse because of its qualifiers. The deny list
still covers them exactly if the path, as it is written, spells the entry. A path that
parses to the same segments but is written with further slashes does not.
-/

namespace NriSupplyChain.Sbom

open NriSupplyChain.Lib NriSupplyChain.Purl

variable {charset : Charset}

section decoding

theorem lenientUnescape_cons {c : Char} (h : c ≠ '%') (rest : Text) :
    lenientUnescape (c :: rest) = c :: lenientUnescape rest := by
  rw [lenientUnescape]
  intro high low tail heq _
  exact h heq

theorem lenientUnescape_plain {before : Text} (h : '%' ∉ before) (behind : Text) :
    lenientUnescape (before ++ behind) = before ++ lenientUnescape behind := by
  induction before with
  | nil => rfl
  | cons c rest ih =>
    rw [List.mem_cons, not_or] at h
    rw [List.cons_append, lenientUnescape_cons (Ne.symm h.1), ih h.2]
    rfl

theorem lenientUnescape_percent {rest : Text} (h : ∀ high low tail, rest = high :: low :: tail →
    hexValue high = none ∨ hexValue low = none) :
    lenientUnescape ('%' :: rest) = '%' :: lenientUnescape rest := by
  match rest with
  | [] => rfl
  | [_] => rfl
  | high :: low :: tail =>
    rw [lenientUnescape]
    rcases h high low tail rfl with hnone | hnone
    · rw [hnone]
    · rw [hnone]
      cases hexValue high with
      | none => rfl
      | some h => rfl

/-- No escape reaches over a character that is no hexadecimal digit. -/
theorem lenientUnescape_append {c : Char} (hc : c ≠ '%') (hhex : hexValue c = none)
    (before behind : Text) :
    lenientUnescape (before ++ c :: behind) =
      lenientUnescape before ++ c :: lenientUnescape behind := by
  fun_induction lenientUnescape before with
  | case1 =>
    rw [List.nil_append, lenientUnescape_cons hc]
    rfl
  | case2 high low rest h l hh hl ih =>
    rw [List.cons_append, List.cons_append, List.cons_append, lenientUnescape, hh, hl, ih]
    rfl
  | case3 high low rest hbad ih =>
    have hinvalid : hexValue high = none ∨ hexValue low = none := by
      cases hh : hexValue high with
      | none => exact .inl rfl
      | some h =>
        cases hl : hexValue low with
        | none => exact .inr rfl
        | some l => exact (hbad h l hh hl).elim
    rw [List.cons_append, lenientUnescape_percent, ih]
    · rfl
    · intro high' low' tail heq
      cases heq
      exact hinvalid
  | case4 d rest hshort ih =>
    by_cases hd : d = '%'
    · rw [hd, List.cons_append, lenientUnescape_percent, ih]
      · rfl
      · intro high low tail heq
        match rest with
        | [] =>
          cases heq
          exact .inl hhex
        | [_] =>
          cases heq
          exact .inr hhex
        | high' :: low' :: rest' => exact (hshort high' low' rest' hd rfl).elim
    · rw [List.cons_append, lenientUnescape_cons hd, ih]
      rfl

end decoding

section spelling

/-- The path as the raw comparison sees it: decoded, in lower case, and with a PyPI
name normalized. -/
def spelledPath (charset : Charset) (typ path : Text) : Text :=
  let decoded := charset.lower (lenientUnescape path)
  if typ = typePyPI then normalizePyPI charset decoded else decoded

theorem takeWhile_append_stop {p : Char → Bool} {c : Char} (hc : p c = false) (text rest : Text) :
    (text ++ c :: rest).takeWhile p = text.takeWhile p ∧
      (text ++ c :: rest).dropWhile p = text.dropWhile p ++ c :: rest := by
  induction text with
  | nil => simp [hc]
  | cons d text ih =>
    cases hd : p d with
    | true => simp [hd, ih.1, ih.2]
    | false => simp [hd]

/-- The name ends before the qualifiers. -/
theorem normalizePyPI_append (text rest : Text) :
    normalizePyPI charset (text ++ '?' :: rest) = normalizePyPI charset text ++ '?' :: rest := by
  obtain ⟨htake, hdrop⟩ :=
    takeWhile_append_stop (p := isNameChar) (c := '?') (by decide) text rest
  unfold normalizePyPI
  rw [htake, hdrop, List.append_assoc]

/-- The start of a package URL as written: the scheme in any case, slashes and a type. -/
structure Opening (charset : Charset) (opening typ : Text) : Prop where
  written : ∃ head slashes name, opening = head ++ slashes ++ name ∧
    head.map Char.toLower = scheme ∧ isAscii head ∧ (∀ c ∈ slashes, c = '/') ∧
      charset.lower name = typ
  canonical : Canonical charset typ

variable {typ : Text}

theorem Opening.lower_eq {opening : Text} (h : Opening charset opening typ) :
    ∃ slashes : Text, (∀ c ∈ slashes, c = '/') ∧ '%' ∉ opening ∧ ∀ rest,
      charset.lower (opening ++ '/' :: rest) =
        scheme ++ (slashes ++ (typ ++ '/' :: charset.lower rest)) := by
  obtain ⟨head, slashes, name, rfl, hhead, hascii, hslashes, hname⟩ := h.written
  refine ⟨slashes, hslashes, ?_, ?_⟩
  · intro hmem
    rw [List.mem_append, List.mem_append] at hmem
    rcases hmem with (hmem | hmem) | hmem
    · have hlow : ('%' : Char).toLower ∈ head.map Char.toLower := List.mem_map_of_mem hmem
      rw [hhead] at hlow
      exact absurd hlow (by decide)
    · exact absurd (hslashes '%' hmem) (by decide)
    · have hlow : '%' ∈ typ := by
        rw [← hname]
        exact charset.mem_lower (by decide) (by decide) hmem
      rcases validWord_chars h.canonical.valid '%' hlow with hbad | hbad <;>
        exact absurd hbad (by decide)
  · intro rest
    have hslash : ('/' : Char).toNat < 128 := by decide
    have hlower : ('/' : Char).toLower = '/' := by decide
    have hsame : slashes.map Char.toLower = slashes := by
      have hid : ∀ c ∈ slashes, c.toLower = id c := by
        intro c hc
        rw [hslashes c hc]
        decide
      rw [List.map_congr_left hid, List.map_id]
    have hplain : isAscii slashes := by
      intro c hc
      rw [hslashes c hc]
      decide
    rw [List.append_assoc, List.append_assoc, charset.lower_ascii_append hascii,
      charset.lower_ascii_append hplain, charset.lower_ascii _ _ _ hslash, hlower, hhead, hsame,
      hname]

theorem dropWhile_opening {slashes : Text} (h : Canonical charset typ)
    (hslashes : ∀ c ∈ slashes, c = '/') (rest : Text) :
    (slashes ++ (typ ++ rest)).dropWhile (· = '/') = typ ++ rest := by
  rw [List.dropWhile_append_of_pos fun c hc => decide_eq_true (hslashes c hc)]
  cases htyp : typ with
  | nil => exact absurd htyp h.ne_nil
  | cons c tail =>
    have hc : c ≠ '/' := by
      rintro rfl
      exact h.no_slash (htyp ▸ List.mem_cons_self)
    simp [hc]

theorem pypiPrefix_isPrefixOf (h : Canonical charset typ) (rest : Text) :
    pypiPrefix.isPrefixOf (typ ++ '/' :: rest) = true ↔ typ = typePyPI := by
  rw [List.isPrefixOf_iff_prefix]
  constructor
  · rintro ⟨tail, htail⟩
    have hshape : pypiPrefix ++ tail = typePyPI ++ '/' :: tail := rfl
    have hcut := congrArg (cut '/') htail
    rw [hshape, cut_append (by decide), cut_append h.no_slash] at hcut
    exact (Prod.mk.inj (Option.some.inj hcut)).1.symm
  · rintro rfl
    exact ⟨rest, rfl⟩

/-- What the raw comparison makes of a package URL with qualifiers. -/
theorem normalizeRawPURL_eq {opening path raw tail : Text} (h : Opening charset opening typ)
    (htrim : charset.trimSpace raw = opening ++ '/' :: (path ++ '?' :: tail)) :
    normalizeRawPURL charset raw = scheme ++ (typ ++ '/' :: (spelledPath charset typ path ++
      '?' :: charset.lower (lenientUnescape tail))) := by
  obtain ⟨slashes, hslashes, hpercent, hlower⟩ := h.lower_eq
  have hdecoded : charset.lower (lenientUnescape (charset.trimSpace raw)) =
      scheme ++ (slashes ++ (typ ++ '/' :: (charset.lower (lenientUnescape path) ++
        '?' :: charset.lower (lenientUnescape tail)))) := by
    have hmark : ('?' : Char).toLower = '?' := by decide
    rw [htrim, lenientUnescape_plain hpercent, lenientUnescape_cons (by decide), hlower,
      lenientUnescape_append (by decide) (by decide), charset.lower_ascii _ _ _ (by decide), hmark]
  have hscheme : ∀ rest, scheme.isPrefixOf (scheme ++ rest) = true := by
    intro rest
    rw [List.isPrefixOf_iff_prefix]
    exact List.prefix_append scheme rest
  have hdrop : ∀ rest, (scheme ++ rest).drop scheme.length = rest := fun rest => List.drop_left' rfl
  unfold normalizeRawPURL spelledPath
  dsimp only
  rw [hdecoded, if_pos (hscheme _), hdrop, dropWhile_opening h.canonical hslashes]
  by_cases hpypi : typ = typePyPI
  · rw [if_pos ((pypiPrefix_isPrefixOf h.canonical _).mpr hpypi), if_pos hpypi, hpypi]
    have hname : ∀ rest, (typePyPI ++ '/' :: rest).drop pypiPrefix.length = rest := fun rest => rfl
    rw [hname, normalizePyPI_append, List.append_assoc]
    rfl
  · have hother := mt (pypiPrefix_isPrefixOf h.canonical (charset.lower (lenientUnescape path) ++
      '?' :: charset.lower (lenientUnescape tail))).mp hpypi
    rw [if_neg hother, if_neg hpypi]

end spelling

section comparison

/-- What an entry names below its type, in lower case. -/
def ComponentEntry.named (charset : Charset) (e : ComponentEntry) : Text :=
  charset.lower (['/'].intercalate e.path) ++
    if e.version = [] then [] else '@' :: charset.lower e.version

/-- A text that starts with what the entry names and goes on at a boundary. -/
def ComponentEntry.Spelled (charset : Charset) (e : ComponentEntry) (text : Text) : Prop :=
  ∃ rest, text = e.named charset ++ rest ∧ atBoundary e.boundaries rest = true

/-- What holds of each entry of a list. -/
structure ComponentEntry.Listed (charset : Charset) (e : ComponentEntry) : Prop where
  no_slash : '/' ∉ charset.lower e.typ
  whole_type : e.path = [] → e.version = []

variable {e : ComponentEntry}

theorem listed_of_parse {raw : Text} (h : parseComponentEntry charset raw = some e) :
    e.Listed charset := by
  unfold parseComponentEntry at h
  dsimp only at h
  split at h
  · next hcond =>
    cases h
    refine ⟨?_, fun _ => rfl⟩
    rw [charset.lower_lower]
    intro hmem
    have hwritten := charset.mem_of_mem_lower (by decide) (by decide) hmem
    exact absurd (List.all_eq_true.mp hcond.2.2.2 '/' hwritten) (by decide)
  · obtain ⟨parsed, hparsed, rfl⟩ := Option.map_eq_some_iff.mp h
    have hcanonical := parse_canonical hparsed
    refine ⟨?_, ?_⟩
    · rw [hcanonical.lowered]
      exact hcanonical.no_slash
    · intro hnil
      simp [componentPath] at hnil

theorem lower_scheme (rest : Text) :
    charset.lower (scheme ++ rest) = scheme ++ charset.lower rest := by
  have hascii : isAscii scheme := fun c hc =>
    of_decide_eq_true (List.all_eq_true.mp
      (by decide : scheme.all (fun c => decide (c.toNat < 128)) = true) c hc)
  have hlower : scheme.map Char.toLower = scheme := toLowerASCII_scheme
  rw [charset.lower_ascii_append hascii, hlower]

theorem lower_canonical (h : e.Listed charset) :
    charset.lower e.canonical = scheme ++ (charset.lower e.typ ++
      if e.path = [] then [] else '/' :: e.named charset) := by
  have hslash : ('/' : Char).toLower = '/' := by decide
  have hat : ('@' : Char).toLower = '@' := by decide
  unfold ComponentEntry.canonical ComponentEntry.named
  rw [List.append_assoc, List.append_assoc, lower_scheme]
  congr 1
  by_cases hpath : e.path = []
  · rw [if_pos hpath, if_pos hpath, if_pos (h.whole_type hpath)]
    simp
  · rw [if_neg hpath, if_neg hpath, List.cons_append, charset.lower_ascii _ _ _ (by decide), hslash]
    by_cases hversion : e.version = []
    · rw [if_pos hversion, if_pos hversion, List.append_nil, List.append_nil]
    · rw [if_neg hversion, if_neg hversion, charset.lower_ascii _ _ _ (by decide), hat]

theorem matchesRaw_iff_append (e : ComponentEntry) (text : Text) :
    e.matchesRaw charset text = true ↔
      ∃ rest, text = charset.lower e.canonical ++ rest ∧ atBoundary e.boundaries rest = true := by
  unfold ComponentEntry.matchesRaw
  rw [Bool.and_eq_true, List.isPrefixOf_iff_prefix]
  constructor
  · rintro ⟨⟨rest, rfl⟩, hrest⟩
    rw [List.drop_left' rfl] at hrest
    exact ⟨rest, rfl, hrest⟩
  · rintro ⟨rest, rfl, hrest⟩
    rw [List.drop_left' rfl]
    exact ⟨List.prefix_append _ rest, hrest⟩

theorem boundary_not_in_type {typ : Text} (h : Canonical charset typ) {c : Char} (hc : c ∈ typ) :
    c ∉ "/@?#".toList := by
  intro hmem
  have hall : "/@?#".toList.all (fun d => !(isWordStart '+' d || d.isDigit)) = true := by decide
  have hnot := List.all_eq_true.mp hall c hmem
  rcases validWord_chars h.valid c hc with hstart | hdigit
  · rw [hstart, Bool.true_or] at hnot
    cases hnot
  · rw [hdigit, Bool.or_true] at hnot
    cases hnot

/-- The raw comparison compares the types, and then what the entry names. -/
theorem matchesRaw_iff (h : e.Listed charset) {typ : Text} (htyp : Canonical charset typ)
    (text : Text) :
    e.matchesRaw charset (scheme ++ (typ ++ '/' :: text)) = true ↔
      charset.lower e.typ = typ ∧ (e.path = [] ∨ e.Spelled charset text) := by
  rw [matchesRaw_iff_append, lower_canonical h]
  by_cases hpath : e.path = []
  · rw [if_pos hpath]
    simp only [hpath, true_or, and_true, List.append_nil]
    constructor
    · rintro ⟨rest, hrest, hboundary⟩
      rw [List.append_assoc] at hrest
      have hbody := List.append_cancel_left hrest
      rw [ComponentEntry.boundaries, if_pos (h.whole_type hpath)] at hboundary
      rcases List.append_eq_append_iff.mp hbody with ⟨more, hlong, htail⟩ | ⟨more, hlong, htail⟩
      · cases more with
        | nil => rw [hlong, List.append_nil]
        | cons c more =>
          cases htail
          exact absurd (by rw [hlong]; simp) h.no_slash
      · cases more with
        | nil => rw [hlong, List.append_nil]
        | cons c more =>
          rw [htail] at hboundary
          have hmem : c ∈ typ := by
            rw [hlong]
            simp
          exact absurd (of_decide_eq_true hboundary) (boundary_not_in_type htyp hmem)
    · intro hsame
      refine ⟨'/' :: text, by rw [hsame]; simp, ?_⟩
      simp [atBoundary, ComponentEntry.boundaries, h.whole_type hpath]
  · rw [if_neg hpath]
    simp only [hpath, false_or]
    constructor
    · rintro ⟨rest, hrest, hboundary⟩
      have hbody : typ ++ '/' :: text =
          charset.lower e.typ ++ '/' :: (e.named charset ++ rest) := by
        rw [List.append_assoc, List.append_assoc] at hrest
        exact List.append_cancel_left hrest
      have hcut := congrArg (cut '/') hbody
      rw [cut_append htyp.no_slash, cut_append h.no_slash] at hcut
      obtain ⟨hsame, htext⟩ := Prod.mk.inj (Option.some.inj hcut)
      exact ⟨hsame.symm, rest, htext, hboundary⟩
    · rintro ⟨hsame, rest, htext, hboundary⟩
      refine ⟨rest, ?_, hboundary⟩
      rw [hsame, htext]
      simp

/-- Two texts that go on differently behind the question mark spell an entry only if
what is before the question mark does. -/
theorem spelled_of_two {text first second : Text}
    (hfirst : e.Spelled charset (text ++ '?' :: ';' :: first))
    (hsecond : e.Spelled charset (text ++ '?' :: 'a' :: second)) : e.Spelled charset text := by
  obtain ⟨rest, hrest, hboundary⟩ := hfirst
  rcases List.append_eq_append_iff.mp hrest with ⟨more, hlong, htail⟩ | ⟨more, hlong, htail⟩
  · -- The entry reaches beyond the question mark, where the texts differ.
    obtain ⟨rest', hrest', hboundary'⟩ := hsecond
    rw [hlong, List.append_assoc] at hrest'
    have htail' := List.append_cancel_left hrest'
    cases more with
    | nil => exact ⟨[], by rw [hlong]; simp, rfl⟩
    | cons c more =>
      cases more with
      | nil =>
        cases htail
        have hno : ';' ∉ e.boundaries := by
          unfold ComponentEntry.boundaries
          split <;> decide
        exact absurd (of_decide_eq_true hboundary) hno
      | cons d more =>
        cases htail
        cases htail'
  · refine ⟨more, hlong, ?_⟩
    cases more with
    | nil => rfl
    | cons c more =>
      rw [htail] at hboundary
      exact hboundary

theorem spelled_append {text : Text} (h : e.Spelled charset text) (behind : Text) :
    e.Spelled charset (text ++ '?' :: behind) := by
  obtain ⟨rest, rfl, hboundary⟩ := h
  refine ⟨rest ++ '?' :: behind, by simp, ?_⟩
  cases rest with
  | nil =>
    have hmark : '?' ∈ e.boundaries := by
      unfold ComponentEntry.boundaries
      split <;> decide
    exact decide_eq_true hmark
  | cons c rest => exact hboundary

end comparison

section qualifiers

/-- A package URL with further qualifiers, at any place among those it has. -/
def AddsQualifiers (raw added : Text) : Prop :=
  ∃ (old new : List Text) (fragment : Text), old.Sublist new ∧ new ≠ [] ∧ (∀ q ∈ new, '#' ∉ q) ∧
    (∀ c ∈ fragment.head?, c = '#') ∧
    raw = stripQualifiers raw ++
      ((if old = [] then [] else '?' :: ['&'].intercalate old) ++ fragment) ∧
    added = stripQualifiers raw ++ '?' :: (['&'].intercalate new ++ fragment)

/-- The path of a package URL as it is written. -/
def writtenPath (raw : Text) : Text :=
  ((cut '/' (body (stripQualifiers raw))).map Prod.snd).getD []

theorem takeWhile_dropWhile {p q : Char → Bool} (h : ∀ c, p c = true → q c = true) (text : Text) :
    (text.dropWhile p).takeWhile q = (text.takeWhile q).dropWhile p := by
  induction text with
  | nil => rfl
  | cons c text ih =>
    cases hp : p c with
    | true => simp [hp, h c hp, ih]
    | false =>
      cases hq : q c with
      | true => simp [hp, hq]
      | false => simp [hp, hq]

variable {raw : Text}

theorem head_of_scheme (h : hasScheme charset raw = true) :
    isAscii (raw.take scheme.length) ∧ (raw.take scheme.length).map Char.toLower = scheme := by
  have hscheme : isAscii scheme := fun c hc =>
    of_decide_eq_true (List.all_eq_true.mp
      (by decide : scheme.all (fun c => decide (c.toNat < 128)) = true) c hc)
  have hascii : isAscii (raw.take scheme.length) :=
    charset.equalFold_short _ _ hscheme (List.length_take_le _ _) h
  refine ⟨hascii, ?_⟩
  unfold hasScheme at h
  rw [charset.equalFold_ascii _ _ hascii hscheme] at h
  exact (of_decide_eq_true h).trans toLowerASCII_scheme

/-- The scheme holds none of the marks that end the path. -/
theorem stripQualifiers_eq (h : hasScheme charset raw = true) :
    stripQualifiers raw =
      raw.take scheme.length ++ (raw.drop scheme.length).takeWhile isPathChar := by
  have hplain : ∀ c ∈ raw.take scheme.length, isPathChar c = true := by
    intro c hc
    have hlow : c.toLower ∈ scheme := by
      rw [← (head_of_scheme h).2]
      exact List.mem_map_of_mem hc
    have hnot : ∀ d : Char, d.toLower ∉ scheme → c ≠ d := by
      rintro d hd rfl
      exact hd hlow
    have hquestion := hnot '?' (by decide)
    have hhash := hnot '#' (by decide)
    simp [isPathChar, hquestion, hhash]
  unfold stripQualifiers
  conv_lhs => rw [← List.take_append_drop scheme.length raw]
  exact List.takeWhile_append_of_pos hplain

theorem length_head (h : hasScheme charset raw = true) :
    (raw.take scheme.length).length = scheme.length := by
  have hlen := congrArg List.length (head_of_scheme h).2
  rwa [List.length_map] at hlen

theorem body_stripQualifiers (h : hasScheme charset raw = true) :
    body (stripQualifiers raw) = (body raw).takeWhile isPathChar := by
  have hdrop : (stripQualifiers raw).drop scheme.length =
      (raw.drop scheme.length).takeWhile isPathChar := by
    rw [stripQualifiers_eq h]
    exact List.drop_left' (length_head h)
  unfold body
  rw [hdrop, takeWhile_dropWhile]
  intro c hc
  rw [of_decide_eq_true hc]
  decide

/-- The path of a package URL that parses, and what stands before it. -/
theorem parse_opening {p : PackageURL} (h : parse charset raw = some p) :
    ∃ opening, stripQualifiers raw = opening ++ '/' :: writtenPath raw ∧
      Opening charset opening p.typ := by
  have hcanonical := parse_canonical h
  rw [parse_eq] at h
  obtain ⟨parts, hpieces, hread⟩ := Option.bind_eq_some_iff.mp h
  obtain ⟨hscheme, path, hcut, htyp, -⟩ := pieces_eq_some hpieces
  obtain ⟨_, _, _, _, _, _, _, hnormal, _⟩ := read_eq_some hread
  obtain ⟨_, _, _, hlower, _⟩ := normalForm_eq_some hnormal
  rw [← body_stripQualifiers hscheme] at hcut
  have hpath : writtenPath raw = path := by
    unfold writtenPath
    rw [hcut]
    rfl
  obtain ⟨hbody, -⟩ := cut_eq_some hcut
  have hstrip := stripQualifiers_eq hscheme
  generalize hrest : (raw.drop scheme.length).takeWhile isPathChar = rest at hstrip
  have hslashes : rest = rest.takeWhile (· = '/') ++ (parts.typ ++ '/' :: path) := by
    have hdrop : rest.dropWhile (· = '/') = parts.typ ++ '/' :: path := by
      rw [← hbody, hstrip]
      unfold body
      rw [List.drop_left' (length_head hscheme)]
    rw [← hdrop]
    exact List.takeWhile_append_dropWhile.symm
  refine ⟨raw.take scheme.length ++ rest.takeWhile (· = '/') ++ parts.typ, ?_, ⟨_, _, _, rfl, ?_⟩,
    hcanonical⟩
  · rw [hstrip, hpath]
    conv_lhs => rw [hslashes]
    simp
  · obtain ⟨hascii, hhead⟩ := head_of_scheme hscheme
    refine ⟨hhead, hascii, ?_, ?_⟩
    · intro c hc
      have hslash := List.mem_takeWhile_imp hc
      exact of_decide_eq_true hslash
    · rw [hlower]
      exact (charset.lower_map_toLower parts.typ).symm

variable {query : Text}

theorem parseQualifiers_semicolon (h : ';' ∈ query) : parseQualifiers charset query = none := by
  cases hparse : parseQualifiers charset query with
  | none => rfl
  | some qualifiers =>
    obtain ⟨parts, hparts, -⟩ := Option.map_eq_some_iff.mp hparse
    obtain ⟨text, htext, hmem⟩ : ∃ text ∈ query.splitOn '&', ';' ∈ text := by
      have hjoin : ['&'].intercalate (query.splitOn '&') = query := List.intercalate_splitOn '&'
      rw [← hjoin] at h
      exact mem_of_mem_intercalate (by decide) h
    obtain ⟨part, hpart⟩ := exists_of_mapM_eq_some hparts htext
    unfold parseQualifier at hpart
    simp only [Option.bind_eq_bind, Option.bind_eq_some_iff, Option.guard_eq_some'] at hpart
    obtain ⟨_, hno, _⟩ := hpart
    exact absurd hmem hno

/-- A semicolon among the qualifiers makes a package URL unparsable. -/
theorem parse_semicolon {fragment : Text} (hscheme : hasScheme charset raw = true)
    (hsemicolon : ';' ∈ query) (hhash : '#' ∉ query) (hfragment : ∀ c ∈ fragment.head?, c = '#') :
    parse charset (stripQualifiers raw ++ '?' :: (query ++ fragment)) = none := by
  cases hparse : parse charset (stripQualifiers raw ++ '?' :: (query ++ fragment)) with
  | none => rfl
  | some p =>
    rw [parse_eq] at hparse
    obtain ⟨parts, hpieces, hread⟩ := Option.bind_eq_some_iff.mp hparse
    obtain ⟨_, _, _, _, _, _, hquery⟩ := pieces_eq_some hpieces
    obtain ⟨_, _, _, _, _, hqual, _⟩ := read_eq_some hread
    have hbody : body (stripQualifiers raw ++ '?' :: (query ++ fragment)) =
        body (stripQualifiers raw) ++ '?' :: (query ++ fragment) := by
      have hlen : scheme.length ≤ (stripQualifiers raw).length := by
        rw [stripQualifiers_eq hscheme, List.length_append, length_head hscheme]
        omega
      unfold body
      rw [List.drop_append_of_le_length hlen]
      exact (takeWhile_append_stop (by decide) _ _).2
    have hdrop : (body (stripQualifiers raw ++ '?' :: (query ++ fragment))).dropWhile isPathChar =
        '?' :: (query ++ fragment) := by
      rw [hbody, body_stripQualifiers hscheme,
        List.dropWhile_append_of_pos fun c hc => List.mem_takeWhile_imp hc]
      rfl
    have hcut : (cutOr '#' ('?' :: (query ++ fragment))).1 = '?' :: query := by
      have hno : '#' ∉ '?' :: query := by simp [hhash]
      rw [← List.cons_append, cutOr_append hno]
      cases fragment with
      | nil => simp [cutOr, cut]
      | cons c rest =>
        rw [hfragment c rfl]
        simp [cutOr, cut]
    rw [hdrop, hcut] at hquery
    have hsame : parts.rawQuery = query := hquery
    rw [hsame, parseQualifiers_semicolon hsemicolon] at hqual
    cases hqual

theorem not_mem_of_splitOn {text part : Text} {c sep : Char} (h : c ∉ text) (hsep : c ≠ sep)
    (hpart : part ∈ text.splitOn sep) : c ∉ part := by
  intro hmem
  obtain ⟨before, behind, hsplit⟩ := mem_splitOn hpart
  have hall : c ∈ sep :: text := by
    rw [hsplit]
    simp [hmem]
  rcases List.mem_cons.mp hall with heq | htext
  · exact hsep heq
  · exact h htext

theorem query_parts (h : '#' ∉ query) : (∀ q ∈ query.splitOn '&', '#' ∉ q) ∧
    (if query.splitOn '&' = [] then [] else '?' :: ['&'].intercalate (query.splitOn '&')) =
      '?' :: query := by
  have hjoin : ['&'].intercalate (query.splitOn '&') = query := List.intercalate_splitOn '&'
  have hne : query.splitOn '&' ≠ [] := List.splitOn_ne_nil _ _
  refine ⟨fun q hq => not_mem_of_splitOn h (by decide) hq, ?_⟩
  rw [if_neg hne, hjoin]

/-- The qualifiers and the subpath of a package URL as written. -/
theorem exists_qualifiers (raw : Text) : ∃ (old : List Text) (fragment : Text),
    (∀ q ∈ old, '#' ∉ q) ∧ (∀ c ∈ fragment.head?, c = '#') ∧
      raw = stripQualifiers raw ++
        ((if old = [] then [] else '?' :: ['&'].intercalate old) ++ fragment) := by
  have hraw : raw = stripQualifiers raw ++ raw.dropWhile isPathChar :=
    List.takeWhile_append_dropWhile.symm
  have hhead := List.head?_dropWhile_not isPathChar raw
  cases hsuffix : raw.dropWhile isPathChar with
  | nil =>
    rw [hsuffix] at hraw
    exact ⟨[], [], by simp, by simp, hraw⟩
  | cons c rest =>
    rw [hsuffix] at hraw hhead
    have hmark : isPathChar c = false := hhead
    simp only [isPathChar, Bool.and_eq_false_iff, decide_eq_false_iff_not, not_not] at hmark
    rcases hmark with rfl | rfl
    · cases hcut : cut '#' rest with
      | none =>
        have hno : '#' ∉ rest := by
          intro hmem
          obtain ⟨before, behind, rfl, hbefore⟩ := List.eq_append_cons_of_mem hmem
          rw [cut_append hbefore] at hcut
          cases hcut
        obtain ⟨hparts, hjoin⟩ := query_parts hno
        exact ⟨rest.splitOn '&', [], hparts, by simp, by rw [hjoin, List.append_nil]; exact hraw⟩
      | some pair =>
        obtain ⟨query, subpath⟩ := pair
        obtain ⟨rfl, hno⟩ := cut_eq_some hcut
        obtain ⟨hparts, hjoin⟩ := query_parts hno
        exact ⟨query.splitOn '&', '#' :: subpath, hparts, by simp, by rw [hjoin]; exact hraw⟩
    · exact ⟨[], '#' :: rest, by simp, by simp, hraw⟩

theorem intercalate_semicolon (lead : Text) (old : List Text) :
    ∃ more, ['&'].intercalate ((lead ++ [';']) :: old) = lead ++ ';' :: more := by
  cases old with
  | nil => exact ⟨[], by simp⟩
  | cons q old => exact ⟨'&' :: ['&'].intercalate (q :: old), by simp⟩

/-- White space is trimmed behind the last other character only. -/
theorem trimSpace_stripped (h : hasScheme charset raw = true) {d : Char} (hd : d.toNat < 128)
    (hspace : isSpace d = false) (lead behind : Text) :
    ∃ tail, charset.trimSpace (stripQualifiers raw ++ (lead ++ d :: behind)) =
      stripQualifiers raw ++ (lead ++ d :: tail) := by
  obtain ⟨hascii, hhead⟩ := head_of_scheme h
  cases hstart : raw.take scheme.length with
  | nil =>
    rw [hstart] at hhead
    cases hhead
  | cons c start =>
    rw [hstart] at hascii hhead
    have hc : c.toNat < 128 := hascii c List.mem_cons_self
    have hp : c.toLower = 'p' := (List.cons.inj hhead).1
    have hblank : isSpace c = false :=
      ascii_induction (P := fun c => c.toLower = 'p' → isSpace c = false) (by decide) hc hp
    rw [stripQualifiers_eq h, hstart]
    generalize (raw.drop scheme.length).takeWhile isPathChar = rest
    obtain ⟨tail, htail⟩ :=
      charset.trimSpace_inner c d (start ++ rest ++ lead) behind hc hblank hd hspace
    refine ⟨tail, ?_⟩
    have hshape : ∀ text, c :: start ++ rest ++ (lead ++ d :: text) =
        c :: (start ++ rest ++ lead) ++ d :: text := by simp
    rw [hshape, hshape, htail]

section added

variable {entry : Text} {e : ComponentEntry} {p : PackageURL}

/-- What the raw comparison of a package URL with any qualifiers comes down to. -/
theorem matchesRaw_qualified (hentry : parseComponentEntry charset entry = some e)
    (hparse : parse charset raw = some p) {added tail : Text}
    (htrim : charset.trimSpace added = stripQualifiers raw ++ '?' :: tail) :
    e.matchesRaw charset (normalizeRawPURL charset added) = true ↔
      charset.lower e.typ = p.typ ∧ (e.path = [] ∨
        e.Spelled charset (spelledPath charset p.typ (writtenPath raw) ++
          '?' :: charset.lower (lenientUnescape tail))) := by
  obtain ⟨opening, hstrip, hopening⟩ := parse_opening hparse
  rw [hstrip, List.append_assoc] at htrim
  rw [normalizeRawPURL_eq hopening htrim, matchesRaw_iff (listed_of_parse hentry)
    hopening.canonical]

theorem hasScheme_of_parse (hparse : parse charset raw = some p) :
    hasScheme charset raw = true := by
  rw [parse_eq] at hparse
  obtain ⟨parts, hpieces, -⟩ := Option.bind_eq_some_iff.mp hparse
  exact (pieces_eq_some hpieces).1

/-- A path that spells the entry is covered whatever qualifiers are added. -/
theorem matchesRaw_of_spelled (hentry : parseComponentEntry charset entry = some e)
    (hparse : parse charset raw = some p) (htyp : charset.lower e.typ = p.typ)
    (hspelled : e.path = [] ∨ e.Spelled charset (spelledPath charset p.typ (writtenPath raw)))
    {added : Text} (hadds : AddsQualifiers raw added) :
    e.matchesRaw charset (normalizeRawPURL charset added) = true := by
  obtain ⟨old, new, fragment, -, -, -, -, -, rfl⟩ := hadds
  obtain ⟨tail, htrim⟩ := trimSpace_stripped (hasScheme_of_parse hparse) (d := '?') (by decide)
    (by decide) [] (['&'].intercalate new ++ fragment)
  apply (matchesRaw_qualified hentry hparse htrim).mpr
  exact ⟨htyp, hspelled.imp_right fun hpath => spelled_append hpath _⟩

end added

/-- The raw comparison covers each package URL that added qualifiers make unparsable
exactly if the types are equal and the path spells what the entry names. -/
theorem raw_deny_covers_iff (charset : Charset) {entry : Text} {e : ComponentEntry}
    (hentry : parseComponentEntry charset entry = some e) (raw : Text) :
    (∀ p, parse charset raw = some p → e.matchesComponent charset p = true →
      ∀ added, AddsQualifiers raw added → parse charset added = none →
        e.matchesRaw charset (normalizeRawPURL charset added) = true) ↔
    ∀ p, parse charset raw = some p → e.matchesComponent charset p = true →
      charset.lower e.typ = p.typ ∧
        (e.path = [] ∨ e.Spelled charset (spelledPath charset p.typ (writtenPath raw))) := by
  apply forall_congr'
  intro p
  apply forall_congr'
  intro hparse
  apply imp_congr_right
  intro _
  have hscheme := hasScheme_of_parse hparse
  constructor
  · intro hcovers
    obtain ⟨old, fragment, hold, hfragment, hraw⟩ := exists_qualifiers raw
    -- Two qualifiers with a semicolon, put before the others.
    have hadd : ∀ lead : Text, '#' ∉ lead → ∃ tail,
        charset.lower e.typ = p.typ ∧ (e.path = [] ∨
          e.Spelled charset (spelledPath charset p.typ (writtenPath raw) ++
            '?' :: charset.lower (lenientUnescape (lead ++ ';' :: tail)))) := by
      intro lead hlead
      obtain ⟨more, hmore⟩ := intercalate_semicolon lead old
      have hnew : ∀ q ∈ (lead ++ [';']) :: old, '#' ∉ q := by
        intro q hq
        rcases List.mem_cons.mp hq with rfl | hq
        · simp [hlead]
        · exact hold q hq
      have hhash : '#' ∉ ['&'].intercalate ((lead ++ [';']) :: old) := by
        intro hmem
        obtain ⟨q, hq, hbad⟩ := mem_of_mem_intercalate (by decide) hmem
        exact hnew q hq hbad
      have hnone := parse_semicolon hscheme (by rw [hmore]; simp) hhash hfragment
      have hmatched := hcovers _ ⟨old, _, fragment, List.sublist_cons_self _ old, by simp, hnew,
        hfragment, hraw, rfl⟩ hnone
      obtain ⟨tail, htail⟩ := trimSpace_stripped hscheme (d := ';') (by decide) (by decide)
        ('?' :: lead) (more ++ fragment)
      refine ⟨tail, (matchesRaw_qualified hentry hparse ?_).mp hmatched⟩
      rw [hmore, List.append_assoc]
      exact htail
    have hascii : ∀ (c : Char) (rest : Text), c ≠ '%' → c.toNat < 128 → c.toLower = c →
        charset.lower (lenientUnescape (c :: rest)) =
          c :: charset.lower (lenientUnescape rest) := by
      intro c rest hc hlt hlow
      rw [lenientUnescape_cons hc, charset.lower_cons hlt, hlow]
    obtain ⟨tail, htyp, hfirst⟩ := hadd [] (by simp)
    obtain ⟨tail', -, hsecond⟩ := hadd ['a'] (by decide)
    refine ⟨htyp, ?_⟩
    rcases hfirst with hpath | hfirst
    · exact .inl hpath
    · rcases hsecond with hpath | hsecond
      · exact .inl hpath
      · right
        rw [List.nil_append, hascii ';' _ (by decide) (by decide) (by decide)] at hfirst
        rw [List.singleton_append, hascii 'a' _ (by decide) (by decide) (by decide)] at hsecond
        exact spelled_of_two hfirst hsecond
  · rintro ⟨htyp, hspelled⟩ added hadds -
    exact matchesRaw_of_spelled hentry hparse htyp hspelled hadds

def lodashEntry : ComponentEntry :=
  ⟨"npm".toList, ["lodash".toList], [], [], []⟩

def lodash : PackageURL :=
  ⟨"npm".toList, [], "lodash".toList, ['1'], [], []⟩

theorem parse_lodash : parse Charset.ascii "pkg:npm/lodash@1".toList = some lodash := by
  decide

theorem parse_lodashEntry :
    parseComponentEntry Charset.ascii "pkg:npm/lodash".toList = some lodashEntry := by
  decide

theorem addsQualifiers_semicolon (h : stripQualifiers raw = raw) :
    AddsQualifiers raw (raw ++ "?;".toList) := by
  refine ⟨[], [[';']], [], List.nil_sublist _, by simp, by decide, by simp, ?_, ?_⟩
  · rw [h]
    simp
  · rw [h]
    rfl

/-- Qualifiers that cannot be parsed do not hide a package that is written plainly. -/
theorem raw_deny_covers_lodash :
    parse Charset.ascii "pkg:npm/lodash@1?;".toList = none ∧
      lodashEntry.matchesRaw Charset.ascii
        (normalizeRawPURL Charset.ascii "pkg:npm/lodash@1?;".toList) = true := by
  have hnone : parse Charset.ascii "pkg:npm/lodash@1?;".toList = none := by decide
  have hspelled : ∀ p, parse Charset.ascii "pkg:npm/lodash@1".toList = some p →
      lodashEntry.matchesComponent Charset.ascii p = true →
        Charset.ascii.lower lodashEntry.typ = p.typ ∧ (lodashEntry.path = [] ∨
          lodashEntry.Spelled Charset.ascii
            (spelledPath Charset.ascii p.typ (writtenPath "pkg:npm/lodash@1".toList))) := by
    intro p hp _
    cases parse_lodash.symm.trans hp
    exact ⟨by decide, .inr ⟨"@1".toList, by decide, by decide⟩⟩
  refine ⟨hnone, ?_⟩
  exact (raw_deny_covers_iff Charset.ascii parse_lodashEntry "pkg:npm/lodash@1".toList).mpr hspelled
    lodash parse_lodash (by decide) _ (addsQualifiers_semicolon (by decide)) hnone

/-- A second slash hides a package whose qualifiers cannot be parsed. -/
theorem raw_deny_misses_slash :
    parseComponentEntry Charset.ascii "pkg:npm/lodash".toList = some lodashEntry ∧
      (parse Charset.ascii "pkg:npm//lodash@1".toList).any
        (lodashEntry.matchesComponent Charset.ascii) = true ∧
      AddsQualifiers "pkg:npm//lodash@1".toList "pkg:npm//lodash@1?;".toList ∧
      parse Charset.ascii "pkg:npm//lodash@1?;".toList = none ∧
      lodashEntry.matchesRaw Charset.ascii
        (normalizeRawPURL Charset.ascii "pkg:npm//lodash@1?;".toList) = false := by
  refine ⟨parse_lodashEntry, by decide, addsQualifiers_semicolon (by decide), by decide, by decide⟩

end qualifiers

end NriSupplyChain.Sbom
