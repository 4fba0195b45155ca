import NriSupplyChain.Purl.Parse

/-!
What parsing reads from a package URL. The text is split once into its pieces, and
the result depends on the pieces only. The second parse with another type, which
tells whether only a rule of the type was broken, comes down to a condition on the
type and the start of the path.
-/

namespace NriSupplyChain.Purl

open NriSupplyChain.Lib

section pieces

structure Pieces where
  typ : Text
  path : Text
  rawQuery : Text
  fragment : Text

variable (charset : Charset)

/-- Split a package URL at its delimiters. -/
def pieces (raw : Text) : Option Pieces := do
  guard (hasScheme charset raw)
  let rest := (raw.drop scheme.length).dropWhile (· = '/')
  let (before, fragment) := cutOr '#' (rest.dropWhile isPathChar)
  let (typ, path) ← cut '/' (rest.takeWhile isPathChar)
  guard (typ ≠ [])
  guard (stripPath path ≠ [])
  return ⟨typ, stripPath path, (cutOr '?' before).2, fragment⟩

/-- Read the pieces of a package URL. The rules of the type count only where the same
pieces are no package URL of another type. -/
def Pieces.read (parts : Pieces) : Option PackageURL := do
  let subpath ← percentDecodeSubpath parts.fragment
  let qualifiers ← parseQualifiers charset parts.rawQuery
  let (ns, name, version) ← separateNamespaceNameVersion (toLowerASCII parts.typ) parts.path
  let p ← normalForm charset ⟨toLowerASCII parts.typ, ns, name, version, qualifiers, subpath⟩
  guard (validCustomRules charset p ∨ typePattern parts.typ ∧ parts.path.head? ≠ some '@')
  guard (p.typ ≠ [] ∧ p.name ≠ [])
  return p

/-- What is left of a package URL without its scheme and leading slashes. -/
def body (raw : Text) : Text :=
  (raw.drop scheme.length).dropWhile (· = '/')

theorem body_scheme {rest : Text} (h : rest.head? ≠ some '/') : body (scheme ++ rest) = rest := by
  have hdrop : (scheme ++ rest).drop scheme.length = rest := List.drop_left' rfl
  unfold body
  rw [hdrop]
  cases rest with
  | nil => rfl
  | cons c tail =>
    have hc : c ≠ '/' := fun heq => h (by rw [heq]; rfl)
    simp [hc]

variable {typ : Text}

theorem head_typ (htyp : typ ≠ []) (hslash : '/' ∉ typ) (rest : Text) :
    (typ ++ rest).head? ≠ some '/' := by
  cases typ with
  | nil => exact absurd rfl htyp
  | cons c tail =>
    intro hhead
    apply hslash
    rw [← Option.some.inj hhead]
    exact List.mem_cons_self

theorem hasScheme_append (rest : Text) : hasScheme charset (scheme ++ rest) = true := by
  have htake : (scheme ++ rest).take scheme.length = scheme := List.take_left' rfl
  have hascii : isAscii scheme := fun c hc =>
    of_decide_eq_true (List.all_eq_true.mp
      (by decide : scheme.all (fun c => decide (c.toNat < 128)) = true) c hc)
  unfold hasScheme
  rw [htake, charset.equalFold_ascii scheme scheme hascii hascii]
  exact decide_eq_true rfl

theorem toLowerASCII_scheme : toLowerASCII scheme = scheme := by
  decide

variable {path : Text}

/-- Splitting finds the pieces of a text that was put together from them. -/
theorem fromString_append {suffix : Text} (htyp : typ ≠ []) (hslash : '/' ∉ typ)
    (hplain : ∀ c ∈ typ ++ '/' :: path, isPathChar c = true)
    (hsuffix : ∀ c ∈ suffix.head?, isPathChar c = false) :
    fromString charset (scheme ++ typ ++ '/' :: path ++ suffix) =
      fromParts charset typ path (cutOr '?' (cutOr '#' suffix).1).2 (cutOr '#' suffix).2 := by
  have hmark : ∀ c, isPathChar c = false → c ∉ typ ++ '/' :: path := by
    intro c hc hmem
    rw [hplain c hmem] at hc
    cases hc
  have hshape : scheme ++ typ ++ '/' :: path ++ suffix =
      scheme ++ ((typ ++ '/' :: path) ++ suffix) := by simp
  have htake : (scheme ++ ((typ ++ '/' :: path) ++ suffix)).take 4 = scheme := by
    exact List.take_left' rfl
  have hbody : ((scheme ++ ((typ ++ '/' :: path) ++ suffix)).drop 4).dropWhile (· = '/') =
      (typ ++ '/' :: path) ++ suffix := by
    apply body_scheme
    rw [List.append_assoc]
    exact head_typ htyp hslash _
  -- The suffix is empty or starts with one of the two marks.
  have hquery : (cutOr '?' (cutOr '#' suffix).1).1 = [] := by
    cases suffix with
    | nil => rfl
    | cons c rest =>
      have hc := hsuffix c rfl
      simp only [isPathChar, Bool.and_eq_false_iff, decide_eq_false_iff_not, not_not] at hc
      rcases hc with rfl | rfl
      · have hother : '#' ∉ ['?'] := by decide
        have hcut : cutOr '#' ('?' :: rest) = ('?' :: (cutOr '#' rest).1, (cutOr '#' rest).2) :=
          cutOr_append hother rest
        rw [hcut]
        rfl
      · rfl
  unfold fromString
  rw [hshape, htake, hbody, if_neg (not_not.mpr toLowerASCII_scheme)]
  dsimp only
  rw [cutOr_append (hmark '#' rfl)]
  dsimp only
  rw [cutOr_append (hmark '?' rfl), hquery, List.append_nil, cut_append hslash]

variable {c : Char}

theorem isAlpha_ascii (h : c.isAlpha = true) : c.toNat < 128 := by
  change (decide (c.val ≥ 65 ∧ c.val ≤ 90) || (decide (c.val ≥ 97) && decide (c.val ≤ 122))) = true
    at h
  simp only [Bool.or_eq_true, Bool.and_eq_true, decide_eq_true_eq, ge_iff_le,
    UInt32.le_iff_toNat_le] at h
  have hnat : c.toNat = c.val.toNat := rfl
  rcases h with ⟨-, h⟩ | ⟨-, h⟩
  · have hle : c.val.toNat ≤ 90 := h
    omega
  · have hle : c.val.toNat ≤ 122 := h
    omega

theorem isDigit_ascii (h : c.isDigit = true) : c.toNat < 128 := by
  simp only [Char.isDigit, Bool.and_eq_true, decide_eq_true_eq, ge_iff_le,
    UInt32.le_iff_toNat_le] at h
  have hnat : c.toNat = c.val.toNat := rfl
  have hle : c.val.toNat ≤ 57 := h.2
  omega

variable {extra : Char}

theorem isWordStart_ascii (hextra : extra.toNat < 128) (h : isWordStart extra c = true) :
    c.toNat < 128 := by
  simp only [isWordStart, Bool.or_eq_true, decide_eq_true_eq] at h
  rcases h with ((h | rfl) | rfl) | rfl
  · exact isAlpha_ascii h
  · decide
  · decide
  · exact hextra

theorem validWord_chars {text : Text} (h : validWord extra text = true) :
    ∀ c ∈ text, isWordStart extra c = true ∨ c.isDigit = true := by
  cases text with
  | nil => cases h
  | cons c rest =>
    rw [validWord, Bool.and_eq_true, List.all_eq_true] at h
    intro d hd
    rcases List.mem_cons.mp hd with rfl | hd
    · exact .inl h.1
    · have hchar := h.2 d hd
      rwa [Bool.or_eq_true] at hchar

theorem validWord_ascii (hextra : extra.toNat < 128) {text : Text}
    (h : validWord extra text = true) : isAscii text := by
  intro c hc
  rcases validWord_chars h c hc with hstart | hdigit
  · exact isWordStart_ascii hextra hstart
  · exact isDigit_ascii hdigit

theorem isWordStart_toLower (h : isWordStart '+' c = true) : isWordStart '+' c.toLower = true := by
  have hc : c.toNat < 128 := isWordStart_ascii (by decide) h
  exact ascii_induction (P := fun c => isWordStart '+' c = true → isWordStart '+' c.toLower = true)
    (by decide) hc h

theorem isDigit_toLower (h : c.isDigit = true) : c.toLower.isDigit = true := by
  have hc : c.toNat < 128 := isDigit_ascii h
  exact ascii_induction (P := fun c => c.isDigit = true → c.toLower.isDigit = true)
    (by decide) hc h

/-- A valid type stays valid in lower case. -/
theorem validType_toLowerASCII (h : validType typ = true) :
    validType (toLowerASCII typ) = true := by
  cases typ with
  | nil => cases h
  | cons c rest =>
    rw [validType, validWord, Bool.and_eq_true, List.all_eq_true] at h
    change (isWordStart '+' c.toLower && (rest.map Char.toLower).all _) = true
    rw [Bool.and_eq_true, List.all_eq_true]
    refine ⟨isWordStart_toLower h.1, ?_⟩
    intro d hd
    obtain ⟨e, he, rfl⟩ := List.mem_map.mp hd
    have hchar := h.2 e he
    rw [Bool.or_eq_true] at hchar ⊢
    rcases hchar with hstart | hdigit
    · exact .inl (isWordStart_toLower hstart)
    · exact .inr (isDigit_toLower hdigit)

theorem toLowerASCII_toLowerASCII (text : Text) :
    toLowerASCII (toLowerASCII text) = toLowerASCII text := by
  unfold toLowerASCII
  rw [List.map_map]
  apply List.map_congr_left
  intro c _
  exact toLower_toLower c

/-- Lowering a valid type only lowers its ASCII letters. -/
theorem lower_validType (h : validType typ = true) : charset.lower typ = toLowerASCII typ :=
  charset.lower_of_ascii (validWord_ascii (by decide) h)

theorem lower_toLowerASCII_type (h : validType typ = true) :
    charset.lower (toLowerASCII typ) = toLowerASCII typ := by
  rw [lower_validType charset (validType_toLowerASCII h), toLowerASCII_toLowerASCII]

theorem normalForm_isSome (p : PackageURL) : (normalForm charset p).isSome = true ↔
    validType (charset.lower p.typ) = true ∧ (normalizeQualifiers p.qualifiers).isSome = true ∧
      p.name ≠ [] ∧ validSubpath p.subpath = true := by
  unfold normalForm
  cases normalizeQualifiers p.qualifiers with
  | none => simp
  | some qualifiers =>
    by_cases htyp : validType (charset.lower p.typ) = true
    · by_cases hname : p.name = []
      · simp [htyp, hname]
      · by_cases hsub : validSubpath p.subpath = true <;> simp [htyp, hname, hsub]
    · simp [htyp]

theorem normalForm_typ {p normed : PackageURL} (h : normalForm charset p = some normed) :
    normed.typ = charset.lower p.typ := by
  unfold normalForm at h
  simp only [Option.bind_eq_bind, Option.bind_eq_some_iff] at h
  obtain ⟨_, _, qualifiers, _, _, _, _, _, hnormed⟩ := h
  cases hnormed
  rfl

theorem separate_plain (h : path.head? ≠ some '@') (typ : Text) :
    separateNamespaceNameVersion typ path = splitNamespaceNameVersion path :=
  if_neg fun hbad => h hbad.1

theorem separate_eq_some {parts : Text × Text × Text}
    (h : separateNamespaceNameVersion typ path = some parts) :
    splitNamespaceNameVersion path = some parts := by
  unfold separateNamespaceNameVersion at h
  split at h
  · cases h
  · exact h

def typeGeneric : Text :=
  "generic".toList

theorem lower_typeGeneric : charset.lower (toLowerASCII typeGeneric) = typeGeneric := by
  have hvalid : validType typeGeneric = true := by decide
  exact lower_toLowerASCII_type charset hvalid

theorem validCustomRules_generic {p : PackageURL} (h : p.typ = typeGeneric) :
    validCustomRules charset p = true := by
  simp [validCustomRules, h, typeGeneric]

variable {version : Text}

/-- Whether the pieces are a package URL of the type without rules. -/
theorem fromParts_generic {rawQuery fragment subpath ns name : Text}
    {qualifiers : List (Text × Text)} (hsub : percentDecodeSubpath fragment = some subpath)
    (hqual : parseQualifiers charset rawQuery = some qualifiers)
    (hsplit : splitNamespaceNameVersion path = some (ns, name, version)) :
    (fromParts charset typeGeneric path rawQuery fragment).2 = true ↔ path.head? ≠ some '@' ∧
      (normalizeQualifiers qualifiers).isSome = true ∧ name ≠ [] ∧
        validSubpath subpath = true := by
  unfold fromParts
  rw [hsub, hqual]
  by_cases hat : path.head? = some '@'
  · have hsep : separateNamespaceNameVersion (toLowerASCII typeGeneric) path = none :=
      if_pos ⟨hat, .inl (by decide)⟩
    simp [hsep, hat]
  · rw [separate_plain hat, hsplit]
    have hsome := normalForm_isSome charset
      ⟨toLowerASCII typeGeneric, ns, name, version, qualifiers, subpath⟩
    rw [lower_typeGeneric] at hsome
    simp only [normalize]
    cases hnormal : normalForm charset
        ⟨toLowerASCII typeGeneric, ns, name, version, qualifiers, subpath⟩ with
    | none =>
      rw [hnormal] at hsome
      have hvalid : validType typeGeneric = true := by decide
      simp only [Option.isSome_none, Bool.false_eq_true, hvalid, true_and, false_iff] at hsome
      simp [hsome]
    | some normed =>
      rw [hnormal] at hsome
      have htyp : normed.typ = typeGeneric := by
        rw [normalForm_typ charset hnormal]
        exact lower_typeGeneric charset
      have hfacts := (hsome.mp rfl).2
      simp only [validCustomRules_generic charset htyp, true_iff]
      exact ⟨hat, hfacts⟩

/-- What the parser of this project makes of the two results of the other one. -/
def accept (typ : Text) (result generic : PackageURL × Bool) : Option PackageURL := do
  guard (result.2 || (generic.2 && typePattern typ))
  guard (result.1.typ ≠ [] ∧ result.1.name ≠ [])
  return result.1

theorem accept_fromParts (parts : Pieces) :
    accept parts.typ (fromParts charset parts.typ parts.path parts.rawQuery parts.fragment)
      (fromParts charset typeGeneric parts.path parts.rawQuery parts.fragment) =
      parts.read charset := by
  obtain ⟨typ, path, rawQuery, fragment⟩ := parts
  cases hsub : percentDecodeSubpath fragment with
  | none => simp [accept, fromParts, Pieces.read, hsub, noPackageURL]
  | some subpath =>
    cases hqual : parseQualifiers charset rawQuery with
    | none => simp [accept, fromParts, Pieces.read, hsub, hqual, noPackageURL]
    | some qualifiers =>
      cases hsep : separateNamespaceNameVersion (toLowerASCII typ) path with
      | none => simp [accept, fromParts, Pieces.read, hsub, hqual, hsep, noPackageURL]
      | some names =>
        obtain ⟨ns, name, version⟩ := names
        have hgeneric := fromParts_generic charset hsub hqual (separate_eq_some hsep)
        have hsome := normalForm_isSome charset
          ⟨toLowerASCII typ, ns, name, version, qualifiers, subpath⟩
        have hresult : fromParts charset typ path rawQuery fragment =
            normalize charset ⟨toLowerASCII typ, ns, name, version, qualifiers, subpath⟩ := by
          simp [fromParts, hsub, hqual, hsep]
        unfold accept Pieces.read
        simp only [hresult, hsub, hqual, hsep, normalize]
        cases hnormal : normalForm charset
            ⟨toLowerASCII typ, ns, name, version, qualifiers, subpath⟩ with
        | none =>
          -- With a valid type, nothing but the rest of the pieces can be wrong.
          have hreject : ((fromParts charset typeGeneric path rawQuery fragment).2 &&
              typePattern typ) = false := by
            rw [hnormal] at hsome
            rw [Bool.eq_false_iff, ne_eq, Bool.and_eq_true, hgeneric]
            rintro ⟨⟨-, hrest⟩, htyp⟩
            have hvalid : validType (charset.lower (toLowerASCII typ)) = true := by
              rw [lower_toLowerASCII_type charset htyp]
              exact validType_toLowerASCII htyp
            exact absurd (hsome.mpr ⟨hvalid, hrest⟩) (by simp)
          simp [hreject, hnormal]
        | some p =>
          rw [hnormal] at hsome
          have hrest := (hsome.mp rfl).2
          have hcond : (validCustomRules charset p ||
              ((fromParts charset typeGeneric path rawQuery fragment).2 && typePattern typ)) =
                true ↔ validCustomRules charset p = true ∨
                  typePattern typ = true ∧ path.head? ≠ some '@' := by
            rw [Bool.or_eq_true, Bool.and_eq_true, hgeneric]
            constructor
            · rintro (hrules | ⟨⟨hat, -⟩, htyp⟩)
              · exact .inl hrules
              · exact .inr ⟨htyp, hat⟩
            · rintro (hrules | ⟨htyp, hat⟩)
              · exact .inl hrules
              · exact .inr ⟨⟨hat, hrest⟩, htyp⟩
          simp only [hcond, hnormal, Option.bind_eq_bind, Option.bind_some]

variable {before : Text}

theorem versionCut_eq_some (h : versionCut path = some (before, version)) :
    path = before ++ '@' :: version ∧ '@' ∉ version ∧ before ≠ [] := by
  obtain ⟨hlast, hbefore⟩ := Option.filter_eq_some_iff.mp h
  obtain ⟨hpath, hversion⟩ := cutLast_eq_some hlast
  exact ⟨hpath, hversion, of_decide_eq_true hbefore⟩

theorem versionCut_append (hbefore : before ≠ []) (hversion : '@' ∉ version) :
    versionCut (before ++ '@' :: version) = some (before, version) := by
  rw [versionCut, cutLast_append '@' before hversion]
  simp [hbefore]

theorem stripPath_of_some (h : versionCut (path.dropWhile (· = '/')) = some (before, version)) :
    stripPath path = before.rdropWhile (· = '/') ++ '@' :: version := by
  unfold stripPath
  dsimp only
  rw [h]

theorem stripPath_of_none (h : versionCut (path.dropWhile (· = '/')) = none) :
    stripPath path = (path.dropWhile (· = '/')).rdropWhile (· = '/') := by
  unfold stripPath
  dsimp only
  rw [h]

theorem mem_stripPath (h : c ∈ stripPath path) : c ∈ path := by
  have hdrop : ∀ {d}, d ∈ path.dropWhile (· = '/') → d ∈ path :=
    fun hd => (List.dropWhile_sublist _).subset hd
  apply hdrop
  cases hcut : versionCut (path.dropWhile (· = '/')) with
  | none =>
    rw [stripPath_of_none hcut] at h
    exact (List.rdropWhile_prefix _ _).subset h
  | some parts =>
    obtain ⟨before, version⟩ := parts
    rw [stripPath_of_some hcut] at h
    rw [(versionCut_eq_some hcut).1]
    rcases List.mem_append.mp h with h | h
    · have hbefore := (List.rdropWhile_prefix _ _).subset h
      exact List.mem_append_left _ hbefore
    · exact List.mem_append_right _ h

/-- Parsing depends on the pieces only. -/
theorem parse_eq (raw : Text) :
    parse charset raw = (pieces charset raw).bind (Pieces.read charset) := by
  unfold parse pieces stripPathSlashes
  cases hasScheme charset raw with
  | false => simp
  | true =>
    cases hcut : cut '/' (((raw.drop scheme.length).dropWhile (· = '/')).takeWhile isPathChar) with
    | none => simp [hcut]
    | some parts =>
      obtain ⟨typ, path⟩ := parts
      by_cases htyp : typ = []
      · simp [hcut, htyp]
      by_cases hpath : stripPath path = []
      · simp [hcut, htyp, hpath]
      obtain ⟨hrest, hslash⟩ := cut_eq_some hcut
      generalize hall : (raw.drop scheme.length).dropWhile (· = '/') = rest at hcut hrest ⊢
      have hplain : ∀ c ∈ typ ++ '/' :: path, isPathChar c = true := by
        intro c hc
        rw [← hrest] at hc
        exact List.mem_takeWhile_imp hc
      have hplain' : ∀ c ∈ typ ++ '/' :: stripPath path, isPathChar c = true := by
        intro c hc
        apply hplain c
        simp only [List.mem_append, List.mem_cons] at hc ⊢
        rcases hc with hc | hc | hc
        · exact .inl hc
        · exact .inr (.inl hc)
        · exact .inr (.inr (mem_stripPath hc))
      have hsuffix : ∀ c ∈ (rest.dropWhile isPathChar).head?, isPathChar c = false := by
        intro c hc
        have hhead := List.head?_dropWhile_not isPathChar rest
        rw [Option.mem_def.mp hc] at hhead
        exact hhead
      have hgeneric : ∀ c ∈ typeGeneric ++ '/' :: stripPath path, isPathChar c = true := by
        intro c hc
        rcases List.mem_append.mp hc with hc | hc
        · exact List.all_eq_true.mp (by decide : typeGeneric.all isPathChar = true) c hc
        · exact hplain' c (List.mem_append_right _ hc)
      have hdrop : (scheme ++ typ ++ '/' :: stripPath path ++ rest.dropWhile isPathChar).drop
          (scheme.length + typ.length) = '/' :: stripPath path ++ rest.dropWhile isPathChar := by
        rw [List.append_assoc]
        exact List.drop_left' List.length_append
      have hread := accept_fromParts charset ⟨typ, stripPath path,
        (cutOr '?' (cutOr '#' (rest.dropWhile isPathChar)).1).2,
        (cutOr '#' (rest.dropWhile isPathChar)).2⟩
      rw [← fromString_append charset htyp hslash hplain' hsuffix,
        ← fromString_append charset (by decide) (by decide) hgeneric hsuffix] at hread
      simp only [htyp, hpath, ne_eq, not_false_eq_true, guard_true, Option.pure_def,
        Option.bind_eq_bind, Option.bind_some, hcut, hdrop]
      rw [List.append_assoc (scheme ++ typeGeneric)] at hread
      exact hread

end pieces

section reading

variable {charset : Charset}

theorem pieces_eq_some {raw : Text} {parts : Pieces} (h : pieces charset raw = some parts) :
    hasScheme charset raw = true ∧ ∃ path,
      cut '/' ((body raw).takeWhile isPathChar) = some (parts.typ, path) ∧ parts.typ ≠ [] ∧
      parts.path = stripPath path ∧ parts.path ≠ [] ∧
      parts.rawQuery = (cutOr '?' (cutOr '#' ((body raw).dropWhile isPathChar)).1).2 := by
  unfold pieces at h
  simp only [Option.bind_eq_bind, Option.bind_eq_some_iff, Option.guard_eq_some'] at h
  obtain ⟨_, hscheme, ⟨typ, path⟩, hcut, _, htyp, _, hpath, hparts⟩ := h
  cases hparts
  exact ⟨hscheme, path, hcut, htyp, rfl, hpath, rfl⟩

theorem read_eq_some {parts : Pieces} {p : PackageURL} (h : parts.read charset = some p) :
    ∃ subpath qualifiers ns name version,
      parseQualifiers charset parts.rawQuery = some qualifiers ∧
      separateNamespaceNameVersion (toLowerASCII parts.typ) parts.path = some (ns, name, version) ∧
      normalForm charset ⟨toLowerASCII parts.typ, ns, name, version, qualifiers, subpath⟩ = some p ∧
      p.name ≠ [] := by
  unfold Pieces.read at h
  simp only [Option.bind_eq_bind, Option.bind_eq_some_iff, Option.guard_eq_some'] at h
  obtain ⟨subpath, -, qualifiers, hqual, ⟨ns, name, version⟩, hsep, normed, hnormal, _, _, _,
    hnames, hp⟩ := h
  cases hp
  exact ⟨subpath, qualifiers, ns, name, version, hqual, hsep, hnormal, hnames.2⟩

theorem normalForm_eq_some {p normed : PackageURL} (h : normalForm charset p = some normed) :
    validType normed.typ = true ∧ normalizeQualifiers p.qualifiers = some normed.qualifiers ∧
      p.name ≠ [] ∧ normed.typ = charset.lower p.typ ∧
      normed.ns = typeAdjustNamespace charset normed.typ (trimSlashes p.ns) ∧
      normed.name = typeAdjustName charset normed.typ p.name normed.qualifiers ∧
      normed.version = typeAdjustVersion charset normed.typ p.version := by
  unfold normalForm at h
  simp only [Option.bind_eq_bind, Option.bind_eq_some_iff, Option.guard_eq_some'] at h
  obtain ⟨_, hvalid, qualifiers, hqual, _, hname, _, _, hnormed⟩ := h
  cases hnormed
  exact ⟨hvalid, hqual, hname, rfl, rfl, rfl, rfl⟩

/-- The path before the version separator, and the version. -/
def splitVersion (path : Text) : Text × Text :=
  (versionCut path).getD (path, [])

theorem splitVersion_append (path : Text) :
    path = (splitVersion path).1 ∧ (splitVersion path).2 = [] ∨
      path = (splitVersion path).1 ++ '@' :: (splitVersion path).2 := by
  unfold splitVersion
  cases hcut : versionCut path with
  | none => exact .inl ⟨rfl, rfl⟩
  | some parts => exact .inr (versionCut_eq_some hcut).1

theorem split_eq_some {path ns name version : Text}
    (h : splitNamespaceNameVersion path = some (ns, name, version)) :
    pathUnescape (splitVersion path).2 = some version ∧
      pathUnescape (rightmostSplit (splitVersion path).1 '/').2 = some name ∧ name ≠ [] ∧
      ((((rightmostSplit (splitVersion path).1 '/').1.splitOn '/').filter (· ≠ [])).mapM
        pathUnescape).map ['/'].intercalate = some ns := by
  unfold splitNamespaceNameVersion at h
  simp only [Option.bind_eq_bind, Option.bind_eq_some_iff, Option.guard_eq_some'] at h
  obtain ⟨version', hversion, name', hname, segments, hsegments, _, hne, hparts⟩ := h
  cases hparts
  exact ⟨hversion, hname, hne, Option.map_eq_some_iff.mpr ⟨segments, hsegments, rfl⟩⟩

/-- A package URL that is put together from pieces has these pieces. -/
theorem pieces_append {typ path suffix : Text} (htyp : typ ≠ []) (hslash : '/' ∉ typ)
    (hplain : ∀ c ∈ typ ++ '/' :: path, isPathChar c = true)
    (hsuffix : ∀ c ∈ suffix.head?, isPathChar c = false) (hpath : stripPath path ≠ []) :
    pieces charset (scheme ++ typ ++ '/' :: path ++ suffix) =
      some ⟨typ, stripPath path, (cutOr '?' (cutOr '#' suffix).1).2, (cutOr '#' suffix).2⟩ := by
  have hshape : scheme ++ typ ++ '/' :: path ++ suffix =
      scheme ++ ((typ ++ '/' :: path) ++ suffix) := by simp
  have hbody : body (scheme ++ ((typ ++ '/' :: path) ++ suffix)) =
      (typ ++ '/' :: path) ++ suffix := by
    apply body_scheme
    rw [List.append_assoc]
    exact head_typ htyp hslash _
  have hstop : suffix.takeWhile isPathChar = [] ∧ suffix.dropWhile isPathChar = suffix := by
    cases suffix with
    | nil => exact ⟨rfl, rfl⟩
    | cons c rest => simp [hsuffix c rfl]
  have htake : ((typ ++ '/' :: path) ++ suffix).takeWhile isPathChar = typ ++ '/' :: path := by
    rw [List.takeWhile_append_of_pos hplain, hstop.1, List.append_nil]
  have hdrop : ((typ ++ '/' :: path) ++ suffix).dropWhile isPathChar = suffix := by
    rw [List.dropWhile_append_of_pos hplain, hstop.2]
  unfold body at hbody
  unfold pieces
  rw [hshape, hbody, hasScheme_append]
  dsimp only
  rw [htake, hdrop, cut_append hslash]
  simp [htyp, hpath]

end reading

end NriSupplyChain.Purl
