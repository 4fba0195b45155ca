import NriSupplyChain.Sbom.RawComponents

/-!
Package URLs whose path is read as it is written. The parser drops empty segments, strips
the slash before a version and compares types up to case; the raw comparison does not. On
a plain path the two read the same segments, so that an entry which covers the package
still covers it when added qualifiers make the package URL unparsable.
-/

namespace NriSupplyChain.Sbom

open NriSupplyChain.Lib NriSupplyChain.Purl

variable {charset : Charset} {raw : Text} {p : PackageURL} {e : ComponentEntry}

section reading

/-- A path without escapes, and without an empty segment before the version. -/
structure PlainPath (path : Text) : Prop where
  no_escape : '%' ∉ path
  no_gap : [] ∉ (splitVersion path).1.splitOn '/'

variable {path : Text}

theorem trim_of_no_gap {text : Text} (h : [] ∉ text.splitOn '/') :
    text.dropWhile (· = '/') = text ∧ text.rdropWhile (· = '/') = text := by
  constructor
  · cases text with
    | nil => rfl
    | cons c rest =>
      rw [List.splitOn_cons_eq_if_modifyHead] at h
      apply List.dropWhile_cons_of_neg
      grind
  · rcases List.eq_nil_or_concat' text with rfl | ⟨start, c, rfl⟩
    · rfl
    · apply List.rdropWhile_concat_neg
      intro hc
      rw [of_decide_eq_true hc, List.splitOn_append_cons_self] at h
      simp at h

theorem PlainPath.stripPath_eq (h : PlainPath path) : stripPath path = path := by
  have hgap := h.no_gap
  unfold splitVersion at hgap
  cases hcut : versionCut path with
  | none =>
    rw [hcut, Option.getD_none] at hgap
    obtain ⟨hstart, hend⟩ := trim_of_no_gap hgap
    rw [stripPath_of_none (by rw [hstart]; exact hcut), hstart, hend]
  | some parts =>
    obtain ⟨before, version⟩ := parts
    rw [hcut, Option.getD_some] at hgap
    obtain ⟨hpath, -, hbefore⟩ := versionCut_eq_some hcut
    obtain ⟨hstart, hend⟩ := trim_of_no_gap hgap
    have hwhole : path.dropWhile (· = '/') = path := by
      rw [hpath, List.dropWhile_append, hstart, if_neg (by simpa using hbefore)]
    rw [stripPath_of_some (by rw [hwhole]; exact hcut), hend, hpath]

theorem mapM_pathUnescape {parts : List Text} (h : ∀ part ∈ parts, '%' ∉ part) :
    parts.mapM pathUnescape = some parts := by
  induction parts with
  | nil => rfl
  | cons part parts ih =>
    rw [List.forall_mem_cons] at h
    exact mapM_cons_eq_some.mpr ⟨part, parts, pathUnescape_no_percent h.1, ih h.2, rfl⟩

/-- The parser reads the segments and the version as they are written. -/
theorem PlainPath.split_eq {ns name version : Text} (h : PlainPath path)
    (hsplit : splitNamespaceNameVersion path = some (ns, name, version)) :
    ((trimSlashes ns).splitOn '/').filter (· ≠ []) ++ [name] = (splitVersion path).1.splitOn '/' ∧
      version = (splitVersion path).2 := by
  obtain ⟨hversion, hname, -, hns⟩ := split_eq_some hsplit
  have hgap := h.no_gap
  have hescape : '%' ∉ (splitVersion path).1 ∧ '%' ∉ (splitVersion path).2 := by
    have hwhole := h.no_escape
    rcases splitVersion_append path with ⟨hpath, hnil⟩ | hpath <;> rw [hpath] at hwhole
    · simp [hwhole, hnil]
    · simpa using hwhole
  rw [pathUnescape_no_percent hescape.2] at hversion
  refine ⟨?_, (Option.some.inj hversion).symm⟩
  replace hescape := hescape.1
  generalize (splitVersion path).1 = before at hname hns hgap hescape ⊢
  unfold rightmostSplit at hname hns
  cases hcut : cutLast '/' before with
  | none =>
    rw [hcut] at hname hns
    cases (pathUnescape_no_percent hescape).symm.trans hname
    cases hns
    rw [List.splitOn_eq_singleton (cutLast_eq_none_iff.mp hcut)]
    rfl
  | some pair =>
    obtain ⟨space, last⟩ := pair
    obtain ⟨rfl, hlast⟩ := cutLast_eq_some hcut
    rw [List.splitOn_append_cons_self, List.mem_append, not_or] at hgap
    simp only [List.mem_append, List.mem_cons, not_or] at hescape
    rw [hcut, Option.getD_some] at hname hns
    cases (pathUnescape_no_percent hescape.2.2).symm.trans hname
    have hsegments : (space.splitOn '/').filter (· ≠ []) = space.splitOn '/' := by
      rw [List.filter_eq_self]
      intro part hpart
      apply decide_eq_true
      rintro rfl
      exact hgap.1 hpart
    rw [hsegments, mapM_pathUnescape fun part hpart =>
      not_mem_of_splitOn hescape.1 (by decide) hpart] at hns
    cases (congrArg some (List.intercalate_splitOn '/')).symm.trans hns
    obtain ⟨hstart, hend⟩ := trim_of_no_gap hgap.1
    rw [trimSlashes, hstart, hend, hsegments, List.splitOn_append_cons_self,
      List.splitOn_eq_singleton hlast]

theorem filter_lowered (text : Text) : ((charset.lower text).splitOn '/').filter (· ≠ []) =
    ((text.splitOn '/').filter (· ≠ [])).map charset.lower := by
  rw [charset.lower_splitOn (by decide) (by decide) (by decide), List.filter_map]
  congr 1
  apply List.filter_congr
  intro part _
  have hiff : charset.lower part = [] ↔ part = [] :=
    ⟨fun h => by_contra fun hne => charset.lower_ne_nil part hne h, fun h => h ▸ charset.lower_nil⟩
  simp [hiff]

/-- A component is compared by the segments that are written. A PyPI name is compared in
its normal form. -/
theorem componentPath_plain (hparse : parse charset raw = some p) (hpypi : p.typ ≠ typePyPI)
    (h : PlainPath (writtenPath raw)) :
    componentPath charset p =
        ((splitVersion (writtenPath raw)).1.splitOn '/').map charset.lower ∧
      charset.lower p.version = charset.lower (splitVersion (writtenPath raw)).2 := by
  have hcanonical := parse_canonical hparse
  rw [parse_eq] at hparse
  obtain ⟨parts, hpieces, hread⟩ := Option.bind_eq_some_iff.mp hparse
  obtain ⟨hscheme, path, hcut, -, hpath, -⟩ := pieces_eq_some hpieces
  obtain ⟨_, _, ns, name, version, _, hseparate, hnormal, _⟩ := read_eq_some hread
  obtain ⟨_, _, _, _, hns, hname, hversion⟩ := normalForm_eq_some hnormal
  have hwritten : writtenPath raw = path := by
    rw [← body_stripQualifiers hscheme] at hcut
    rw [writtenPath, hcut]
    rfl
  rw [hwritten] at h ⊢
  rw [hpath, h.stripPath_eq] at hseparate
  obtain ⟨hsegments, rfl⟩ := h.split_eq (separate_eq_some hseparate)
  constructor
  · have hlower := comparedName_adjusted hcanonical name p.qualifiers
    rw [comparedName, comparedName, normalizeName_eq hcanonical name, if_neg hpypi] at hlower
    rw [componentPath, hname, hlower, hns, lower_adjustedNamespace, filter_lowered, ← hsegments,
      List.map_append]
    rfl
  · rw [hversion]
    unfold typeAdjustVersion
    split
    · exact charset.lower_lower _
    · rfl

end reading

section spelling

/-- What is behind a boundary is lowered on its own. -/
theorem lower_boundary (charset : Charset) {boundaries rest : Text}
    (h : atBoundary boundaries rest = true)
    (hplain : boundaries.all (fun c => c.toNat < 128 ∧ c.toLower = c) = true) (text : Text) :
    ∃ tail, charset.lower (text ++ rest) = charset.lower text ++ tail ∧
      atBoundary boundaries tail = true := by
  cases rest with
  | nil => exact ⟨[], by simp, rfl⟩
  | cons c rest =>
    obtain ⟨hascii, hlower⟩ :=
      of_decide_eq_true (List.all_eq_true.mp hplain c (of_decide_eq_true h))
    refine ⟨c :: charset.lower rest, ?_, h⟩
    rw [charset.lower_ascii _ _ _ hascii, hlower]

/-- A plain path spells each entry that covers the package. -/
theorem spelled_of_covers (hparse : parse charset raw = some p)
    (hmatch : e.matchesComponent charset p = true) (hpypi : p.typ ≠ typePyPI)
    (h : PlainPath (writtenPath raw)) (hpath : e.path ≠ []) :
    e.Spelled charset (spelledPath charset p.typ (writtenPath raw)) := by
  obtain ⟨hcomponent, hversion⟩ := componentPath_plain hparse hpypi h
  have hdecoded : lenientUnescape (writtenPath raw) = writtenPath raw := by
    have hplain := lenientUnescape_plain h.no_escape []
    rwa [lenientUnescape, List.append_nil] at hplain
  rw [spelledPath, if_neg hpypi, hdecoded]
  have hwhole := splitVersion_append (writtenPath raw)
  generalize (splitVersion (writtenPath raw)).1 = before at hcomponent hwhole
  generalize (splitVersion (writtenPath raw)).2 = version at hversion hwhole
  unfold ComponentEntry.matchesComponent at hmatch
  simp only [Bool.and_eq_true, hcomponent, List.isPrefixOf_iff_prefix, Bool.or_eq_true,
    decide_eq_true_eq, List.length_map] at hmatch
  obtain ⟨⟨⟨⟨-, hprefix⟩, hcovers⟩, -⟩, -⟩ := hmatch
  -- the segments that the entry names, as they are written
  have hsegments : e.path = ((before.splitOn '/').take e.path.length).map charset.lower := by
    rw [List.map_take]
    exact List.prefix_iff_eq_take.mp hprefix
  have hsplit := List.take_append_drop e.path.length (before.splitOn '/')
  generalize (before.splitOn '/').take e.path.length = first at hsegments hsplit
  have hnamed : charset.lower (['/'].intercalate e.path) =
      charset.lower (['/'].intercalate first) := by
    rw [hsegments, ← charset.lower_intercalate (by decide) (by decide), charset.lower_lower]
  have hne : first ≠ [] := by
    rintro rfl
    exact hpath hsegments
  have hjoin := intercalate_append '/' hne ((before.splitOn '/').drop e.path.length)
  rw [hsplit, List.intercalate_splitOn] at hjoin
  unfold ComponentEntry.Spelled ComponentEntry.named ComponentEntry.boundaries
  rw [hnamed]
  by_cases hnil : e.version = []
  · obtain ⟨rest, hrest, hboundary⟩ : ∃ rest, writtenPath raw = ['/'].intercalate first ++ rest ∧
        atBoundary "/@?#".toList rest = true := by
      split at hjoin <;> rcases hwhole with ⟨hwhole, -⟩ | hwhole <;> rw [hwhole, hjoin]
      · exact ⟨[], rfl, rfl⟩
      · exact ⟨'@' :: version, by simp, rfl⟩
      · exact ⟨_, rfl, rfl⟩
      · exact ⟨_, List.append_assoc _ _ _, rfl⟩
    obtain ⟨tail, htail, hend⟩ :=
      lower_boundary charset hboundary (by decide) (['/'].intercalate first)
    refine ⟨tail, ?_, by rw [if_pos hnil]; exact hend⟩
    rw [if_pos hnil, List.append_nil, hrest, htail]
  · obtain ⟨hlength, hmatches⟩ := hcovers.resolve_left hnil
    rw [hlength, List.drop_length, if_pos rfl, List.append_nil] at hjoin
    rw [versionMatches, Bool.and_eq_true, List.isPrefixOf_iff_prefix] at hmatches
    obtain ⟨⟨rest, hrest⟩, hboundary⟩ := hmatches
    rw [← hrest, List.drop_left' rfl] at hboundary
    obtain ⟨tail, htail, hend⟩ := lower_boundary charset hboundary (by decide) e.version
    rw [hrest, hversion] at htail
    refine ⟨tail, ?_, ?_⟩
    · rcases hwhole with ⟨-, rfl⟩ | hwhole
      · rw [charset.lower_nil] at htail
        exact absurd (List.append_eq_nil_iff.mp htail.symm).1 (charset.lower_ne_nil _ hnil)
      · have hat : ('@' : Char).toLower = '@' := by decide
        rw [hwhole, charset.lower_ascii _ _ _ (by decide), hat, htail, hjoin, if_neg hnil]
        simp
    · rw [if_neg hnil]
      cases tail with
      | nil => rfl
      | cons c tail =>
        have hmem : c ∈ ".-+".toList := of_decide_eq_true hend
        exact decide_eq_true (List.mem_append_left "?#".toList hmem)

/-- Added qualifiers hide no package with a plain path from an entry with an ASCII type.
PyPI packages are excepted: there the raw comparison normalizes a namespace with the
name. -/
theorem raw_deny_covers_plain {entry : Text} (hentry : parseComponentEntry charset entry = some e)
    (hparse : parse charset raw = some p) (hmatch : e.matchesComponent charset p = true)
    (hascii : isAscii e.typ) (hpypi : p.typ ≠ typePyPI) (h : PlainPath (writtenPath raw))
    {added : Text} (hadds : AddsQualifiers raw added) :
    e.matchesRaw charset (normalizeRawPURL charset added) = true := by
  have hcanonical := parse_canonical hparse
  refine matchesRaw_of_spelled hentry hparse ?_ ?_ hadds
  · have hfold := hmatch
    simp only [ComponentEntry.matchesComponent, Bool.and_eq_true, and_assoc] at hfold
    have hplain : isAscii p.typ := validWord_ascii (by decide) hcanonical.valid
    rw [charset.equalFold_ascii _ _ hascii hplain, decide_eq_true_eq] at hfold
    rw [charset.lower_of_ascii hascii, hfold.1, ← charset.lower_of_ascii hplain]
    exact hcanonical.lowered
  · by_cases hpath : e.path = []
    · exact .inl hpath
    · exact .inr (spelled_of_covers hparse hmatch hpypi h hpath)

end spelling

end NriSupplyChain.Sbom
