import NriSupplyChain.Feed.Matcher
import NriSupplyChain.Purl.Identity

/-!
The filter that runs before a package URL is parsed. It splits the text on its own
and compares only the name. A match is hidden where the two splits disagree about
the name, or where another namespace and name have the same key.
-/

namespace NriSupplyChain.Feed

open NriSupplyChain.Lib NriSupplyChain.Purl

variable {charset : Charset}

section segments

/-- The text behind the last slash. -/
def lastSegment (path : Text) : Text :=
  (rightmostSplit path '/').2

variable {path : Text}

theorem lastSegment_of_no_slash (h : '/' ∉ path) : lastSegment path = path := by
  unfold lastSegment rightmostSplit
  rw [cutLast_eq_none_iff.mpr h]
  rfl

theorem lastSegment_append (before : Text) (path : Text) :
    lastSegment (before ++ '/' :: path) = lastSegment path := by
  by_cases h : '/' ∈ path
  · obtain ⟨start, tail, rfl, htail⟩ : ∃ start tail, path = start ++ '/' :: tail ∧ '/' ∉ tail := by
      cases hcut : cutLast '/' path with
      | none => exact absurd h (cutLast_eq_none_iff.mp hcut)
      | some parts => exact ⟨parts.1, parts.2, cutLast_eq_some hcut⟩
    have hshape : before ++ '/' :: (start ++ '/' :: tail) =
        (before ++ '/' :: start) ++ '/' :: tail := by simp
    unfold lastSegment rightmostSplit
    rw [hshape, cutLast_append '/' _ htail, cutLast_append '/' _ htail]
    rfl
  · rw [lastSegment_of_no_slash h]
    unfold lastSegment rightmostSplit
    rw [cutLast_append '/' before h]
    rfl

/-- Slashes before a path do not change its last segment. -/
theorem lastSegment_slashes {slashes : Text} (h : ∀ c ∈ slashes, c = '/') (path : Text) :
    lastSegment (slashes ++ path) = lastSegment path := by
  cases slashes using List.reverseRecOn with
  | nil => rfl
  | append_singleton start c =>
    have hc : c = '/' := h c (by simp)
    rw [hc, List.append_assoc, List.singleton_append]
    exact lastSegment_append start path

theorem lastSegment_append_of_mem (h : '/' ∈ path) (before : Text) :
    lastSegment (before ++ path) = lastSegment path := by
  obtain ⟨start, tail, rfl⟩ := List.append_of_mem h
  rw [← List.append_assoc, lastSegment_append, lastSegment_append]

theorem lastSegment_ne_nil (hne : path ≠ []) (hend : path.rdropWhile (· = '/') = path) :
    lastSegment path ≠ [] := by
  intro hnil
  unfold lastSegment rightmostSplit at hnil
  cases hcut : cutLast '/' path with
  | none =>
    rw [hcut] at hnil
    exact hne hnil
  | some parts =>
    obtain ⟨before, behind⟩ := parts
    rw [hcut] at hnil
    cases (show behind = [] from hnil)
    rw [(cutLast_eq_some hcut).1, List.rdropWhile_concat_pos _ _ _ (by simp)] at hend
    have hlen := (List.rdropWhile_prefix (fun c => decide (c = '/')) before).length_le
    rw [hend] at hlen
    simp at hlen

end segments

section filter

/-- The text that the filter takes for the name: the end of the version, where that
holds a slash. -/
def seenText (path : Text) : Text :=
  let (before, version) := splitVersion path
  let version := version.rdropWhile (· = '/')
  lastSegment (if '/' ∈ version then version else before)

/-- The name that the filter sees. -/
def seenName (path : Text) : Text :=
  (pathUnescape (seenText path)).getD (seenText path)

/-- The path without what the filter takes for a version. -/
def fastPath (path : Text) : Text :=
  match cutLast '@' path with
  | some (before, version) => if '/' ∈ version then path else before
  | none => path

variable {path : Text}

/-- Dropping slashes from the end of a path that does not start with one. -/
theorem rdropWhile_slashes (hne : path ≠ []) (hhead : path.head? ≠ some '/') (slashes : Text) :
    (slashes ++ path).rdropWhile (· = '/') =
      slashes ++ path.rdropWhile (· = '/') ∧ path.rdropWhile (· = '/') ≠ [] := by
  cases path with
  | nil => exact absurd rfl hne
  | cons c rest =>
    have hc : decide (c = '/') = false := by
      apply decide_eq_false
      rintro rfl
      exact hhead rfl
    have hshort := rdropWhile_append_cons (p := fun c => decide (c = '/')) hc [] rest
    rw [List.nil_append] at hshort
    rw [hshort, rdropWhile_append_cons (p := fun c => decide (c = '/')) hc]
    exact ⟨rfl, by simp⟩

theorem dropWhile_slashes (path : Text) : ∃ slashes : Text, (∀ c ∈ slashes, c = '/') ∧
    path = slashes ++ path.dropWhile (· = '/') ∧
      (path.dropWhile (· = '/')).head? ≠ some '/' := by
  refine ⟨path.takeWhile (· = '/'), ?_, List.takeWhile_append_dropWhile.symm, ?_⟩
  · intro c hc
    have hslash := List.mem_takeWhile_imp hc
    exact of_decide_eq_true hslash
  · intro hhead
    have hnot := List.head?_dropWhile_not (fun c => decide (c = '/')) path
    rw [hhead] at hnot
    simp at hnot

theorem versionCut_none (h : versionCut path = none) :
    '@' ∉ path ∨ ∃ rest, path = '@' :: rest ∧ '@' ∉ rest := by
  unfold versionCut at h
  cases hcut : cutLast '@' path with
  | none => exact .inl (cutLast_eq_none_iff.mp hcut)
  | some parts =>
    obtain ⟨before, rest⟩ := parts
    obtain ⟨hpath, hrest⟩ := cutLast_eq_some hcut
    rw [hcut, Option.filter_eq_none_iff] at h
    have hbefore : before = [] := by simpa using h (before, rest) rfl
    rw [hbefore] at hpath
    exact .inr ⟨rest, hpath, hrest⟩

theorem versionCut_eq_none (h : '@' ∉ path ∨ ∃ rest, path = '@' :: rest ∧ '@' ∉ rest) :
    versionCut path = none := by
  unfold versionCut
  rcases h with h | ⟨rest, rfl, hrest⟩
  · rw [cutLast_eq_none_iff.mpr h]
    rfl
  · have hcut : cutLast '@' ('@' :: rest) = some ([], rest) := cutLast_append '@' [] hrest
    rw [hcut]
    simp

theorem splitVersion_none (h : versionCut path = none) : splitVersion path = (path, []) := by
  rw [splitVersion, h]
  rfl

theorem not_mem_rdropWhile {c : Char} (h : c ∉ path) : c ∉ path.rdropWhile (· = '/') :=
  fun hmem => h ((List.rdropWhile_prefix _ _).subset hmem)

/-- The filter finds the text of the name as described. -/
theorem lastSegment_fastPath (hne : stripPath path ≠ [])
    (hscope : (stripPath path).head? = some '@' → '/' ∈ stripPath path) :
    lastSegment ((fastPath (path.rdropWhile (· = '/'))).rdropWhile (· = '/')) =
      seenText (stripPath path) := by
  obtain ⟨slashes, hslashes, hpath, hhead⟩ := dropWhile_slashes path
  generalize hq : path.dropWhile (· = '/') = q at hpath hhead
  cases hcut : versionCut q with
  | some parts =>
    obtain ⟨before, version⟩ := parts
    obtain ⟨rfl, hversion, hbefore⟩ := versionCut_eq_some hcut
    have hstart : before.head? ≠ some '/' := by
      cases before with
      | nil => exact absurd rfl hbefore
      | cons c rest => exact hhead
    obtain ⟨hdrop, hleft⟩ := rdropWhile_slashes hbefore hstart slashes
    have hat : decide (('@' : Char) = '/') = false := by decide
    have htrim : path.rdropWhile (· = '/') =
        (slashes ++ before) ++ '@' :: version.rdropWhile (· = '/') := by
      rw [hpath, ← List.append_assoc]
      exact rdropWhile_append_cons (p := fun c => decide (c = '/')) hat _ _
    have hseen : splitVersion (stripPath path) = (before.rdropWhile (· = '/'), version) := by
      rw [stripPath_of_some (by rw [hq]; exact hcut), splitVersion,
        versionCut_append hleft hversion]
      rfl
    have hfast : cutLast '@' (path.rdropWhile (· = '/')) =
        some (slashes ++ before, version.rdropWhile (· = '/')) := by
      rw [htrim]
      exact cutLast_append '@' _ (not_mem_rdropWhile hversion)
    unfold fastPath seenText
    rw [hfast, hseen]
    dsimp only
    by_cases hslash : '/' ∈ version.rdropWhile (· = '/')
    · rw [if_pos hslash, if_pos hslash, List.rdropWhile_idempotent, htrim]
      have hmem : '/' ∈ '@' :: version.rdropWhile (· = '/') := List.mem_cons_of_mem _ hslash
      rw [lastSegment_append_of_mem hmem]
      exact lastSegment_append_of_mem hslash ['@']
    · rw [if_neg hslash, if_neg hslash, hdrop, lastSegment_slashes hslashes]
  | none =>
    have hstrip : stripPath path = q.rdropWhile (· = '/') := by
      rw [stripPath_of_none (by rw [hq]; exact hcut), hq]
    rw [hstrip] at hne hscope ⊢
    have hqne : q ≠ [] := by
      rintro rfl
      exact hne rfl
    have htrim : path.rdropWhile (· = '/') = slashes ++ q.rdropWhile (· = '/') := by
      rw [hpath]
      exact (rdropWhile_slashes hqne hhead slashes).1
    have hnoAt : '@' ∉ slashes := fun hmem => absurd (hslashes '@' hmem) (by decide)
    have hwhole : fastPath (path.rdropWhile (· = '/')) = path.rdropWhile (· = '/') ∧
        versionCut (q.rdropWhile (· = '/')) = none := by
      rcases versionCut_none hcut with hno | ⟨rest, rfl, hrest⟩
      · have hno' : '@' ∉ q.rdropWhile (· = '/') := not_mem_rdropWhile hno
        refine ⟨?_, versionCut_eq_none (.inl hno')⟩
        unfold fastPath
        rw [htrim, cutLast_eq_none_iff.mpr (by simp [hnoAt, hno'])]
      · -- A scope: the only `@` starts the path, and a slash follows.
        have hat : decide (('@' : Char) = '/') = false := by decide
        have hrdrop : ('@' :: rest).rdropWhile (· = '/') = '@' :: rest.rdropWhile (· = '/') :=
          rdropWhile_append_cons (p := fun c => decide (c = '/')) hat [] rest
        rw [hrdrop] at hscope htrim ⊢
        have hslash : '/' ∈ rest.rdropWhile (· = '/') := by
          rcases List.mem_cons.mp (hscope rfl) with hbad | hmem
          · exact absurd hbad (by decide)
          · exact hmem
        have hrest' : '@' ∉ rest.rdropWhile (· = '/') := not_mem_rdropWhile hrest
        refine ⟨?_, versionCut_eq_none (.inr ⟨_, rfl, hrest'⟩)⟩
        unfold fastPath
        rw [htrim, cutLast_append '@' _ hrest']
        dsimp only
        rw [if_pos hslash]
    rw [hwhole.1, List.rdropWhile_idempotent, htrim, lastSegment_slashes hslashes]
    unfold seenText
    rw [splitVersion_none hwhole.2]
    rfl

theorem stripPath_ne_nil (h : stripPath path ≠ []) : path.rdropWhile (· = '/') ≠ [] := by
  obtain ⟨slashes, -, hpath, hhead⟩ := dropWhile_slashes path
  generalize hq : path.dropWhile (· = '/') = q at hpath hhead
  have hqne : q ≠ [] := by
    rintro rfl
    apply h
    rw [stripPath_of_none (by rw [hq]; rfl), hq]
    rfl
  obtain ⟨hdrop, hne⟩ := rdropWhile_slashes hqne hhead slashes
  rw [hpath, hdrop]
  simp [hne]

/-- The segment that the filter takes for the name is not empty. -/
theorem seenText_ne_nil (h : lastSegment (splitVersion path).1 ≠ []) : seenText path ≠ [] := by
  unfold seenText
  dsimp only
  split
  · next hslash =>
    exact lastSegment_ne_nil (List.ne_nil_of_mem hslash) (List.rdropWhile_idempotent _ _)
  · exact h

theorem seenName_eq (path : Text) : seenName path =
    if '%' ∈ seenText path then (pathUnescape (seenText path)).getD (seenText path)
    else seenText path := by
  unfold seenName
  split
  · rfl
  · next hno => rw [pathUnescape_no_percent hno, Option.getD_some]

theorem seenName_ne_nil (h : lastSegment (splitVersion path).1 ≠ []) : seenName path ≠ [] := by
  have htext : seenText path ≠ [] := seenText_ne_nil h
  unfold seenName
  cases hdecode : pathUnescape (seenText path) with
  | none => exact htext
  | some decoded => exact pathUnescape_ne_nil hdecode htext

/-- For a package URL that parses, the filter reads the type as written and the name
that it sees. -/
theorem typeAndName_read (raw : Text) : typeAndName charset raw = do
    guard (hasScheme charset raw)
    let (typ, path) ← cut '/' (((body raw).takeWhile isPathChar).rdropWhile (· = '/'))
    guard (path ≠ [])
    let text := lastSegment ((fastPath path).rdropWhile (· = '/'))
    let name := if '%' ∈ text then (pathUnescape text).getD text else text
    guard (name ≠ [])
    return (typ, name) := rfl

theorem typeAndName_eq {raw : Text} {parts : Pieces} (h : pieces charset raw = some parts)
    (hscope : parts.path.head? = some '@' → '/' ∈ parts.path)
    (hname : lastSegment (splitVersion parts.path).1 ≠ []) :
    typeAndName charset raw = some (parts.typ, seenName parts.path) := by
  obtain ⟨hscheme, path, hcut, htyp, hpath, hne, -⟩ := pieces_eq_some h
  have hseen : seenName parts.path ≠ [] := seenName_ne_nil hname
  rw [hpath] at hne hscope hseen ⊢
  have htrim : path.rdropWhile (· = '/') ≠ [] := stripPath_ne_nil hne
  obtain ⟨hmain, hslash⟩ := cut_eq_some hcut
  have hcut' : cut '/' (((body raw).takeWhile isPathChar).rdropWhile (· = '/')) =
      some (parts.typ, path.rdropWhile (· = '/')) := by
    have hshape : parts.typ ++ '/' :: path = (parts.typ ++ ['/']) ++ path := by simp
    rw [hmain, hshape, rdropWhile_append_of_ne_nil htrim, List.append_assoc]
    exact cut_append hslash _
  have hsegment := lastSegment_fastPath hne hscope
  rw [typeAndName_read, hscheme, hcut', seenName_eq]
  rw [seenName_eq] at hseen
  simp only [guard_true, Option.pure_def, Option.bind_eq_bind, Option.bind_some, hsegment, htrim,
    ne_eq, not_false_eq_true, hseen]

end filter

section conditions

/-- The filter sees the name of the package. It reads the type as written, and takes
the end of a version that holds a slash for the name. -/
def NameSeen (charset : Charset) (raw : Text) (p : PackageURL) : Prop :=
  ∃ parts, pieces charset raw = some parts ∧
    comparedName charset parts.typ (seenName parts.path) = comparedName charset p.typ p.name

/-- Every namespace and name with the key of the package have its name. -/
def OneReading (charset : Charset) (p : PackageURL) : Prop :=
  ∀ ns name, name ≠ [] → trimSlashes ns = ns →
    keyPath charset p.typ ns name = keyPath charset p.typ p.ns p.name →
      comparedName charset p.typ name = comparedName charset p.typ p.name

variable {p : PackageURL} {raw : Text}

theorem parse_pieces (h : parse charset raw = some p) :
    ∃ parts, pieces charset raw = some parts ∧
      typeAndName charset raw = some (parts.typ, seenName parts.path) := by
  rw [parse_eq] at h
  obtain ⟨parts, hpieces, hread⟩ := Option.bind_eq_some_iff.mp h
  obtain ⟨_, _, ns, name, version, _, hsep, _, _⟩ := read_eq_some hread
  obtain ⟨_, hname, hne, _⟩ := split_eq_some (separate_eq_some hsep)
  refine ⟨parts, hpieces, typeAndName_eq hpieces ?_ ?_⟩
  · intro hat
    by_contra hno
    unfold separateNamespaceNameVersion at hsep
    rw [if_pos ⟨hat, .inr hno⟩] at hsep
    cases hsep
  · intro hnil
    unfold lastSegment at hnil
    rw [hnil] at hname
    exact hne (Option.some.inj hname).symm

theorem mayMatch_iff (h : parse charset raw = some p)
    (hup : ¬ upstreamQualifier <:+: charset.lower raw) (m : Matcher) :
    m.mayMatch charset raw = true ↔ ∃ parts, pieces charset raw = some parts ∧
      comparedName charset parts.typ (seenName parts.path) ∈ m.names := by
  obtain ⟨parts, hpieces, hread⟩ := parse_pieces h
  unfold Matcher.mayMatch
  rw [if_neg hup, hread]
  constructor
  · intro hmem
    exact ⟨parts, hpieces, of_decide_eq_true hmem⟩
  · rintro ⟨parts', hpieces', hmem⟩
    cases hpieces.symm.trans hpieces'
    exact decide_eq_true hmem

theorem matchesKey_iff (feed : List Text) (k version : Text) :
    (newMatcher charset feed).matchesKey charset k version = true ↔
      ∃ raw ∈ feed, ∃ q, parse charset raw = some q ∧ key charset q = k ∧
        (newSpec q).matchesVersion charset version = true := by
  unfold Matcher.matchesKey newMatcher
  rw [List.any_eq_true]
  constructor
  · rintro ⟨⟨specKey, spec⟩, hmem, hmatch⟩
    obtain ⟨q, hq, hspec⟩ := List.mem_map.mp hmem
    cases hspec
    obtain ⟨raw, hraw, hparse⟩ := List.mem_filterMap.mp hq
    rw [Bool.and_eq_true] at hmatch
    exact ⟨raw, hraw, q, hparse, of_decide_eq_true hmatch.1, hmatch.2⟩
  · rintro ⟨raw, hraw, q, hparse, hkey, hversion⟩
    refine ⟨(key charset q, newSpec q), ?_, ?_⟩
    · exact List.mem_map.mpr ⟨q, List.mem_filterMap.mpr ⟨raw, hraw, hparse⟩, rfl⟩
    · rw [Bool.and_eq_true]
      exact ⟨decide_eq_true hkey, hversion⟩

/-- Without an upstream package, the keys decide. -/
theorem matchesFully_iff (h : parse charset raw = some p)
    (hup : ¬ upstreamQualifier <:+: charset.lower raw) (feed : List Text) :
    (newMatcher charset feed).matchesFully charset raw = true ↔
      ∃ spec ∈ feed, ∃ q, parse charset spec = some q ∧ key charset q = key charset p ∧
        (newSpec q).matchesVersion charset p.version = true := by
  have hnone : upstreamKey charset p = none := by
    cases hsource : upstreamKey charset p with
    | none => rfl
    | some source => exact absurd (upstreamKey_visible h hsource) hup
  unfold Matcher.matchesFully Matcher.matchesParsed
  rw [h, Option.any_some, hnone, Bool.or_false, matchesKey_iff]

theorem newSpec_matches_own (p : PackageURL) :
    (newSpec p).matchesVersion charset p.version = true := by
  unfold MatchSpec.matchesVersion
  by_cases hversion : p.version = []
  · simp [hversion]
  · have hself := versionsEqual_self charset p.version
    simp [newSpec, hversion, hself]

/-- A spec without a version and constraints matches each version. -/
theorem newSpec_matches_all (hversion : p.version = []) (hqual : p.qualifiers = [])
    (version : Text) : (newSpec p).matchesVersion charset version = true := by
  have hnone : readConstraints p = [] := by
    unfold readConstraints
    rw [hqual]
    rfl
  unfold MatchSpec.matchesVersion
  simp [newSpec, hversion, hnone]

theorem mem_names {feed : List Text} {name : Text} : name ∈ (newMatcher charset feed).names ↔
    ∃ raw ∈ feed, ∃ q, parse charset raw = some q ∧ comparedName charset q.typ q.name = name := by
  unfold newMatcher
  simp only [List.mem_map, List.mem_filterMap]
  constructor
  · rintro ⟨q, ⟨raw, hraw, hparse⟩, hname⟩
    exact ⟨raw, hraw, q, hparse, hname⟩
  · rintro ⟨raw, hraw, q, hparse, hname⟩
    exact ⟨q, ⟨raw, hraw, hparse⟩, hname⟩

/-- The namespace of a parsed package, before it was lowered. -/
theorem parse_namespace (h : parse charset raw = some p) :
    p.name ≠ [] ∧ ∃ ns, trimSlashes ns = ns ∧ charset.lower p.ns = charset.lower ns := by
  rw [parse_eq] at h
  obtain ⟨parts, -, hread⟩ := Option.bind_eq_some_iff.mp h
  obtain ⟨_, _, ns, _, _, _, _, hnormal, hname⟩ := read_eq_some hread
  obtain ⟨_, _, _, _, hns, _, _⟩ := normalForm_eq_some hnormal
  refine ⟨hname, trimSlashes ns, ?_, ?_⟩
  · exact trimSlashes_idem ns
  · rw [hns]
    exact lower_adjustedNamespace _ _

/-- The filter hides no match of a package URL from any feed exactly if the text says
that there may be an upstream package, or the filter sees the name and the key can be
read in one way only. -/
theorem filter_hides_nothing_iff (charset : Charset) (raw : Text) :
    (∀ feed, (newMatcher charset feed).matchesFully charset raw = true →
      (newMatcher charset feed).mayMatch charset raw = true) ↔
    ∀ p, parse charset raw = some p → upstreamQualifier <:+: charset.lower raw ∨
      (NameSeen charset raw p ∧ OneReading charset p) := by
  constructor
  · intro hkeeps p hparse
    by_cases hup : upstreamQualifier <:+: charset.lower raw
    · exact .inl hup
    obtain ⟨parts, hpieces, -⟩ := parse_pieces hparse
    -- Whatever feed matches, the name that the filter sees is one of the feed.
    have hseen : ∀ spec q, parse charset spec = some q → key charset q = key charset p →
        (newSpec q).matchesVersion charset p.version = true →
          comparedName charset parts.typ (seenName parts.path) =
            comparedName charset q.typ q.name := by
      intro spec q hspec hkey hversion
      have hmatch := (matchesFully_iff hparse hup [spec]).mpr
        ⟨spec, List.mem_singleton_self spec, q, hspec, hkey, hversion⟩
      obtain ⟨parts', hpieces', hmem⟩ := (mayMatch_iff hparse hup _).mp (hkeeps [spec] hmatch)
      cases hpieces.symm.trans hpieces'
      obtain ⟨raw', hraw', q', hq', hname⟩ := mem_names.mp hmem
      cases List.mem_singleton.mp hraw'
      cases hspec.symm.trans hq'
      exact hname.symm
    have hown := hseen raw p hparse rfl (newSpec_matches_own p)
    refine .inr ⟨⟨parts, hpieces, hown⟩, ?_⟩
    intro ns name hname htrim hpath
    have hcanonical := parse_canonical hparse
    have hrender := parse_render hcanonical ns hname
    rw [htrim] at hrender
    have hversion : typeAdjustVersion charset p.typ [] = [] := by
      unfold typeAdjustVersion
      split
      · exact charset.lower_nil
      · rfl
    rw [hversion] at hrender
    have hother := hseen _ _ hrender ?_ (newSpec_matches_all rfl rfl _)
    · rw [← hown, hother]
      exact (comparedName_adjusted hcanonical name []).symm
    · refine key_congr hcanonical rfl (Eq.trans ?_ hpath)
      unfold keyPath
      rw [lower_adjustedNamespace, comparedName_adjusted hcanonical]
  · intro hcond feed hmatch
    cases hparse : parse charset raw with
    | none =>
      unfold Matcher.matchesFully at hmatch
      rw [hparse] at hmatch
      cases hmatch
    | some p =>
      by_cases hup : upstreamQualifier <:+: charset.lower raw
      · unfold Matcher.mayMatch
        rw [if_pos hup]
      · obtain ⟨⟨parts, hpieces, hseen⟩, hone⟩ := (hcond p hparse).resolve_left hup
        obtain ⟨spec, hspec, q, hq, hkey, -⟩ := (matchesFully_iff hparse hup feed).mp hmatch
        obtain ⟨htyp, hpath⟩ := key_inj (parse_canonical hq) (parse_canonical hparse) hkey
        obtain ⟨hname, ns, htrim, hns⟩ := parse_namespace hq
        have hsame : comparedName charset q.typ q.name = comparedName charset p.typ p.name := by
          rw [htyp]
          apply hone ns q.name hname htrim
          rw [← hpath, htyp]
          unfold keyPath
          rw [hns]
        refine (mayMatch_iff hparse hup _).mpr ⟨parts, hpieces, ?_⟩
        exact mem_names.mpr ⟨spec, hspec, q, hq, hsame.trans hseen.symm⟩

/-- A slash in a version makes the filter take the end of the version for the name. -/
theorem filter_hides_slash_version :
    (newMatcher Charset.ascii ["pkg:npm/lodash".toList]).matchesFully Charset.ascii
        "pkg:npm/lodash@1/2".toList = true ∧
      (newMatcher Charset.ascii ["pkg:npm/lodash".toList]).mayMatch Charset.ascii
        "pkg:npm/lodash@1/2".toList = false := by
  decide

end conditions

end NriSupplyChain.Feed
