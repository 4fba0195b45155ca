import NriSupplyChain.Purl.Pieces
import NriSupplyChain.Vex.Statements

/-!
What the candidate of a statement can look like. The scope of a package contains a
slash before any NUL, so it is never the scope of the image, not even when it is cut
where a key is.
-/

namespace NriSupplyChain.Openvex

open Lib

/-- What every statement's candidate satisfies. -/
structure Entry.Proper (e : Entry) : Prop where
  lenient : e.cand.lenient = true → e.scope = imageScope
  packages : e.cand.packageScope ≠ [] → e.cand.lenient = true
  packageScope : e.cand.packageScope ≠ imageScope
  vulnName : e.cand.vulnName ≠ []
  rank : e.cand.rank ≤ rankAffected

/-- The form of a package's key. -/
def PackageForm (key : Text) : Prop :=
  ∃ typ rest, key = typ ++ '/' :: rest ∧ '\x00' ∉ typ

/-- The part of a text before its first NUL. -/
def untilNul (text : Text) : Text :=
  text.takeWhile (· ≠ '\x00')

theorem untilNul_append (text behind : Text) :
    untilNul (text ++ '\x00' :: behind) = untilNul text := by
  unfold untilNul
  rw [List.takeWhile_append]
  split
  · next hall =>
    have hstart := List.takeWhile_prefix (p := (· ≠ '\x00')) (l := text)
    rw [hstart.eq_of_length hall]
    simp
  · rfl

theorem untilNul_of_notMem {text : Text} (h : '\x00' ∉ text) : untilNul text = text := by
  apply List.takeWhile_eq_self_iff.mpr
  intro c hc
  apply decide_eq_true
  rintro rfl
  exact h hc

theorem PackageForm.untilNul_ne {key : Text} (h : PackageForm key) (tail : Text) :
    untilNul (key ++ tail) ≠ imageScope := by
  obtain ⟨typ, rest, rfl, htyp⟩ := h
  have hslash : '/' ∈ untilNul (typ ++ '/' :: rest ++ tail) := by
    unfold untilNul
    rw [List.append_assoc, List.takeWhile_append_of_pos]
    · simp
    · intro c hc
      apply decide_eq_true
      rintro rfl
      exact htyp hc
  intro himage
  rw [himage] at hslash
  revert hslash
  decide

theorem untilNul_imageScope : untilNul imageScope = imageScope := rfl

variable {charset : Charset} {image : Image}

/-- The key of a package is its type, a slash and more. -/
theorem packageScopeKey_form {identifier : Text} {parsed : Purl.PackageURL}
    (h : Purl.parse charset identifier = some parsed) :
    PackageForm (packageScopeKey charset parsed) := by
  rw [Purl.parse_eq, Option.bind_eq_some_iff] at h
  obtain ⟨parts, -, hread⟩ := h
  obtain ⟨_, _, _, _, _, -, -, hnormal, -⟩ := Purl.read_eq_some hread
  have hvalid := (Purl.normalForm_eq_some hnormal).1
  have hnul : '\x00' ∉ charset.lower parsed.typ := by
    rw [Purl.lower_validType charset hvalid]
    intro hmem
    rcases Purl.validWord_chars (Purl.validType_toLowerASCII hvalid) _ hmem with hstart | hdigit
    · cases hstart
    · cases hdigit
  have hkey : PackageForm (Purl.key charset parsed) := by
    have hsplit : Purl.key charset parsed = charset.lower parsed.typ ++ '/' ::
        charset.lower (parsed.ns ++ '/' :: Purl.normalizeName charset parsed.typ parsed.name) := by
      rw [Purl.key, List.append_assoc]
      exact charset.lower_ascii parsed.typ '/' _ (by decide)
    exact ⟨_, _, hsplit, hnul⟩
  unfold packageScopeKey
  split
  · exact hkey
  · obtain ⟨typ, rest, heq, htyp⟩ := hkey
    refine ⟨typ, rest ++ '@' :: parsed.version, ?_, htyp⟩
    rw [heq, List.append_assoc, List.cons_append]

theorem matchIdentifiers_package {matcher : Text → Kind × Strength} (identifiers : List Text)
    (kind : Kind) (strength : Strength) (packageKey : Text)
    (h : kind = .package → PackageForm packageKey) :
    (matchIdentifiers charset matcher identifiers kind strength packageKey).1 = .package →
      PackageForm (matchIdentifiers charset matcher identifiers kind strength packageKey).2.2 := by
  induction identifiers generalizing kind strength packageKey with
  | nil => exact h
  | cons identifier rest ih =>
    unfold matchIdentifiers
    simp only
    split
    · exact ih _ _ _ nofun
    · split
      · cases hparsed : Purl.parse charset identifier with
        | none => exact ih _ _ _ h
        | some parsed => exact ih _ _ _ fun _ => packageScopeKey_form hparsed
      · exact ih _ _ _ h

variable {component : Component}

theorem matchComponentIdentifiers_package {matcher : Text → Kind × Strength} :
    (matchComponentIdentifiers charset component matcher).kind = .package →
      PackageForm (matchComponentIdentifiers charset component matcher).packageKey :=
  matchIdentifiers_package (componentIdentifiers component) .unrelated .none [] nofun

theorem identifierMatch_package {lenient : Bool}
    (h : (identifierMatch charset component image lenient).kind = .package) :
    PackageForm (identifierMatch charset component image lenient).packageKey := by
  revert h
  unfold identifierMatch
  simp only
  split
  · exact matchComponentIdentifiers_package
  · split
    · exact matchComponentIdentifiers_package
    · next hloose =>
      intro h
      exact absurd (h.symm.trans (not_not.mp hloose)) nofun

theorem componentMatch_package {lenient : Bool}
    (h : (componentMatch charset component image lenient).kind = .package) :
    PackageForm (componentMatch charset component image lenient).packageKey := by
  revert h
  unfold componentMatch
  split
  · exact nofun
  · simp only
    split
    · exact nofun
    · exact identifierMatch_package

theorem ProductMatches.add_packages {products : ProductMatches} {product : Product}
    {component : ComponentResult} (hcomponent : component.kind = .package →
      PackageForm component.packageKey)
    (h : ∀ key ∈ products.packages, PackageForm key) :
    ∀ key ∈ (products.add product component).packages, PackageForm key := by
  unfold ProductMatches.add
  cases hkind : component.kind with
  | image | otherImage | unrelated => exact h
  | package =>
    intro key hkey
    rcases List.mem_append.mp hkey with hold | hnew
    · exact h key hold
    · rw [List.mem_singleton.mp hnew]
      exact hcomponent hkind

theorem classifyProducts_packages (stmt : Statement) (image : Image) :
    ∀ key ∈ (classifyProducts charset stmt image).packages, PackageForm key := by
  unfold classifyProducts
  apply List.foldlRecOn (motive := fun products : ProductMatches =>
    ∀ key ∈ products.packages, PackageForm key)
  · exact nofun
  · intro products h product _
    exact ProductMatches.add_packages componentMatch_package h

theorem packageScope_untilNul {packages : List Text} (h : ∀ key ∈ packages, PackageForm key) :
    untilNul ([','].intercalate (compactTexts (sortTexts packages))) ≠ imageScope := by
  cases hkeys : compactTexts (sortTexts packages) with
  | nil => exact nofun
  | cons key rest =>
    have hmem : key ∈ packages := by
      apply (List.mem_insertionSort (· ≤ ·)).mp
      apply (List.destutter_sublist (· ≠ ·) (sortTexts packages)).subset
      change key ∈ compactTexts (sortTexts packages)
      rw [hkeys]
      exact List.mem_cons_self
    cases rest with
    | nil =>
      have hform := (h key hmem).untilNul_ne []
      rw [List.append_nil] at hform
      simpa using hform
    | cons next rest =>
      rw [List.intercalate_cons_cons, List.append_assoc]
      exact (h key hmem).untilNul_ne _

/-- A statement is about the image, or its scope is that of packages. -/
theorem matchStatement_scope (stmt : Statement) (image : Image) :
    (matchStatement charset stmt image).scope = imageScope ∨
      untilNul (matchStatement charset stmt image).scope ≠ imageScope := by
  unfold matchStatement
  simp only
  split
  · exact .inl rfl
  · right
    simp only
    split
    · exact packageScope_untilNul (classifyProducts_packages stmt image)
    · exact nofun

theorem matchStatement_lenient (stmt : Statement) (image : Image) :
    (matchStatement charset stmt image).lenientOnly = true →
      (matchStatement charset stmt image).scope = imageScope := by
  unfold matchStatement
  simp only
  split
  · exact fun _ => rfl
  · exact nofun

theorem matchStatement_packages (stmt : Statement) (image : Image) :
    (matchStatement charset stmt image).packageScope ≠ [] →
      (matchStatement charset stmt image).lenientOnly = true := by
  unfold matchStatement
  simp only
  split
  · simp only
    split
    · next hlenient => exact fun _ => hlenient
    · exact fun h => absurd rfl h
  · exact fun h => absurd rfl h

theorem matchStatement_packageScope (stmt : Statement) (image : Image) :
    untilNul (matchStatement charset stmt image).packageScope ≠ imageScope := by
  unfold matchStatement
  simp only
  split
  · simp only
    split
    · exact packageScope_untilNul (classifyProducts_packages stmt image)
    · exact nofun
  · exact nofun

theorem vulnerabilityName_ne_nil (stmt : Statement) : vulnerabilityName stmt ≠ [] := by
  unfold vulnerabilityName
  split
  · assumption
  · split
    · assumption
    · decide

theorem statusRank_le (status : Status) : statusRank status ≤ rankAffected := by
  cases status with
  | notAffected | fixed | underInvestigation => decide
  | affected | unknown _ => exact le_refl _

section

variable {charset : Charset} {image : Image}

/-- How a statement's candidate comes about. -/
theorem statementEntry_eq_some {docTime : Int} {stmt : Statement} {e : Entry}
    (h : statementEntry charset image docTime stmt = some e) :
    e.key = statementKey charset stmt e.scope (matchStatement charset stmt image).subcomponents ∧
    e.scope = (matchStatement charset stmt image).scope ∧
    e.cand.rank = statusRank stmt.status ∧
    (e.cand.packageScope ≠ [] → e.cand.packageKey =
      statementKey charset stmt (matchStatement charset stmt image).packageScope
        (matchStatement charset stmt image).packageSubcomponents) ∧
    e.Proper := by
  unfold statementEntry at h
  simp only at h
  split at h
  · cases h
  · split at h
    · cases h
    · obtain rfl := Option.some.inj h
      refine ⟨rfl, rfl, rfl, fun hpackages => if_pos hpackages, ?_⟩
      refine ⟨matchStatement_lenient stmt image, matchStatement_packages stmt image, ?_,
        vulnerabilityName_ne_nil stmt, statusRank_le stmt.status⟩
      intro himage
      apply matchStatement_packageScope stmt image
      exact (congrArg untilNul himage).trans untilNul_imageScope

theorem mem_statementEntries {docs : List Document} {e : Entry} :
    e ∈ statementEntries charset image docs ↔ ∃ doc ∈ docs, ∃ stmt ∈ doc.statements,
      statementEntry charset image (documentTime doc) stmt = some e := by
  simp [statementEntries]

theorem statementEntries_proper (charset : Charset) (image : Image) (docs : List Document) :
    ∀ e ∈ statementEntries charset image docs, e.Proper := by
  intro e he
  obtain ⟨doc, -, stmt, -, hentry⟩ := mem_statementEntries.mp he
  exact (statementEntry_eq_some hentry).2.2.2.2

/-- The name a statement is grouped by. -/
def groupedName (stmt : Statement) : Text :=
  if stmt.vulnerabilityName ≠ [] then stmt.vulnerabilityName else stmt.vulnerabilityID

/-- Without a NUL in the names, equal keys have scopes that are equal up to a NUL. -/
theorem untilNul_scope_eq {s t : Statement} {scope scope' tail tail' : Text}
    (hs : '\x00' ∉ groupedName s) (ht : '\x00' ∉ groupedName t)
    (hkey : statementKey charset s scope tail = statementKey charset t scope' tail') :
    untilNul scope = untilNul scope' := by
  have hlower : ∀ {stmt : Statement}, '\x00' ∉ groupedName stmt →
      '\x00' ∉ charset.lower (groupedName stmt) := fun h hmem =>
    h (charset.mem_of_mem_lower (by decide) (by decide) hmem)
  have hparts : ∀ (stmt : Statement) (scope tail : Text), statementKey charset stmt scope tail =
      charset.lower (groupedName stmt) ++ '\x00' :: (scope ++ '\x00' :: tail) := by
    intro stmt scope tail
    exact List.append_assoc _ _ _
  rw [hparts, hparts] at hkey
  have hnames : charset.lower (groupedName s) = charset.lower (groupedName t) := by
    have hcut := congrArg untilNul hkey
    rw [untilNul_append, untilNul_append] at hcut
    rwa [untilNul_of_notMem (hlower hs), untilNul_of_notMem (hlower ht)] at hcut
  rw [hnames] at hkey
  have hscopes := congrArg untilNul (List.cons.inj (List.append_cancel_left hkey)).2
  rwa [untilNul_append, untilNul_append] at hscopes

/-- Then statements about the image and statements about packages never share a key. -/
theorem scope_of_key_eq {s t : Statement} {tail tail' : Text}
    (hs : '\x00' ∉ groupedName s) (ht : '\x00' ∉ groupedName t)
    (hkey : statementKey charset s (matchStatement charset s image).scope tail =
      statementKey charset t (matchStatement charset t image).scope tail')
    (himage : (matchStatement charset s image).scope = imageScope) :
    (matchStatement charset t image).scope = imageScope := by
  apply (matchStatement_scope t image).resolve_right
  rw [← untilNul_scope_eq hs ht hkey, himage]
  exact not_not.mpr untilNul_imageScope

end

end NriSupplyChain.Openvex
