import NriSupplyChain.Glob.Pattern
import NriSupplyChain.Imageref.References

/-!
Which images a policy covers: the spellings of an image reference that patterns
are matched with, and the include and exclude lists (`internal/verifier`). A tag
may be written next to a digest although the runtime ignores it. What the tag
changes is worked out here for both lists.
-/

namespace NriSupplyChain.Verifier

open Lib Glob Imageref

section model

variable (checkRegistry : Text → Bool) (table : CaseTable)

structure NormalizedReference where
  repository : Text
  tag : Text
  digest : Text
deriving DecidableEq, Repr

def normalizedReference (imageRef : Text) : Option NormalizedReference :=
  let (base, digest, hasDigest) :=
    match cut '@' imageRef with
    | some (base, digest) => (base, digest, true)
    | none => (imageRef, [], false)
  (parseReference checkRegistry base).map fun ref =>
    { repository := normalizeRepository table ref.context.name
      tag := if !hasDigest || explicitTag base then ref.tagStr else []
      digest := digest }

def withoutTagIfDigestPinned (imageRef : Text) : Text :=
  match cut '@' imageRef with
  | some (base, digest) =>
    if explicitTag base then (stripTagPattern base).getD [] ++ '@' :: digest else imageRef
  | none => imageRef

def hasRegistryHost (imageRef : Text) : Bool :=
  match cut '/' imageRef with
  | some (first, _) => isRegistryHost first
  | none => false

def imageMatchForms (imageRef : Text) (qualifiedOnly : Bool) : List Text :=
  let reported := if qualifiedOnly then withoutTagIfDigestPinned imageRef else imageRef
  if qualifiedOnly && !hasRegistryHost imageRef then [reported]
  else
    match normalizedReference checkRegistry table imageRef with
    | none => [reported]
    | some ref =>
      compact ([reported] ++
        (if qualifiedOnly then [] else [ref.repository]) ++
        (if ref.tag ≠ [] ∧ (qualifiedOnly = false ∨ ref.digest = []) then
          [ref.repository ++ ':' :: ref.tag] else []) ++
        (if ref.digest ≠ [] then [ref.repository ++ '@' :: ref.digest] else []))

def matchesAnyForm (pattern : Text) : List Text → Bool
  | [] => false
  | form :: forms =>
    match matchPattern pattern form with
    | .error _ => false
    | .ok matched => matched || matchesAnyForm pattern forms

def isExcluded (excludedImages : List Text) (imageRef : Text) : Bool :=
  excludedImages.any (matchesAnyForm · (imageMatchForms checkRegistry table imageRef true))

def digestPinnedRepositories (imageRef : Text) : List Text :=
  match cut '@' imageRef with
  | none => []
  | some (base, _) =>
    if explicitTag base then []
    else
      match normalizedReference checkRegistry table imageRef with
      | none => [base]
      | some ref => compact [base, ref.repository]

def isIncluded (includedImages : List Text) (imageRef : Text) : Bool :=
  includedImages.isEmpty ||
    includedImages.any fun pattern =>
      matchesAnyForm pattern (imageMatchForms checkRegistry table imageRef false) ||
        (stripTagPattern pattern).any
          (matchesAnyForm · (digestPinnedRepositories checkRegistry table imageRef))

end model

section matching

/-- Whether a pattern covers a spelling. -/
def Accepts (pattern form : Text) : Prop :=
  matchPattern pattern form = .ok true

instance (pattern form : Text) : Decidable (Accepts pattern form) :=
  inferInstanceAs (Decidable (matchPattern pattern form = .ok true))

/-- A pattern that fails on one spelling fails on each. -/
theorem matchesAnyForm_iff (pattern : Text) (forms : List Text) :
    matchesAnyForm pattern forms = true ↔ ∃ form ∈ forms, Accepts pattern form := by
  induction forms with
  | nil => simp [matchesAnyForm]
  | cons form forms ih =>
    unfold matchesAnyForm
    cases hcompile : compilePattern pattern with
    | error err =>
      have hfail : ∀ form, ¬ Accepts pattern form := by
        intro form haccepts
        simp [Accepts, matchPattern, hcompile, Except.map] at haccepts
      simp [matchPattern, hcompile, Except.map, hfail]
    | ok items =>
      have hmatch : matchPattern pattern form = .ok (Regexp.matchString items form) := by
        simp [matchPattern, hcompile, Except.map]
      rw [hmatch]
      simp [ih, Accepts, hmatch]

/-- Whether some pattern of a list covers a spelling. -/
def Selects (patterns : List Text) (form : Text) : Prop :=
  ∃ pattern ∈ patterns, Accepts pattern form

/-- Whether the repository part of some pattern with a tag part covers a repository. -/
def SelectsRepository (patterns : List Text) (repository : Text) : Prop :=
  ∃ pattern ∈ patterns, ∃ repositoryPattern,
    stripTagPattern pattern = some repositoryPattern ∧ Accepts repositoryPattern repository

variable (checkRegistry : Text → Bool) (table : CaseTable)

theorem isIncluded_iff (includedImages : List Text) (imageRef : Text) :
    isIncluded checkRegistry table includedImages imageRef = true ↔
      includedImages = [] ∨
      (∃ form ∈ imageMatchForms checkRegistry table imageRef false, Selects includedImages form) ∨
      ∃ repository ∈ digestPinnedRepositories checkRegistry table imageRef,
        SelectsRepository includedImages repository := by
  unfold isIncluded Selects SelectsRepository
  simp only [Bool.or_eq_true, List.isEmpty_iff, List.any_eq_true, matchesAnyForm_iff,
    Option.any_eq_true]
  apply or_congr_right
  constructor
  · rintro ⟨pattern, hpattern, ⟨form, hform, haccepts⟩ | ⟨part, hpart, form, hform, haccepts⟩⟩
    · exact .inl ⟨form, hform, pattern, hpattern, haccepts⟩
    · exact .inr ⟨form, hform, pattern, hpattern, part, hpart, haccepts⟩
  · rintro (⟨form, hform, pattern, hpattern, haccepts⟩ |
      ⟨form, hform, pattern, hpattern, part, hpart, haccepts⟩)
    · exact ⟨pattern, hpattern, .inl ⟨form, hform, haccepts⟩⟩
    · exact ⟨pattern, hpattern, .inr ⟨part, hpart, form, hform, haccepts⟩⟩

end matching

section pinned

variable (checkRegistry : Text → Bool) (table : CaseTable)

/-- `repo@digest`. -/
def pinned (repo digest : Text) : Text :=
  repo ++ '@' :: digest

/-- `repo:tag@digest`. -/
def taggedPinned (repo tag digest : Text) : Text :=
  pinned (repo ++ ':' :: tag) digest

/-- The normalized repository of a reference without tag and digest. -/
def normalizedRepository (repo : Text) : Option Text :=
  (parseReference checkRegistry repo).map fun ref => normalizeRepository table ref.context.name

variable {repo : Text} (digest : Text)

theorem normalizedReference_pinned (hat : '@' ∉ repo) (hplain : explicitTag repo = false) :
    normalizedReference checkRegistry table (pinned repo digest) =
      (normalizedRepository checkRegistry table repo).map (⟨·, [], digest⟩) := by
  unfold normalizedReference pinned normalizedRepository
  rw [cut_append hat]
  simp [hplain, Function.comp_def]

variable {tag : Text}

theorem normalizedReference_taggedPinned (hat : '@' ∉ repo) (hplain : explicitTag repo = false)
    (htag : checkTag tag = true) :
    normalizedReference checkRegistry table (taggedPinned repo tag digest) =
      (normalizedRepository checkRegistry table repo).map (⟨·, tag, digest⟩) := by
  have hbase : '@' ∉ repo ++ ':' :: tag := by simp [hat, (checkTag_no_delimiter htag).2.2]
  unfold normalizedReference taggedPinned pinned normalizedRepository
  rw [cut_append hbase]
  simp [explicitTag_tagged htag, parseReference_tagged checkRegistry hplain htag,
    Function.comp_def]

/-- The normalized spellings that do not hold the tag. -/
def normalForms (repo : Text) : List Text :=
  match normalizedRepository checkRegistry table repo with
  | none => []
  | some repository => repository :: if digest ≠ [] then [pinned repository digest] else []

theorem mem_forms_pinned (hat : '@' ∉ repo) (hplain : explicitTag repo = false) (form : Text) :
    form ∈ imageMatchForms checkRegistry table (pinned repo digest) false ↔
      form = pinned repo digest ∨ form ∈ normalForms checkRegistry table digest repo := by
  unfold imageMatchForms normalForms
  rw [normalizedReference_pinned checkRegistry table digest hat hplain]
  cases normalizedRepository checkRegistry table repo with
  | none => simp
  | some repository =>
    by_cases hdigest : digest = []
    · simp [mem_compact, hdigest]
    · simp [mem_compact, hdigest, pinned]

theorem checkTag_ne_nil (htag : checkTag tag = true) : tag ≠ [] := by
  rintro rfl
  exact absurd htag (by decide)

theorem mem_forms_taggedPinned (hat : '@' ∉ repo) (hplain : explicitTag repo = false)
    (htag : checkTag tag = true) (form : Text) :
    form ∈ imageMatchForms checkRegistry table (taggedPinned repo tag digest) false ↔
      form = taggedPinned repo tag digest ∨ form ∈ normalForms checkRegistry table digest repo ∨
        ∃ repository, normalizedRepository checkRegistry table repo = some repository ∧
          form = repository ++ ':' :: tag := by
  have htagged := checkTag_ne_nil htag
  unfold imageMatchForms normalForms
  rw [normalizedReference_taggedPinned checkRegistry table digest hat hplain htag]
  cases normalizedRepository checkRegistry table repo with
  | none => simp
  | some repository =>
    by_cases hdigest : digest = []
    · simp [mem_compact, hdigest, htagged]
    · simp only [mem_compact, hdigest, htagged, ne_eq, not_false_eq_true, if_true, true_and,
        Bool.false_eq_true, if_false, List.mem_append, pinned,
        Option.map_some, List.mem_cons, List.not_mem_nil, or_false, Option.some.injEq,
        exists_eq_left', Bool.false_and]
      tauto

theorem digestPinnedRepositories_pinned (hat : '@' ∉ repo) (hplain : explicitTag repo = false)
    (repository : Text) :
    repository ∈ digestPinnedRepositories checkRegistry table (pinned repo digest) ↔
      repository = repo ∨ normalizedRepository checkRegistry table repo = some repository := by
  unfold digestPinnedRepositories
  rw [normalizedReference_pinned checkRegistry table digest hat hplain, pinned, cut_append hat]
  cases normalizedRepository checkRegistry table repo with
  | none => simp [hplain]
  | some normalized => simp [hplain, mem_compact, eq_comm]

theorem digestPinnedRepositories_taggedPinned (hat : '@' ∉ repo) (htag : checkTag tag = true) :
    digestPinnedRepositories checkRegistry table (taggedPinned repo tag digest) = [] := by
  have hbase : '@' ∉ repo ++ ':' :: tag := by simp [hat, (checkTag_no_delimiter htag).2.2]
  unfold digestPinnedRepositories taggedPinned pinned
  rw [cut_append hbase]
  simp [explicitTag_tagged htag]

theorem withoutTag_taggedPinned (hat : '@' ∉ repo) (hplain : explicitTag repo = false)
    (htag : checkTag tag = true) :
    withoutTagIfDigestPinned (taggedPinned repo tag digest) = pinned repo digest ∧
      withoutTagIfDigestPinned (pinned repo digest) = pinned repo digest := by
  have hbase : '@' ∉ repo ++ ':' :: tag := by simp [hat, (checkTag_no_delimiter htag).2.2]
  unfold withoutTagIfDigestPinned taggedPinned pinned
  rw [cut_append hbase, cut_append hat]
  simp [explicitTag_tagged htag, stripTagPattern_tagged htag, hplain]

theorem hasRegistryHost_taggedPinned (htag : checkTag tag = true) {digest : Text}
    (hslash : '/' ∉ digest) :
    hasRegistryHost (taggedPinned repo tag digest) = hasRegistryHost (pinned repo digest) := by
  have htail : '/' ∉ ':' :: tag ++ '@' :: digest := by
    simp [(checkTag_no_delimiter htag).1, hslash]
  have hpinned : '/' ∉ '@' :: digest := by simp [hslash]
  unfold hasRegistryHost taggedPinned pinned
  rw [List.append_assoc]
  by_cases hrepo : '/' ∈ repo
  · obtain ⟨first, rest, rfl, hfirst⟩ := List.eq_append_cons_of_mem hrepo
    have hcut : ∀ more, cut '/' (first ++ '/' :: rest ++ more) = some (first, rest ++ more) := by
      intro more
      rw [List.append_assoc, List.cons_append, cut_append hfirst]
    rw [hcut, hcut]
  · rw [cut_eq_none (by simpa [hrepo] using htail), cut_eq_none (by simpa [hrepo] using hpinned)]

/-- For the lists that relax verification, the tag next to a digest changes nothing. -/
theorem imageMatchForms_taggedPinned (hat : '@' ∉ repo) (hplain : explicitTag repo = false)
    (htag : checkTag tag = true) {digest : Text} (hdigest : digest ≠ []) (hslash : '/' ∉ digest) :
    imageMatchForms checkRegistry table (taggedPinned repo tag digest) true =
      imageMatchForms checkRegistry table (pinned repo digest) true := by
  obtain ⟨htagged, hpinned⟩ := withoutTag_taggedPinned digest hat hplain htag
  unfold imageMatchForms
  rw [normalizedReference_pinned checkRegistry table digest hat hplain,
    normalizedReference_taggedPinned checkRegistry table digest hat hplain htag,
    hasRegistryHost_taggedPinned htag hslash]
  simp only [if_true, htagged, hpinned]
  cases normalizedRepository checkRegistry table repo with
  | none => rfl
  | some repository => simp [hdigest]

end pinned

section included

variable (checkRegistry : Text → Bool) (table : CaseTable)

theorem isIncluded_pinned_iff (includedImages : List Text) {repo : Text} (digest : Text)
    (hat : '@' ∉ repo) (hplain : explicitTag repo = false) :
    isIncluded checkRegistry table includedImages (pinned repo digest) = true ↔
      includedImages = [] ∨ (∃ form ∈ normalForms checkRegistry table digest repo,
        Selects includedImages form) ∨
      Selects includedImages (pinned repo digest) ∨
      ∃ repository, (repository = repo ∨
        normalizedRepository checkRegistry table repo = some repository) ∧
        SelectsRepository includedImages repository := by
  rw [isIncluded_iff]
  simp only [mem_forms_pinned checkRegistry table digest hat hplain,
    digestPinnedRepositories_pinned checkRegistry table digest hat hplain]
  apply or_congr_right
  constructor
  · rintro (⟨form, rfl | hform, hselects⟩ | h)
    · exact .inr (.inl hselects)
    · exact .inl ⟨form, hform, hselects⟩
    · exact .inr (.inr h)
  · rintro (⟨form, hform, hselects⟩ | hselects | h)
    · exact .inl ⟨form, .inr hform, hselects⟩
    · exact .inl ⟨_, .inl rfl, hselects⟩
    · exact .inr h

theorem isIncluded_taggedPinned_iff (includedImages : List Text) {repo : Text} (digest : Text)
    (hat : '@' ∉ repo) (hplain : explicitTag repo = false) {tag : Text}
    (htag : checkTag tag = true) :
    isIncluded checkRegistry table includedImages (taggedPinned repo tag digest) = true ↔
      includedImages = [] ∨ (∃ form ∈ normalForms checkRegistry table digest repo,
        Selects includedImages form) ∨
      Selects includedImages (taggedPinned repo tag digest) ∨
      ∃ repository, normalizedRepository checkRegistry table repo = some repository ∧
        Selects includedImages (repository ++ ':' :: tag) := by
  rw [isIncluded_iff, digestPinnedRepositories_taggedPinned checkRegistry table digest hat htag]
  simp only [mem_forms_taggedPinned checkRegistry table digest hat hplain htag, List.not_mem_nil,
    false_and, exists_false, or_false]
  apply or_congr_right
  constructor
  · rintro ⟨form, rfl | hform | ⟨repository, hnormal, rfl⟩, hselects⟩
    · exact .inr (.inl hselects)
    · exact .inl ⟨form, hform, hselects⟩
    · exact .inr (.inr ⟨repository, hnormal, hselects⟩)
  · rintro (⟨form, hform, hselects⟩ | hselects | ⟨repository, hnormal, hselects⟩)
    · exact ⟨form, .inr (.inl hform), hselects⟩
    · exact ⟨_, .inl rfl, hselects⟩
    · exact ⟨_, .inr (.inr ⟨repository, hnormal, rfl⟩), hselects⟩

/-- A pattern reaches an image pinned by digest in a way that a tag takes away: by the
spelling `repo@digest` as it is reported, or by its part before the tag. -/
def ReachesUntagged (pattern repo digest : Text) : Prop :=
  Accepts pattern (pinned repo digest) ∨ ∃ part, stripTagPattern pattern = some part ∧
    ∃ repository, (repository = repo ∨
      normalizedRepository checkRegistry table repo = some repository) ∧ Accepts part repository

/-- A digest-pinned image stays included with every tag if no pattern reaches it only by
the reported spelling or by its part before a tag: then some pattern covers a normalized
spelling, which the tag leaves as it is. -/
theorem tag_keeps_included (includedImages : List Text) (repo digest : Text)
    (hat : '@' ∉ repo) (hplain : explicitTag repo = false)
    (hpatterns : ∀ pattern ∈ includedImages,
      ReachesUntagged checkRegistry table pattern repo digest →
      ∃ form ∈ normalForms checkRegistry table digest repo, Selects includedImages form)
    (hincluded : isIncluded checkRegistry table includedImages (pinned repo digest) = true)
    {tag : Text} (htag : checkTag tag = true) :
    isIncluded checkRegistry table includedImages (taggedPinned repo tag digest) = true := by
  rw [isIncluded_taggedPinned_iff checkRegistry table includedImages digest hat hplain htag]
  rw [isIncluded_pinned_iff checkRegistry table includedImages digest hat hplain] at hincluded
  rcases hincluded with hempty | hnormal | hpinned | ⟨repository, hspelled, hselects⟩
  · exact .inl hempty
  · exact .inr (.inl hnormal)
  · obtain ⟨pattern, hpattern, haccepts⟩ := hpinned
    exact .inr (.inl (hpatterns pattern hpattern (.inl haccepts)))
  · obtain ⟨pattern, hpattern, part, hpart, haccepts⟩ := hselects
    refine .inr (.inl (hpatterns pattern hpattern (.inr ⟨part, hpart, ?_⟩)))
    exact ⟨repository, hspelled, haccepts⟩

/-- A digest as registries report it. -/
def sampleDigest : Text :=
  "sha256:e3b0c44298fc1c149afbf4c8996fb92427ae41e4649b934ca495991b7852b855".toList

/-- A pattern for a whole organization keeps the image, next to one for a series of tags
that only reaches it without a tag. -/
theorem tag_keeps_included_organization :
    let patterns := ["ghcr.io/org/**".toList, "ghcr.io/org/app:v1*".toList]
    ReachesUntagged (fun _ => true) CaseTable.ascii "ghcr.io/org/app:v1*".toList
        "ghcr.io/org/app".toList sampleDigest ∧
      isIncluded (fun _ => true) CaseTable.ascii patterns
        (pinned "ghcr.io/org/app".toList sampleDigest) = true ∧
      isIncluded (fun _ => true) CaseTable.ascii patterns
        (taggedPinned "ghcr.io/org/app".toList "latest".toList sampleDigest) = true := by
  refine ⟨.inr ⟨"ghcr.io/org/app".toList, by decide, _, .inl rfl, by decide⟩, by decide, ?_⟩
  refine tag_keeps_included (fun _ => true) CaseTable.ascii _ _ _ (by decide) (by decide) ?_
    (by decide) (by decide)
  intro _ _ _
  exact ⟨"ghcr.io/org/app".toList, by decide, _, List.mem_cons_self, by decide⟩

/-- A pattern for one series of tags includes an image pinned by digest, and no longer
includes it with another tag next to the same digest. -/
theorem tag_drops_included :
    isIncluded (fun _ => true) CaseTable.ascii ["ghcr.io/org/app:v1*".toList]
        (pinned "ghcr.io/org/app".toList sampleDigest) = true ∧
      checkTag "latest".toList = true ∧
      isIncluded (fun _ => true) CaseTable.ascii ["ghcr.io/org/app:v1*".toList]
        (taggedPinned "ghcr.io/org/app".toList "latest".toList sampleDigest) = false := by
  decide

end included

end NriSupplyChain.Verifier
