import NriSupplyChain.Lib.Cuts
import NriSupplyChain.Lib.Unicode

/-!
Image references: the parser of references without a digest (the package `name`
of go-containerregistry, with its default options) and the normalization of
`internal/imageref`. Whether a registry is a valid URI authority is decided by
the package `net/url`; it is asked as a function, and nothing depends on its
answers.
-/

namespace NriSupplyChain.Imageref

open Lib

section names

def tagChars : Text :=
  "abcdefghijklmnopqrstuvwxyz0123456789_-.ABCDEFGHIJKLMNOPQRSTUVWXYZ".toList

def repositoryChars : Text :=
  "abcdefghijklmnopqrstuvwxyz0123456789_-./".toList

def defaultRegistry : Text :=
  "index.docker.io".toList

def defaultTag : Text :=
  "latest".toList

def checkElement (element allowedRunes : Text) (minRunes maxRunes : Nat) : Bool :=
  minRunes ≤ element.length && element.length ≤ maxRunes && element.all allowedRunes.contains

def checkTag (name : Text) : Bool :=
  checkElement name tagChars 1 128

def checkRepository (repository : Text) : Bool :=
  checkElement repository repositoryChars 1 255

structure Repository where
  registry : Text
  repository : Text
deriving DecidableEq, Repr

namespace Repository

def repositoryStr (repo : Repository) : Text :=
  if '/' ∉ repo.repository ∧ repo.registry = defaultRegistry then
    "library/".toList ++ repo.repository
  else repo.repository

def name (repo : Repository) : Text :=
  if repo.registry = [] then repo.repositoryStr
  else repo.registry ++ '/' :: repo.repositoryStr

end Repository

structure Tag where
  context : Repository
  tagStr : Text
deriving DecidableEq, Repr

variable (checkRegistry : Text → Bool)

def newRegistry (name : Text) : Option Text :=
  if checkRegistry name then
    some (if name = [] ∨ name = "docker.io".toList then defaultRegistry else name)
  else none

def isRegistryHost (first : Text) : Bool :=
  first = "localhost".toList || first.contains '.' || first.contains ':'

def newRepository (name : Text) : Option Repository :=
  if name = [] then none
  else
    let (registry, repo) :=
      match cut '/' name with
      | some (maybeRegistry, rest) =>
        if isRegistryHost maybeRegistry then (maybeRegistry, rest) else ([], name)
      | none => ([], name)
    if checkRepository repo then
      (newRegistry checkRegistry registry).map fun registry => ⟨registry, repo⟩
    else none

def newTag (name : Text) : Option Tag :=
  match cutLast ':' name with
  | some (base, tag) =>
    if '/' ∈ tag then (newRepository checkRegistry name).map (⟨·, defaultTag⟩)
    else if checkTag tag then (newRepository checkRegistry base).map (⟨·, tag⟩)
    else none
  | none => (newRepository checkRegistry name).map (⟨·, defaultTag⟩)

def hasScheme (s : Text) : Bool :=
  "http://".toList <+: s || "https://".toList <+: s

/-- `name.ParseReference` for a text without `@`, which is never a digest. -/
def parseReference (s : Text) : Option Tag :=
  if hasScheme s then none else newTag checkRegistry s

end names

section normalization

variable (table : CaseTable)

def dockerHubRegistry : Text :=
  "docker.io".toList

def isDockerHub (registry : Text) : Bool :=
  table.toLower registry ∈
    [dockerHubRegistry, "index.docker.io".toList, "registry-1.docker.io".toList,
      "registry.hub.docker.com".toList]

def normalizeRegistry (registry : Text) : Text :=
  if isDockerHub table registry then dockerHubRegistry else table.toLower registry

def normalizeRepositoryPath (registry path : Text) : Text :=
  if isDockerHub table registry && path ≠ [] && !path.contains '/' then
    "library/".toList ++ path
  else path

def normalizeRepository (repository : Text) : Text :=
  match cut '/' repository with
  | none => repository
  | some (registry, path) =>
    normalizeRegistry table registry ++ '/' :: normalizeRepositoryPath table registry path

end normalization

section spelling

/-- A reference up to and with its last slash, and what is behind it. -/
def splitSegment (ref : Text) : Text × Text :=
  match cutLast '/' ref with
  | some (path, segment) => (path ++ ['/'], segment)
  | none => ([], ref)

/-- Whether a reference without digest names a tag. -/
def explicitTag (ref : Text) : Bool :=
  (splitSegment ref).2.contains ':'

/-- A pattern without the tag part at its end. -/
def stripTagPattern (pattern : Text) : Option Text :=
  (cutLast ':' (splitSegment pattern).2).map fun (name, _) => (splitSegment pattern).1 ++ name

theorem splitSegment_join (ref : Text) : (splitSegment ref).1 ++ (splitSegment ref).2 = ref := by
  unfold splitSegment
  cases h : cutLast '/' ref with
  | none => rfl
  | some pair =>
    obtain ⟨path, segment⟩ := pair
    obtain ⟨rfl, -⟩ := cutLast_eq_some h
    simp

theorem splitSegment_append (ref : Text) {more : Text} (h : '/' ∉ more) :
    splitSegment (ref ++ more) = ((splitSegment ref).1, (splitSegment ref).2 ++ more) := by
  unfold splitSegment
  cases hcut : cutLast '/' ref with
  | none =>
    have hnone : '/' ∉ ref ++ more := by simp [cutLast_eq_none_iff.mp hcut, h]
    simp [cutLast_eq_none_iff.mpr hnone]
  | some pair =>
    obtain ⟨path, segment⟩ := pair
    obtain ⟨rfl, hsegment⟩ := cutLast_eq_some hcut
    have hnone : '/' ∉ segment ++ more := by simp [hsegment, h]
    simp [cutLast_append '/' path hnone]

end spelling

section tags

/-- A tag that the parser accepts holds no delimiter. -/
theorem checkTag_no_delimiter (h : checkTag tag = true) : '/' ∉ tag ∧ ':' ∉ tag ∧ '@' ∉ tag := by
  unfold checkTag checkElement at h
  have hall : ∀ c ∈ tag, c ∈ tagChars := by
    intro c hc
    have hcontains := List.all_eq_true.mp (Bool.and_eq_true_iff.mp h).2 c hc
    simpa using hcontains
  refine ⟨fun hc => ?_, fun hc => ?_, fun hc => ?_⟩ <;>
    exact absurd (hall _ hc) (by decide)

variable {repo tag : Text}

theorem explicitTag_tagged (htag : checkTag tag = true) :
    explicitTag (repo ++ ':' :: tag) = true := by
  have hslash : '/' ∉ ':' :: tag := by simp [(checkTag_no_delimiter htag).1]
  simp [explicitTag, splitSegment_append repo hslash]

theorem stripTagPattern_tagged (htag : checkTag tag = true) :
    stripTagPattern (repo ++ ':' :: tag) = some repo := by
  obtain ⟨hnoslash, hcolon, -⟩ := checkTag_no_delimiter htag
  have hslash : '/' ∉ ':' :: tag := by simp [hnoslash]
  unfold stripTagPattern
  rw [splitSegment_append repo hslash, cutLast_append ':' _ hcolon]
  simp [splitSegment_join]

/-- What stands behind the last colon of a reference without a tag holds a slash. -/
theorem slash_behind_colon {base tail : Text} (hplain : explicitTag repo = false)
    (h : cutLast ':' repo = some (base, tail)) : '/' ∈ tail := by
  obtain ⟨rfl, -⟩ := cutLast_eq_some h
  by_contra hslash
  have hmore : '/' ∉ ':' :: tail := by simp [hslash]
  simp [explicitTag, splitSegment_append base hmore] at hplain

theorem newTag_plain (checkRegistry : Text → Bool) (hplain : explicitTag repo = false) :
    newTag checkRegistry repo = (newRepository checkRegistry repo).map (⟨·, defaultTag⟩) := by
  unfold newTag
  split
  · next base tail hcut => rw [if_pos (slash_behind_colon hplain hcut)]
  · rfl

theorem newTag_tagged (checkRegistry : Text → Bool) (htag : checkTag tag = true) :
    newTag checkRegistry (repo ++ ':' :: tag) =
      (newRepository checkRegistry repo).map (⟨·, tag⟩) := by
  obtain ⟨hslash, hcolon, -⟩ := checkTag_no_delimiter htag
  simp [newTag, cutLast_append ':' repo hcolon, hslash, htag]

/-- A start that ends in a slash does not reach into a tag. -/
theorem start_of_tagged {start : Text} (hslash : '/' ∉ ':' :: tag)
    (h : start ++ ['/'] <+: repo ++ ':' :: tag) : start ++ ['/'] <+: repo := by
  rcases List.prefix_or_prefix_of_prefix h (List.prefix_append repo (':' :: tag)) with hle | hle
  · exact hle
  · obtain ⟨rest, hrest⟩ := hle
    rcases List.eq_nil_or_concat' rest with rfl | ⟨more, last, rfl⟩
    · exact ⟨[], by simpa using hrest.symm⟩
    · exfalso
      have hlast : last = '/' := by
        have hconcat : (repo ++ more) ++ [last] = start ++ ['/'] := by simpa using hrest
        simpa using (List.append_inj' hconcat rfl).2
      rw [← hrest] at h
      have hmem : last ∈ ':' :: tag :=
        ((List.prefix_append_right_inj repo).mp h).subset (by simp)
      exact hslash (hlast ▸ hmem)

theorem hasScheme_tagged (htag : checkTag tag = true) :
    hasScheme (repo ++ ':' :: tag) = hasScheme repo := by
  have hslash : '/' ∉ ':' :: tag := by simp [(checkTag_no_delimiter htag).1]
  have hstart : ∀ start : Text,
      start ++ ['/'] <+: repo ++ ':' :: tag ↔ start ++ ['/'] <+: repo := by
    intro start
    exact ⟨start_of_tagged hslash, fun h => h.trans (List.prefix_append _ _)⟩
  unfold hasScheme
  congr 1
  · exact decide_eq_decide.mpr (hstart "http:/".toList)
  · exact decide_eq_decide.mpr (hstart "https:/".toList)

/-- The parser finds the same repository with and without a tag. -/
theorem parseReference_tagged (checkRegistry : Text → Bool) (hplain : explicitTag repo = false)
    (htag : checkTag tag = true) :
    parseReference checkRegistry (repo ++ ':' :: tag) =
      (parseReference checkRegistry repo).map fun ref => ⟨ref.context, tag⟩ := by
  unfold parseReference
  rw [hasScheme_tagged htag, newTag_tagged checkRegistry htag, newTag_plain checkRegistry hplain]
  cases hasScheme repo with
  | true => rfl
  | false => simp [Function.comp_def]

end tags

end NriSupplyChain.Imageref
