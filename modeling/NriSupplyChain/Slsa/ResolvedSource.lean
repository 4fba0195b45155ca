import NriSupplyChain.Lib.Charset
import NriSupplyChain.Lib.FirstCome
import Mathlib.Data.List.AList
import Mathlib.Data.List.Sort

/-!
The source of a build and the dependencies that its provenance resolved. Every
dependency of the repository of a source must be consistent with it. The digest of the
first one is recorded on the source and the later ones are compared with it, but only
by the algorithm it was recorded with. So the order of the dependencies matters as far
as the choice of the first one does.
-/

namespace NriSupplyChain.Slsa

open NriSupplyChain.Lib

section model

/-- Where a source is from. -/
structure Origin where
  uri : Text
  ref : Text
deriving DecidableEq

/-- The digest is `algorithm:value`, and empty as long as it is not known. -/
structure Source extends Origin where
  digest : Text
deriving DecidableEq

/-- A source together with the build configuration source, when that one differs. -/
structure SourceInfo extends Source where
  config : Option Source

structure ResourceDescriptor where
  uri : Text
  digest : AList fun _ : Text => Text

/-- Why a dependency is not consistent with a source, with the values that the message
prints. -/
inductive SourceError where
  | noDigest (uri : Text)
  | commitMismatch (uri commit ref : Text)
  | refMismatch (uri depRef ref : Text)
  | digestMismatch (uri depValue algorithm value : Text)
deriving DecidableEq

def digestGitCommit : Text :=
  "gitCommit".toList

def digestSHA1 : Text :=
  "sha1".toList

def digestSHA256 : Text :=
  "sha256".toList

def sha1HexLength : Nat :=
  40

def sha256HexLength : Nat :=
  64

def knownGitHosts : List Text :=
  ["github.com", "gitlab.com", "bitbucket.org", "codeberg.org",
    "source.developers.google.com"].map String.toList

def archiveSuffixes : List Text :=
  [".tar", ".tar.gz", ".tgz", ".tar.bz2", ".tar.xz", ".zip"].map String.toList

/-- Where a text first stands in another one. -/
def indexOf (text part : Text) : Option Nat :=
  text.tails.findIdx? fun tail => part.isPrefixOf tail

/-- Where the path of an address starts. A URL that ends in its authority has none. -/
def pathStart (trimmed : Text) : Option Nat :=
  match indexOf trimmed "://".toList with
  | some schemeEnd =>
    let authorityStart := schemeEnd + 3
    ((trimmed.drop authorityStart).idxOf? '/').map (authorityStart + ·)
  | none =>
    match trimmed.idxOf? ':' with
    | some colon =>
      let host := trimmed.take colon
      if '@' ∈ host ∧ '/' ∉ host then some (colon + 1) else some 0
    | none => some 0

/-- Split `<repository>@<ref>` at the first `@` of the path. -/
def splitGitRef (uri : Text) : Text × Text × Bool :=
  let trimmed := trimPrefix uri "git+".toList
  match pathStart trimmed with
  | none => (trimmed, [], false)
  | some start =>
    match cut '@' (trimmed.drop start) with
    | some (path, ref) => (trimmed.take start ++ path, ref, true)
    | none => (trimmed, [], false)

def normalizeSourceURI (uri : Text) : Text × Text :=
  let (normalized, ref, _) := splitGitRef uri
  (normalized, ref)

def isHexDigit (c : Char) : Bool :=
  ('0' ≤ c && c ≤ '9') || ('a' ≤ c && c ≤ 'f')

def isCommitSHA (ref : Text) : Bool :=
  (ref.length = sha1HexLength || ref.length = sha256HexLength) && ref.all isHexDigit

def isCommitAlgorithm (algorithm : Text) : Bool :=
  algorithm = digestGitCommit || algorithm = digestSHA1 || algorithm = digestSHA256

/-- The digest of the first algorithm that has one. -/
def firstDigest (digests : AList fun _ : Text => Text) : Text :=
  let algorithms := (digests.keys.filter fun a => (digests.lookup a).getD [] ≠ []).insertionSort
    fun a b => compareText a b ≤ 0
  match algorithms with
  | [] => []
  | algorithm :: _ => algorithm ++ ':' :: (digests.lookup algorithm).getD []

/-- Two qualified refs must be the same. A short name stands for a branch or a tag. -/
def sameRef (left right : Text) : Bool :=
  let qualified := "refs/".toList
  let short := fun ref =>
    if "refs/heads/".toList <+: ref then trimPrefix ref "refs/heads/".toList
    else trimPrefix ref "refs/tags/".toList
  if left = right then true
  else if qualified <+: left ∧ qualified <+: right then false
  else short left = short right

variable (charset : Charset)

def sameRepository (a b : Text) : Bool :=
  let normalize := fun uri => trimSuffix (trimSuffix uri ['/']) ".git".toList
  charset.equalFold (normalize a) (normalize b)

/-- The digest of a dependency that can be compared with a commit. -/
def commitDigest (digests : AList fun _ : Text => Text) (ref : Text) : Text :=
  let algorithm := if ref.length = sha256HexLength then digestSHA256 else digestSHA1
  let values := [digestGitCommit, algorithm].map fun a => (digests.lookup a).getD []
  (values.find? fun value =>
    value.length = ref.length && isCommitSHA (charset.lower value)).getD []

/-- The source ref, or the dependency's commit if the source ref is one. -/
def verifyDependencyRef (source : Origin) (dep : ResourceDescriptor) (depRef : Text) :
    Except SourceError Unit :=
  if isCommitSHA source.ref then
    let commit := commitDigest charset dep.digest source.ref
    if commit ≠ [] ∧ charset.equalFold commit source.ref = false then
      .error (.commitMismatch dep.uri commit source.ref)
    else .ok ()
  else if source.ref = [] ∨ depRef = [] ∨ isCommitSHA depRef ∨ sameRef source.ref depRef then .ok ()
  else .error (.refMismatch dep.uri depRef source.ref)

-- the host name and the path of a URL, as far as `url.Parse` accepts it
variable (parseURL : Text → Option (Text × Text))

def isKnownGitHostRepository (repository : Text) : Bool :=
  match parseURL repository with
  | none => false
  | some (hostname, path) =>
    hostname ∈ knownGitHosts && archiveSuffixes.all fun suffix => ¬ suffix <:+ path

def isGitURI (uri : Text) : Bool :=
  let lower := charset.lower (charset.trimSpace uri)
  if ["git+", "git://", "ssh://"].any fun scheme => scheme.toList <+: lower then true
  else
    let repository := trimSuffix (splitGitRef lower).1 ['/']
    if ".git".toList <:+ repository then true
    else if ¬ "://".toList <:+: repository then
      match cut ':' repository with
      | some (host, _) => '@' ∈ host && '/' ∉ host
      | none => false
    else isKnownGitHostRepository parseURL repository

/-- What a dependency has for the algorithm of the recorded digest. A commit is also
looked for under the other names of one. -/
def comparedDigest (source : Source) (dep : ResourceDescriptor) (algorithm value : Text) :
    Option Text :=
  match dep.digest.lookup algorithm with
  | some depValue => some depValue
  | none =>
    if isCommitAlgorithm algorithm && isCommitSHA (charset.lower value) &&
        (algorithm = digestGitCommit || isGitURI charset parseURL dep.uri ||
          isGitURI charset parseURL source.uri) then
      let depValue := commitDigest charset dep.digest (charset.lower value)
      if depValue ≠ [] then some depValue else none
    else none

def verifyDependencyDigest (source : Source) (dep : ResourceDescriptor) :
    Except SourceError Unit :=
  match cut ':' source.digest with
  | none => .ok ()
  | some (algorithm, value) =>
    match comparedDigest charset parseURL source dep algorithm value with
    | none => .ok ()
    | some depValue =>
      if charset.equalFold depValue value then .ok ()
      else .error (.digestMismatch dep.uri depValue algorithm value)

def verifyDependency (source : Source) (dep : ResourceDescriptor) (depRef : Text) :
    Except SourceError Unit := do
  if firstDigest dep.digest = [] then throw (.noDigest dep.uri)
  verifyDependencyRef charset source.toOrigin dep depRef
  verifyDependencyDigest charset parseURL source dep

/-- Try the sources one after the other. What is recorded on them is part of the result,
and `firstErr` is the error of the first one that the dependency contradicts. -/
def verifyAgainstFrom (dep : ResourceDescriptor) :
    List Source → Option SourceError → Except SourceError (List Source)
  | [], none => .ok []
  | [], some firstErr => .error firstErr
  | candidate :: sources, firstErr =>
    let (depURI, depRef) := normalizeSourceURI dep.uri
    if sameRepository charset depURI candidate.uri then
      match verifyDependency charset parseURL candidate dep depRef with
      | .ok () =>
        if candidate.digest = [] then
          .ok ({ candidate with digest := firstDigest dep.digest } :: sources)
        else .ok (candidate :: sources)
      | .error err => (verifyAgainstFrom dep sources (firstErr.or (some err))).map (candidate :: ·)
    else (verifyAgainstFrom dep sources firstErr).map (candidate :: ·)

def verifyDependencyAgainst (sources : List Source) (dep : ResourceDescriptor) :
    Except SourceError (List Source) :=
  verifyAgainstFrom charset parseURL dep sources none

def SourceInfo.sources (source : SourceInfo) : List Source :=
  source.toSource :: (source.config.filter fun config => config.uri ≠ []).toList

/-- The sources with what was recorded on them. Without a source, nothing is checked. -/
def verifyResolvedSource (source : SourceInfo) (deps : List ResourceDescriptor) :
    Except SourceError (List Source) :=
  if source.uri = [] then .ok source.sources
  else deps.foldlM (verifyDependencyAgainst charset parseURL) source.sources

def accepts (source : SourceInfo) (deps : List ResourceDescriptor) : Bool :=
  (verifyResolvedSource charset parseURL source deps).isOk

end model

section order

variable (charset : Charset) (parseURL : Text → Option (Text × Text))

/-- When a dependency belongs to a source, and when it goes together with the digest
that is recorded there. -/
def sourceRules : FirstCome Origin ResourceDescriptor Text where
  concerns source dep := sameRepository charset (normalizeSourceURI dep.uri).1 source.uri
  fits source dep := firstDigest dep.digest ≠ [] &&
    (verifyDependencyRef charset source dep (normalizeSourceURI dep.uri).2).isOk
  agrees source digest dep := (verifyDependencyDigest charset parseURL ⟨source, digest⟩ dep).isOk
  record dep := firstDigest dep.digest

def Source.slot (source : Source) : FirstCome.Slot Origin Text :=
  (source.toOrigin, if source.digest = [] then none else some source.digest)

def SourceInfo.slots (source : SourceInfo) : List (FirstCome.Slot Origin Text) :=
  if source.uri = [] then [] else source.sources.map Source.slot

variable {charset} {parseURL}

theorem verifyDependency_isOk (source : Source) (dep : ResourceDescriptor) :
    (verifyDependency charset parseURL source dep (normalizeSourceURI dep.uri).2).isOk =
      ((sourceRules charset parseURL).fits source.toOrigin dep &&
        (verifyDependencyDigest charset parseURL source dep).isOk) := by
  have hread : verifyDependency charset parseURL source dep (normalizeSourceURI dep.uri).2 =
      if firstDigest dep.digest = [] then .error (.noDigest dep.uri)
      else (verifyDependencyRef charset source.toOrigin dep (normalizeSourceURI dep.uri).2).bind
        fun _ => verifyDependencyDigest charset parseURL source dep := by
    unfold verifyDependency
    split <;> rfl
  rw [hread]
  by_cases hdigest : firstDigest dep.digest = []
  · simp [hdigest, sourceRules, Except.isOk, Except.toBool]
  · cases href : verifyDependencyRef charset source.toOrigin dep (normalizeSourceURI dep.uri).2 with
    | error err => simp [hdigest, href, sourceRules, Except.bind, Except.isOk, Except.toBool]
    | ok _ => simp [hdigest, href, sourceRules, Except.bind, Except.isOk, Except.toBool]

/-- A source takes the dependencies of its repository that are consistent with it. -/
theorem takes_slot (source : Source) (dep : ResourceDescriptor) :
    (sourceRules charset parseURL).takes source.slot dep =
      (sameRepository charset (normalizeSourceURI dep.uri).1 source.uri &&
        (verifyDependency charset parseURL source dep (normalizeSourceURI dep.uri).2).isOk) := by
  rw [verifyDependency_isOk, ← Bool.and_assoc]
  unfold FirstCome.takes Source.slot
  by_cases hdigest : source.digest = []
  · have hany : verifyDependencyDigest charset parseURL source dep = .ok () := by
      unfold verifyDependencyDigest
      rw [hdigest]
      rfl
    rw [if_pos hdigest, hany]
    rfl
  · rw [if_neg hdigest]
    rfl

theorem firstDigest_ne_nil_of_takes {slot : FirstCome.Slot Origin Text} {dep : ResourceDescriptor}
    (h : (sourceRules charset parseURL).takes slot dep = true) : firstDigest dep.digest ≠ [] := by
  simp only [FirstCome.takes, sourceRules, Bool.and_eq_true, decide_eq_true_eq] at h
  exact h.1.2.1

/-- Trying the sources is offering the dependency to their slots. -/
theorem verifyAgainstFrom_place (dep : ResourceDescriptor) (sources : List Source)
    (firstErr : Option SourceError) :
    ((verifyAgainstFrom charset parseURL dep sources firstErr).toOption.map
        (List.map Source.slot)) =
      (sourceRules charset parseURL).place (sources.map Source.slot) (firstErr.isSome, dep) := by
  induction sources generalizing firstErr with
  | nil =>
    cases firstErr with
    | none => rfl
    | some err => rfl
  | cons candidate sources ih =>
    have hback : ∀ err, ((verifyAgainstFrom charset parseURL dep sources err).map
          (candidate :: ·)).toOption.map (List.map Source.slot) =
        ((sourceRules charset parseURL).place (sources.map Source.slot) (err.isSome, dep)).map
          (candidate.slot :: ·) := by
      intro err
      rw [← ih err]
      cases verifyAgainstFrom charset parseURL dep sources err with
      | error _ => rfl
      | ok _ => rfl
    have hconcerns : (sourceRules charset parseURL).concerns candidate.slot.1 dep =
        sameRepository charset (normalizeSourceURI dep.uri).1 candidate.uri := rfl
    have htakes : (sourceRules charset parseURL).takes candidate.slot dep = _ :=
      takes_slot candidate dep
    rw [List.map_cons, FirstCome.place, hconcerns]
    unfold verifyAgainstFrom
    dsimp only
    by_cases hsame : sameRepository charset (normalizeSourceURI dep.uri).1 candidate.uri = true
    · rw [if_pos hsame]
      rw [hsame, Bool.true_and] at htakes
      cases hverify : verifyDependency charset parseURL candidate dep
        (normalizeSourceURI dep.uri).2 with
      | ok _ =>
        have htaken : (sourceRules charset parseURL).takes candidate.slot dep = true := by
          rw [htakes, hverify]
          rfl
        have hdigest := firstDigest_ne_nil_of_takes htaken
        rw [if_pos htaken]
        by_cases hempty : candidate.digest = []
        · simp [FirstCome.put, Source.slot, sourceRules, hempty, hdigest, Except.toOption]
        · simp [FirstCome.put, Source.slot, hempty, Except.toOption]
      | error err =>
        have hrefused : (sourceRules charset parseURL).takes candidate.slot dep ≠ true := by
          rw [htakes, hverify]
          exact Bool.false_ne_true
        have hsome : (firstErr.isSome || true) = (firstErr.or (some err)).isSome := by
          cases firstErr <;> rfl
        rw [if_neg hrefused, hsame, hsome, ← hback]
    · rw [if_neg hsame]
      rw [Bool.eq_false_iff.mpr hsame, Bool.false_and] at htakes
      have hrefused : (sourceRules charset parseURL).takes candidate.slot dep ≠ true := by
        rw [htakes]
        exact Bool.false_ne_true
      rw [if_neg hrefused, Bool.eq_false_iff.mpr hsame, Bool.or_false, ← hback]

theorem foldlM_placeAll (sources : List Source) (deps : List ResourceDescriptor) :
    ((deps.foldlM (verifyDependencyAgainst charset parseURL) sources).toOption.map
        (List.map Source.slot)) =
      (sourceRules charset parseURL).placeAll (sources.map Source.slot) (deps.map (false, ·)) := by
  induction deps generalizing sources with
  | nil => rfl
  | cons dep deps ih =>
    have hplace : ((verifyDependencyAgainst charset parseURL sources dep).toOption.map
        (List.map Source.slot)) =
          (sourceRules charset parseURL).place (sources.map Source.slot) (false, dep) :=
      verifyAgainstFrom_place dep sources none
    unfold FirstCome.placeAll at ih ⊢
    rw [List.map_cons, List.foldlM_cons, List.foldlM_cons, ← hplace]
    cases verifyDependencyAgainst charset parseURL sources dep with
    | error err => rfl
    | ok next => exact ih next

theorem accepts_eq_accepted (source : SourceInfo) (deps : List ResourceDescriptor) :
    accepts charset parseURL source deps =
      (sourceRules charset parseURL).accepted source.slots (deps.map (false, ·)) := by
  unfold accepts verifyResolvedSource SourceInfo.slots
  by_cases huri : source.uri = []
  · rw [if_pos huri, if_pos huri, FirstCome.accepted_nil, List.all_map]
    exact (List.all_eq_true.mpr fun _ _ => rfl).symm
  · rw [if_neg huri, if_neg huri, FirstCome.accepted, ← foldlM_placeAll, Option.isSome_map]
    cases deps.foldlM (verifyDependencyAgainst charset parseURL) source.sources with
    | error _ => rfl
    | ok _ => rfl

/-- The order does not matter when every source has a digest from the start. -/
theorem accepts_perm_of_digests {source : SourceInfo} {deps order : List ResourceDescriptor}
    (hdigests : ∀ s ∈ source.sources, s.digest ≠ []) (horder : order.Perm deps) :
    accepts charset parseURL source order = accepts charset parseURL source deps := by
  rw [accepts_eq_accepted, accepts_eq_accepted]
  refine FirstCome.accepted_perm_of_recorded ?_ (horder.map _)
  intro slot hslot
  unfold SourceInfo.slots at hslot
  split at hslot
  · cases hslot
  · obtain ⟨s, hs, rfl⟩ := List.mem_map.mp hslot
    simp [Source.slot, hdigests s hs]

/-- A single source without a digest accepts every order exactly if each dependency of its
repository fits and each two agree with the first digest of one another. -/
theorem accepts_every_order_iff {source : SourceInfo} (huri : source.uri ≠ [])
    (hdigest : source.digest = []) (hconfig : source.config = none)
    (deps : List ResourceDescriptor) :
    (∀ order : List ResourceDescriptor, order.Perm deps →
        accepts charset parseURL source order = true) ↔
      (∀ dep ∈ deps, (sourceRules charset parseURL).concerns source.toOrigin dep = true →
        (sourceRules charset parseURL).fits source.toOrigin dep = true) ∧
      (deps.filter ((sourceRules charset parseURL).concerns source.toOrigin)).Pairwise
        ((sourceRules charset parseURL).Compatible source.toOrigin) := by
  rw [← FirstCome.accepted_single_iff]
  refine forall₂_congr fun order _ => ?_
  rw [accepts_eq_accepted]
  simp [SourceInfo.slots, SourceInfo.sources, Source.slot, huri, hdigest, hconfig]

variable (charset) (parseURL)

/-- The order of the dependencies does not matter exactly if it makes no difference
which dependency each source without a digest meets first. -/
theorem verifyResolvedSource_order_free_iff (source : SourceInfo) (deps : List ResourceDescriptor) :
    (∀ order : List ResourceDescriptor, order.Perm deps →
        accepts charset parseURL source order = accepts charset parseURL source deps) ↔
      ∀ v w, (sourceRules charset parseURL).Verdict source.slots (deps.map (false, ·)) v →
        (sourceRules charset parseURL).Verdict source.slots (deps.map (false, ·)) w → v = w := by
  rw [← FirstCome.order_free_iff]
  constructor
  · intro hfree order horder
    obtain ⟨plain, hplain, rfl⟩ : ∃ plain : List ResourceDescriptor,
        plain.Perm deps ∧ plain.map (false, ·) = order := by
      rw [← List.filterMap_eq_map] at horder
      obtain ⟨plain, hplain, hmap⟩ := exists_perm_of_filterMap_perm horder
      exact ⟨plain, hplain, by rw [← hmap, List.filterMap_eq_map]⟩
    rw [← accepts_eq_accepted, ← accepts_eq_accepted]
    exact hfree plain hplain
  · intro hfree order horder
    rw [accepts_eq_accepted, accepts_eq_accepted]
    exact hfree _ (horder.map _)

/-- A dependency with a directory hash is recorded by it, so that the next one may name
another commit. The other way around, the two commits are compared. -/
theorem directory_hash_hides_commit :
    ∃ (source : SourceInfo) (first second : ResourceDescriptor),
      accepts Charset.ascii (fun _ => none) source [first, second] = true ∧
        accepts Charset.ascii (fun _ => none) source [second, first] = false := by
  let uri : Text := "https://github.com/org/app".toList
  let commit (c : Char) : Sigma fun _ : Text => Text := ⟨digestGitCommit, List.replicate 40 c⟩
  let hash : Sigma fun _ : Text => Text := ⟨"dirHash".toList, "h1".toList⟩
  refine ⟨⟨⟨⟨uri, []⟩, []⟩, none⟩, ⟨uri, [hash, commit 'a'].toAList⟩, ⟨uri, [commit 'b'].toAList⟩,
    ?_, ?_⟩
  · decide
  · decide

end order

end NriSupplyChain.Slsa
