import NriSupplyChain.Lib.Indexing
import NriSupplyChain.Purl.Parse

/-!
Drift of the packages of an SBOM against a baseline. Packages are collapsed by their
key before they are compared, and of packages with the same key only the last one
counts. So the drift of a package is found, whatever else is listed, exactly if the
last packages with its key differ.
-/

namespace NriSupplyChain.Sbom

open NriSupplyChain.Lib NriSupplyChain.Purl

section model

structure SbomPackage where
  purl : Text
  name : Text
  version : Text
  licenses : List Text
  checksums : AList fun _ : Text => Text
  exempt : Bool

def namedIdentityPrefix : Text :=
  "name:".toList

def unparsedIdentityPrefix : Text :=
  "unparsed:".toList

def SbomPackage.driftKey (p : SbomPackage) : Text :=
  if p.purl ≠ [] then p.purl else namedIdentityPrefix ++ p.name ++ '@' :: p.version

/-- Packages that have neither a package URL nor a name are skipped, and so are exempt
ones without a package URL. -/
def SbomPackage.tracked (p : SbomPackage) : Bool :=
  !(p.purl = [] && p.exempt) && !(p.purl = [] && p.name = [])

variable (charset : Charset)

def SbomPackage.driftIdentity (p : SbomPackage) : Text :=
  if p.purl = [] then namedIdentityPrefix ++ p.name
  else
    match parse charset p.purl with
    | none => unparsedIdentityPrefix ++ p.purl
    | some parsed => key charset parsed

def normalizeAlgorithm (algorithm : Text) : Text :=
  charset.lower (algorithm.filter fun c => c ≠ '-' && c ≠ '_')

def normalizeChecksums (checksums : AList fun _ : Text => Text) : AList fun _ : Text => Text :=
  checksums.entries.foldl
    (fun normalized entry => normalized.insert (normalizeAlgorithm charset entry.1) entry.2) ∅

/-- Whether the current checksums cover those of the baseline. -/
def checksumsEqual (baseline current : AList fun _ : Text => Text) : Bool :=
  if baseline.entries = [] ∧ current.entries = [] then true
  else if baseline.entries ≠ [] ∧ current.entries = [] then false
  else
    let baseline := normalizeChecksums charset baseline
    let current := normalizeChecksums charset current
    if current.entries.length < baseline.entries.length then false
    else
      baseline.entries.all fun entry =>
        match current.lookup entry.1 with
        | none => false
        | some curVal => charset.equalFold entry.2 curVal

def licenseSet (licenses : List Text) : List Text :=
  compact ((licenses.map charset.lower).insertionSort fun a b => compareText a b ≤ 0)

def licensesEqual (baseline current : List Text) : Bool :=
  licenseSet charset baseline = licenseSet charset current

def packageModified (base cur : SbomPackage) : Bool :=
  base.version ≠ cur.version || !checksumsEqual charset base.checksums cur.checksums ||
    !licensesEqual charset base.licenses cur.licenses

/-- Packages by their identity, each key once, and the number of keys. Grouping the
sorted packages sorts each group. -/
def indexByIdentity (pkgs : List SbomPackage) :
    (AList fun _ : Text => List SbomPackage) × Nat :=
  let byKey := values (indexBy SbomPackage.driftKey (pkgs.filter SbomPackage.tracked))
  let sorted := byKey.insertionSort fun left right =>
    compareText left.driftKey right.driftKey ≤ 0
  (groupBy (SbomPackage.driftIdentity charset) sorted, byKey.length)

structure Difference where
  added : List SbomPackage
  removed : List SbomPackage
  modified : List SbomPackage

/-- Compare the packages of one identity. Packages with the same key are compared
directly, the others are paired as modified. -/
def diffIdentity (baseline current : List SbomPackage) : Difference :=
  let baseByKey := indexBy SbomPackage.driftKey baseline
  let compared := current.filter fun cur =>
    (baseByKey.lookup cur.driftKey).any fun base => packageModified charset base cur
  let unmatchedCur := current.filter fun cur => (baseByKey.lookup cur.driftKey).isNone
  let unmatchedBase := baseline.filter fun base =>
    base.driftKey ∉ current.map SbomPackage.driftKey
  let paired := min unmatchedBase.length unmatchedCur.length
  { added := unmatchedCur.drop paired
    removed := unmatchedBase.drop paired
    modified := compared ++ unmatchedCur.take paired }

def sortByKey (pkgs : List SbomPackage) : List SbomPackage :=
  pkgs.insertionSort fun left right => compareText left.driftKey right.driftKey ≤ 0

structure DriftResult where
  added : List SbomPackage
  removed : List SbomPackage
  modified : List SbomPackage
  addedCount : Nat
  removedCount : Nat
  modifiedCount : Nat
  score : ℚ

def driftWeightAdded : Nat := 3
def driftWeightModified : Nat := 2
def driftWeightRemoved : Nat := 1

def computeDrift (baseline current : List SbomPackage) : DriftResult :=
  let (baselineIndex, baselineCount) := indexByIdentity charset baseline
  let (currentIndex, _) := indexByIdentity charset current
  let diffs := currentIndex.entries.map fun entry =>
    diffIdentity charset ((baselineIndex.lookup entry.1).getD []) entry.2
  let gone := baselineIndex.entries.filter fun entry => entry.1 ∉ currentIndex.keys
  let added := sortByKey (diffs.flatMap Difference.added)
  let removed := sortByKey (diffs.flatMap Difference.removed ++ gone.flatMap fun entry => entry.2)
  let modified := sortByKey (diffs.flatMap Difference.modified)
  { added := added
    removed := removed
    modified := modified
    addedCount := added.length
    removedCount := removed.length
    modifiedCount := modified.length
    score := if 0 < baselineCount then
      ((added.length * driftWeightAdded + modified.length * driftWeightModified +
        removed.length * driftWeightRemoved : Nat) : ℚ) / baselineCount
      else 0 }

end model

section groups

variable {charset : Charset}

/-- The last tracked package with a key. -/
def lastWith (k : Text) (pkgs : List SbomPackage) : Option SbomPackage :=
  ((pkgs.filter SbomPackage.tracked).filter fun p => p.driftKey = k).getLast?

variable {p : SbomPackage} {pkgs : List SbomPackage}

theorem lastWith_key {k : Text} (h : lastWith k pkgs = some p) : p.driftKey = k := by
  have hmem := List.mem_of_getLast? h
  exact of_decide_eq_true (List.mem_filter.mp hmem).2

/-- The packages of one identity. -/
def group (charset : Charset) (identity : Text) (pkgs : List SbomPackage) : List SbomPackage :=
  ((indexByIdentity charset pkgs).1.lookup identity).getD []

variable {identity : Text}

theorem group_eq (identity : Text) (pkgs : List SbomPackage) : group charset identity pkgs =
    ((values (indexBy SbomPackage.driftKey (pkgs.filter SbomPackage.tracked))).insertionSort
      fun left right => compareText left.driftKey right.driftKey ≤ 0).filter
        fun p => p.driftIdentity charset = identity := by
  unfold group indexByIdentity
  rw [lookup_groupBy]
  split
  · next hnil => rw [hnil, Option.getD_none]
  · rw [Option.getD_some]

/-- The packages that are compared are the last ones with their keys. -/
theorem mem_group :
    p ∈ group charset identity pkgs ↔
      p.driftIdentity charset = identity ∧ lastWith p.driftKey pkgs = some p := by
  rw [group_eq, List.mem_filter, List.mem_insertionSort, mem_values_indexBy, lookup_indexBy,
    decide_eq_true_eq]
  exact and_comm

theorem group_of_lookup {pkgs' : List SbomPackage}
    (h : (indexByIdentity charset pkgs).1.lookup identity = some pkgs') :
    group charset identity pkgs = pkgs' := by
  unfold group
  rw [h, Option.getD_some]

/-- Each package is one of an identity that is compared. -/
theorem lookup_of_mem_group (h : p ∈ group charset identity pkgs) :
    (indexByIdentity charset pkgs).1.lookup identity = some (group charset identity pkgs) := by
  unfold group at h ⊢
  cases hlookup : (indexByIdentity charset pkgs).1.lookup identity with
  | none =>
    rw [hlookup] at h
    cases h
  | some pkgs' => rfl

theorem base_lookup {k : Text} {base : SbomPackage} :
    (indexBy SbomPackage.driftKey (group charset identity pkgs)).lookup k = some base ↔
      base.driftIdentity charset = identity ∧ lastWith k pkgs = some base := by
  rw [lookup_indexBy]
  constructor
  · intro h
    obtain ⟨hmem, hkey⟩ := List.mem_filter.mp (List.mem_of_getLast? h)
    obtain ⟨hidentity, hlast⟩ := mem_group.mp hmem
    rw [of_decide_eq_true hkey] at hlast
    exact ⟨hidentity, hlast⟩
  · rintro ⟨hidentity, hlast⟩
    have hkey := lastWith_key hlast
    have hmem : base ∈ (group charset identity pkgs).filter fun p => p.driftKey = k := by
      rw [List.mem_filter, mem_group, hkey]
      exact ⟨⟨hidentity, hlast⟩, decide_eq_true rfl⟩
    -- All packages of the group with this key are the last one.
    have hall : ∀ p ∈ (group charset identity pkgs).filter fun p => p.driftKey = k, p = base := by
      intro p hp
      obtain ⟨hgroup, hpkey⟩ := List.mem_filter.mp hp
      have hplast := (mem_group.mp hgroup).2
      rw [of_decide_eq_true hpkey, hlast] at hplast
      exact (Option.some.inj hplast).symm
    have hne : (group charset identity pkgs).filter (fun p => p.driftKey = k) ≠ [] :=
      List.ne_nil_of_mem hmem
    rw [List.getLast?_eq_some_getLast hne, hall _ (List.getLast_mem hne)]

theorem mem_of_mem_modified {baseline current : List SbomPackage}
    (h : p ∈ (diffIdentity charset baseline current).modified) : p ∈ current := by
  rcases List.mem_append.mp h with h | h
  · exact (List.mem_filter.mp h).1
  · exact (List.mem_filter.mp (List.mem_of_mem_take h)).1

theorem modifiedCount_pos_iff (baseline current : List SbomPackage) :
    1 ≤ (computeDrift charset baseline current).modifiedCount ↔ ∃ identity,
      (diffIdentity charset (group charset identity baseline)
        (group charset identity current)).modified ≠ [] := by
  have hcount : (computeDrift charset baseline current).modifiedCount =
      ((indexByIdentity charset current).1.entries.flatMap fun entry =>
        (diffIdentity charset (group charset entry.1 baseline) entry.2).modified).length := by
    change (sortByKey _).length = _
    unfold sortByKey
    rw [List.length_insertionSort, List.flatMap_map]
    rfl
  rw [hcount, Nat.one_le_iff_ne_zero, ne_eq, List.length_eq_zero_iff, List.flatMap_eq_nil_iff]
  push Not
  constructor
  · rintro ⟨⟨identity, pkgs⟩, hmem, hne⟩
    have hgroup := group_of_lookup (AList.mem_lookup_iff.mpr hmem)
    refine ⟨identity, ?_⟩
    rw [hgroup]
    exact hne
  · rintro ⟨identity, hne⟩
    obtain ⟨p, hp⟩ := List.exists_mem_of_ne_nil _ hne
    have hlookup := lookup_of_mem_group (mem_of_mem_modified hp)
    exact ⟨⟨identity, group charset identity current⟩, AList.mem_lookup_iff.mp hlookup, hne⟩

theorem filter_ne_nil_iff {α : Type} {q : α → Bool} {list : List α} :
    list.filter q ≠ [] ↔ ∃ a ∈ list, q a = true := by
  rw [ne_eq, List.filter_eq_nil_iff]
  push Not
  rfl

/-- Something of an identity is modified if packages with the same key differ, or if
on both sides a package is left. -/
theorem modified_ne_nil_iff (baseline current : List SbomPackage) :
    (diffIdentity charset baseline current).modified ≠ [] ↔
      (∃ cur ∈ current, ∃ base,
        (indexBy SbomPackage.driftKey baseline).lookup cur.driftKey = some base ∧
          packageModified charset base cur = true) ∨
      ((∃ base ∈ baseline, base.driftKey ∉ current.map SbomPackage.driftKey) ∧
        ∃ cur ∈ current, (indexBy SbomPackage.driftKey baseline).lookup cur.driftKey = none) := by
  unfold diffIdentity
  dsimp only
  rw [ne_eq, List.append_eq_nil_iff, not_and_or, List.take_eq_nil_iff, not_or, ← ne_eq, ← ne_eq,
    ← ne_eq, filter_ne_nil_iff, filter_ne_nil_iff]
  refine or_congr ?_ ?_
  · simp only [Option.any_eq_true]
  · constructor
    · rintro ⟨hmin, cur, hcur, hnone⟩
      have hbase : baseline.filter (fun base =>
          base.driftKey ∉ current.map SbomPackage.driftKey) ≠ [] := by
        intro hnil
        rw [hnil] at hmin
        simp at hmin
      obtain ⟨base, hmem, hleft⟩ := filter_ne_nil_iff.mp hbase
      exact ⟨⟨base, hmem, of_decide_eq_true hleft⟩, cur, hcur, Option.isNone_iff_eq_none.mp hnone⟩
    · rintro ⟨⟨base, hmem, hleft⟩, cur, hcur, hnone⟩
      have hcurs : cur ∈ current.filter fun cur =>
          ((indexBy SbomPackage.driftKey baseline).lookup cur.driftKey).isNone :=
        List.mem_filter.mpr ⟨hcur, Option.isNone_iff_eq_none.mpr hnone⟩
      have hbases : base ∈ baseline.filter fun base =>
          base.driftKey ∉ current.map SbomPackage.driftKey :=
        List.mem_filter.mpr ⟨hmem, decide_eq_true hleft⟩
      have hcurPos := List.length_pos_of_mem hcurs
      have hbasePos := List.length_pos_of_mem hbases
      exact ⟨by omega, cur, hcur, Option.isNone_iff_eq_none.mpr hnone⟩

end groups

section duplicates

variable {charset : Charset}

/-- Two packages record different values for one algorithm. -/
def Contradicts (charset : Charset) (base cur : SbomPackage) : Prop :=
  ∃ algorithm baseVal curVal,
    (normalizeChecksums charset base.checksums).lookup algorithm = some baseVal ∧
    (normalizeChecksums charset cur.checksums).lookup algorithm = some curVal ∧
    charset.equalFold baseVal curVal = false

/-- Packages that contradict each other are told apart. -/
theorem packageModified_of_contradicts {base cur : SbomPackage}
    (h : Contradicts charset base cur) : packageModified charset base cur = true := by
  obtain ⟨algorithm, baseVal, curVal, hbase, hcur, hdiffer⟩ := h
  have hmem : (⟨algorithm, baseVal⟩ : Sigma fun _ : Text => Text) ∈
      (normalizeChecksums charset base.checksums).entries := AList.mem_lookup_iff.mp hbase
  have hunequal : checksumsEqual charset base.checksums cur.checksums = false := by
    unfold checksumsEqual
    split
    · next hempty =>
      simp [normalizeChecksums, hempty.1] at hbase
    · split
      · rfl
      · dsimp only
        split
        · rfl
        · rw [List.all_eq_false]
          refine ⟨_, hmem, ?_⟩
          rw [hcur]
          simp [hdiffer]
  simp [packageModified, hunequal]

variable {purl : Text} {baseline current : List SbomPackage}

/-- The last entries for a package URL are compared, whatever else is listed. -/
theorem detected_of_lastWith {base cur : SbomPackage} (hbase : lastWith purl baseline = some base)
    (hcur : lastWith purl current = some cur)
    (hidentity : base.driftIdentity charset = cur.driftIdentity charset)
    (hmodified : packageModified charset base cur = true) :
    1 ≤ (computeDrift charset baseline current).modifiedCount := by
  rw [modifiedCount_pos_iff]
  refine ⟨cur.driftIdentity charset, (modified_ne_nil_iff _ _).mpr (.inl ⟨cur, ?_, base, ?_, ?_⟩)⟩
  · rw [mem_group, lastWith_key hcur]
    exact ⟨rfl, hcur⟩
  · rw [base_lookup, lastWith_key hcur]
    exact ⟨hidentity, hbase⟩
  · exact hmodified

/-- The identity of a package with a package URL is read from it. -/
theorem driftIdentity_of_purl {base cur : SbomPackage} (hbase : base.purl = purl)
    (hcur : cur.purl = purl) (hpurl : purl ≠ []) :
    base.driftIdentity charset = cur.driftIdentity charset := by
  simp [SbomPackage.driftIdentity, hbase, hcur, hpurl]

/-- A tampered package that is the last one with its package URL is detected. -/
theorem tampered_last_detected {base cur : SbomPackage} (hpurl : purl ≠ [])
    (hbase : lastWith purl baseline = some base) (hbasePurl : base.purl = purl)
    (hcur : lastWith purl current = some cur) (hcurPurl : cur.purl = purl)
    (h : ∀ other ∈ baseline, other.purl = purl → Contradicts charset other cur) :
    1 ≤ (computeDrift charset baseline current).modifiedCount := by
  have hmem : base ∈ baseline :=
    List.mem_of_mem_filter (List.mem_of_mem_filter (List.mem_of_getLast? hbase))
  exact detected_of_lastWith hbase hcur (driftIdentity_of_purl hbasePurl hcurPurl hpurl)
    (packageModified_of_contradicts (h base hmem hbasePurl))

end duplicates

end NriSupplyChain.Sbom
