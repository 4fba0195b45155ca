import NriSupplyChain.Lib.Indexing
import NriSupplyChain.Purl.Parse
import Mathlib.Data.Char
import Mathlib.Data.List.Destutter
import Mathlib.Data.List.Lex
import Mathlib.Data.List.Sort

/-!
The evaluation of OpenVEX documents for an image. Every statement that applies to the
image becomes a candidate of the group of its vulnerability, product scope and
subcomponents; lenient matches that strict ones make unnecessary are dropped or moved
to the groups of their packages, and each group that is left is resolved to one
status.

How identifiers and hashes relate to the image is a parameter, `Image`; the key of a
package is computed from its package URL. Times are instants, with zero for Go's zero time.
-/

namespace NriSupplyChain.Openvex

open Lib

inductive Kind where
  | unrelated
  | image
  | otherImage
  | package
deriving DecidableEq

inductive Strength where
  | none
  | name
  | digest
deriving DecidableEq

def Strength.toNat : Strength → Nat
  | .none => 0
  | .name => 1
  | .digest => 2

def Strength.max (a b : Strength) : Strength :=
  if a.toNat < b.toNat then b else a

/-- The image as the documents are matched with it. -/
structure Image where
  matchIdentifier : Text → Kind × Strength
  matchLenient : Text → Kind × Strength
  tagConflicts : Text → Bool
  matchesHash : Text → Text → Bool
  conflictsByHash : Text → Text → Bool

structure Component where
  id : Text
  identifiers : List Text
  hashes : List (Text × Text)

structure Product where
  component : Component
  subcomponents : List Component

inductive Status where
  | notAffected
  | fixed
  | underInvestigation
  | affected
  | unknown (text : Text)

structure Statement where
  vulnerabilityName : Text
  vulnerabilityID : Text
  status : Status
  justification : Text
  impactStatement : Text
  timestamp : Option Int
  lastUpdated : Option Int
  products : List Product

structure Document where
  timestamp : Option Int
  lastUpdated : Option Int
  statements : List Statement

def zeroTime : Int := 0

def documentTime (doc : Document) : Int :=
  match doc.lastUpdated with
  | some t => if t ≠ zeroTime then t else doc.timestamp.getD zeroTime
  | none => doc.timestamp.getD zeroTime

def statementTime (stmt : Statement) (docTime : Int) : Int :=
  let written := match stmt.timestamp with
    | some t => if t ≠ zeroTime then t else docTime
    | none => docTime
  match stmt.lastUpdated with
  | some t => if t ≠ zeroTime then t else written
  | none => written

def rankResolved : Int := 0
def rankUnderInvestigation : Int := 1
def rankAffected : Int := 2

def statusRank : Status → Int
  | .notAffected | .fixed => rankResolved
  | .underInvestigation => rankUnderInvestigation
  | .affected => rankAffected
  | .unknown _ => rankAffected

def justified (charset : Charset) (stmt : Statement) : Bool :=
  match stmt.status with
  | .notAffected =>
    !(charset.trimSpace stmt.justification).isEmpty ||
      !(charset.trimSpace stmt.impactStatement).isEmpty
  | _ => true

def sortTexts (texts : List Text) : List Text :=
  texts.insertionSort (· ≤ ·)

/-- `slices.Compact`. -/
def compactTexts (texts : List Text) : List Text :=
  texts.destutter (· ≠ ·)

def subcomponentID (sub : Component) : Text :=
  if sub.id ≠ [] then sub.id
  else
    let ids := sub.identifiers ++ sub.hashes.map fun (alg, hash) => alg ++ ':' :: hash
    [','].intercalate (sortTexts ids)

def subcomponentScope (products : List Product) : Text :=
  let scopes := products.flatMap fun product => product.subcomponents.map subcomponentID
  ['\x00'].intercalate (compactTexts (sortTexts scopes))

def statementKey (charset : Charset) (stmt : Statement) (productScope subcomponentScope : Text) :
    Text :=
  let vuln := if stmt.vulnerabilityName ≠ [] then stmt.vulnerabilityName
    else stmt.vulnerabilityID
  charset.lower vuln ++ '\x00' :: productScope ++ '\x00' :: subcomponentScope

def vulnerabilityName (stmt : Statement) : Text :=
  if stmt.vulnerabilityName ≠ [] then stmt.vulnerabilityName
  else if stmt.vulnerabilityID ≠ [] then stmt.vulnerabilityID
  else "unknown".toList

def imageScope : Text := "image".toList

structure ComponentResult where
  kind : Kind
  strength : Strength
  packageKey : Text
  lenientOnly : Bool
  tagConflict : Bool

def componentIdentifiers (component : Component) : List Text :=
  component.id :: component.identifiers

section matching

variable (charset : Charset)

/-- A package and its version. -/
def packageScopeKey (parsed : Purl.PackageURL) : Text :=
  if parsed.version = [] then Purl.key charset parsed
  else Purl.key charset parsed ++ '@' :: parsed.version

/-- The loop of `matchComponentIdentifiers`. -/
def matchIdentifiers (matcher : Text → Kind × Strength) :
    List Text → (kind : Kind) → (strength : Strength) → (packageKey : Text) →
      Kind × Strength × Text
  | [], kind, strength, packageKey => (kind, strength, packageKey)
  | identifier :: rest, kind, strength, packageKey =>
    let (idKind, idStrength) := matcher identifier
    if idKind = .image ∧ (kind ≠ .image ∨ strength.toNat < idStrength.toNat) then
      matchIdentifiers matcher rest .image idStrength []
    else if idKind = .package ∧ kind ≠ .image then
      match Purl.parse charset identifier with
      | some parsed =>
        matchIdentifiers matcher rest .package idStrength (packageScopeKey charset parsed)
      | none => matchIdentifiers matcher rest kind strength packageKey
    else matchIdentifiers matcher rest kind strength packageKey

def matchComponentIdentifiers (component : Component)
    (matcher : Text → Kind × Strength) : ComponentResult :=
  let (kind, strength, packageKey) :=
    matchIdentifiers charset matcher (componentIdentifiers component) .unrelated .none []
  ⟨kind, strength, packageKey, false, false⟩

def hashMatches (component : Component) (image : Image) : Bool :=
  component.hashes.any fun (algorithm, hash) => image.matchesHash algorithm hash

def hashConflicts (component : Component) (image : Image) : Bool :=
  component.hashes.any fun (algorithm, hash) => image.conflictsByHash algorithm hash

def identifierMatch (component : Component) (image : Image) (lenient : Bool) : ComponentResult :=
  let strict := matchComponentIdentifiers charset component image.matchIdentifier
  if !lenient || strict.kind = .image then strict
  else
    let loose := matchComponentIdentifiers charset component image.matchLenient
    if loose.kind ≠ .image then strict
    else
      let sameTag := (componentIdentifiers component).any fun identifier =>
        (image.matchLenient identifier).1 = .image && !image.tagConflicts identifier
      { loose with lenientOnly := true, tagConflict := !sameTag }

def componentMatch (component : Component) (image : Image) (lenient : Bool) : ComponentResult :=
  if hashMatches component image then ⟨.image, .digest, [], false, false⟩
  else
    let result := identifierMatch charset component image lenient
    if !lenient && result.kind = .image && hashConflicts component image then
      ⟨.otherImage, .none, [], false, false⟩
    else result

structure ProductMatches where
  strength : Strength
  strictImage : Bool
  lenientWithoutTagConflict : Bool
  packages : List Text
  imageProducts : List Product
  packageProducts : List Product

def ProductMatches.add (products : ProductMatches) (product : Product)
    (component : ComponentResult) : ProductMatches :=
  match component.kind with
  | .image =>
    { products with
      strength := products.strength.max component.strength
      strictImage := products.strictImage || !component.lenientOnly
      lenientWithoutTagConflict := products.lenientWithoutTagConflict ||
        (component.lenientOnly && !component.tagConflict)
      imageProducts := products.imageProducts ++ [product] }
  | .package =>
    { products with
      strength := products.strength.max component.strength
      packages := products.packages ++ [component.packageKey]
      packageProducts := products.packageProducts ++ [product] }
  | .otherImage | .unrelated => products

def classifyProducts (stmt : Statement) (image : Image) : ProductMatches :=
  let lenient := decide (rankResolved < statusRank stmt.status)
  stmt.products.foldl
    (fun products product =>
      products.add product (componentMatch charset product.component image lenient))
    ⟨.none, false, false, [], [], []⟩

structure StatementMatch where
  strength : Strength
  scope : Text
  lenientOnly : Bool
  tagConflict : Bool
  packageScope : Text
  subcomponents : Text
  packageSubcomponents : Text

def matchStatement (stmt : Statement) (image : Image) : StatementMatch :=
  let products := classifyProducts charset stmt image
  let packageScope := [','].intercalate (compactTexts (sortTexts products.packages))
  let subcomponents := subcomponentScope (products.imageProducts ++ products.packageProducts)
  if products.imageProducts ≠ [] then
    let lenientOnly := !products.strictImage
    { strength := products.strength
      scope := imageScope
      lenientOnly
      tagConflict := lenientOnly && !products.lenientWithoutTagConflict
      packageScope := if lenientOnly then packageScope else []
      subcomponents
      packageSubcomponents :=
        if lenientOnly then subcomponentScope products.packageProducts else [] }
  else
    { strength := products.strength
      scope := if products.packages ≠ [] then packageScope else []
      lenientOnly := false
      tagConflict := false
      packageScope := []
      subcomponents
      packageSubcomponents := [] }

end matching

structure Candidate where
  rank : Int
  vulnName : Text
  timestamp : Int
  strength : Strength
  lenient : Bool
  tagConflict : Bool
  packageScope : Text
  packageKey : Text

structure StatementGroup where
  productScope : Text
  candidates : List Candidate

/-- A candidate and the group it belongs to. -/
structure Entry where
  key : Text
  scope : Text
  cand : Candidate

/-- What a statement contributes; `none` if it does not apply. -/
def statementEntry (charset : Charset) (image : Image) (docTime : Int) (stmt : Statement) :
    Option Entry :=
  let found := matchStatement charset stmt image
  if found.strength = .none then none
  else if !justified charset stmt then none
  else some
    { key := statementKey charset stmt found.scope found.subcomponents
      scope := found.scope
      cand :=
        { rank := statusRank stmt.status
          vulnName := vulnerabilityName stmt
          timestamp := statementTime stmt docTime
          strength := found.strength
          lenient := found.lenientOnly
          tagConflict := found.tagConflict
          packageScope := found.packageScope
          packageKey :=
            if found.packageScope ≠ [] then
              statementKey charset stmt found.packageScope found.packageSubcomponents
            else [] } }

def statementEntries (charset : Charset) (image : Image) (docs : List Document) : List Entry :=
  docs.flatMap fun doc => doc.statements.filterMap (statementEntry charset image (documentTime doc))

abbrev Groups := AList fun _ : Text => StatementGroup

/-- Add a candidate to the group of a key; a new group gets the scope. -/
def addCandidate (groups : Groups) (e : Entry) : Groups :=
  match groups.lookup e.key with
  | some group => groups.insert e.key { group with candidates := group.candidates ++ [e.cand] }
  | none => groups.insert e.key ⟨e.scope, [e.cand]⟩

def addCandidates (groups : Groups) (entries : List Entry) : Groups :=
  entries.foldl addCandidate groups

def StatementGroup.hasStrict (group : StatementGroup) : Bool :=
  group.candidates.any fun cand => !cand.lenient

def hasStrictImage (groups : Groups) : Bool :=
  (values groups).any fun group => group.productScope = imageScope && group.hasStrict

def superseded (strictImage groupHasStrict : Bool) (cand : Candidate) : Bool :=
  cand.lenient && (groupHasStrict || (strictImage && cand.tagConflict))

/-- The candidate as one of the packages its statement names; `none` if it names
none. -/
def packageEntry (cand : Candidate) : Option Entry :=
  if cand.packageScope = [] then none
  else some ⟨cand.packageKey, cand.packageScope,
    { cand with lenient := false, tagConflict := false }⟩

def dropSupersededLenientCandidates (groups : Groups) : Groups :=
  let strictImage := hasStrictImage groups
  let dropped := (values groups).flatMap fun group =>
    group.candidates.filter (superseded strictImage group.hasStrict)
  let kept := filterMapValues
    (fun _ group =>
      let candidates := group.candidates.filter fun cand =>
        !superseded strictImage group.hasStrict cand
      if candidates.isEmpty then none else some { group with candidates })
    groups
  addCandidates kept (dropped.filterMap packageEntry)

/-- The more recent of two dated candidates, or the more restrictive one. -/
def newerOrMoreRestrictive (current : Option Candidate) (cand : Candidate) : Candidate :=
  match current with
  | none => cand
  | some current =>
    if current.timestamp < cand.timestamp then cand
    else if cand.timestamp = current.timestamp ∧ current.rank < cand.rank then cand
    else current

/-- The variables of the loop of `resolve`. -/
structure Resolution where
  digestWinner : Option Candidate
  nameWinner : Option Candidate
  undatedRank : Int
  vulnName : Text

def Resolution.step (r : Resolution) (cand : Candidate) : Resolution :=
  let vulnName := if r.vulnName = [] ∨ cand.vulnName < r.vulnName then cand.vulnName
    else r.vulnName
  if cand.timestamp = zeroTime then
    { r with vulnName, undatedRank := max r.undatedRank cand.rank }
  else if Strength.digest.toNat ≤ cand.strength.toNat then
    { r with vulnName, digestWinner := some (newerOrMoreRestrictive r.digestWinner cand) }
  else { r with vulnName, nameWinner := some (newerOrMoreRestrictive r.nameWinner cand) }

def datedRank (digestWinner nameWinner : Option Candidate) : Int :=
  match digestWinner, nameWinner with
  | none, none => -1
  | some digest, none => digest.rank
  | none, some name => max (-1) name.rank
  | some digest, some name =>
    if name.timestamp < digest.timestamp then digest.rank else max digest.rank name.rank

/-- The rank of a group and the name to report. -/
def resolve (candidates : List Candidate) : Int × Text :=
  let r := candidates.foldl Resolution.step ⟨none, none, -1, []⟩
  (max r.undatedRank (datedRank r.digestWinner r.nameWinner), r.vulnName)

structure Result where
  affectedNames : List Text
  hasUnderInvestigation : Bool
  matchedStatements : Nat
deriving DecidableEq

/-- A resolved group: whether it is about the image, its rank and its name. -/
structure Verdict where
  aboutImage : Bool
  rank : Int
  vulnName : Text

def StatementGroup.verdict (group : StatementGroup) : Verdict :=
  let (rank, vulnName) := resolve group.candidates
  ⟨group.productScope = imageScope, rank, vulnName⟩

def summarizeVerdicts (verdicts : List Verdict) : Result where
  affectedNames := sortTexts
    ((verdicts.filter fun v => v.rank = rankAffected).map fun v => v.vulnName)
  hasUnderInvestigation := verdicts.any fun v => v.rank = rankUnderInvestigation
  matchedStatements := verdicts.countP fun v => v.aboutImage || decide (rankResolved < v.rank)

def summarize (groups : Groups) : Result :=
  summarizeVerdicts ((values groups).map StatementGroup.verdict)

def evaluate (charset : Charset) (docs : List Document) (image : Image) : Result :=
  summarize (dropSupersededLenientCandidates
    (addCandidates ∅ (statementEntries charset image docs)))

/-- A result of `Evaluate`: a map is iterated over in any order. -/
def Evaluates (charset : Charset) (docs : List Document) (image : Image) (result : Result) :
    Prop :=
  ∃ groups reduced : Groups,
    (addCandidates ∅ (statementEntries charset image docs)).entries.Perm groups.entries ∧
    (dropSupersededLenientCandidates groups).entries.Perm reduced.entries ∧
    result = summarize reduced

theorem evaluates_evaluate (charset : Charset) (docs : List Document) (image : Image) :
    Evaluates charset docs image (evaluate charset docs image) :=
  ⟨_, _, .refl _, .refl _, rfl⟩

end NriSupplyChain.Openvex
