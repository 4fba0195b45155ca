import NriSupplyChain.Lib.Charset
import NriSupplyChain.Lib.Cuts

/-!
Comparing versions of packages. Versions that read as semantic versions are compared
by their numbers and pre-releases, other versions cannot be ordered.
-/

namespace NriSupplyChain.Feed

open NriSupplyChain.Lib

/-- Numbers are compared by a difference of 64 bits. -/
def compareIdentifier (left right : Text) : Int :=
  match atoi left, atoi right with
  | some leftNum, some rightNum => (leftNum - rightNum).bmod (2 ^ 64)
  | some _, none => -1
  | none, some _ => 1
  | none, none => compareText left right

def compareIdentifiers : List Text → List Text → Int
  | [], [] => 0
  | [], _ :: _ => -1
  | _ :: _, [] => 1
  | left :: leftIDs, right :: rightIDs =>
    let cmp := compareIdentifier left right
    if cmp ≠ 0 then cmp else compareIdentifiers leftIDs rightIDs

def comparePrerelease (left right : Text) : Int :=
  if left = right then 0
  else if left = [] then 1
  else if right = [] then -1
  else compareIdentifiers (left.splitOn '.') (right.splitOn '.')

variable (charset : Charset)

def normalizeVersion (version : Text) : Text :=
  match charset.trimSpace version with
  | 'v' :: rest => rest
  | trimmed => trimmed

/-- The three numbers of a version. Missing ones count as zero. -/
def readCore (parts : List Text) : Option (Int × Int × Int) := do
  let core ← parts.mapM atoi
  guard (∀ value ∈ core, 0 ≤ value)
  match core with
  | [major] => return (major, 0, 0)
  | [major, minor] => return (major, minor, 0)
  | [major, minor, patch] => return (major, minor, patch)
  | _ => none

def splitSemver (version : Text) : Option ((Int × Int × Int) × Text) :=
  let version := (cutOr '+' (normalizeVersion charset version)).1
  let (version, prerelease) := cutOr '-' version
  (readCore (version.splitOn '.')).map fun core => (core, prerelease)

def compareCore (left right : Int × Int × Int) : Int :=
  if left.1 ≠ right.1 then if left.1 < right.1 then -1 else 1
  else if left.2.1 ≠ right.2.1 then if left.2.1 < right.2.1 then -1 else 1
  else if left.2.2 ≠ right.2.2 then if left.2.2 < right.2.2 then -1 else 1
  else 0

def compareSemver (left right : Text) : Option Int := do
  let (leftCore, leftPre) ← splitSemver charset left
  let (rightCore, rightPre) ← splitSemver charset right
  let cmp := compareCore leftCore rightCore
  return if cmp ≠ 0 then cmp else comparePrerelease leftPre rightPre

def versionsEqual (left right : Text) : Bool :=
  match compareSemver charset left right with
  | some cmp => cmp = 0
  | none => normalizeVersion charset left = normalizeVersion charset right

def buildMetadata (version : Text) : Text :=
  (cutOr '+' (normalizeVersion charset version)).2

/-- The comparison operators of constraints, in the order they are tried. -/
inductive Operator where
  | atLeast
  | atMost
  | above
  | below
  | equal
deriving DecidableEq

def Operator.text : Operator → Text
  | .atLeast => ">=".toList
  | .atMost => "<=".toList
  | .above => ">".toList
  | .below => "<".toList
  | .equal => "=".toList

def operators : List Operator :=
  [.atLeast, .atMost, .above, .below, .equal]

def compareWithOperator : Operator → Int → Bool
  | .atLeast, cmp => 0 ≤ cmp
  | .atMost, cmp => cmp ≤ 0
  | .above, cmp => 0 < cmp
  | .below, cmp => cmp < 0
  | .equal, cmp => cmp = 0

/-- Whether the version meets a constraint, if that can be told. Versions that only
differ in their build metadata cannot be ordered. -/
def satisfies (version constraint : Text) : Option Bool :=
  match operators.find? fun operator => operator.text.isPrefixOf constraint with
  | none => none
  | some operator =>
    let bound := constraint.drop operator.text.length
    match compareSemver charset version bound with
    | none => none
    | some cmp =>
      if cmp = 0 ∧ buildMetadata charset version ≠ buildMetadata charset bound then none
      else some (compareWithOperator operator cmp)

section equality

/-- A version that can be compared equals itself. -/
theorem compareSemver_self (version : Text) :
    compareSemver charset version version = (splitSemver charset version).map fun _ => 0 := by
  unfold compareSemver
  cases splitSemver charset version with
  | none => rfl
  | some parts => simp [compareCore, comparePrerelease]

theorem versionsEqual_self (version : Text) : versionsEqual charset version version = true := by
  unfold versionsEqual
  rw [compareSemver_self]
  cases splitSemver charset version with
  | none => simp
  | some parts => simp

end equality

end NriSupplyChain.Feed
