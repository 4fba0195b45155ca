import NriSupplyChain.Feed.Versions
import NriSupplyChain.Purl.Parse

/-!
Matching the packages of an image against the specs of a vulnerability feed. Specs
are package URLs, indexed by their key. A cheap filter on the name runs before a
package URL is parsed.
-/

namespace NriSupplyChain.Feed

open NriSupplyChain.Lib NriSupplyChain.Purl

section specs

def versQualifier : Text :=
  "vers".toList

def versPrefix : Text :=
  "vers:semver/".toList

def versAny : Text :=
  ['*']

structure MatchSpec where
  version : Text
  constraints : List Text
  any : Bool
deriving DecidableEq

/-- The constraints that the qualifier of a spec lists. -/
def readConstraints (parsed : PackageURL) : List Text :=
  let vers := (parsed.qualifiers.lookup versQualifier).getD []
  if versPrefix.isPrefixOf vers then
    let body := vers.drop versPrefix.length
    if body ≠ versAny then body.splitOn '|' else []
  else []

def newSpec (parsed : PackageURL) : MatchSpec where
  version := parsed.version
  constraints := readConstraints parsed
  any := parsed.version = [] && (readConstraints parsed).isEmpty

variable (charset : Charset)

def matchesConstraints (version : Text) : List Text → Bool
  | [] => true
  | constraint :: rest =>
    match satisfies charset version constraint with
    | none => true
    | some ok => ok && matchesConstraints version rest

def MatchSpec.matchesVersion (s : MatchSpec) (version : Text) : Bool :=
  if s.any || version = [] then true
  else if s.version ≠ [] then versionsEqual charset s.version version
  else matchesConstraints charset version s.constraints

end specs

/-- Specs with their keys, and the names of all specs. -/
structure Matcher where
  specs : List (Text × MatchSpec)
  names : List Text

section matcher

variable (charset : Charset)

def newMatcher (feedPURLs : List Text) : Matcher :=
  let parsed := feedPURLs.filterMap (parse charset)
  { specs := parsed.map fun p => (key charset p, newSpec p)
    names := parsed.map fun p => charset.lower (normalizeName charset p.typ p.name) }

def Matcher.matchesKey (m : Matcher) (key version : Text) : Bool :=
  m.specs.any fun (specKey, spec) => specKey = key && spec.matchesVersion charset version

def upstreamQualifier : Text :=
  "upstream=".toList

/-- The type and name of a package URL, read without parsing it. -/
def typeAndName (raw : Text) : Option (Text × Text) := do
  guard (hasScheme charset raw)
  let rest := (raw.drop scheme.length).dropWhile (· = '/')
  let rest := (rest.takeWhile isPathChar).rdropWhile (· = '/')
  let (typ, path) ← cut '/' rest
  guard (path ≠ [])
  let path :=
    match cutLast '@' path with
    | some (before, version) => if '/' ∈ version then path else before
    | none => path
  let name := (rightmostSplit (path.rdropWhile (· = '/')) '/').2
  let name := if '%' ∈ name then (pathUnescape name).getD name else name
  guard (name ≠ [])
  return (typ, name)

def Matcher.mayMatch (m : Matcher) (packagePURL : Text) : Bool :=
  if upstreamQualifier <:+: charset.lower packagePURL then true
  else
    match typeAndName charset packagePURL with
    | none => false
    | some (typ, name) => charset.lower (normalizeName charset typ name) ∈ m.names

/-- The comparison of a parsed package with the feed. -/
def Matcher.matchesParsed (m : Matcher) (parsed : PackageURL) : Bool :=
  m.matchesKey charset (key charset parsed) parsed.version ||
    match upstreamKey charset parsed with
    | some (sourceKey, version) => m.matchesKey charset sourceKey version
    | none => false

/-- The comparison of a package with the feed, without the filter. -/
def Matcher.matchesFully (m : Matcher) (packagePURL : Text) : Bool :=
  (parse charset packagePURL).any (m.matchesParsed charset)

def Matcher.matchesPURL (m : Matcher) (packagePURL : Text) : Bool :=
  m.mayMatch charset packagePURL && m.matchesFully charset packagePURL

def truncatedMarker : Text :=
  "pkg:generic/nri-supply-chain/purls-truncated".toList

def Matcher.matchesAny (m : Matcher) (packagePURLs : List Text) : Bool :=
  m.specs ≠ [] && packagePURLs.any fun raw => raw = truncatedMarker || m.matchesPURL charset raw

end matcher

end NriSupplyChain.Feed
