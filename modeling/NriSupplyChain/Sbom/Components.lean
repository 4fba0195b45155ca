import NriSupplyChain.Purl.Identity

/-!
The component deny list of the SBOM check. A component whose package URL parses is
compared by its decoded segments. One that does not parse is compared as a text with
the canonical form of the entry, after lowering and decoding it.
-/

namespace NriSupplyChain.Sbom

open NriSupplyChain.Lib NriSupplyChain.Purl

section entries

/-- An entry of the list: a type, a namespace or a package. -/
structure ComponentEntry where
  typ : Text
  path : List Text
  version : Text
  qualifiers : List (Text × Text)
  subpath : Text
deriving DecidableEq

/-- Whether what follows is nothing or starts with a boundary. -/
def atBoundary (boundaries : Text) : Text → Bool
  | [] => true
  | c :: _ => c ∈ boundaries

def versionMatches (entry component : Text) : Bool :=
  entry.isPrefixOf component && atBoundary ".-+".toList (component.drop entry.length)

def isTypeChar (c : Char) : Bool :=
  c ∉ "/@?#".toList

variable (charset : Charset)

def componentPath (parsed : PackageURL) : List Text :=
  ((charset.lower parsed.ns).splitOn '/').filter (· ≠ []) ++
    [charset.lower (normalizeName charset parsed.typ parsed.name)]

def parseComponentEntry (raw : Text) : Option ComponentEntry :=
  let typ := trimSuffix ((raw.drop scheme.length).dropWhile (· = '/')) ['/']
  if scheme.length < raw.length ∧ hasScheme charset raw = true ∧ typ ≠ [] ∧
      typ.all isTypeChar = true then
    some ⟨charset.lower typ, [], [], [], []⟩
  else
    (parse charset raw).map fun parsed =>
      ⟨parsed.typ, componentPath charset parsed, parsed.version, parsed.qualifiers, parsed.subpath⟩

def ComponentEntry.matchesComponent (e : ComponentEntry) (component : PackageURL) : Bool :=
  charset.equalFold e.typ component.typ && e.path.isPrefixOf (componentPath charset component) &&
    (e.version = [] || (e.path.length = (componentPath charset component).length &&
      versionMatches e.version component.version)) &&
    (e.qualifiers.all fun q => (component.qualifiers.lookup q.1).getD [] = q.2) &&
    (e.subpath = [] || e.subpath = component.subpath)

/-- The canonical form of an entry. -/
def ComponentEntry.canonical (e : ComponentEntry) : Text :=
  scheme ++ e.typ ++ (if e.path = [] then [] else '/' :: ['/'].intercalate e.path) ++
    if e.version = [] then [] else '@' :: e.version

/-- What may follow the canonical form. -/
def ComponentEntry.boundaries (e : ComponentEntry) : Text :=
  if e.version = [] then "/@?#".toList else ".-+?#".toList

def ComponentEntry.matchesRaw (e : ComponentEntry) (normalized : Text) : Bool :=
  let start := charset.lower e.canonical
  start.isPrefixOf normalized && atBoundary e.boundaries (normalized.drop start.length)

def pypiPrefix : Text :=
  "pypi/".toList

def isNameChar (c : Char) : Bool :=
  c ∉ "@?#".toList

/-- PyPI names are normalized up to the version, the qualifiers or the subpath. -/
def normalizePyPI (name : Text) : Text :=
  normalizeName charset typePyPI (name.takeWhile isNameChar) ++ name.dropWhile isNameChar

def normalizeRawPURL (raw : Text) : Text :=
  let normalized := charset.lower (lenientUnescape (charset.trimSpace raw))
  if scheme.isPrefixOf normalized then
    let rest := (normalized.drop scheme.length).dropWhile (· = '/')
    if pypiPrefix.isPrefixOf rest then
      scheme ++ pypiPrefix ++ normalizePyPI charset (rest.drop pypiPrefix.length)
    else scheme ++ rest
  else normalized

end entries

end NriSupplyChain.Sbom
