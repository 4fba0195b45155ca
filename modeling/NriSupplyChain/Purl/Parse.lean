import NriSupplyChain.Lib.Charset
import NriSupplyChain.Lib.Cuts
import NriSupplyChain.Lib.Escapes

/-!
Package URLs, and the identity that packages are compared by. The first half is the
parser of packageurl-go, the second half is the parser of this project around it,
which strips slashes that the other one keeps and accepts what only breaks a rule
of its type. Texts are strings of bytes.
-/

namespace NriSupplyChain.Purl

open NriSupplyChain.Lib

section packageurl

structure PackageURL where
  typ : Text
  ns : Text
  name : Text
  version : Text
  qualifiers : List (Text × Text)
  subpath : Text
deriving DecidableEq

def scheme : Text :=
  "pkg:".toList

def typeNPM : Text :=
  "npm".toList

def typePyPI : Text :=
  "pypi".toList

/-- Types whose namespace is written in lower case. -/
def loweredNamespaceTypes : List Text :=
  ["alpm", "apk", "bitbucket", "brew", "composer", "deb", "github", "golang", "rpm", "qpkg"].map
    String.toList

/-- Types whose name is written in lower case. -/
def loweredNameTypes : List Text :=
  ["alpm", "apk", "bitbucket", "bitnami", "brew", "chrome-extension", "composer", "deb", "github",
    "golang"].map String.toList

def toLowerASCII (s : Text) : Text :=
  s.map Char.toLower

def isWordStart (extra c : Char) : Bool :=
  c.isAlpha || c = '.' || c = '-' || c = extra

/-- A word of letters, digits, dots, dashes and one more character, not starting with a digit. -/
def validWord (extra : Char) : Text → Bool
  | [] => false
  | c :: rest => isWordStart extra c && rest.all fun d => isWordStart extra d || d.isDigit

def validQualifierKey (key : Text) : Bool :=
  validWord '_' key

def validType (typ : Text) : Bool :=
  validWord '+' typ

def typePattern (typ : Text) : Bool :=
  validWord '+' typ

def validChromeExtensionName (name : Text) : Bool :=
  name.length = 32 && name.all Char.isLower

def chromeVersionLoop : Text → Nat → Nat → Bool
  | [], segments, digitsInSegment => 0 < digitsInSegment && segments ≤ 4
  | c :: rest, segments, digitsInSegment =>
    if c.isDigit then chromeVersionLoop rest segments (digitsInSegment + 1)
    else if c = '.' then digitsInSegment ≠ 0 && chromeVersionLoop rest (segments + 1) 0
    else false

def validChromeExtensionVersion (version : Text) : Bool :=
  chromeVersionLoop version 1 0

/-- The parts left and right of the last separator. Without one, all is on the right. -/
def rightmostSplit (path : Text) (delim : Char) : Text × Text :=
  (cutLast delim path).getD ([], path)

/-- The version separator is the last `@` that does not start the path. -/
def versionCut (path : Text) : Option (Text × Text) :=
  (cutLast '@' path).filter fun (before, _) => before ≠ []

/-- The version is cut off first, then the name, and the rest is the namespace. -/
def splitNamespaceNameVersion (remainder : Text) : Option (Text × Text × Text) := do
  let (remainder, version) := (versionCut remainder).getD (remainder, [])
  let version ← pathUnescape version
  let (remainder, name) := rightmostSplit remainder '/'
  let name ← pathUnescape name
  let nsSegments ← ((remainder.splitOn '/').filter (· ≠ [])).mapM pathUnescape
  guard (name ≠ [])
  return (['/'].intercalate nsSegments, name, version)

/-- Only npm has scopes that start with `@`, and a scope is not a name. -/
def separateNamespaceNameVersion (purlType remainder : Text) : Option (Text × Text × Text) :=
  if remainder.head? = some '@' ∧ (purlType ≠ typeNPM ∨ '/' ∉ remainder) then none
  else splitNamespaceNameVersion remainder

def percentDecodeSubpath (s : Text) : Option Text :=
  if '%' ∉ s then some s
  else ((s.splitOn '/').mapM pathUnescape).map ['/'].intercalate

variable (charset : Charset)

/-- One qualifier of the query. The empty text between two separators is none. -/
def parseQualifier (text : Text) : Option (List (Text × Text)) := do
  guard (';' ∉ text)
  if text = [] then return []
  let (key, value) := cutOr '=' text
  let key := charset.lower key
  guard (validQualifierKey key)
  let value ← pathUnescape value
  return [(key, value)]

def parseQualifiers (rawQuery : Text) : Option (List (Text × Text)) :=
  ((rawQuery.splitOn '&').mapM (parseQualifier charset)).map List.flatten

/-- Qualifiers without a value are dropped, and a key may stand only once. -/
def normalizeQualifiers (qualifiers : List (Text × Text)) : Option (List (Text × Text)) := do
  guard (∀ q ∈ qualifiers, q.1 ≠ [])
  let normed := (qualifiers.filter fun q => q.2 ≠ []).map fun q => (toLowerASCII q.1, q.2)
  guard (∀ q ∈ normed, validQualifierKey q.1)
  guard (normed.map Prod.fst).Nodup
  return normed

def adjustMlflowName (name : Text) (qualifiers : List (Text × Text)) : Text :=
  match qualifiers.lookup "repository_url".toList with
  | some repo => if "databricks".toList <:+: repo then charset.lower name else name
  | none => name

def typeAdjustNamespace (purlType ns : Text) : Text :=
  if purlType ∈ loweredNamespaceTypes then charset.lower ns else ns

def typeAdjustName (purlType name : Text) (qualifiers : List (Text × Text)) : Text :=
  if purlType ∈ loweredNameTypes then charset.lower name
  else if purlType = typePyPI then charset.lower (name.map fun c => if c = '_' then '-' else c)
  else if purlType = "mlflow".toList then adjustMlflowName charset name qualifiers
  else name

def typeAdjustVersion (purlType version : Text) : Text :=
  if purlType = "huggingface".toList then charset.lower version else version

def validCustomRules (p : PackageURL) : Bool :=
  if p.typ = "chrome-extension".toList then
    p.ns = [] && validChromeExtensionName p.name &&
      (p.version = [] || validChromeExtensionVersion p.version)
  else if p.typ = "cpan".toList then
    charset.upper p.ns = p.ns && ¬ "::".toList <:+: p.name
  else if p.typ = "julia".toList then
    p.ns = [] && (p.qualifiers.lookup "uuid".toList).isSome
  else if p.typ ∈ ["otp".toList, "vcpkg".toList] then p.ns = []
  else if p.typ ∈ ["swift".toList, "vscode-extension".toList] then p.ns ≠ []
  else true

def trimSlashes (text : Text) : Text :=
  (text.dropWhile (· = '/')).rdropWhile (· = '/')

/-- A subpath may hold a dot segment only at its start. -/
def validSubpath (subpath : Text) : Bool :=
  ((subpath.splitOn '/').drop 1).all fun s => s ≠ ['.'] && s ≠ ['.', '.']

/-- The canonical form of a package URL, before the rules of its type are checked. -/
def normalForm (p : PackageURL) : Option PackageURL := do
  let typ := charset.lower p.typ
  guard (validType typ)
  let qualifiers ← normalizeQualifiers p.qualifiers
  guard (p.name ≠ [])
  guard (validSubpath p.subpath)
  return {
    typ := typ
    ns := typeAdjustNamespace charset typ (trimSlashes p.ns)
    name := typeAdjustName charset typ p.name qualifiers
    version := typeAdjustVersion charset typ p.version
    qualifiers := qualifiers
    subpath := trimSlashes p.subpath
  }

/-- The canonical form together with whether the package URL is valid. The form is
assigned before the rules of the type are checked. -/
def normalize (p : PackageURL) : PackageURL × Bool :=
  match normalForm charset p with
  | some normed => (normed, validCustomRules charset normed)
  | none => (p, false)

def noPackageURL : PackageURL :=
  ⟨[], [], [], [], [], []⟩

/-- Read the parts of a package URL that the delimiters separate. -/
def fromParts (typ remainder rawQuery fragment : Text) : PackageURL × Bool :=
  match percentDecodeSubpath fragment, parseQualifiers charset rawQuery,
    separateNamespaceNameVersion (toLowerASCII typ) remainder with
  | some subpath, some qualifiers, some (ns, name, version) =>
    normalize charset ⟨toLowerASCII typ, ns, name, version, qualifiers, subpath⟩
  | _, _, _ => (noPackageURL, false)

def fromString (purl : Text) : PackageURL × Bool :=
  if toLowerASCII (purl.take 4) ≠ scheme then (noPackageURL, false)
  else
    let remainder := (purl.drop 4).dropWhile (· = '/')
    let (remainder, fragment) := cutOr '#' remainder
    let (remainder, rawQuery) := cutOr '?' remainder
    match cut '/' remainder with
    | some (typ, remainder) => fromParts charset typ remainder rawQuery fragment
    | none => (noPackageURL, false)

end packageurl

/-- Neither of the characters that start the qualifiers or the subpath. -/
def isPathChar (c : Char) : Bool :=
  c ≠ '?' && c ≠ '#'

/-- Slashes around the path and before the version separator do not count. -/
def stripPath (path : Text) : Text :=
  let path := path.dropWhile (· = '/')
  match versionCut path with
  | some (before, version) => before.rdropWhile (· = '/') ++ '@' :: version
  | none => path.rdropWhile (· = '/')

def stripPathSlashes (raw : Text) : Option (Text × Text) := do
  let rest := (raw.drop scheme.length).dropWhile (· = '/')
  let suffix := rest.dropWhile isPathChar
  let (typ, path) ← cut '/' (rest.takeWhile isPathChar)
  guard (typ ≠ [])
  let path := stripPath path
  guard (path ≠ [])
  return (scheme ++ typ ++ '/' :: path ++ suffix, typ)

section identity

variable (charset : Charset)

def hasScheme (raw : Text) : Bool :=
  charset.equalFold (raw.take scheme.length) scheme

def parse (raw : Text) : Option PackageURL := do
  guard (hasScheme charset raw)
  let (canonical, typ) ← stripPathSlashes raw
  let (parsed, ok) := fromString charset canonical
  let generic := scheme ++ "generic".toList ++ canonical.drop (scheme.length + typ.length)
  guard (ok || ((fromString charset generic).2 && typePattern typ))
  guard (parsed.typ ≠ [] ∧ parsed.name ≠ [])
  return parsed

/-- Runs of separators become one dash, and none stays at either end. -/
def joinSeparators : (separator started : Bool) → Text → Text
  | _, _, [] => []
  | separator, started, char :: rest =>
    if char = '-' || char = '_' || char = '.' then joinSeparators true started rest
    else if separator && started then '-' :: char :: joinSeparators false true rest
    else char :: joinSeparators false true rest

def normalizeName (typ name : Text) : Text :=
  if charset.equalFold typ typePyPI then joinSeparators false false (charset.lower name) else name

def key (p : PackageURL) : Text :=
  charset.lower (p.typ ++ '/' :: p.ns ++ '/' :: normalizeName charset p.typ p.name)

def qualifierUpstream : Text :=
  "upstream".toList

/-- The name and version of the source package in the qualifier. -/
def upstream (p : PackageURL) : Option (Text × Text) :=
  let value := charset.trimSpace ((p.qualifiers.lookup qualifierUpstream).getD [])
  if value = [] then none
  else
    match cutSuffix value ".rpm".toList with
    | some trimmed =>
      let parts := (trimSuffix trimmed ".src".toList).splitOn '-'
      let (name, version) :=
        if 3 ≤ parts.length then
          (['-'].intercalate (parts.take (parts.length - 2)),
            ['-'].intercalate (parts.drop (parts.length - 2)))
        else (value, p.version)
      if name = [] then none else some (name, version)
    | none =>
      let (name, version) := (cut '@' value).getD (value, p.version)
      if name = [] then none else some (name, version)

def upstreamKey (p : PackageURL) : Option (Text × Text) := do
  let (name, version) ← upstream charset p
  let source := key charset ⟨p.typ, p.ns, name, version, [], []⟩
  guard (source ≠ key charset p)
  return (source, version)

def stripQualifiers (raw : Text) : Text :=
  raw.takeWhile isPathChar

end identity

/-- Undo valid percent escapes and keep the others as they are. -/
def lenientUnescape : Text → Text
  | [] => []
  | '%' :: high :: low :: rest =>
    match hexValue high, hexValue low with
    | some h, some l => Char.ofNat (16 * h + l) :: lenientUnescape rest
    | _, _ => '%' :: lenientUnescape (high :: low :: rest)
  | c :: rest => c :: lenientUnescape rest

end NriSupplyChain.Purl
