import NriSupplyChain.Lib.Unicode
import NriSupplyChain.Types.Result

/-!
License checks of `internal/sbom`: how an SPDX license expression is split into
identifiers, how an identifier is compared with a list entry, and the deny and
allow lists themselves. Letter case is mapped by a `CaseTable`, and an
identifier is quoted in a message without escaping what is inside it.
-/

namespace NriSupplyChain.Sbom

open NriSupplyChain.Types Lib

/-- Zero-width and byte-order characters that render as nothing. -/
def invisibleSeparators : Text :=
  [Char.ofNat 0x200B, Char.ofNat 0x200C, Char.ofNat 0x200D, Char.ofNat 0x2060, Char.ofNat 0xFEFF]

def isInvisible (char : Char) : Bool :=
  invisibleSeparators.contains char

/-- A text with its invisible characters removed, `strings.Map(dropInvisible, …)`. -/
def dropInvisible (text : Text) : Text :=
  text.filter (fun char => !isInvisible char)

/-- An identifier reduced to its base license and whether later versions count. -/
structure LicenseForm where
  base : Text
  orLater : Bool
deriving DecidableEq, Repr

section

variable (table : CaseTable)

def parseLicenseForm (id : Text) : LicenseForm :=
  let normalized := table.toLower (trimSpace (dropInvisible id))
  if "licenseref-".toList <+: normalized ∨ "documentref-".toList <+: normalized then
    ⟨normalized, false⟩
  else
    let plus := cutSuffix normalized "+".toList
    let base := plus.getD normalized
    let later := cutSuffix base "-or-later".toList
    let base := later.getD base
    let base := trimSuffix base "-only".toList
    if base = [] then ⟨normalized, false⟩ else ⟨base, plus.isSome || later.isSome⟩

def licenseDenied (id : Text) (denyList : List Text) : Bool :=
  denyList.any (fun entry => (parseLicenseForm table entry).base = (parseLicenseForm table id).base)

def licenseAllowed (id : Text) (allowList : List Text) : Bool :=
  allowList.any (fun entry => parseLicenseForm table entry = parseLicenseForm table id)

/-- Whether a token after WITH is an exception rather than a license. -/
def isLicenseException (token : Text) : Bool :=
  let lower := table.toLower token
  "exception".toList <:+: lower || "-note".toList <:+ lower || "additionref-".toList <+: lower

end

def flush (tokens : List Text) (current : Text) : List Text :=
  if current.isEmpty then tokens else tokens ++ [current]

/-- Whether a character ends the current token without being one. -/
def isSeparator (char : Char) : Bool :=
  isSpace char || isInvisible char

def isParen (char : Char) : Bool :=
  char = '(' || char = ')'

def tokenizeLoop : Text → List Text → Text → List Text
  | [], tokens, current => flush tokens current
  | char :: rest, tokens, current =>
    if isParen char then tokenizeLoop rest (flush tokens current ++ [[char]]) []
    else if isSeparator char then tokenizeLoop rest (flush tokens current) []
    else tokenizeLoop rest tokens (current ++ [char])

def tokenizeSPDXExpression (expr : Text) : List Text :=
  tokenizeLoop expr [] []

section

variable (table : CaseTable)

/-- The tokens after which an exception is not expected. -/
def isBoundary (tok : Text) : Bool :=
  let upper := table.toUpper tok
  upper = "(".toList || upper = ")".toList || upper = "AND".toList || upper = "OR".toList

def isWith (tok : Text) : Bool :=
  table.toUpper tok = "WITH".toList

def splitLoop : List Text → Bool → List Text
  | [], _ => []
  | tok :: rest, afterWith =>
    if isBoundary table tok then splitLoop rest false
    else if isWith table tok then splitLoop rest true
    else if afterWith && isLicenseException table tok then splitLoop rest false
    else tok :: splitLoop rest false

def splitSPDXTokens (expr : Text) (tokens : List Text) : List Text :=
  match splitLoop table tokens false with
  | [] => if trimSpace expr = [] then [] else [trimSpace expr]
  | ids => ids

/-- Both readings of the invisible characters: as separators, and as nothing. -/
def splitSPDXExpression (expr : Text) : List Text :=
  let ids := splitSPDXTokens table expr (tokenizeSPDXExpression expr)
  if expr.any isInvisible then
    let joined := dropInvisible expr
    (splitSPDXTokens table joined (tokenizeSPDXExpression joined)).foldl
      (fun ids id => if ids.contains id then ids else ids ++ [id]) ids
  else
    ids

structure LicenseEntry where
  value : Text
  expression : Bool
deriving DecidableEq, Repr

def licenseIdentifiers (entry : LicenseEntry) : List Text :=
  if entry.expression then splitSPDXExpression table entry.value else [trimSpace entry.value]

def quoted (text : Text) : String :=
  "\"" ++ String.ofList text ++ "\""

def checkLicenseDenyList (licenses : List LicenseEntry) (denyList : List Text) :
    Option CheckResult :=
  if denyList.isEmpty then none
  else
    ((licenses.flatMap (licenseIdentifiers table)).find? (licenseDenied table · denyList)).map
      (fun id => failResult .sbom ("SBOM contains denied license " ++ quoted id) none)

def checkLicenseAllowList (licenses : List LicenseEntry) (allowList : List Text) :
    Option CheckResult :=
  if allowList.isEmpty then none
  else
    ((licenses.flatMap (licenseIdentifiers table)).find?
        (fun id => !licenseAllowed table id allowList)).map
      (fun id =>
        failResult .sbom ("SBOM contains license " ++ quoted id ++ " not in allow list") none)

/-- `sbom.license` of a policy. -/
structure SBOMLicensePolicy where
  deny : List Text
  allow : List Text

def checkLicensePolicy (licenses : List LicenseEntry) (licPolicy : Option SBOMLicensePolicy) :
    Option CheckResult :=
  match licPolicy with
  | none => none
  | some pol =>
    (checkLicenseDenyList table licenses pol.deny).or
      (checkLicenseAllowList table licenses pol.allow)

end

/-- The deny check fails exactly when some identifier of some entry is denied. -/
theorem checkLicenseDenyList_isSome_iff (table : CaseTable) (licenses : List LicenseEntry)
    (denyList : List Text) :
    (checkLicenseDenyList table licenses denyList).isSome ↔
      ∃ entry ∈ licenses, ∃ id ∈ licenseIdentifiers table entry,
        licenseDenied table id denyList = true := by
  unfold checkLicenseDenyList
  split
  · next hempty =>
    have hnil : denyList = [] := by simpa using hempty
    simp [hnil, licenseDenied]
  · simp only [Option.isSome_map, List.find?_isSome, List.mem_flatMap]
    constructor
    · rintro ⟨id, ⟨entry, hentry, hid⟩, hdenied⟩
      exact ⟨entry, hentry, id, hid, hdenied⟩
    · rintro ⟨entry, hentry, id, hid, hdenied⟩
      exact ⟨id, ⟨entry, hentry, hid⟩, hdenied⟩

theorem mem_foldl_insert (ids more : List Text) (id : Text) :
    id ∈ more.foldl (fun ids id => if ids.contains id then ids else ids ++ [id]) ids ↔
      id ∈ ids ∨ id ∈ more := by
  induction more generalizing ids with
  | nil => simp
  | cons first rest ih =>
    simp only [List.foldl_cons, ih, List.mem_cons]
    by_cases hmem : first ∈ ids
    · simp only [List.contains_eq_mem, hmem, decide_true, if_true]
      constructor
      · rintro (h | h)
        · exact .inl h
        · exact .inr (.inr h)
      · rintro (h | rfl | h)
        · exact .inl h
        · exact .inl hmem
        · exact .inr h
    · simp [hmem, or_assoc]

/-- The identifiers of an expression are those of its readings. -/
theorem mem_splitSPDXExpression (table : CaseTable) (expr id : Text) :
    id ∈ splitSPDXExpression table expr ↔
      id ∈ splitSPDXTokens table expr (tokenizeSPDXExpression expr) ∨
        expr.any isInvisible = true ∧ id ∈ splitSPDXTokens table (dropInvisible expr)
          (tokenizeSPDXExpression (dropInvisible expr)) := by
  unfold splitSPDXExpression
  simp only
  split
  · next h =>
    rw [mem_foldl_insert]
    simp [h]
  · next h => simp [h]

end NriSupplyChain.Sbom
