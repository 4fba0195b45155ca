import NriSupplyChain.Imageref.References
import NriSupplyChain.Types.Evidence
import NriSupplyChain.Verifier.Checks

/-!
Verification summary attestations. A summary is bound to the image first, by its
resource and by its subjects. Only then its result counts, and a failed one is final.
The identifier of the verifier is a claim of the summary; who signed it is not known
here.
-/

namespace NriSupplyChain.Vsa

open NriSupplyChain.Lib NriSupplyChain.Types Policy Verifier

structure Predicate where
  verifierID : String
  timeVerified : String
  resourceURI : String
  policyURI : String
  verificationResult : String
  verifiedLevels : List String
  slsaVersion : String

structure Statement where
  /-- The digests of each subject. -/
  subject : List (AList fun _ : Text => Text)
  predicate : Predicate

structure VSAPolicy where
  minimumLevel : Int
  maxAge : String
  maxAgeDuration : Int
  policy : String

/-- The functions of other packages. An error is its text. -/
structure Library where
  /-- `json.Unmarshal`. -/
  unmarshal : List UInt8 → Except String Statement
  /-- `name.ParseReference` of a digest reference: the name of its repository and its
  digest. References by tag are errors. -/
  parseDigestRef : String → Except String (Text × Text)
  /-- `time.Parse` of an RFC 3339 time in upper case, in nanoseconds. -/
  parseTime : String → Except String Int
  caseTable : CaseTable
  /-- The `vsa` section of a policy. -/
  vsaPolicy : Policy → Option VSAPolicy
  /-- How `%q` prints a text. -/
  quote : String → String
  formatTime : String → String
  formatDuration : Int → String

def resultPassed : String := "PASSED"

def resultFailed : String := "FAILED"

def minSLSAVersion : Text := "1.0".toList

def slsaBuildLevelPrefix : Text := "SLSA_BUILD_LEVEL_".toList

section results

def passResult : VsaResult :=
  ⟨Types.passResult .vsa "VSA verification passed", false, []⟩

def failResult (detail : String) : VsaResult :=
  ⟨Types.failResult .vsa detail none, false, []⟩

def hardRejectResult : VsaResult :=
  ⟨Types.failResult .vsa "trusted verifier reported FAILED verification" none, true, []⟩

def untrustedResult (detail : String) : VsaResult :=
  ⟨softFailResult .vsa detail none, false, []⟩

def staleResult (detail : String) : VsaResult :=
  ⟨softFailResult .vsa detail none, false, []⟩

def withMetadata (vr : VsaResult) (metadata : Metadata) (matched : List TrustedVerifier) :
    VsaResult :=
  { vr with check := { vr.check with metadata := some metadata }, matchedVerifiers := matched }

end results

section levels

def extractLevelNumber (level : Text) : Int :=
  if slsaBuildLevelPrefix <+: level then
    (atoi (level.drop slsaBuildLevelPrefix.length)).getD 0
  else 0

def meetsMinimumLevel (level required : Text) : Bool :=
  extractLevelNumber required ≤ extractLevelNumber level

def maxVerifiedLevel (levels : List String) : Int :=
  levels.foldl (fun result level => max result (extractLevelNumber level.toList)) 0

def predicateMetadata (pred : Predicate) : Metadata :=
  [("verifierID", .str pred.verifierID), ("result", .str pred.verificationResult),
    ("level", .int (maxVerifiedLevel pred.verifiedLevels))]

def parseVersion (ver : Text) : Int × Int :=
  let (first, rest) := (cut '.' ver).elim (ver, none) fun (first, rest) => (first, some rest)
  match atoi (trimPrefix first ['v']) with
  | none => (-1, 0)
  | some major => (major, (rest.bind atoi).getD 0)

/-- Versions are compared by a difference of 64 bits. -/
def compareVersions (a b : Text) : Int :=
  let (aMajor, aMinor) := parseVersion a
  let (bMajor, bMinor) := parseVersion b
  if aMajor ≠ bMajor then (aMajor - bMajor).bmod (2 ^ 64) else (aMinor - bMinor).bmod (2 ^ 64)

end levels

section verify

variable (lib : Library)

def verifyTrustedVerifier (verifierID : String) (pol : Policy) :
    Except String (List TrustedVerifier) :=
  let verifiers := (pol.trust.map TrustPolicy.verifiers).getD []
  let matched := verifiers.filter fun verifier => verifier.id = verifierID
  if verifiers = [] then .error "untrusted VSA verifier: no verifiers configured"
  else if matched = [] then .error ("untrusted VSA verifier: " ++ lib.quote verifierID)
  else .ok matched

/-- The resource and the image must name the same repository and digest. -/
def verifyResourceURI (resourceURI imageRef : String) : Except String Text :=
  let mismatch := "VSA resource URI mismatch: "
  if resourceURI = "" then .error (mismatch ++ "empty resource URI")
  else if '@' ∉ resourceURI.toList then
    .error (mismatch ++ "resource URI " ++ lib.quote resourceURI ++
      " is tag-based (not digest-pinned)")
  else
    match lib.parseDigestRef resourceURI with
    | .error err =>
      .error (mismatch ++ "invalid resource URI " ++ lib.quote resourceURI ++ ": " ++ err)
    | .ok resource =>
      match lib.parseDigestRef imageRef with
      | .error err =>
        .error (mismatch ++ "image reference " ++ lib.quote imageRef ++ ": " ++ err)
      | .ok image =>
        if Imageref.normalizeRepository lib.caseTable resource.1 ≠
            Imageref.normalizeRepository lib.caseTable image.1 ∨ resource.2 ≠ image.2 then
          .error (mismatch ++ "expected " ++ lib.quote imageRef ++ ", got " ++
            lib.quote resourceURI)
        else .ok image.2

def verifyBinding (stmt : Statement) (imageRef : String) : Except String Unit :=
  match verifyResourceURI lib stmt.predicate.resourceURI imageRef with
  | .error err => .error err
  | .ok imageDigest =>
    if stmt.subject.any (matchDigestInMap imageDigest) then .ok ()
    else .error ("VSA subject digest mismatch: no subject matches " ++
      lib.quote (String.ofList imageDigest))

def verifyLevels (levels : List String) (pol : Policy) : Except String Unit :=
  match lib.vsaPolicy pol with
  | none => .ok ()
  | some vsa =>
    if vsa.minimumLevel = 0 then .ok ()
    else
      let required := slsaBuildLevelPrefix ++ (toString vsa.minimumLevel).toList
      if levels.any fun level => meetsMinimumLevel level.toList required then .ok ()
      else .error ("insufficient SLSA verification level: required " ++ String.ofList required ++
        ", got [" ++ " ".intercalate levels ++ "]")

/-- The version is optional. -/
def verifySLSAVersion (ver : String) : Except String Unit :=
  if ver = "" then .ok ()
  else if compareVersions ver.toList minSLSAVersion < 0 then
    .error ("SLSA version below minimum: got " ++ lib.quote ver ++ ", minimum " ++
      lib.quote (String.ofList minSLSAVersion))
  else .ok ()

def verifyPolicyURI (policyURI : String) (pol : Policy) : Except String Unit :=
  match lib.vsaPolicy pol with
  | none => .ok ()
  | some vsa =>
    if vsa.policy = "" ∨ policyURI = vsa.policy then .ok ()
    else .error ("VSA policy URI mismatch: expected " ++ lib.quote vsa.policy ++ ", got " ++
      lib.quote policyURI)

def verifyFreshness (now : Int) (timeVerified : String) (pol : Policy) : Except String Unit :=
  match lib.parseTime timeVerified with
  | .error err => .error ("parsing time_verified " ++ lib.quote timeVerified ++ ": " ++ err)
  | .ok verified =>
    let maxAge := ((lib.vsaPolicy pol).filter fun vsa => vsa.maxAge ≠ "").map
      VSAPolicy.maxAgeDuration
    match Types.verifyFreshness now verified maxAge with
    | .ok () => .ok ()
    | .error .future =>
      .error ("VSA timeVerified is in the future: " ++ lib.formatTime timeVerified)
    | .error .unreasonablyOld =>
      .error ("VSA is stale: timestamp " ++ lib.formatTime timeVerified ++ " is unreasonably old")
    | .error (.stale age) =>
      .error ("VSA is stale: verified " ++ lib.formatDuration (age - age.tmod (10 ^ 9)) ++
        " ago, max " ++ lib.formatDuration (maxAge.getD 0))

/-- What a summary that claims to have passed is checked for. -/
def verifyPassed (now : Int) (pred : Predicate) (pol : Policy) : VsaResult :=
  match verifyLevels lib pred.verifiedLevels pol with
  | .error err => failResult err
  | .ok () =>
    match verifySLSAVersion lib pred.slsaVersion with
    | .error err => failResult err
    | .ok () =>
      match verifyPolicyURI lib pred.policyURI pol with
      | .error err => failResult err
      | .ok () =>
        match verifyFreshness lib now pred.timeVerified pol with
        | .error err => staleResult err
        | .ok () => passResult

def verifyStatement (now : Int) (stmt : Statement) (pol : Policy) (imageRef : String) : VsaResult :=
  let metadata := predicateMetadata stmt.predicate
  match verifyTrustedVerifier lib stmt.predicate.verifierID pol with
  | .error err => withMetadata (untrustedResult err) metadata []
  | .ok matched =>
    match verifyBinding lib stmt imageRef with
    | .error err => withMetadata (failResult err) metadata matched
    | .ok () =>
      if stmt.predicate.verificationResult = resultFailed then
        withMetadata hardRejectResult metadata matched
      else if stmt.predicate.verificationResult ≠ resultPassed then
        withMetadata (untrustedResult ("unexpected verification result: " ++
          lib.quote stmt.predicate.verificationResult)) metadata matched
      else withMetadata (verifyPassed lib now stmt.predicate pol) metadata matched

/-- The context is checked once, before the summary is read. -/
def verify (now : Int) (ctxErr : Option GoError) (att : List UInt8) (pol : Policy)
    (imageRef : String) : Except GoError VsaResult :=
  match ctxErr with
  | some err => .error (.errorf ("verification cancelled: " ++ err.text) [err])
  | none =>
    match lib.unmarshal att with
    | .error err => .error (.errorf ("invalid VSA attestation: " ++ err) [])
    | .ok stmt => .ok (verifyStatement lib now stmt pol imageRef)

/-- A summary that is bound to the image and reports a result that the policy accepts. -/
structure Passing (now : Int) (stmt : Statement) (pol : Policy) (imageRef : String) : Prop where
  result : stmt.predicate.verificationResult = resultPassed
  binding : verifyBinding lib stmt imageRef = .ok ()
  levels : verifyLevels lib stmt.predicate.verifiedLevels pol = .ok ()
  slsaVersion : verifySLSAVersion lib stmt.predicate.slsaVersion = .ok ()
  policyURI : verifyPolicyURI lib stmt.predicate.policyURI pol = .ok ()
  fresh : verifyFreshness lib now stmt.predicate.timeVerified pol = .ok ()

/-- A summary that is bound to the image and reports a failed verification. -/
structure Failing (stmt : Statement) (imageRef : String) : Prop where
  result : stmt.predicate.verificationResult = resultFailed
  binding : verifyBinding lib stmt imageRef = .ok ()

end verify

section outcomes

variable {lib : Library} {now : Int} {stmt : Statement} {pol : Policy} {imageRef : String}

/-- The trusted verifiers with the name that a summary claims. -/
def claimedVerifiers (stmt : Statement) (pol : Policy) : List TrustedVerifier :=
  ((pol.trust.map TrustPolicy.verifiers).getD []).filter fun verifier =>
    verifier.id = stmt.predicate.verifierID

theorem verifyTrustedVerifier_of_claimed (h : claimedVerifiers stmt pol ≠ []) :
    verifyTrustedVerifier lib stmt.predicate.verifierID pol = .ok (claimedVerifiers stmt pol) := by
  have hsome : (pol.trust.map TrustPolicy.verifiers).getD [] ≠ [] := by
    intro hnone
    apply h
    unfold claimedVerifiers
    rw [hnone]
    rfl
  unfold verifyTrustedVerifier
  rw [if_neg hsome]
  exact if_neg h

theorem verifyTrustedVerifier_eq_ok {matched : List TrustedVerifier}
    (h : verifyTrustedVerifier lib stmt.predicate.verifierID pol = .ok matched) :
    matched = claimedVerifiers stmt pol := by
  unfold verifyTrustedVerifier at h
  dsimp only at h
  split at h
  · cases h
  · split at h
    · cases h
    · exact (Except.ok.inj h).symm

/-- A failed result of a claimed verifier is a hard rejection. -/
theorem verifyStatement_of_failing (hclaimed : claimedVerifiers stmt pol ≠ [])
    (h : Failing lib stmt imageRef) :
    verifyStatement lib now stmt pol imageRef =
      withMetadata hardRejectResult (predicateMetadata stmt.predicate)
        (claimedVerifiers stmt pol) := by
  unfold verifyStatement
  dsimp only
  rw [verifyTrustedVerifier_of_claimed hclaimed]
  dsimp only
  rw [h.binding]
  dsimp only
  rw [if_pos h.result]

theorem verifyStatement_of_passing (hclaimed : claimedVerifiers stmt pol ≠ [])
    (h : Passing lib now stmt pol imageRef) :
    verifyStatement lib now stmt pol imageRef =
      withMetadata passResult (predicateMetadata stmt.predicate) (claimedVerifiers stmt pol) := by
  have hresult : stmt.predicate.verificationResult ≠ resultFailed := by
    rw [h.result]
    decide
  unfold verifyStatement verifyPassed
  dsimp only
  rw [verifyTrustedVerifier_of_claimed hclaimed]
  dsimp only
  rw [h.binding]
  dsimp only
  rw [if_neg hresult, if_neg (not_not_intro h.result), h.levels, h.slsaVersion, h.policyURI,
    h.fresh]

theorem verifyPassed_cases (pred : Predicate) :
    (verifyPassed lib now pred pol).hardReject = false ∧
        (verifyPassed lib now pred pol).check.passed = false ∨
      (verifyLevels lib pred.verifiedLevels pol = .ok () ∧
        verifySLSAVersion lib pred.slsaVersion = .ok () ∧
        verifyPolicyURI lib pred.policyURI pol = .ok () ∧
        verifyFreshness lib now pred.timeVerified pol = .ok ()) := by
  unfold verifyPassed
  cases verifyLevels lib pred.verifiedLevels pol with
  | error err => exact .inl ⟨rfl, rfl⟩
  | ok _ =>
    cases verifySLSAVersion lib pred.slsaVersion with
    | error err => exact .inl ⟨rfl, rfl⟩
    | ok _ =>
      cases verifyPolicyURI lib pred.policyURI pol with
      | error err => exact .inl ⟨rfl, rfl⟩
      | ok _ =>
        cases verifyFreshness lib now pred.timeVerified pol with
        | error err => exact .inl ⟨rfl, rfl⟩
        | ok _ => exact .inr ⟨rfl, rfl, rfl, rfl⟩

/-- Only a failing or a passing summary of a claimed verifier counts. -/
theorem verifyStatement_cases :
    (verifyStatement lib now stmt pol imageRef).hardReject = false ∧
        (verifyStatement lib now stmt pol imageRef).check.passed = false ∨
      (verifyStatement lib now stmt pol imageRef).matchedVerifiers = claimedVerifiers stmt pol ∧
        (Failing lib stmt imageRef ∨ Passing lib now stmt pol imageRef) := by
  unfold verifyStatement
  dsimp only
  cases htrusted : verifyTrustedVerifier lib stmt.predicate.verifierID pol with
  | error err => exact .inl ⟨rfl, rfl⟩
  | ok matched =>
    have hmatched := verifyTrustedVerifier_eq_ok htrusted
    dsimp only
    cases hbinding : verifyBinding lib stmt imageRef with
    | error err => exact .inl ⟨rfl, rfl⟩
    | ok _ =>
      dsimp only
      split
      · next hfailed => exact .inr ⟨hmatched, .inl ⟨hfailed, hbinding⟩⟩
      · split
        · exact .inl ⟨rfl, rfl⟩
        · next hresult =>
          rcases verifyPassed_cases stmt.predicate with hfail | ⟨hlevels, hversion, huri, hfresh⟩
          · exact .inl hfail
          · exact .inr ⟨hmatched, .inr ⟨not_not.mp hresult, hbinding, hlevels, hversion, huri,
              hfresh⟩⟩

end outcomes

end NriSupplyChain.Vsa
