import NriSupplyChain.Guac.Query
import NriSupplyChain.Verifier.Fetch
import NriSupplyChain.Verifier.Results

/-!
The checks of one verification: scoping and binning the fetched attestations,
the VSA step, the attestation checks that run in parallel, the CEL rules, and
`runChecks`, which puts them together.

`Library` holds the functions of other packages that always answer the same.
`Environment` holds what happens during one verification: every answer of the
fetcher, of GUAC, of an individual check and of a CEL program is a function of
the arguments the code passes. A panic outside an individual check ends the
verification.
-/

namespace NriSupplyChain.Verifier

open NriSupplyChain.Types Attestation Policy

structure Library where
  /-- `filepath.Clean`. -/
  clean : String → String
  /-- `glob.Match`; `none` for a malformed pattern. -/
  globMatch : String → String → Option Bool
  /-- `name.ParseReference`; `none` for an error. -/
  parseReference : String → Option ParsedRef
  isIncluded : List String → String → Bool
  isExcluded : List String → String → Bool
  matchesImageRule : List String → String → Bool
  applyRule : Policy → ImageRule → Policy

section Signers

variable (lib : Library)

def matchesKey (keys : List String) (keyPath : String) : Bool :=
  keyPath ≠ "" && keys.any (fun key => lib.clean key == lib.clean keyPath)

def matchesIdentity (identities : List TrustedIdentity) (issuer san : String) : Bool :=
  issuer ≠ "" && san ≠ "" && identities.any fun identity =>
    identity.issuer == issuer && identity.sanPattern ≠ "" &&
      lib.globMatch identity.sanPattern san == some true

def matchesSigner (keys : List String) (identities : List TrustedIdentity)
    (keyPath issuer san : String) : Bool :=
  matchesKey lib keys keyPath || matchesIdentity lib identities issuer san

def signerBoundToVerifiers (signer : SignerIdentity) (verifiers : List TrustedVerifier) : Bool :=
  verifiers.any fun verifier =>
    signer.matchesAny (matchesSigner lib verifier.keys verifier.identities)

/-- The key paths trusted for builders but not for any verifier. -/
def builderOnlyKeys : Option TrustPolicy → List String
  | none => []
  | some trust =>
    (trust.builders.flatMap (fun builder => builder.keys)).filter
      (fun keyPath => !(verifierKeys lib.clean trust).contains (lib.clean keyPath))

def signedOnlyWithBuilderKeys (signer : SignerIdentity) (builderOnly : List String) : Bool :=
  if signer.keyPaths = [] then signer.keyPath ≠ "" && builderOnly.contains signer.keyPath
  else signer.keyPaths.all builderOnly.contains

def isProvenancePredicate (predicateType : String) : Bool :=
  predicateType == predicateSLSAProvenanceV1 || predicateType == predicateSLSAProvenanceV02

def scopeBuilderKeys (attestations : List VerifiedAttestation) (pol : Policy) :
    List VerifiedAttestation :=
  let builderOnly := builderOnlyKeys lib pol.trust
  if builderOnly = [] then attestations
  else attestations.filter fun att =>
    !(signedOnlyWithBuilderKeys att.signer builderOnly && !isProvenancePredicate att.predicateType)

end Signers

/-- An entry of `checkSpecs`. -/
structure CheckSpec where
  checkType : CheckType
  label : String
  missingNoun : String
  predicates : List String

def payloadCheckSpec (checkType : CheckType) (label : String) (predicates : List String) :
    CheckSpec :=
  ⟨checkType, label, label ++ " attestation", predicates⟩

def predicateOpenVEX : String := "https://openvex.dev/ns"
def predicateCycloneDX : String := "https://cyclonedx.org/bom"
def predicateSPDX : String := "https://spdx.dev/Document"
def predicateVSA : String := "https://slsa.dev/verification_summary/v1"

def checkSpecs : List CheckSpec :=
  [⟨.slsa, "SLSA", "provenance attestation",
      [predicateSLSAProvenanceV1, predicateSLSAProvenanceV02]⟩,
    ⟨.vex, "VEX", "VEX attestation", [predicateOpenVEX, predicateCycloneDX]⟩,
    ⟨.notationSig, "Notation", "Notation signature", []⟩,
    ⟨.sbom, "SBOM", "SBOM attestation", [predicateSPDX, predicateCycloneDX]⟩,
    payloadCheckSpec .scai "SCAI" ["https://in-toto.io/attestation/scai/v0.3"],
    payloadCheckSpec .source "source" ["https://slsa.dev/source/v1"],
    payloadCheckSpec .buildEnv "build environment" ["https://in-toto.io/attestation/build-env/v1"],
    payloadCheckSpec .vulnScan "vulnerability scan"
      ["https://in-toto.io/attestation/vulns/v0.1", "https://in-toto.io/attestation/vulns/v0.2"],
    payloadCheckSpec .testResult "test result" ["https://in-toto.io/attestation/test-result/v0.1"],
    payloadCheckSpec .release "release" ["https://in-toto.io/attestation/release/v0.1"],
    payloadCheckSpec .runtimeTrace "runtime trace"
      ["https://in-toto.io/attestation/runtime-trace/v0.1"],
    payloadCheckSpec .scorecard "OpenSSF Scorecard" ["https://scorecard.dev/result/v0.1"]]

/-- `buildPredicateCheckTypes` as a function: the bins of a predicate type. -/
def predicateCheckTypes (predicateType : String) : List CheckType :=
  (if predicateType = predicateVSA then [.vsa] else []) ++
    (if predicateType = predicateBaselineSBOM then [.baselineSBOM] else []) ++
    (checkSpecs.filter (fun spec => spec.predicates.contains predicateType)).map
      (fun spec => spec.checkType)

abbrev AttestationBins := CheckType → List VerifiedAttestation

def attestationCheckTypesOf (att : VerifiedAttestation) : List CheckType :=
  if att.signatureType = .notationSig then [.notationSig] else predicateCheckTypes att.predicateType

/-- Each attestation goes to every bin of its predicate type, in order. -/
def binAttestations (attestations : List VerifiedAttestation) : AttestationBins :=
  fun checkType => attestations.filter fun att => (attestationCheckTypesOf att).contains checkType

structure CheckInput where
  bins : AttestationBins
  pol : Policy
  imageRef : String
  digest : String
  relatedDigests : List String
  parsedRef : Option ParsedRef

def CheckInput.payloads (input : CheckInput) (checkType : CheckType) : List (List UInt8) :=
  (input.bins checkType).map (fun att => att.payload)

/-- The call an attestation check makes, with exactly the arguments it passes. -/
inductive VerifyCall where
  | slsa (atts : List VerifiedAttestation) (pol : Policy) (digest : String)
  | vex (payloads : List (List UInt8)) (pol : Policy) (imageRef digest : String)
      (parsedRef : Option ParsedRef) (relatedDigests : List String)
  | notationSig (atts : List VerifiedAttestation) (imageRef digest : String) (pol : Policy)
  | sbom (payloads baseline : List (List UInt8)) (pol : Policy) (digest : String)
  | payload (checkType : CheckType) (payloads : List (List UInt8)) (pol : Policy)
      (digest : String)

/-- `spec.verify`. -/
def CheckInput.verifyCall (input : CheckInput) : CheckType → VerifyCall
  | .slsa => .slsa (input.bins .slsa) input.pol input.digest
  | .vex => .vex (input.payloads .vex) input.pol input.imageRef input.digest input.parsedRef
      input.relatedDigests
  | .notationSig => .notationSig (input.bins .notationSig) input.imageRef input.digest input.pol
  | .sbom => .sbom (input.payloads .sbom) (input.payloads .baselineSBOM) input.pol input.digest
  | checkType => .payload checkType (input.payloads checkType) input.pol input.digest

inductive CheckEnding where
  | returned (result : Option CheckResult) (err : Option GoError)
  | panicked

structure VsaResult where
  check : CheckResult
  hardReject : Bool
  matchedVerifiers : List TrustedVerifier

/-- The arguments of `celengine.BuildVars`. -/
structure CelVars where
  imageRef : String
  registry : String
  repository : String
  digest : String
  nameSpace : String
  results : CheckType → Option CheckResult

/-- How `acquireRegistryAccess` ends for a host. -/
inductive Access where
  | granted
  | breakerOpen
  | slotsRefused (err : GoError)

structure Environment extends Fetching where
  access : List UInt8 → Access
  /-- The GUAC query for a digest and an image. -/
  guac : String → String → Guac.GuacOutcome
  /-- `vsa.Verify` of the summary at a position of the list: of its payload, against a policy
  and a digest reference. Time passes and the context may end between two summaries. -/
  vsaVerify : Nat → List UInt8 → Policy → String → Except String (Except GoError VsaResult)
  verify : VerifyCall → CheckEnding
  /-- `evalBool` of a compiled program. -/
  evalBool : Nat → CelVars → Except String (Except GoError Bool)

def digestRefFromParsed (parsedRef : Option ParsedRef) (imageRef digest : String) : String :=
  if digest = "" || imageRef.contains '@' then imageRef
  else
    match parsedRef with
    | none => imageRef
    | some ref => ref.name ++ "@" ++ digest

structure VsaOutcome where
  passed : Option CheckResult
  rejected : Option Result
  failures : List String

namespace VsaOutcome

def missingDetail (o : VsaOutcome) (imageRef : String) : String :=
  if o.failures = [] then "no VSA attestation found for image " ++ imageRef
  else "no trusted VSA passed for image " ++ imageRef ++ ": " ++ "; ".intercalate o.failures

/-- `add` evaluates one VSA attestation; the flag says that it rejected the
image. -/
def add (lib : Library) (env : Environment) (pol : Policy) (digestRef : String)
    (o : VsaOutcome) (idx : Nat) (att : VerifiedAttestation) :
    Except String (VsaOutcome × Bool) :=
  match env.vsaVerify idx att.payload pol digestRef with
  | .error value => .error value
  | .ok (.error err) => .ok ({ o with failures := o.failures ++ [err.text] }, false)
  | .ok (.ok result) =>
    let conclusive := result.hardReject ||
      (result.check.passed && result.check.status = .pass)
    if !conclusive then
      .ok ({ o with failures := o.failures ++ [result.check.detail] }, false)
    else if !signerBoundToVerifiers lib att.signer result.matchedVerifiers then
      .ok ({ o with failures := o.failures ++
        ["VSA is not signed by a key or identity bound to its verifier"] }, false)
    else if result.hardReject then
      .ok ({ o with rejected := some (resultFromCheck result.check) }, true)
    else .ok ({ o with passed := o.passed.or (some result.check) }, false)

/-- The loop of `checkVSA` from summary `idx` on, which ends at the first rejection. -/
def addAll (lib : Library) (env : Environment) (pol : Policy) (digestRef : String) :
    VsaOutcome → (idx : Nat) → List VerifiedAttestation → Except String VsaOutcome
  | o, _, [] => .ok o
  | o, idx, att :: rest =>
    match o.add lib env pol digestRef idx att with
    | .error value => .error value
    | .ok (o, true) => .ok o
    | .ok (o, false) => addAll lib env pol digestRef o (idx + 1) rest

end VsaOutcome

def checkVSA (lib : Library) (env : Environment) (vsaAttestations : List VerifiedAttestation)
    (pol : Policy) (imageRef digest : String) (parsedRef : Option ParsedRef) :
    Except String VsaOutcome :=
  VsaOutcome.addAll lib env pol (digestRefFromParsed parsedRef imageRef digest)
    ⟨none, none, []⟩ 0 vsaAttestations

def missingAttestationResult (spec : CheckSpec) (input : CheckInput) : CheckResult :=
  handleMissingAttestation (input.pol.missingPolicyFor spec.checkType) spec.checkType
    ("no " ++ spec.missingNoun ++ " found for image " ++ input.imageRef)

/-- One check of `runParallelChecks`; a panic inside it is recovered. -/
def runAttestationCheck (env : Environment) (input : CheckInput) (spec : CheckSpec) :
    CheckResult :=
  if (input.bins spec.checkType).isEmpty then missingAttestationResult spec input
  else
    match env.verify (input.verifyCall spec.checkType) with
    | .panicked => failResult spec.checkType
        ("internal error during " ++ spec.checkType.text ++ " check") none
    | .returned result err =>
      if errorIs err .errNotApplicable || errorIs err .errNotationNotConfigured then
        missingAttestationResult spec input
      else
        match err, result with
        | some err, _ => failResult spec.checkType
            (spec.label ++ " verification error for " ++ input.imageRef ++ ": " ++ err.text)
            (some err)
        | none, none => failResult spec.checkType
            (spec.label ++ " verification returned no result for " ++ input.imageRef) none
        | none, some result => result

def runParallelChecks (env : Environment) (input : CheckInput) : Result :=
  combineResults (checkSpecs.map fun spec => some (runAttestationCheck env input spec))

/-- `celengine.Evaluate` from rule number `idx` on. -/
def evaluateCEL (env : Environment) (vars : CelVars) :
    Nat → List CompiledRule → Except String CheckResult
  | _, [] => .ok (passResult .cel "all CEL rules passed")
  | idx, rule :: rest => do
      let matched ← match rule.matchProgram with
        | none => .ok (.ok true)
        | some program => env.evalBool program vars
      match matched with
      | .error err => .ok (failResult .cel
          ("CEL match evaluation error in rule " ++ toString idx ++ ": " ++ err.text) (some err))
      | .ok false => evaluateCEL env vars (idx + 1) rest
      | .ok true =>
        match ← env.evalBool rule.requireProgram vars with
        | .error err => .ok (failResult .cel
            ("CEL require evaluation error in rule " ++ toString idx ++ ": " ++ err.text)
            (some err))
        | .ok false => .ok (failResult .cel
            (if rule.message ≠ "" then rule.message else "CEL rule " ++ toString idx ++ " failed")
            none)
        | .ok true => evaluateCEL env vars (idx + 1) rest

/-- The last check result of each type. -/
def resultsByType (result : Result) (checkType : CheckType) : Option CheckResult :=
  result.checkResults.reverse.find? (fun check => check.type = checkType)

def celVars (imageRef digest nameSpace : String) (parsedRef : Option ParsedRef)
    (result : Result) : CelVars where
  imageRef := imageRef
  registry := (parsedRef.map (fun ref => ref.registryStr)).getD imageRef
  repository := (parsedRef.map (fun ref => ref.repositoryStr)).getD imageRef
  digest := digest
  nameSpace := nameSpace
  results := resultsByType result

def appendCELCheck (env : Environment) (pol : Policy) (imageRef digest nameSpace : String)
    (parsedRef : Option ParsedRef) (result : Result) : Except String Result :=
  match pol.compiledCEL with
  | none => .ok result
  | some [] => .ok (appendCheck result (some (passResult .cel "no CEL rules to evaluate")))
  | some rules => do
      let check ← evaluateCEL env (celVars imageRef digest nameSpace parsedRef result) 0 rules
      return appendCheck result (some check)

def runVSAAndParallelChecks (lib : Library) (env : Environment) (input : CheckInput)
    (nameSpace : String) (optional : List (Option CheckResult)) : Except String Result := do
  let outcome ← checkVSA lib env (input.bins .vsa) input.pol input.imageRef input.digest
    input.parsedRef
  match outcome.rejected, outcome.passed with
  | some rejected, _ => return rejected
  | none, some passed =>
    let result := ⟨true, false, "", "VSA verification passed, skipping direct verification",
      [passed]⟩
    appendCELCheck env input.pol input.imageRef input.digest nameSpace input.parsedRef
      (appendOptionalChecks result optional)
  | none, none =>
    let missingDetail := outcome.missingDetail input.imageRef
    match checkVSAMissing input.pol missingDetail with
    | some denied => return denied
    | none =>
      let result := appendOptionalChecks (runParallelChecks env input) optional
      appendCELCheck env input.pol input.imageRef input.digest nameSpace input.parsedRef
        (appendVSAWarning result input.pol missingDetail)

def runChecksWithoutFetcher (pol : Policy) (imageRef : String) : Result :=
  let detail := "no attestation fetcher configured for image " ++ imageRef
  match checkVSAMissing pol detail with
  | some denied => denied
  | none =>
    let missing := attestationCheckTypes.filter fun checkType =>
      checkType ≠ .vsa && !(checkType = .notationSig && (pol.sections .notationSig).isNone)
    appendVSAWarning (combineResults (missing.map fun checkType =>
      some (handleMissingAttestation (pol.missingPolicyFor checkType) checkType detail))) pol detail

def emptyDigestResult (imageRef : String) : Result :=
  let err := GoError.new .errEmptyDigest "image digest is empty"
  resultFromCheck
    (failResult .internal ("cannot verify " ++ imageRef ++ ": " ++ err.text) (some err))

def unverifiedAttestationsCheck (fetchErr : Option GoError) (imageRef : String) :
    Option CheckResult :=
  match fetchErr with
  | none => none
  | some err =>
    if isIgnorableVerificationFailure err then
      some (warnResult .attestation ("ignored attestations of " ++ imageRef ++
        " that failed verification: " ++ err.text))
    else none

def fetchErrorResult (fetchErr : GoError) (imageRef : String) (fetchPolicy : Action) : Result :=
  if !fetchErr.is .errVerificationFailed then handleFetchError fetchErr imageRef fetchPolicy
  else resultFromCheck (failResult .attestation
    ("attestation verification failed for " ++ imageRef ++ ": " ++ fetchErr.text) (some fetchErr))

def relatedDigests (req : VerifyRequest) (attestDigest : String) : List String :=
  [req.digest, req.indexDigest].filter fun candidate =>
    candidate ≠ "" && candidate ≠ attestDigest

/-- The bytes of a string. -/
def bytes (s : String) : List UInt8 := s.toUTF8.data.toList

def registryHost (parsed : Option ParsedRef) (imageRef : String) : List UInt8 :=
  match parsed with
  | none => (bytes imageRef).take 253
  | some ref => bytes ref.registryStr

/-- The parts of a verifier snapshot that decide a verification. -/
structure Snapshot where
  config : Config
  policies : List (String × Policy)
  allowlistDigests : List String
  /-- Whether an attestation fetcher is configured. -/
  hasFetcher : Bool

/-- The fetch options of a verification, by digest. -/
def fetchOptions (lib : Library) (state : Snapshot) (pol : Policy) (req : VerifyRequest) :
    String → FetchOptions :=
  fun digest => buildFetchOpts lib.clean pol digest state.config.fetchTimeout
    (lib.parseReference req.imageRef)

/-- What a verification does with the outcome of its fetches. -/
def runFetchedChecks (lib : Library) (env : Environment) (state : Snapshot) (pol : Policy)
    (fetchPolicy : Action) (req : VerifyRequest) (fetched : FetchOutcome) :
    Except String (Result × Int) :=
  match fetched.transportErr with
  | some err => .ok (handleFetchError err req.imageRef fetchPolicy, fetchErrorCacheTTL state.config)
  | none =>
    let unverified := unverifiedAttestationsCheck fetched.err req.imageRef
    match fetched.err, unverified with
    | some err, none =>
      .ok (fetchErrorResult err req.imageRef fetchPolicy, fetchErrorCacheTTL state.config)
    | _, _ => do
        let guacResult := Guac.startGUACQuery state.config.guacFallbackPolicy req.imageRef
          (env.guac req.digest req.imageRef)
        let attestations := scopeBuilderKeys lib fetched.attestations pol
        let input := ⟨binAttestations attestations, pol, req.imageRef, fetched.digest,
          relatedDigests req fetched.digest, lib.parseReference req.imageRef⟩
        let result ← runVSAAndParallelChecks lib env input req.nameSpace
          [guacResult, unverified]
        return (result, resultCacheTTL state.config result)

/-- The result and how long it may be cached, or the value of a panic. -/
def runChecks (lib : Library) (env : Environment) (state : Snapshot) (pol : Policy)
    (mode : VerificationMode) (req : VerifyRequest) : Except String (Result × Int) :=
  if !state.hasFetcher then
    let result := runChecksWithoutFetcher pol req.imageRef
    .ok (result, resultCacheTTL state.config result)
  else if req.digest = "" then .ok (emptyDigestResult req.imageRef, 0)
  else
    let fetchPolicy := state.config.effectiveFetchFailurePolicy mode
    match env.access (registryHost (lib.parseReference req.imageRef) req.imageRef) with
    | .breakerOpen =>
      .ok (handleFetchError (GoError.errorf ("circuit breaker open for image: " ++ req.imageRef)
        [GoError.new .errCircuitBreakerOpen "circuit breaker open for image"])
        req.imageRef fetchPolicy, 0)
    | .slotsRefused err => .ok (handleFetchError err req.imageRef fetchPolicy, 0)
    | .granted =>
      match fetchAttestations env.toFetching req (fetchOptions lib state pol req) with
      | .error value => .error value
      | .ok fetched => runFetchedChecks lib env state pol fetchPolicy req fetched

end NriSupplyChain.Verifier
