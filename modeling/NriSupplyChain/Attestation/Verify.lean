import NriSupplyChain.Attestation.KeyMaterial
import NriSupplyChain.Glob.Pattern

/-!
Verification of a Sigstore bundle against a list of trusted roots. A bundle carries the
certificate or the public key of its signer. The Sigstore library is a parameter: it is a
function of the bundle, the trusted material, the policy and the options, and what is
assumed of it stands next to that function.
-/

namespace NriSupplyChain.Attestation

open NriSupplyChain.Types

/-- `verify.CertificateIdentity`. An issuer pattern `^(?:a|b)$` of quoted issuers is the
list of these issuers. -/
structure CertificateIdentity where
  issuer : String
  issuerRegex : Option (List String)
  sanRegex : String

def CertificateIdentity.matchesIssuer (id : CertificateIdentity) (actual : String) : Bool :=
  (id.issuer == "" || actual == id.issuer) && id.issuerRegex.all fun issuers => actual ∈ issuers

structure CertificateSummary where
  issuer : String
  subjectAlternativeName : String

structure VerifierResult extends VerificationResult where
  certificate : Option CertificateSummary

inductive VerifierOption where
  | currentTime
  | transparencyLog (threshold : Nat)
  | observerTimestamps (threshold : Nat)
  | signedCertificateTimestamps (threshold : Nat)
  | withoutStatementPredicate

inductive IdentityPolicy where
  | key
  | certificateIdentity (id : CertificateIdentity)

/-- `root.TrustedMaterialCollection`. -/
structure TrustedMaterial (Root : Type) where
  keys : Option TrustedKeys
  root : Option Root

/-- What a bundle says about its signer. -/
inductive VerificationContent where
  | certificate
  | publicKey (hint : String)
  | neither
deriving DecidableEq

/-- The functions of the Sigstore library. A verified certificate satisfies the identity
it was verified against, and errors of the library wrap none of the plugin's own. -/
structure Sigstore (Bundle ArtifactPolicy Root : Type) where
  verificationContent : Bundle → Except GoError VerificationContent
  tlogEntries : Bundle → Except GoError Nat
  regexpCompiles : String → Bool
  newVerifier : TrustedMaterial Root → List VerifierOption → Except GoError Unit
  verify : Bundle → TrustedMaterial Root → ArtifactPolicy → IdentityPolicy →
    List VerifierOption → Except GoError VerifierResult
  verify_identity : ∀ bndl material art id opts result certificate,
    verify bndl material art (.certificateIdentity id) opts = .ok result →
    result.certificate = some certificate → id.matchesIssuer certificate.issuer = true
  newVerifier_foreign : ∀ material opts err, newVerifier material opts = .error err →
    err.is .errTrustMaterialUnavailable = false
  verify_foreign : ∀ bndl material art policy opts err,
    verify bndl material art policy opts = .error err →
    err.is .errTrustMaterialUnavailable = false

/-- One trusted root with the issuers it may vouch for; `get` is what loading it ends
with. -/
structure RootSource (Root : Type) where
  name : String
  issuers : List String
  get : Except GoError Root
  keylessDisabled : Bool
  skipSCTs : Bool

def errNoTrustedIssuers : String :=
  "bundle is signed with a certificate but no trusted issuers are configured"
def errNoTrustedMaterial : String := "no trusted keys or issuers configured"
def errNoIssuers : String := "at least one issuer is required"
def errNoTrustedRoot : String := "no Sigstore trusted root available"
def errRootOutOfScope : String := "trusted root is out of scope"
def errTransparencyLogNeeded : String := "transparency log entry required but bundle has none"

section model

variable {Bundle ArtifactPolicy Root Key : Type} (lib : Sigstore Bundle ArtifactPolicy Root)

/-- `verify.NewShortCertificateIdentity` without a literal subject. -/
def newShortCertificateIdentity (issuer : String) (issuerRegex : Option (List String))
    (sanRegex : String) : Except GoError CertificateIdentity :=
  if !lib.regexpCompiles sanRegex then
    .error (.errorf ("error parsing regexp: " ++ sanRegex) [])
  else if issuer == "" && issuerRegex.isNone then
    .error (.errorf "when verifying a certificate identity, there must be Issuer criteria" [])
  else .ok ⟨issuer, issuerRegex, sanRegex⟩

def sanRegex (sanPatterns : List String) : String :=
  if sanPatterns = [] then ".*"
  else "^(?:" ++ "|".intercalate (sanPatterns.map fun p => String.ofList (Glob.toRegex p.toList)) ++
    ")$"

def buildCertificateIdentity (issuers sanPatterns : List String) :
    Except GoError CertificateIdentity :=
  let creating (err : GoError) : GoError :=
    .errorf ("creating certificate identity: " ++ err.text) [err]
  match issuers with
  | [] => .error (.errorf errNoIssuers [])
  | [issuer] =>
    (newShortCertificateIdentity lib issuer none (sanRegex sanPatterns)).mapError creating
  | issuers =>
    (newShortCertificateIdentity lib "" (some issuers) (sanRegex sanPatterns)).mapError creating

def runVerifier (entity : Bundle) (trustedMaterial : TrustedMaterial Root) (art : ArtifactPolicy)
    (pol : IdentityPolicy) (opts : List VerifierOption) : Except GoError VerifierResult :=
  let opts := opts ++ [.withoutStatementPredicate]
  match lib.newVerifier trustedMaterial opts with
  | .error err => .error (.errorf ("creating sigstore verifier: " ++ err.text) [err])
  | .ok () =>
    match lib.verify entity trustedMaterial art pol opts with
    | .error err => .error (.errorf ("verifying sigstore bundle: " ++ err.text) [err])
    | .ok result => .ok result

/-- The policy issuers a trusted root may vouch for; an empty list of root issuers places
no restriction. -/
def scopeIssuers (policyIssuers rootIssuers : List String) : List String :=
  if rootIssuers = [] then policyIssuers
  else policyIssuers.filter fun issuer => issuer ∈ rootIssuers

def rootIssuers (opts : FetchOptions) (src : RootSource Root) : Except GoError (List String) :=
  if src.keylessDisabled then
    .error (.errorf (errNoTrustedIssuers ++ ": " ++ errRootOutOfScope ++ ": trusted root \"" ++
      src.name ++ "\" is not trusted for any certificate issuer") [])
  else
    match scopeIssuers opts.trustedIssuers src.issuers with
    | [] =>
      .error (.errorf (errNoTrustedIssuers ++ ": " ++ errRootOutOfScope ++ ": trusted root \"" ++
        src.name ++ "\" is not trusted for issuers [" ++ " ".intercalate opts.trustedIssuers ++
        "]") [])
    | issuers => .ok issuers

/-- A failure to obtain a trusted root is unavailable trust material. -/
def trustedRootError (err : GoError) : GoError :=
  .errorf ("attestation trust material unavailable: fetching sigstore trusted root: " ++ err.text)
    [.new .errTrustMaterialUnavailable "attestation trust material unavailable", err]

/-- Why each trusted root did not verify a bundle. -/
abbrev RootFailures := List GoError

namespace RootFailures

def unavailable (f : RootFailures) (rootName : String) (err : GoError) : RootFailures :=
  f ++ [.errorf ("trusted root \"" ++ rootName ++ "\": " ++ err.text) [err]]

def rejected (f : RootFailures) (err : GoError) : RootFailures :=
  f ++ [err]

def record (f : RootFailures) (rootName : String) (err : GoError) : RootFailures :=
  if err.is .errTrustMaterialUnavailable then f.unavailable rootName err else f.rejected err

end RootFailures

/-- A Go result pair of a signer and a possibly nil error. -/
def signerOr (err : Option GoError) : Except GoError SignerIdentity :=
  match err with
  | some err => .error err
  | none => .ok ⟨"", [], "", ""⟩

def verifyKeylessWithRoot (bndl : Bundle) (opts : FetchOptions) (art : ArtifactPolicy)
    (src : RootSource Root) (hasTlog : Bool) : Except GoError SignerIdentity :=
  match rootIssuers opts src with
  | .error err => .error err
  | .ok issuers =>
    match buildCertificateIdentity lib issuers opts.sanPatterns with
    | .error err => .error err
    | .ok certID =>
      match src.get with
      | .error err => .error (trustedRootError err)
      | .ok trustedRoot =>
        let verifierOpts := [.observerTimestamps 1] ++
          (if src.skipSCTs then [] else [.signedCertificateTimestamps 1]) ++
          if hasTlog then [.transparencyLog 1] else []
        match runVerifier lib bndl ⟨none, some trustedRoot⟩ art (.certificateIdentity certID)
            verifierOpts with
        | .error err => .error err
        | .ok result =>
          match result.certificate with
          | none =>
            .error (.errorf
              (errUnsupportedSignature ++ ": verification result has no certificate") [])
          | some certificate =>
            .ok ⟨"", [], certificate.issuer, certificate.subjectAlternativeName⟩

def tryKeylessRoots (bndl : Bundle) (opts : FetchOptions) (art : ArtifactPolicy) (hasTlog : Bool) :
    List (RootSource Root) → RootFailures → Except GoError SignerIdentity
  | [], failures => signerOr (GoError.join failures)
  | src :: rest, failures =>
    match verifyKeylessWithRoot lib bndl opts art src hasTlog with
    | .ok signer => .ok signer
    | .error err => tryKeylessRoots bndl opts art hasTlog rest (failures.record src.name err)

/-- Verify a bundle signed with a certificate; each root is tried on its own. -/
def verifyKeyless (bndl : Bundle) (opts : FetchOptions) (art : ArtifactPolicy)
    (sources : List (RootSource Root)) : Except GoError SignerIdentity :=
  if opts.trustedIssuers = [] then
    .error (.errorf (errNoTrustedMaterial ++ ": " ++ errNoTrustedIssuers) [])
  else
    match lib.tlogEntries bndl with
    | .error err => .error (.errorf ("reading transparency log entries: " ++ err.text) [err])
    | .ok tlogEntries =>
      if opts.requireTransparencyLog && tlogEntries == 0 then
        .error (.errorf errTransparencyLogNeeded [])
      else if sources = [] then
        .error (.errorf (errNoTrustedRoot ++ ": keyless verification requires one") [])
      else tryKeylessRoots lib bndl opts art (tlogEntries > 0) sources []

/-- The bundle names a key that was loaded. -/
def namesLoadedKey (keys : TrustedKeys) (bndl : Bundle) : Bool :=
  match lib.verificationContent bndl with
  | .ok (.publicKey hint) => (keys.lookup hint).isSome
  | _ => false

/-- When keys could not be loaded and the bundle does not name one that was, the error of
loading them is reported as well. -/
def unloadedKeyError (keys : TrustedKeys) (bndl : Bundle) (verifyErr loadErr : Option GoError) :
    Option GoError :=
  match loadErr with
  | none => verifyErr
  | some loadErr =>
    if namesLoadedKey lib keys bndl then verifyErr
    else GoError.join (verifyErr.toList ++ [loadErr])

def tryKeyRoots (keys : TrustedKeys) (loadErr : Option GoError) (now : Int) (bndl : Bundle)
    (art : ArtifactPolicy) : List (RootSource Root) → RootFailures → Except GoError SignerIdentity
  | [], failures => signerOr (unloadedKeyError lib keys bndl (GoError.join failures) loadErr)
  | src :: rest, failures =>
    match src.get with
    | .error rootErr =>
      tryKeyRoots keys loadErr now bndl art rest
        (failures.unavailable src.name (trustedRootError rootErr))
    | .ok trustedRoot =>
      match runVerifier lib bndl ⟨some keys, some trustedRoot⟩ art .key
          [.transparencyLog 1, .observerTimestamps 1] with
      | .error err => tryKeyRoots keys loadErr now bndl art rest (failures.rejected err)
      -- a root that verifies the bundle is the last one, whoever the signer is
      | .ok result => signerFromResult keys now result.toVerificationResult

/-- Verify a bundle signed with a public key. -/
def verifyKeyBased (files : KeyFiles Key) (now : Int) (bndl : Bundle) (opts : FetchOptions)
    (art : ArtifactPolicy) (sources : List (RootSource Root)) : Except GoError SignerIdentity :=
  if opts.trustedKeys = [] then
    .error (.errorf (errNoTrustedMaterial ++ ": " ++ errNoTrustedKeys) [])
  else
    match buildKeyMaterial files opts.trustedKeys with
    | (none, loadErr) => signerOr loadErr
    | (some keys, loadErr) =>
      if !opts.requireTransparencyLog then
        match runVerifier lib bndl ⟨some keys, none⟩ art .key [.currentTime] with
        | .error err => signerOr (unloadedKeyError lib keys bndl (some err) loadErr)
        | .ok result => signerFromResult keys now result.toVerificationResult
      else if sources = [] then
        .error (.errorf (errNoTrustedRoot ++ ": transparency log verification requires one") [])
      else tryKeyRoots lib keys loadErr now bndl art sources []

def verifySigner (files : KeyFiles Key) (now : Int) (bndl : Bundle) (opts : FetchOptions)
    (art : ArtifactPolicy) (sources : List (RootSource Root)) : Except GoError SignerIdentity :=
  match lib.verificationContent bndl with
  | .error err => .error (.errorf ("reading bundle verification material: " ++ err.text) [err])
  | .ok .certificate => verifyKeyless lib bndl opts art sources
  | .ok (.publicKey _) => verifyKeyBased lib files now bndl opts art sources
  | .ok .neither => .error (.errorf errUnsupportedSignature [])

end model

section scope

variable {Bundle ArtifactPolicy Root : Type} {lib : Sigstore Bundle ArtifactPolicy Root}
  {opts : FetchOptions} {src : RootSource Root}

/-- The root may vouch for certificates of the issuer. -/
def RootSource.Vouches (src : RootSource Root) (issuer : String) : Prop :=
  src.keylessDisabled = false ∧ (src.issuers = [] ∨ issuer ∈ src.issuers)

theorem mem_scopeIssuers {policyIssuers rootIssuers : List String} {issuer : String} :
    issuer ∈ scopeIssuers policyIssuers rootIssuers ↔
      issuer ∈ policyIssuers ∧ (rootIssuers = [] ∨ issuer ∈ rootIssuers) := by
  unfold scopeIssuers
  split
  · next hempty => simp [hempty]
  · next hscoped => simp [hscoped]

theorem rootIssuers_ok {issuers : List String} (h : rootIssuers opts src = .ok issuers) :
    src.keylessDisabled = false ∧ issuers = scopeIssuers opts.trustedIssuers src.issuers := by
  unfold rootIssuers at h
  split at h
  · cases h
  · next hkeyless =>
    split at h
    · cases h
    · cases h
      exact ⟨Bool.eq_false_of_not_eq_true hkeyless, rfl⟩

theorem rootIssuers_error {err : GoError} (h : rootIssuers opts src = .error err) :
    err.is .errTrustMaterialUnavailable = false := by
  unfold rootIssuers at h
  split at h
  · cases h
    rfl
  · split at h
    · cases h
      rfl
    · cases h

theorem mapError_ok {α : Type} {f : GoError → GoError} {x : Except GoError α} {a : α}
    (h : x.mapError f = .ok a) : x = .ok a := by
  cases x with
  | ok b => exact h
  | error err => cases h

theorem newShortCertificateIdentity_ok {issuer sanRegex : String}
    {issuerRegex : Option (List String)} {certID : CertificateIdentity}
    (h : newShortCertificateIdentity lib issuer issuerRegex sanRegex = .ok certID) :
    certID = ⟨issuer, issuerRegex, sanRegex⟩ ∧ (issuer = "" → issuerRegex ≠ none) := by
  unfold newShortCertificateIdentity at h
  split at h
  · cases h
  · split at h
    · cases h
    · next hcriteria =>
      cases h
      refine ⟨rfl, ?_⟩
      rintro rfl rfl
      exact hcriteria rfl

/-- Only the issuers an identity was built for match it. -/
theorem buildCertificateIdentity_matches {issuers sanPatterns : List String}
    {certID : CertificateIdentity} {actual : String}
    (h : buildCertificateIdentity lib issuers sanPatterns = .ok certID)
    (hmatches : certID.matchesIssuer actual = true) : actual ∈ issuers := by
  obtain ⟨hissuer, hregex⟩ := Bool.and_eq_true_iff.mp hmatches
  match issuers, h with
  | [issuer], h =>
    obtain ⟨rfl, hcriteria⟩ := newShortCertificateIdentity_ok (mapError_ok h)
    rcases Bool.or_eq_true_iff.mp hissuer with hempty | hexact
    · exact absurd rfl (hcriteria (eq_of_beq hempty))
    · rw [eq_of_beq hexact]
      exact List.mem_singleton_self issuer
  | first :: second :: rest, h =>
    obtain ⟨rfl, -⟩ := newShortCertificateIdentity_ok (mapError_ok h)
    exact of_decide_eq_true hregex

variable {art : ArtifactPolicy} {bndl : Bundle}

theorem runVerifier_ok {material : TrustedMaterial Root} {pol : IdentityPolicy}
    {verifierOpts : List VerifierOption} {result : VerifierResult}
    (h : runVerifier lib bndl material art pol verifierOpts = .ok result) :
    lib.verify bndl material art pol (verifierOpts ++ [.withoutStatementPredicate]) =
      .ok result := by
  unfold runVerifier at h
  dsimp only at h
  split at h
  · cases h
  · split at h
    · cases h
    · next hverify =>
      cases h
      exact hverify

theorem runVerifier_error {material : TrustedMaterial Root} {pol : IdentityPolicy}
    {verifierOpts : List VerifierOption} {err : GoError}
    (h : runVerifier lib bndl material art pol verifierOpts = .error err) :
    err.is .errTrustMaterialUnavailable = false := by
  unfold runVerifier at h
  dsimp only at h
  split at h
  · next cause hnew =>
    cases h
    simp [lib.newVerifier_foreign _ _ cause hnew]
  · split at h
    · next cause hverify =>
      cases h
      simp [lib.verify_foreign _ _ _ _ _ cause hverify]
    · cases h

/-- A certificate is accepted only for an issuer of the policy that the root may vouch
for. -/
theorem verifyKeylessWithRoot_ok {hasTlog : Bool} {signer : SignerIdentity}
    (h : verifyKeylessWithRoot lib bndl opts art src hasTlog = .ok signer) :
    signer.issuer ∈ opts.trustedIssuers ∧ src.Vouches signer.issuer := by
  unfold verifyKeylessWithRoot at h
  split at h
  · cases h
  · next issuers hissuers =>
    split at h
    · cases h
    · next certID hcertID =>
      split at h
      · cases h
      · dsimp only at h
        split at h
        · cases h
        · next result hresult =>
          split at h
          · cases h
          · next certificate hcertificate =>
            cases h
            have hmatches := lib.verify_identity _ _ _ _ _ _ _ (runVerifier_ok hresult)
              hcertificate
            have hmem := buildCertificateIdentity_matches hcertID hmatches
            obtain ⟨hkeyless, rfl⟩ := rootIssuers_ok hissuers
            obtain ⟨htrusted, hscope⟩ := mem_scopeIssuers.mp hmem
            exact ⟨htrusted, hkeyless, hscope⟩

end scope

end NriSupplyChain.Attestation
