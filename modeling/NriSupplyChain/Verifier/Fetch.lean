import NriSupplyChain.Attestation.Types
import NriSupplyChain.Policy.Settings

/-!
Fetching the attestations of an image from its index digest and its platform
digest, and folding the two outcomes into one.
-/

namespace NriSupplyChain.Verifier

open NriSupplyChain.Types Attestation

structure VerifyRequest where
  imageRef : String
  digest : String
  indexDigest : String
  nameSpace : String
deriving DecidableEq, Repr

/-- Which of the two fetches of a verification is made. -/
inductive FetchTarget where
  | index
  | platform
deriving DecidableEq, Repr

/-- The fetcher and the context during one verification. A fetch answers or
panics; `canceled` says whether the context was cancelled by the time the error
of a fetch is classified. -/
structure Fetching where
  fetch : FetchTarget → String → FetchOptions → Except String FetchAnswer
  canceled : FetchTarget → Bool

/-- The complete attestation set failed verification, and nothing else. -/
def isIgnorableVerificationFailure (err : GoError) : Bool :=
  err.is .errVerificationFailed && !err.is .errIncompleteAttestationSet

def isFetchTransportFailure (canceled : Bool) (err : GoError) : Bool :=
  if err.is .errVerificationFailed then false
  else if canceled then false
  else if (err.asTransport.map Prod.fst) = some 429 then true
  else isConnectionError err || err.is .contextDeadlineExceeded

structure FetchOutcome where
  attestations : List VerifiedAttestation
  digest : String
  err : Option GoError
  transportErr : Option GoError

namespace FetchOutcome

/-- The first transport failure is kept. -/
def recordTransport (o : FetchOutcome) (canceled : Bool) (err : GoError) : FetchOutcome :=
  if o.transportErr.isNone && isFetchTransportFailure canceled err then
    { o with transportErr := some err }
  else o

def keepPartial (o : FetchOutcome) (platform : List VerifiedAttestation)
    (platformDigest : String) (index : List VerifiedAttestation) (indexDigest : String) :
    FetchOutcome :=
  if !platform.isEmpty then { o with attestations := platform, digest := platformDigest }
  else if !index.isEmpty then { o with attestations := index, digest := indexDigest }
  else o

def platformError (o : FetchOutcome) (req : VerifyRequest) (err : GoError)
    (kept : List VerifiedAttestation) (indexErr : Option GoError)
    (indexKept : List VerifiedAttestation) : FetchOutcome :=
  let ignorable := isIgnorableVerificationFailure err
  if ignorable && indexErr.any (fun e => !isIgnorableVerificationFailure e) then
    { o with err := indexErr }
  else
    let wrapped := match indexErr with
      | some e => GoError.errorf ("fetching attestations: " ++ err.text ++
          " (index digest: " ++ e.text ++ ")") [err]
      | none => GoError.errorf ("fetching attestations: " ++ err.text) [err]
    let o := { o with err := some wrapped }
    if ignorable then o.keepPartial kept req.digest indexKept req.indexDigest else o

end FetchOutcome

section Options

variable (clean : String → String)

def verifierKeys (trust : Policy.TrustPolicy) : List String :=
  trust.verifiers.flatMap (fun verifier => verifier.keys.map clean)

def trustedKeyRefs (trust : Policy.TrustPolicy) : List TrustedKeyRef :=
  (trust.verifiers.flatMap fun verifier => verifier.keys.map fun keyPath =>
      ⟨keyPath, verifier.notBeforeTime, verifier.notAfterTime⟩) ++
    (trust.builders.flatMap fun builder =>
      (builder.keys.filter fun keyPath => !(verifierKeys clean trust).contains (clean keyPath)).map
        fun keyPath => ⟨keyPath, none, none⟩)

def buildFetchOpts (pol : Policy) (digest : String) (timeout : Int)
    (parsedRef : Option ParsedRef) : FetchOptions where
  trustedIssuers := (pol.trust.map (fun trust => trust.issuers)).getD []
  trustedKeys := (pol.trust.map (trustedKeyRefs clean)).getD []
  sanPatterns := (pol.trust.map (fun trust => trust.sanPatterns)).getD []
  requireTransparencyLog := pol.signatures.getD false
  timeout := timeout
  digest := digest
  parsedRef := parsedRef

end Options

/-- Found attestations are stored in the outcome; otherwise the material kept
from a verification failure and the wrapped error of the fetch are returned. -/
def fetchIndexAttestations (env : Fetching) (req : VerifyRequest)
    (opts : String → FetchOptions) (outcome : FetchOutcome) :
    Except String (FetchOutcome × List VerifiedAttestation × Option GoError) :=
  if req.indexDigest = "" then .ok (outcome, [], none)
  else
    match env.fetch .index req.imageRef (opts req.indexDigest) with
    | .error value => .error value
    | .ok ⟨atts, some err⟩ =>
      let kept := if isIgnorableVerificationFailure err then atts else []
      .ok (outcome.recordTransport (env.canceled .index) err, kept,
        some (GoError.errorf ("fetching attestations for index digest " ++ req.indexDigest ++
          ": " ++ err.text) [err]))
    | .ok ⟨[], none⟩ => .ok (outcome, [], none)
    | .ok ⟨atts, none⟩ =>
      .ok ({ outcome with attestations := atts, digest := req.indexDigest }, [], none)

def fetchAttestations (env : Fetching) (req : VerifyRequest) (opts : String → FetchOptions) :
    Except String FetchOutcome :=
  match fetchIndexAttestations env req opts ⟨[], req.digest, none, none⟩ with
  | .error value => .error value
  | .ok (outcome, indexKept, indexErr) =>
    if !outcome.attestations.isEmpty then .ok outcome
    else
      match env.fetch .platform req.imageRef (opts req.digest) with
      | .error value => .error value
      | .ok ⟨atts, some err⟩ =>
        .ok ((outcome.recordTransport (env.canceled .platform) err).platformError
          req err atts indexErr indexKept)
      | .ok ⟨atts, none⟩ =>
        if atts.isEmpty && indexErr.isSome then
          .ok ({ outcome with err := indexErr }.keepPartial [] req.digest indexKept
            req.indexDigest)
        else if indexErr.any (fun e => !isIgnorableVerificationFailure e) then
          .ok { outcome with err := indexErr }
        else .ok { outcome with attestations := atts }

/-- The errors the performed fetches reported. -/
structure Reports where
  index : Option GoError
  platform : Option GoError

/-- The answer for the index digest; without one there is nothing to find. -/
def indexAnswer (env : Fetching) (req : VerifyRequest) (opts : String → FetchOptions) :
    Except String FetchAnswer :=
  if req.indexDigest = "" then .ok ⟨[], none⟩
  else env.fetch .index req.imageRef (opts req.indexDigest)

/-- What the fetches report, unless one of them panics. The platform digest is
not asked when the index digest has attestations. -/
def fetchReports (env : Fetching) (req : VerifyRequest) (opts : String → FetchOptions) :
    Option Reports :=
  match indexAnswer env req opts with
  | .error _ => none
  | .ok ⟨_ :: _, none⟩ => some ⟨none, none⟩
  | .ok ⟨_, indexErr⟩ =>
    match env.fetch .platform req.imageRef (opts req.digest) with
    | .error _ => none
    | .ok ⟨_, platformErr⟩ => some ⟨indexErr, platformErr⟩

namespace Reports

/-- One of the fetches reports an incomplete attestation set. -/
def Incomplete (r : Reports) : Prop :=
  errorIs r.index .errIncompleteAttestationSet = true ∨
    errorIs r.platform .errIncompleteAttestationSet = true

instance (r : Reports) : Decidable r.Incomplete := by
  unfold Incomplete
  infer_instance

/-- The reports name an incomplete set, but what they are folded into does not:
a transport failure on the index digest is looked at first, and next to a failed
platform fetch the index error survives as text only. The last two cases are
errors that wrap `ErrIncompleteAttestationSet` without `ErrVerificationFailed`. -/
inductive Drops (canceled : Bool) (r : Reports) : Prop where
  | indexTransport {e : GoError} :
      r.index = some e → isFetchTransportFailure canceled e = true →
      errorIs r.platform .errIncompleteAttestationSet = true → Drops canceled r
  | platformFailed {e : GoError} :
      errorIs r.index .errIncompleteAttestationSet = true →
      r.platform = some e → e.is .errVerificationFailed = false → Drops canceled r
  | platformUnmarked {e : GoError} :
      r.platform = some e → e.is .errIncompleteAttestationSet = true →
      e.is .errVerificationFailed = false → Drops canceled r
  | indexUnmarked {e : GoError} :
      r.index = some e → e.is .errIncompleteAttestationSet = true →
      e.is .errVerificationFailed = false →
      (∀ p, r.platform = some p → isIgnorableVerificationFailure p = true) → Drops canceled r

end Reports

end NriSupplyChain.Verifier
