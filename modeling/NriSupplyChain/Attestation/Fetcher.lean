import NriSupplyChain.Attestation.Collection
import NriSupplyChain.Attestation.CosignTag

/-!
`Fetch`: passes over the referrers and the cosign tag, their retries, and the
fallback from a mirror to the original registry.

`PassResult.unanswered` is what the registry, the context or the trust material left
open in a pass; no modelled function reads it.
-/

namespace NriSupplyChain.Attestation

open NriSupplyChain.Types Lib

/-- What is answered in one pass. The listing is requested and then parsed;
`listingBytes` are charged for it. -/
structure Pass where
  listing : Except RegistryFailure (Except ForeignError (List Descriptor))
  listingBytes : Nat
  candidate : Descriptor → Candidate
  schedule : List CollectOp
  tag : TagAnswers

/-- A part of a pass that can be left without an answer. -/
inductive Asked where
  | listing
  | referrers
  | tag
  /-- The tag, when the referrers failed verification. -/
  | tagAfterFailure
deriving DecidableEq, Repr

structure PassResult where
  answer : FetchAnswer
  unanswered : List (Asked × Unanswered)

/-- What a failed listing leaves open. -/
def listingUnanswered (err : GoError) (truncated : Bool) : List Unanswered :=
  if isTransportFailure err then [.transport err]
  else if truncated then [.cutShort]
  else []

def droppedReferrersError (dropped : Nat) : GoError :=
  GoError.errorf (errVerificationFailed.text ++ ": " ++ errReferrerLimitExceeded.text ++ ": " ++
    toString dropped ++ " referrers exceed the per-image limits")
    [errVerificationFailed, errReferrerLimitExceeded]

def Pass.input (pass : Pass) (req : FetchRequest) (selection : ReferrerSelection) :
    CollectInput where
  lib := req.lib
  cfg := req.cfg
  digest := req.digest
  candidates
    | .bundles => selection.bundles.map pass.candidate
    | .notationSigs => selection.notationSigs.map pass.candidate
    | .baselines => selection.baselines.map pass.candidate

/-- A tag error counts only when it makes the set incomplete. -/
def tagFallbackAfterFailedReferrers (req : FetchRequest) (pass : Pass) (used : Int)
    (referrersErr : GoError) (baselineSBOMs : List VerifiedAttestation) : TagResult :=
  if !referrersErr.is .errVerificationFailed || referrersErr.is .errIncompleteAttestationSet ||
      !baselineSBOMs.isEmpty then ⟨[], none, []⟩
  else
    let tag := cosignTagFallback req pass.tag used
    if errorIs tag.err .errIncompleteAttestationSet then ⟨[], tag.err, tag.unanswered⟩
    else if tag.err.isSome || tag.attestations.isEmpty then ⟨[], none, tag.unanswered⟩
    else ⟨tag.attestations, none, tag.unanswered⟩

def collectionFailure (req : FetchRequest) (pass : Pass) (used : Int) (c : Collected)
    (err : GoError) : PassResult :=
  let tag := tagFallbackAfterFailedReferrers req pass used err c.baselineSBOMs
  let unanswered := c.unanswered.map (Prod.mk .referrers) ++
    tag.unanswered.map (Prod.mk .tagAfterFailure)
  match tag.err with
  | some tagErr => ⟨⟨[], some tagErr⟩, unanswered⟩
  | none =>
    if !tag.attestations.isEmpty then ⟨⟨tag.attestations ++ c.notationSigs, none⟩, unanswered⟩
    else ⟨⟨c.notationSigs ++ c.baselineSBOMs, some err⟩, unanswered⟩

/-- `fetchOnce` when the referrers are collected. -/
def evaluatePass (req : FetchRequest) (pass : Pass) (s : CollectState) : PassResult :=
  let c := s.collectSelection
  match c.err with
  | some err => collectionFailure req pass s.used c err
  | none =>
    if c.attestations.isEmpty && c.baselineSBOMs.isEmpty then
      let tag := cosignTagFallback req pass.tag s.used
      let unanswered := c.unanswered.map (Prod.mk .referrers) ++
        tag.unanswered.map (Prod.mk .tag)
      match tag.err with
      | some tagErr =>
        if tagErr.is .errVerificationFailed && !tagErr.is .errIncompleteAttestationSet then
          ⟨⟨c.notationSigs, some tagErr⟩, unanswered⟩
        else ⟨⟨[], some tagErr⟩, unanswered⟩
      | none => ⟨⟨tag.attestations ++ c.notationSigs, none⟩, unanswered⟩
    else
      ⟨⟨c.attestations ++ c.notationSigs ++ c.baselineSBOMs, none⟩,
        c.unanswered.map (Prod.mk .referrers)⟩

/-- One pass; `none` when its schedule is no complete run of the collectors. -/
def fetchOnce (req : FetchRequest) (pass : Pass) : Option PassResult :=
  match pass.listing with
  | .error failure =>
    some ⟨⟨[], some (referrersError "listing referrers" failure.err.val)⟩,
      (listingUnanswered failure.err.val failure.truncated).map (Prod.mk .listing)⟩
  | .ok (.error err) =>
    some ⟨⟨[], some (referrersError "reading referrers index" err.val)⟩,
      (listingUnanswered err.val false).map (Prod.mk .listing)⟩
  | .ok (.ok manifests) =>
    let selection := selectReferrers manifests
    if 0 < selection.dropped then
      some ⟨⟨[], some (droppedReferrersError selection.dropped)⟩, []⟩
    else
      let input := pass.input req selection
      match (collectMachine input pass.listingBytes).exec (.new input pass.listingBytes)
          pass.schedule with
      | none => none
      | some s => if s.complete then some (evaluatePass req pass s) else none

/-- One attempt: the context may end while the retry is delayed, the rate limiter may
refuse, and the context may have ended after the pass. -/
structure Attempt where
  delay : Option CtxErr
  limiter : Option ForeignError
  pass : Pass
  ctx : Option CtxErr

/-- A pass that ran to its end. -/
structure PassRun where
  req : FetchRequest
  pass : Pass
  result : PassResult
  run : fetchOnce req pass = some result

/-- What a fetch returns, and the pass that decided it unless the fetch was
interrupted before one. -/
structure RetryResult where
  answer : FetchAnswer
  decided : Option PassRun

/-- What `Fetch` returns, and the failure of the mirror it fell back from. -/
structure FetchResult extends RetryResult where
  mirrorErr : Option GoError

def RetryResult.failed (err : GoError) : RetryResult := ⟨⟨[], some err⟩, none⟩

def fetchMaxRetries : Nat := 2

def finalFetchError (ctx : Option CtxErr) (err : GoError) : Option GoError :=
  if err.is .errVerificationFailed then some err
  else
    match ctx with
    | some e => some (wrapOne "attestation fetch interrupted" e.error)
    | none => if isTransientError err then none else some err

/-- How an attempt ends the retry loop, or the error to retry after. -/
inductive AttemptEnd where
  | final (result : RetryResult)
  | retry (lastErr : GoError) (last : PassRun)

/-- The body of the retry loop. -/
def runAttempt (req : FetchRequest) (first : Bool) (attempt : Attempt) : Option AttemptEnd :=
  match (if first then none else attempt.delay), attempt.limiter with
  | some e, _ => some (.final (.failed (wrapOne "attestation fetch interrupted" e.error)))
  | none, some waitErr => some (.final (.failed (wrapOne "rate limit wait" waitErr.val)))
  | none, none =>
    match hrun : fetchOnce req attempt.pass with
    | none => none
    | some result =>
      let run : PassRun := ⟨req, attempt.pass, result, hrun⟩
      match result.answer.err with
      | none => some (.final ⟨result.answer, some run⟩)
      | some err =>
        match finalFetchError attempt.ctx err with
        | none => some (.retry err run)
        | some finalErr =>
          if finalErr.is .errVerificationFailed then
            some (.final ⟨⟨result.answer.attestations, some finalErr⟩, some run⟩)
          else some (.final ⟨⟨[], some finalErr⟩, some run⟩)

def fetchWithRetryFrom (req : FetchRequest) (attempts : Nat → Attempt) :
    (retries : Nat) → (attempt : Nat) → Option RetryResult
  | 0, attempt =>
    match runAttempt req (attempt = 0) (attempts attempt) with
    | none => none
    | some (.final result) => some result
    | some (.retry lastErr last) => some ⟨⟨[], some (wrapOne ("attestation fetch failed after " ++
        toString (fetchMaxRetries + 1) ++ " attempts") lastErr)⟩, some last⟩
  | retries + 1, attempt =>
    match runAttempt req (attempt = 0) (attempts attempt) with
    | none => none
    | some (.final result) => some result
    | some (.retry _ _) => fetchWithRetryFrom req attempts retries (attempt + 1)

def fetchWithRetry (req : FetchRequest) (attempts : Nat → Attempt) : Option RetryResult :=
  fetchWithRetryFrom req attempts fetchMaxRetries 0

/-- The original registry of a mirror. -/
structure Fallback where
  originalRef : String
  attempts : Nat → Attempt

/-- The registry an image is fetched from. `ctx` is the context after the fetch. -/
structure Registry where
  effectiveRef : String
  attempts : Nat → Attempt
  ctx : Option CtxErr
  fallback : Option Fallback

structure Fetcher where
  lib : FetchLibrary
  cfg : FetcherConfig
  /-- The repository of a reference. -/
  parseReference : String → Except ForeignError String

def Fetcher.parseDigestRef (f : Fetcher) (imageRef : String) (parsed : Option ParsedRef) :
    Except GoError String :=
  match parsed with
  | some ref => .ok ref.name
  | none =>
    match f.parseReference imageRef with
    | .error err => .error (wrapOne ("parsing reference \"" ++ imageRef ++ "\"") err.val)
    | .ok repository => .ok repository

def Fetcher.request (f : Fetcher) (opts : FetchOptions) (repository : String) : FetchRequest :=
  ⟨f.lib, f.cfg, repository, opts.digest, opts.trustedKeys⟩

/-- The error of a fallback that failed as well. -/
def fallbackError (originalRef mirrorRef : String) (fallbackErr mirrorErr : GoError) : GoError :=
  GoError.errorf ("fallback to " ++ originalRef ++ ": " ++ fallbackErr.text ++ " (mirror " ++
    mirrorRef ++ ": " ++ mirrorErr.text ++ ")") [fallbackErr, mirrorErr]

def Fetcher.fetchWithFallback (f : Fetcher) (opts : FetchOptions) (mirrorRef : String)
    (fallback : Fallback) (mirrorErr : GoError) : Option FetchResult :=
  match f.parseDigestRef fallback.originalRef opts.parsedRef with
  | .error err => some ⟨.failed (wrapOne "parsing fallback reference" err), some mirrorErr⟩
  | .ok repository =>
    (fetchWithRetry (f.request opts repository) fallback.attempts).map fun result =>
      let err := result.answer.err.map fun fallbackErr =>
        fallbackError fallback.originalRef mirrorRef fallbackErr mirrorErr
      ⟨⟨⟨result.answer.attestations, err⟩, result.decided⟩, some mirrorErr⟩

def errNilFetchOptions : GoError := ⟨"fetch options must not be nil", []⟩

def errEmptyDigest : GoError := GoError.new .errEmptyDigest "empty digest"

/-- `Fetch`, where `registry` is what `buildFetchOptions` answers. -/
def Fetcher.fetch (f : Fetcher) (imageRef : String) (opts : Option FetchOptions)
    (registry : Except ForeignError Registry) : Option FetchResult :=
  match opts with
  | none => some ⟨.failed errNilFetchOptions, none⟩
  | some opts =>
    if opts.digest = "" then
      some ⟨.failed (GoError.errorf (errEmptyDigest.text ++ " for image \"" ++ imageRef ++ "\"")
        [errEmptyDigest]), none⟩
    else
      match registry with
      | .error err => some ⟨.failed (wrapOne "building registry options" err.val), none⟩
      | .ok registry =>
        let parsedRef := if registry.effectiveRef = imageRef then opts.parsedRef else none
        match f.parseDigestRef registry.effectiveRef parsedRef with
        | .error err => some ⟨.failed (wrapOne "parsing image reference" err), none⟩
        | .ok repository =>
          (fetchWithRetry (f.request opts repository) registry.attempts).bind fun result =>
            match result.answer.err, registry.fallback with
            | some fetchErr, some fallback =>
              if registry.ctx = none ∧ isConnectionError fetchErr then
                f.fetchWithFallback opts registry.effectiveRef fallback fetchErr
              else some ⟨result, none⟩
            | _, _ => some ⟨result, none⟩

end NriSupplyChain.Attestation
