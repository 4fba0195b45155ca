import NriSupplyChain.Attestation.Layers

/-!
Which referrers of a listing are considered, and the fetch of a single one.

`Fetched.unanswered` is what the registry, the context or the trust material left
open while the referrer was fetched and verified; no modelled function reads it.
A `Fetched` is honest when all of that shows in its outcome.
-/

namespace NriSupplyChain.Attestation

open NriSupplyChain.Types

structure Descriptor where
  artifactType : String
  digest : String
  size : Int
  annotations : List (String × String)
deriving DecidableEq, Repr

inductive ReferrerKind where
  | ignored
  | bundle
  | genericBundle
  | notationSig
  | baseline
deriving DecidableEq, Repr

def predicateCosignSignature : String := "https://sigstore.dev/cosign/sign/v1"
def bundleMediaType : String := "application/vnd.dev.sigstore.bundle.v0.3+json"
def ociEmptyMediaType : String := "application/vnd.oci.empty.v1+json"
def annotationPredicateType : String := "dev.sigstore.bundle.predicateType"
def notationSignatureMediaType : String := "application/vnd.cncf.notary.signature"
def baselineSBOMArtifactType : String :=
  "application/vnd.nri-supply-chain.sbom-baseline.v1+json"

def maxReferrers : Nat := 50
def maxNotationReferrers : Nat := 10
def maxBaselineReferrers : Nat := 5
def maxReferrerManifestSize : Int := 4194304

/-- Cosign signature bundles are not attestations. -/
def bundleKind (desc : Descriptor) (kind : ReferrerKind) : ReferrerKind :=
  if desc.annotations.lookup annotationPredicateType = some predicateCosignSignature then .ignored
  else kind

def classifyReferrer (desc : Descriptor) : ReferrerKind :=
  if desc.artifactType = bundleMediaType then bundleKind desc .bundle
  else if desc.artifactType = ociEmptyMediaType ∨ desc.artifactType = "" then
    bundleKind desc .genericBundle
  else if desc.artifactType = notationSignatureMediaType then .notationSig
  else if desc.artifactType = baselineSBOMArtifactType then .baseline
  else .ignored

structure ReferrerSelection where
  bundles : List Descriptor
  notationSigs : List Descriptor
  baselines : List Descriptor
  dropped : Nat

/-- A relevant referrer that does not fit its budget is dropped. -/
def ReferrerSelection.add (s : ReferrerSelection) (kind : ReferrerKind) (desc : Descriptor) :
    ReferrerSelection :=
  let dropped := { s with dropped := s.dropped + 1 }
  if kind ≠ .ignored ∧ maxReferrerManifestSize < desc.size then dropped
  else
    match kind with
    | .bundle | .genericBundle =>
      if maxReferrers ≤ s.bundles.length then dropped
      else { s with bundles := s.bundles ++ [desc] }
    | .notationSig =>
      if maxNotationReferrers ≤ s.notationSigs.length then dropped
      else { s with notationSigs := s.notationSigs ++ [desc] }
    | .baseline =>
      if maxBaselineReferrers ≤ s.baselines.length then dropped
      else { s with baselines := s.baselines ++ [desc] }
    | .ignored => s

/-- The descriptors of a listing without repeated digests. -/
def distinctManifests : List Descriptor → (seen : List String) → List Descriptor
  | [], _ => []
  | desc :: rest, seen =>
    if desc.digest ∈ seen then distinctManifests rest seen
    else desc :: distinctManifests rest (desc.digest :: seen)

/-- Generic candidates get the budget that is left after the exact matches. -/
def selectReferrers (manifests : List Descriptor) : ReferrerSelection :=
  let distinct := distinctManifests manifests []
  let generic := distinct.filter fun desc => classifyReferrer desc = .genericBundle
  let exact_ := distinct.filter fun desc => classifyReferrer desc ≠ .genericBundle
  let selection := exact_.foldl (fun s desc => s.add (classifyReferrer desc) desc) ⟨[], [], [], 0⟩
  generic.foldl (fun s desc => s.add .genericBundle desc) selection

/-- How a context ended. -/
inductive CtxErr where
  | canceled
  | deadlineExceeded
deriving DecidableEq, Repr

def CtxErr.error : CtxErr → GoError
  | .canceled => GoError.new .contextCanceled "context canceled"
  | .deadlineExceeded => GoError.new .contextDeadlineExceeded "context deadline exceeded"

theorem CtxErr.notVerification (e : CtxErr) : NotVerification e.error := by
  cases e <;> rfl

/-- What the registry and the verifier answer for one referrer. -/
structure Candidate where
  image : Except RegistryFailure Image
  verify : List UInt8 → Except ForeignError VerifiedBundle

def attestationFromVerified (lib : FetchLibrary) (verified : VerifiedBundle)
    (bundle : List UInt8) (digest : String) : Option VerifiedAttestation :=
  let predicateType :=
    if verified.predicateType = "" then lib.extractPredicateType verified.payload
    else verified.predicateType
  if predicateType = "" then none
  else
    let payload : Option (List UInt8) :=
      if predicateType = predicateBaselineSBOM then
        lib.baselineSBOMDocument verified.payload digest
      else some verified.payload
    payload.map fun payload =>
      { predicateType := predicateType, payload := payload, digest := digest
        signatureType := .sigstore, signer := verified.signer, bundle := bundle
        notationMediaType := "", notationSubjectDigest := "", notationSubjectSize := 0
        notationSubjectMediaType := "" }

def notationAttestation (manifest : Manifest) (envelope : List UInt8) (digest : String) :
    VerifiedAttestation where
  predicateType := notationSignatureMediaType
  payload := envelope
  digest := digest
  signatureType := .notationSig
  signer := ⟨"", [], "", ""⟩
  bundle := []
  notationMediaType := (manifest.layers.head?.map fun layer => layer.mediaType).getD ""
  notationSubjectDigest := (manifest.subject.map fun subject => subject.digest).getD ""
  notationSubjectSize := (manifest.subject.map fun subject => subject.size).getD 0
  notationSubjectMediaType := (manifest.subject.map fun subject => subject.mediaType).getD ""

/-- How the fetch of one referrer ended, and what was left open by it. -/
structure Fetched where
  att : Option VerifiedAttestation
  outcome : ReferrerOutcome
  err : Option GoError
  unanswered : List Unanswered

/-- The payload of the attestation that a fetch ended with. -/
def Fetched.size (f : Fetched) : Nat := (f.att.map fun att => att.payload.length).getD 0

/-- Whatever was left open shows in the outcome, and the outcome does not pretend. -/
structure Fetched.Honest (f : Fetched) : Prop where
  reports : ∀ u ∈ f.unanswered, f.outcome.Reports f.err u
  plain : ∀ err, f.err = some err → NotVerification err
  backed : f.outcome.lacking = true → f.unanswered ≠ []

/-- A referrer whose image or layer could not be read. -/
def Fetched.failed (err : GoError) (truncated : Bool) : Fetched :=
  ⟨none, classifyReferrerError err, some err, referrerUnanswered err truncated⟩

/-- A bundle that could not be decided. -/
def Fetched.undecided (err : GoError) : Fetched :=
  ⟨none, trustMaterialOutcome err, some err, [.undecided err]⟩

def Fetched.rejected : Fetched := ⟨none, .verifyFailed, none, []⟩

/-- `verifyBundleCommon`: the context is checked before anything else. -/
def verifyBundleCommon (ctx : Option CtxErr) (answer : Except ForeignError VerifiedBundle) :
    Except GoError VerifiedBundle :=
  match ctx with
  | some e => .error (wrapOne "context canceled before bundle verification" e.error)
  | none =>
    match answer with
    | .error err => .error err.val
    | .ok verified => .ok verified

/-- Why the context of a collection ended: with the context of the pass, or because
the attestations are too large together. -/
inductive GroupEnd where
  | parent (e : CtxErr)
  | aggregateSize
deriving DecidableEq, Repr

def GroupEnd.ctxErr : GroupEnd → CtxErr
  | .parent e => e
  | .aggregateSize => .canceled

/-- The verification of a downloaded bundle. -/
def verifyReferrer (lib : FetchLibrary) (digest : String) (ended : Option GroupEnd)
    (cand : Candidate) (data : List UInt8) : Fetched :=
  match verifyBundleCommon (ended.map GroupEnd.ctxErr) (cand.verify data) with
  | .error err =>
    if err.is .errTrustMaterialUnavailable then .undecided err
    else
      { Fetched.rejected with
        unanswered := match ended with
          | some (.parent _) => [.cutOff]
          | _ => [] }
  | .ok verified =>
    match attestationFromVerified lib verified data digest with
    | none => .rejected
    | some att => ⟨some att, .verified, none, []⟩

inductive CollectorKind where
  | bundles
  | notationSigs
  | baselines
deriving DecidableEq, Repr

/-- A referrer whose layer is to be downloaded. -/
inductive Opened where
  | bundle (layer : Layer)
  | notationSig (manifest : Manifest) (layer : Layer)

/-- The first layer of a referrer image, unless it is refused. -/
def openFirstLayer (cfg : FetcherConfig) (used : Int) (img : Image) : Except Fetched Layer :=
  match firstLayer img with
  | .error err => .error (.failed err false)
  | .ok layer =>
    match refuseLayer cfg used layer with
    | some err => .error (.failed err false)
    | none => .ok layer

/-- The bytes that the registry serves for a referrer, if they can be read. -/
def Candidate.content (lib : FetchLibrary) (cfg : FetcherConfig) (cand : Candidate) :
    Option (List UInt8) :=
  match cand.image with
  | .error _ => none
  | .ok img =>
    match firstLayer img with
    | .error _ => none
    | .ok layer => layer.content lib cfg

/-- `processDescriptor` and `fetchNotationSignature` up to the download of the layer:
the end of the fetch, or the opened layer. -/
def openReferrer (cfg : FetcherConfig) (kind : CollectorKind) (used : Int) (cand : Candidate) :
    Except Fetched Opened :=
  match cand.image with
  | .error failure => .error (.failed failure.err.val failure.truncated)
  | .ok img =>
    match kind with
    | .bundles | .baselines => (openFirstLayer cfg used img).map Opened.bundle
    | .notationSigs =>
      match img.manifest with
      | .error err => .error (.failed err.val false)
      | .ok none => .error .rejected
      | .ok (some manifest) =>
        (openFirstLayer cfg used img).map (Opened.notationSig manifest)

def Opened.layer : Opened → Layer
  | .bundle layer | .notationSig _ layer => layer

/-- The download of an opened layer: the end of the fetch, or the bundle to verify. -/
def downloadReferrer (lib : FetchLibrary) (cfg : FetcherConfig) (digest : String) (used : Int)
    (opened : Opened) : Int × Except Fetched (List UInt8) :=
  match downloadLayer lib cfg used opened.layer with
  | (used, .error err) =>
    (used, .error (.failed err (opened.layer.truncated cfg.maxAttestationSize)))
  | (used, .ok data) =>
    match opened with
    | .bundle _ => (used, .ok data)
    | .notationSig manifest _ =>
      (used, .error ⟨some (notationAttestation manifest data digest), .unverified, none, []⟩)

variable {err : GoError}

theorem Fetched.honest_failed (h : NotVerification err) (truncated : Bool) :
    (Fetched.failed err truncated).Honest := by
  refine ⟨fun u hu => classifyReferrerError_reports hu, ?_, classifyReferrerError_lacking truncated⟩
  rintro _ ⟨⟩
  exact h

variable {f : Fetched}

/-- A fetch that left nothing open and lacks nothing. -/
theorem Fetched.honest_of_answered (hlog : f.unanswered = []) (herr : f.err = none)
    (houtcome : f.outcome.lacking = false) : f.Honest := by
  refine ⟨?_, ?_, ?_⟩
  · intro u hu
    rw [hlog] at hu
    cases hu
  · intro err h
    rw [herr] at h
    cases h
  · intro h
    rw [houtcome] at h
    cases h

theorem Fetched.honest_rejected : Fetched.rejected.Honest :=
  honest_of_answered rfl rfl rfl

variable {cfg : FetcherConfig} {img : Image} {used : Int}

theorem openFirstLayer_error (h : openFirstLayer cfg used img = .error f) :
    ∃ err, NotVerification err ∧ f = .failed err false := by
  unfold openFirstLayer at h
  split at h
  · next err hfirst =>
    cases h
    exact ⟨err, firstLayer_error hfirst, rfl⟩
  · split at h
    · next err hrefused =>
      cases h
      exact ⟨err, refuseLayer_error hrefused, rfl⟩
    · cases h

theorem map_openFirstLayer_error {g : Layer → Opened}
    (h : (openFirstLayer cfg used img).map g = .error f) :
    openFirstLayer cfg used img = .error f := by
  cases hfirst : openFirstLayer cfg used img with
  | error f' =>
    rw [hfirst] at h
    cases h
    rfl
  | ok layer =>
    rw [hfirst] at h
    cases h

theorem map_openFirstLayer_ok {g : Layer → Opened} {opened : Opened}
    (h : (openFirstLayer cfg used img).map g = .ok opened) :
    ∃ layer, firstLayer img = .ok layer ∧ opened = g layer := by
  unfold openFirstLayer at h
  split at h
  · cases h
  · next layer hfirst =>
    split at h
    · cases h
    · cases h
      exact ⟨layer, hfirst, rfl⟩

variable {kind : CollectorKind} {cand : Candidate}

/-- A fetch that could not open its layer: the image was not served, or is unusable. -/
theorem openReferrer_error (h : openReferrer cfg kind used cand = .error f) :
    (∃ failure, cand.image = .error failure ∧ f = .failed failure.err.val failure.truncated) ∨
      (∃ img, cand.image = .ok img) ∧
        (f = .rejected ∨ ∃ err, NotVerification err ∧ f = .failed err false) := by
  unfold openReferrer at h
  split at h
  · next failure himage =>
    cases h
    exact .inl ⟨failure, himage, rfl⟩
  · next img himage =>
    refine .inr ⟨⟨img, himage⟩, ?_⟩
    cases kind with
    | bundles | baselines => exact .inr (openFirstLayer_error (map_openFirstLayer_error h))
    | notationSigs =>
      dsimp only at h
      split at h
      · next err _ =>
        cases h
        exact .inr ⟨err.val, err.property, rfl⟩
      · cases h
        exact .inl rfl
      · exact .inr (openFirstLayer_error (map_openFirstLayer_error h))

theorem openReferrer_honest (h : openReferrer cfg kind used cand = .error f) : f.Honest := by
  rcases openReferrer_error h with ⟨failure, -, rfl⟩ | ⟨-, rfl | ⟨err, hplain, rfl⟩⟩
  · exact Fetched.honest_failed failure.err.property _
  · exact Fetched.honest_rejected
  · exact Fetched.honest_failed hplain false

/-- The end of a fetch that could not open its layer leaves something open that is
recorded like a failed verification exactly when the response was cut short. -/
theorem openReferrer_overlooked (h : openReferrer cfg kind used cand = .error f) :
    (∀ u ∈ f.unanswered, u.overlooked = false) ↔
      ∀ failure, cand.image = .error failure → failure.cutShort = false := by
  rcases openReferrer_error h with ⟨failure, himage, rfl⟩ | ⟨⟨img, himage⟩, hf⟩
  · rw [himage]
    refine (referrerUnanswered_overlooked _ _).trans ⟨?_, fun hall => hall failure rfl⟩
    rintro hcomplete _ ⟨⟩
    exact hcomplete
  · refine iff_of_true ?_ (by simp [himage])
    rcases hf with rfl | ⟨err, -, rfl⟩
    · simp [Fetched.rejected]
    · exact (referrerUnanswered_overlooked _ false).mpr rfl

variable {lib : FetchLibrary} {digest : String} {opened : Opened}

/-- A download that fails, or the envelope of a Notation signature. -/
theorem downloadReferrer_error (h : (downloadReferrer lib cfg digest used opened).2 = .error f) :
    (∃ err, (downloadLayer lib cfg used opened.layer).2 = .error err ∧
      f = .failed err (opened.layer.truncated cfg.maxAttestationSize)) ∨
    ∃ envelope manifest layer, opened = .notationSig manifest layer ∧
      (downloadLayer lib cfg used opened.layer).2 = .ok envelope ∧
      f = ⟨some (notationAttestation manifest envelope digest), .unverified, none, []⟩ := by
  unfold downloadReferrer at h
  split at h
  · next hread =>
    cases h
    exact .inl ⟨_, congrArg Prod.snd hread, rfl⟩
  · next hread =>
    cases opened with
    | bundle layer => cases h
    | notationSig manifest layer =>
      cases h
      exact .inr ⟨_, manifest, layer, rfl, congrArg Prod.snd hread, rfl⟩

theorem downloadReferrer_honest
    (h : (downloadReferrer lib cfg digest used opened).2 = .error f) : f.Honest := by
  rcases downloadReferrer_error h with ⟨err, hread, rfl⟩ | ⟨_, _, _, _, _, rfl⟩
  · exact Fetched.honest_failed (downloadLayer_error hread) _
  · exact Fetched.honest_of_answered rfl rfl rfl

theorem downloadReferrer_ok {data : List UInt8}
    (h : (downloadReferrer lib cfg digest used opened).2 = .ok data) :
    ∃ layer, opened = .bundle layer ∧ (downloadLayer lib cfg used layer).2 = .ok data := by
  unfold downloadReferrer at h
  split at h
  · cases h
  · next hread =>
    cases opened with
    | bundle layer =>
      cases h
      exact ⟨layer, rfl, congrArg Prod.snd hread⟩
    | notationSig manifest layer => cases h

/-- The end of a download leaves something open that is recorded like a failed
verification exactly when the response was cut short. -/
theorem downloadReferrer_overlooked
    (h : (downloadReferrer lib cfg digest used opened).2 = .error f) :
    (∀ u ∈ f.unanswered, u.overlooked = false) ↔ opened.layer.cutShort cfg = false := by
  rcases downloadReferrer_error h with ⟨err, hread, rfl⟩ | ⟨_, _, _, _, hread, rfl⟩
  · refine (referrerUnanswered_overlooked _ _).trans ?_
    rw [Layer.cutShort_of_error hread]
  · rw [Layer.cutShort_of_ok hread]
    simp

theorem Fetched.honest_undecided (h : NotVerification err) : (Fetched.undecided err).Honest := by
  refine ⟨?_, ?_, by simp [Fetched.undecided]⟩
  · intro u hu
    cases List.mem_singleton.mp hu
    refine .inr (.inr ⟨rfl, ?_, rfl⟩)
    simp only [Fetched.undecided, trustMaterialOutcome]
    split
    · exact .inr rfl
    · exact .inl rfl
  · rintro _ ⟨⟩
    exact h

theorem verifyBundleCommon_error {ctx : Option CtxErr} {answer : Except ForeignError VerifiedBundle}
    (h : verifyBundleCommon ctx answer = .error err) : NotVerification err := by
  unfold verifyBundleCommon at h
  split at h
  · next e =>
    cases h
    exact e.notVerification.wrapOne _
  · split at h
    · next e =>
      cases h
      exact e.property
    · cases h

theorem verifyReferrer_honest (lib : FetchLibrary) (digest : String) (ended : Option GroupEnd)
    (cand : Candidate) (data : List UInt8) :
    (verifyReferrer lib digest ended cand data).Honest := by
  unfold verifyReferrer
  split
  · next err herr =>
    split
    · exact Fetched.honest_undecided (verifyBundleCommon_error herr)
    · refine ⟨?_, ?_, ?_⟩
      · intro u hu
        split at hu
        · cases List.mem_singleton.mp hu
          exact .inr (.inl ⟨rfl, rfl⟩)
        · cases hu
      · rintro _ ⟨⟩
      · rintro ⟨⟩
  · split
    · exact Fetched.honest_rejected
    · exact Fetched.honest_of_answered rfl rfl rfl

/-- A verification is cut off exactly when the context of the pass ended before. -/
theorem verifyReferrer_overlooked (lib : FetchLibrary) (digest : String)
    (ended : Option GroupEnd) (cand : Candidate) (data : List UInt8) :
    (∀ u ∈ (verifyReferrer lib digest ended cand data).unanswered, u.overlooked = false) ↔
      ∀ e, ended ≠ some (.parent e) := by
  cases ended with
  | none =>
    refine iff_of_true ?_ (by simp)
    intro u hu
    unfold verifyReferrer at hu
    split at hu
    · split at hu
      · cases List.mem_singleton.mp hu
        rfl
      · cases hu
    · split at hu <;> cases hu
  | some groupEnd =>
    cases groupEnd with
    | aggregateSize =>
      refine iff_of_true ?_ (by simp)
      intro u hu
      cases hu
    | parent e =>
      refine iff_of_false ?_ (by simp)
      intro hall
      have hcut : (verifyReferrer lib digest (some (.parent e)) cand data).unanswered =
          [.cutOff] := by
        cases e <;> rfl
      exact absurd (hall .cutOff (by rw [hcut]; simp)) (by decide)

end NriSupplyChain.Attestation
