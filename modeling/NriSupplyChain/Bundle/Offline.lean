import NriSupplyChain.Attestation.CosignTag

/-!
Fetching from an offline bundle: the attestations stored for an image are verified one after
the other, and their outcomes are put together into the answer of the fetch.
-/

namespace NriSupplyChain.Bundle

open NriSupplyChain.Types Attestation

structure StoredAttestation where
  predicateType : String
  bundleBytes : List UInt8
  digest : String
  signatureType : String
deriving DecidableEq, Repr

def signatureTypeSigstore : String := "sigstore"

def errMissingPredicateType : GoError := ⟨"verified statement has no predicate type", []⟩

def errVerifyingBaseline : GoError := ⟨"verifying baseline SBOM", []⟩

/-- Why a stored attestation is skipped. A signature of another type is no failed
verification. -/
inductive StoredFailure where
  | unsupportedSignatureType
  | failed (err : GoError)

/-- `verify` finds its context, and the answer of the verifier. -/
def verifyStoredAttestation (lib : FetchLibrary)
    (verify : List UInt8 → Option CtxErr × Except ForeignError VerifiedBundle)
    (stored : StoredAttestation) : Except StoredFailure VerifiedAttestation :=
  if stored.signatureType ≠ "" ∧ stored.signatureType ≠ signatureTypeSigstore then
    .error .unsupportedSignatureType
  else
    match verifyBundleCommon (verify stored.bundleBytes).1 (verify stored.bundleBytes).2 with
    | .error err => .error (.failed err)
    | .ok verified =>
      if verified.predicateType = "" then .error (.failed errMissingPredicateType)
      else
        let payload : Option (List UInt8) :=
          if verified.predicateType = predicateBaselineSBOM then
            lib.baselineSBOMDocument verified.payload stored.digest
          else some verified.payload
        match payload with
        | none => .error (.failed errVerifyingBaseline)
        | some payload => .ok
            { predicateType := verified.predicateType, payload := payload
              digest := stored.digest, signatureType := .sigstore, signer := verified.signer
              bundle := stored.bundleBytes, notationMediaType := ""
              notationSubjectDigest := "", notationSubjectSize := 0
              notationSubjectMediaType := "" }

def allFailedError (failures : Nat) : GoError :=
  GoError.errorf (errVerificationFailed.text ++ ": all " ++ toString failures ++
    " bundled attestations failed verification " ++
    "(bundles created by older releases must be recreated)") [errVerificationFailed]

/-- An unreadable key file wins over failed verifications when nothing verified. -/
def storedVerificationResult (result : List VerifiedAttestation) (failures : Nat)
    (keyErr : Option GoError) : FetchAnswer :=
  if 0 < result.length then ⟨result, none⟩
  else
    match keyErr with
    | some err => ⟨[], some err⟩
    | none => if 0 < failures then ⟨[], some (allFailedError failures)⟩ else ⟨result, none⟩

/-- The loop of `verifyStoredAttestations` from attestation `idx` on. -/
def verifyStoredAttestationsFrom (lib : FetchLibrary) (answers : Nat → LayerAnswers) :
    (idx : Nat) → List StoredAttestation → (result : List VerifiedAttestation) →
      (failures : Nat) → (keyErr : Option GoError) → FetchAnswer
  | _, [], result, failures, keyErr => storedVerificationResult result failures keyErr
  | idx, stored :: rest, result, failures, keyErr =>
    match (answers idx).ctx with
    | some e => ⟨[], some (wrapOne "context canceled during bundle verification" e.error)⟩
    | none =>
      match verifyStoredAttestation lib (answers idx).verify stored with
      | .ok att =>
        verifyStoredAttestationsFrom lib answers (idx + 1) rest (result ++ [att]) failures
          keyErr
      | .error .unsupportedSignatureType =>
        verifyStoredAttestationsFrom lib answers (idx + 1) rest result failures keyErr
      | .error (.failed err) =>
        if err.is .errTrustedKeyUnavailable then
          verifyStoredAttestationsFrom lib answers (idx + 1) rest result failures
            (keyErr.or (some err))
        else if err.is .errTrustMaterialUnavailable then ⟨[], some err⟩
        else
          verifyStoredAttestationsFrom lib answers (idx + 1) rest result (failures + 1)
            keyErr

def verifyStoredAttestations (lib : FetchLibrary) (answers : Nat → LayerAnswers)
    (stored : List StoredAttestation) : FetchAnswer :=
  verifyStoredAttestationsFrom lib answers 0 stored [] 0 none

/-- Why the store does not list the attestations of an image. -/
inductive StoreError where
  | integrity (err : GoError)
  | other (err : GoError)

/-- The bundle as a fetch finds it: whether it was released, the errors of its age and of its
signature, and the stored attestations of a digest. -/
structure OpenBundle where
  closed : Bool
  stalenessErr : Option GoError
  signatureErr : Option GoError
  attestationsFor : String → Except StoreError (List StoredAttestation)

def denyIncomplete (err : GoError) : GoError :=
  wrapAll [errVerificationFailed, errIncompleteAttestationSet, err]

def errFetchOptionsRequired : GoError := ⟨"fetch options must not be nil", []⟩

def errDigestRequired : GoError := ⟨"digest is required in fetch options", []⟩

def errFetcherClosed : GoError := ⟨"bundle fetcher is closed", []⟩

def fetch (lib : FetchLibrary) (bundle : OpenBundle) (opts : Option FetchOptions)
    (answers : Nat → LayerAnswers) : FetchAnswer :=
  match opts with
  | none => ⟨[], some errFetchOptionsRequired⟩
  | some opts =>
    if opts.digest = "" then ⟨[], some errDigestRequired⟩
    else if bundle.closed then ⟨[], some errFetcherClosed⟩
    else
      match bundle.stalenessErr, bundle.signatureErr with
      | some err, _ => ⟨[], some (denyIncomplete err)⟩
      | none, some err => ⟨[], some err⟩
      | none, none =>
        match bundle.attestationsFor opts.digest with
        | .error (.integrity err) => ⟨[], some (denyIncomplete err)⟩
        | .error (.other err) => ⟨[], some err⟩
        | .ok stored => verifyStoredAttestations lib answers stored

/-- The verification of bundles. A key that cannot be loaded is missing trust material, and a
statement without a predicate type is never verified. -/
structure BundleVerifier where
  verify : List UInt8 → Except ForeignError VerifiedBundle
  key_material : ∀ data err, verify data = .error err →
    err.val.is .errTrustedKeyUnavailable = true → err.val.is .errTrustMaterialUnavailable = true
  predicate : ∀ data verified, verify data = .ok verified → verified.predicateType ≠ ""

/-- Answers while nothing interrupts the fetch. -/
def BundleVerifier.answers (v : BundleVerifier) : Nat → LayerAnswers :=
  fun _ => ⟨none, fun data => (none, v.verify data)⟩

/-- What the verification of a bundle comes to. -/
inductive Judgement where
  | verified (att : VerifiedAttestation)
  | rejected
  | keyUnavailable (err : GoError)
  | rootUnavailable (err : GoError)

def judge (lib : FetchLibrary) (digest : String) (v : BundleVerifier) (data : List UInt8) :
    Judgement :=
  match v.verify data with
  | .error err =>
    if err.val.is .errTrustedKeyUnavailable then .keyUnavailable err.val
    else if err.val.is .errTrustMaterialUnavailable then .rootUnavailable err.val
    else .rejected
  | .ok verified =>
    match attestationFromVerified lib verified data digest with
    | none => .rejected
    | some att => .verified att

section Judged

variable {lib : FetchLibrary} {digest : String} {v : BundleVerifier}

theorem judge_keyUnavailable {data : List UInt8} {err : GoError}
    (h : judge lib digest v data = .keyUnavailable err) :
    err.is .errTrustedKeyUnavailable = true ∧ NotVerification err := by
  unfold judge at h
  split at h
  · next e _ =>
    split at h
    · next hkey =>
      cases h
      exact ⟨hkey, e.property⟩
    · split at h <;> cases h
  · split at h <;> cases h

theorem judge_rootUnavailable {data : List UInt8} {err : GoError}
    (h : judge lib digest v data = .rootUnavailable err) :
    err.is .errTrustedKeyUnavailable = false ∧ err.is .errTrustMaterialUnavailable = true ∧
      NotVerification err := by
  unfold judge at h
  split at h
  · next e _ =>
    split at h
    · cases h
    · next hkey =>
      split at h
      · next hroot =>
        cases h
        exact ⟨Bool.eq_false_of_not_eq_true hkey, hroot, e.property⟩
      · cases h
  · split at h <;> cases h

/-- A stored attestation with a supported signature type and the digest of the image. -/
structure StoredAttestation.Holds (stored : StoredAttestation) (digest : String) : Prop where
  signature : stored.signatureType = "" ∨ stored.signatureType = signatureTypeSigstore
  bound : stored.digest = digest

/-- What becomes of a stored attestation is what is judged of its bundle. -/
theorem verifyStoredAttestation_eq {stored : StoredAttestation} (hstored : stored.Holds digest) :
    match judge lib digest v stored.bundleBytes with
    | .verified att => verifyStoredAttestation lib (v.answers 0).verify stored = .ok att
    | .keyUnavailable err | .rootUnavailable err =>
      verifyStoredAttestation lib (v.answers 0).verify stored = .error (.failed err)
    | .rejected => ∃ err, err.is .errTrustedKeyUnavailable = false ∧
        err.is .errTrustMaterialUnavailable = false ∧
        verifyStoredAttestation lib (v.answers 0).verify stored = .error (.failed err) := by
  have hsupported : ¬(stored.signatureType ≠ "" ∧
      stored.signatureType ≠ signatureTypeSigstore) := by
    rintro ⟨hunset, hother⟩
    exact hstored.signature.elim hunset hother
  unfold verifyStoredAttestation judge
  rw [if_neg hsupported]
  simp only [BundleVerifier.answers, verifyBundleCommon]
  cases hverify : v.verify stored.bundleBytes with
  | error err =>
    cases hkey : err.val.is .errTrustedKeyUnavailable with
    | true => simp [hkey]
    | false =>
      cases hroot : err.val.is .errTrustMaterialUnavailable with
      | true => simp [hkey, hroot]
      | false => simp [hkey, hroot]
  | ok verified =>
    have hpredicate := v.predicate _ _ hverify
    simp only [attestationFromVerified, if_neg hpredicate, hstored.bound]
    split_ifs with hbaseline
    · cases lib.baselineSBOMDocument verified.payload digest with
      | none => exact ⟨errVerifyingBaseline, rfl, rfl, rfl⟩
      | some payload => rfl
    · rfl

/-- What the loop comes to: an unavailable root ends it; otherwise the verified attestations,
the number of rejected ones and the first unavailable key decide. -/
inductive LoopOutcome (lib : FetchLibrary) (digest : String) (v : BundleVerifier)
    (stored : List StoredAttestation) (result : List VerifiedAttestation) (failures : Nat)
    (keyErr : Option GoError) (answer : FetchAnswer) : Prop where
  | unavailable (s : StoredAttestation) (hs : s ∈ stored) (err : GoError)
      (hroot : judge lib digest v s.bundleBytes = .rootUnavailable err)
      (hanswer : answer = ⟨[], some err⟩)
  | decided (verified : List VerifiedAttestation) (failures' : Nat) (keyErr' : Option GoError)
      (hroot : ∀ s ∈ stored, ∀ err, judge lib digest v s.bundleBytes ≠ .rootUnavailable err)
      (hanswer : answer = storedVerificationResult (result ++ verified) failures' keyErr')
      (hverified : ∀ att, att ∈ verified ↔
        ∃ s ∈ stored, judge lib digest v s.bundleBytes = .verified att)
      (hfailures : 0 < failures' ↔
        0 < failures ∨ ∃ s ∈ stored, judge lib digest v s.bundleBytes = .rejected)
      (hkey : ∀ err, keyErr' = some err → keyErr = some err ∨
        ∃ s ∈ stored, judge lib digest v s.bundleBytes = .keyUnavailable err)
      (hnoKey : keyErr' = none → keyErr = none ∧
        ∀ s ∈ stored, ∀ err, judge lib digest v s.bundleBytes ≠ .keyUnavailable err)

theorem loopOutcome {stored : List StoredAttestation} (hstored : ∀ s ∈ stored, s.Holds digest)
    (idx : Nat) (result : List VerifiedAttestation) (failures : Nat) (keyErr : Option GoError) :
    LoopOutcome lib digest v stored result failures keyErr
      (verifyStoredAttestationsFrom lib v.answers idx stored result failures keyErr) := by
  induction stored generalizing idx result failures keyErr with
  | nil =>
    refine .decided [] failures keyErr nofun ?_ ?_ ?_ ?_ ?_
    · rw [List.append_nil]
      rfl
    · simp
    · simp
    · exact fun err herr => .inl herr
    · exact fun hnone => ⟨hnone, nofun⟩
  | cons stored rest ih =>
    have hrest (s : StoredAttestation) (hs : s ∈ rest) := hstored s (List.mem_cons_of_mem _ hs)
    have hverify := @verifyStoredAttestation_eq lib digest v stored
      (hstored stored List.mem_cons_self)
    have hstep : verifyStoredAttestationsFrom lib v.answers idx (stored :: rest) result failures
        keyErr =
      match verifyStoredAttestation lib (v.answers 0).verify stored with
      | .ok att => verifyStoredAttestationsFrom lib v.answers (idx + 1) rest (result ++ [att])
          failures keyErr
      | .error .unsupportedSignatureType =>
        verifyStoredAttestationsFrom lib v.answers (idx + 1) rest result failures keyErr
      | .error (.failed err) =>
        if err.is .errTrustedKeyUnavailable then
          verifyStoredAttestationsFrom lib v.answers (idx + 1) rest result failures
            (keyErr.or (some err))
        else if err.is .errTrustMaterialUnavailable then ⟨[], some err⟩
        else
          verifyStoredAttestationsFrom lib v.answers (idx + 1) rest result (failures + 1)
            keyErr := rfl
    rw [hstep]
    cases hjudge : judge lib digest v stored.bundleBytes with
    | verified att =>
      rw [hjudge] at hverify
      rw [hverify]
      cases ih hrest (idx + 1) (result ++ [att]) failures keyErr with
      | unavailable s hs err hroot hanswer =>
        exact .unavailable s (List.mem_cons_of_mem _ hs) err hroot hanswer
      | decided verified failures' keyErr' hroot hanswer hverified hfailures hkey hnoKey =>
        refine .decided (att :: verified) failures' keyErr' ?_ ?_ ?_ ?_ ?_ ?_ <;> grind
    | rejected =>
      rw [hjudge] at hverify
      obtain ⟨err, hkeyErr, hmaterial, hverify⟩ := hverify
      rw [hverify]
      simp only [hkeyErr, hmaterial, Bool.false_eq_true, if_false]
      cases ih hrest (idx + 1) result (failures + 1) keyErr with
      | unavailable s hs err hroot hanswer =>
        exact .unavailable s (List.mem_cons_of_mem _ hs) err hroot hanswer
      | decided verified failures' keyErr' hroot hanswer hverified hfailures hkey hnoKey =>
        refine .decided verified failures' keyErr' ?_ hanswer ?_ ?_ ?_ ?_ <;> grind
    | keyUnavailable err =>
      rw [hjudge] at hverify
      rw [hverify]
      have hkeyErr := (judge_keyUnavailable hjudge).1
      simp only [hkeyErr, if_true]
      cases ih hrest (idx + 1) result failures (keyErr.or (some err)) with
      | unavailable s hs err hroot hanswer =>
        exact .unavailable s (List.mem_cons_of_mem _ hs) err hroot hanswer
      | decided verified failures' keyErr' hroot hanswer hverified hfailures hkey hnoKey =>
        refine .decided verified failures' keyErr' ?_ hanswer ?_ ?_ ?_ ?_ <;>
          grind [Option.or_eq_some_iff, Option.or_eq_none_iff]
    | rootUnavailable err =>
      rw [hjudge] at hverify
      rw [hverify]
      obtain ⟨hkeyErr, hmaterial, -⟩ := judge_rootUnavailable hjudge
      simp only [hkeyErr, hmaterial, Bool.false_eq_true, if_false, if_true]
      exact .unavailable stored List.mem_cons_self err hjudge rfl

end Judged

end NriSupplyChain.Bundle
