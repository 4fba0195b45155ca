import NriSupplyChain.Attestation.Verify

/-!
What the order of the trusted roots and the roots that could not be loaded mean for a
bundle. A certificate is tried with every root. A public key is not: the first root that
verifies the bundle decides, also when the verified signature cannot be attributed to a
configured key, and the roots behind it are never tried.
-/

namespace NriSupplyChain.Attestation

open NriSupplyChain.Types

section properties

variable {Bundle ArtifactPolicy Root Key : Type} (lib : Sigstore Bundle ArtifactPolicy Root)
  (files : KeyFiles Key) (now : Int) (bndl : Bundle) (opts : FetchOptions) (art : ArtifactPolicy)
  (sources : List (RootSource Root))

def RootSource.Unavailable (src : RootSource Root) : Prop :=
  ∃ err, src.get = .error err

/-- A root is in scope for a certificate when it may vouch for an issuer of the policy.
Public keys have no scope. -/
def InScope (content : VerificationContent) (src : RootSource Root) : Prop :=
  content = .certificate → ∃ issuers, rootIssuers opts src = .ok issuers

/-- The roots are tried: the keys load, the identities are valid and required log entries
are there. -/
def RootsTried : VerificationContent → Prop
  | .certificate =>
    opts.trustedIssuers ≠ [] ∧
      (∃ entries, lib.tlogEntries bndl = .ok entries ∧
        (opts.requireTransparencyLog = true → entries ≠ 0)) ∧
      ∀ src ∈ sources, ∀ issuers, rootIssuers opts src = .ok issuers →
        ∃ certID, buildCertificateIdentity lib issuers opts.sanPatterns = .ok certID
  | .publicKey _ =>
    opts.requireTransparencyLog = true ∧
      ∃ keys, buildKeyMaterial files opts.trustedKeys = (some keys, none)
  | .neither => False

/-- Acceptance does not depend on the order of the roots, a certificate is accepted
through a root in scope for its issuer, and a rejection reports unavailable trust material
exactly when a root in scope could not be loaded. -/
structure Fair : Prop where
  ordered : ∀ sources', sources'.Perm sources →
    (verifySigner lib files now bndl opts art sources').isOk =
      (verifySigner lib files now bndl opts art sources).isOk
  vouched : lib.verificationContent bndl = .ok .certificate → ∀ signer,
    verifySigner lib files now bndl opts art sources = .ok signer →
    ∃ src ∈ sources, ¬src.Unavailable ∧ signer.issuer ∈ opts.trustedIssuers ∧
      src.Vouches signer.issuer ∧
      ∃ hasTlog, verifyKeylessWithRoot lib bndl opts art src hasTlog = .ok signer
  unavailable : ∀ content err, lib.verificationContent bndl = .ok content →
    RootsTried lib files bndl opts sources content →
    verifySigner lib files now bndl opts art sources = .error err →
    (err.is .errTrustMaterialUnavailable = true ↔
      ∃ src ∈ sources, InScope opts content src ∧ src.Unavailable)

/-- What the library says about a bundle with a public key and one root. -/
def keyResult (keys : TrustedKeys) (src : RootSource Root) : Option VerificationResult :=
  match src.get with
  | .error _ => none
  | .ok trustedRoot =>
    match runVerifier lib bndl ⟨some keys, some trustedRoot⟩ art .key
        [.transparencyLog 1, .observerTimestamps 1] with
    | .error _ => none
    | .ok result => some result.toVerificationResult

/-- The root verifies the bundle, with a configured key that is valid at every verified
time. -/
def Attributed (keys : TrustedKeys) (src : RootSource Root) : Prop :=
  ∃ result signer, keyResult lib bndl art keys src = some result ∧
    signerFromResult keys now result = .ok signer

/-- The root verifies the bundle, but no configured key is valid at every verified time. -/
def Unattributed (keys : TrustedKeys) (src : RootSource Root) : Prop :=
  ∃ result err, keyResult lib bndl art keys src = some result ∧
    signerFromResult keys now result = .error err

/-- When a root verifies a bundle that is signed with a key and required to be logged, but
its signer cannot be attributed, then no other root would attribute it and, if all keys
were loaded, all roots were as well. -/
def Decisive : Prop :=
  ∀ hint keys loadErr, lib.verificationContent bndl = .ok (.publicKey hint) →
    opts.requireTransparencyLog = true →
    buildKeyMaterial files opts.trustedKeys = (some keys, loadErr) →
    (∃ src ∈ sources, Unattributed lib now bndl art keys src) →
    (∀ src ∈ sources, ¬Attributed lib now bndl art keys src) ∧
      (loadErr = none → ∀ src ∈ sources, ¬src.Unavailable)

end properties

section lemmas

variable {Bundle ArtifactPolicy Root Key : Type} {lib : Sigstore Bundle ArtifactPolicy Root}
  {files : KeyFiles Key} {now : Int} {bndl : Bundle} {opts : FetchOptions} {art : ArtifactPolicy}

theorem trustedRootError_is (err : GoError) :
    (trustedRootError err).is .errTrustMaterialUnavailable = true := by
  simp [trustedRootError]

theorem record_any (failures : RootFailures) (rootName : String) (err : GoError) :
    (failures.record rootName err).any (fun e => e.is .errTrustMaterialUnavailable) =
      (failures.any (fun e => e.is .errTrustMaterialUnavailable) ||
        err.is .errTrustMaterialUnavailable) := by
  unfold RootFailures.record
  split
  · simp [RootFailures.unavailable]
  · simp [RootFailures.rejected]

theorem record_ne_nil (failures : RootFailures) (rootName : String) (err : GoError) :
    failures.record rootName err ≠ [] := by
  unfold RootFailures.record
  split
  · simp [RootFailures.unavailable]
  · simp [RootFailures.rejected]

theorem join_ne_none {errs : List GoError} (h : errs ≠ []) :
    ∃ err, GoError.join errs = some err := by
  cases errs with
  | nil => exact absurd rfl h
  | cons err rest => exact ⟨_, rfl⟩

variable {keys : TrustedKeys}

theorem signerFromResult_error {result : VerificationResult} {err : GoError}
    (h : signerFromResult keys now result = .error err) :
    err.is .errTrustMaterialUnavailable = false := by
  unfold signerFromResult at h
  split at h
  · cases h
    rfl
  · split at h
    · cases h
      rfl
    · dsimp only at h
      split at h
      · cases h
        rfl
      · cases h

/-- A bundle with a certificate is accepted through the first root that accepts it;
otherwise the failures of all roots are reported. -/
theorem tryKeylessRoots_cases (lib : Sigstore Bundle ArtifactPolicy Root) (bndl : Bundle)
    (opts : FetchOptions) (art : ArtifactPolicy) (hasTlog : Bool)
    (sources : List (RootSource Root)) (failures : RootFailures) :
    (∃ src ∈ sources, ∃ signer, verifyKeylessWithRoot lib bndl opts art src hasTlog = .ok signer ∧
      tryKeylessRoots lib bndl opts art hasTlog sources failures = .ok signer) ∨
    (∀ src ∈ sources, ∃ err, verifyKeylessWithRoot lib bndl opts art src hasTlog = .error err) ∧
      ∃ all : RootFailures, (sources ≠ [] ∨ failures ≠ [] → all ≠ []) ∧
        (all.any (fun e => e.is .errTrustMaterialUnavailable) = true ↔
          failures.any (fun e => e.is .errTrustMaterialUnavailable) = true ∨
            ∃ src ∈ sources, ∃ err,
              verifyKeylessWithRoot lib bndl opts art src hasTlog = .error err ∧
                err.is .errTrustMaterialUnavailable = true) ∧
        tryKeylessRoots lib bndl opts art hasTlog sources failures =
          signerOr (GoError.join all) := by
  induction sources generalizing failures with
  | nil =>
    refine .inr ⟨nofun, failures, ?_, ?_, rfl⟩
    · rintro (hnil | hfailures)
      · exact absurd rfl hnil
      · exact hfailures
    · simp
  | cons src rest ih =>
    cases hsrc : verifyKeylessWithRoot lib bndl opts art src hasTlog with
    | ok signer =>
      refine .inl ⟨src, List.mem_cons_self, signer, hsrc, ?_⟩
      rw [tryKeylessRoots, hsrc]
    | error err =>
      have hstep : tryKeylessRoots lib bndl opts art hasTlog (src :: rest) failures =
          tryKeylessRoots lib bndl opts art hasTlog rest (failures.record src.name err) := by
        rw [tryKeylessRoots, hsrc]
      rw [hstep]
      rcases ih (failures.record src.name err) with
        ⟨other, hother, signer, hok, hrun⟩ | ⟨hall, all, hne, hany, hrun⟩
      · exact .inl ⟨other, List.mem_cons_of_mem src hother, signer, hok, hrun⟩
      · refine .inr ⟨?_, all, fun _ => hne (.inr (record_ne_nil failures src.name err)), ?_, hrun⟩
        · intro other hother
          rcases List.mem_cons.mp hother with rfl | hrest
          · exact ⟨err, hsrc⟩
          · exact hall other hrest
        · rw [hany, record_any, Bool.or_eq_true, or_assoc, List.exists_mem_cons_iff]
          refine or_congr_right (or_congr_left ⟨fun h => ⟨err, hsrc, h⟩, ?_⟩)
          rintro ⟨err', hsrc', h⟩
          obtain rfl := Except.error.inj (hsrc.symm.trans hsrc')
          exact h

variable {src : RootSource Root}

/-- With a valid identity, a root is unavailable for a certificate when it is in scope
and was not loaded. -/
theorem verifyKeylessWithRoot_unavailable {hasTlog : Bool}
    (hvalid : ∀ issuers, rootIssuers opts src = .ok issuers →
      ∃ certID, buildCertificateIdentity lib issuers opts.sanPatterns = .ok certID) :
    (∃ err, verifyKeylessWithRoot lib bndl opts art src hasTlog = .error err ∧
      err.is .errTrustMaterialUnavailable = true) ↔
      InScope opts .certificate src ∧ src.Unavailable := by
  constructor
  · rintro ⟨err, h, hunavailable⟩
    unfold verifyKeylessWithRoot at h
    split at h
    · next hscope =>
      cases h
      cases hunavailable.symm.trans (rootIssuers_error hscope)
    · next issuers hissuers =>
      obtain ⟨certID, hcertID⟩ := hvalid issuers hissuers
      rw [hcertID] at h
      dsimp only at h
      split at h
      · next rootErr hget => exact ⟨fun _ => ⟨issuers, hissuers⟩, rootErr, hget⟩
      · split at h
        · next hrejected =>
          cases h
          cases hunavailable.symm.trans (runVerifier_error hrejected)
        · split at h
          · cases h
            cases hunavailable
          · cases h
  · rintro ⟨hscope, rootErr, hget⟩
    obtain ⟨issuers, hissuers⟩ := hscope rfl
    obtain ⟨certID, hcertID⟩ := hvalid issuers hissuers
    refine ⟨trustedRootError rootErr, ?_, trustedRootError_is rootErr⟩
    unfold verifyKeylessWithRoot
    rw [hissuers]
    dsimp only
    rw [hcertID]
    dsimp only
    rw [hget]

/-- A root that accepts a certificate was loaded. -/
theorem verifyKeylessWithRoot_loaded {hasTlog : Bool} {signer : SignerIdentity}
    (h : verifyKeylessWithRoot lib bndl opts art src hasTlog = .ok signer) : ¬src.Unavailable := by
  rintro ⟨err, hget⟩
  unfold verifyKeylessWithRoot at h
  split at h
  · cases h
  · split at h
    · cases h
    · rw [hget] at h
      cases h

/-- Before any root is tried, the result does not depend on the roots. -/
theorem verifyKeyless_cases (lib : Sigstore Bundle ArtifactPolicy Root) (files : KeyFiles Key)
    (bndl : Bundle) (opts : FetchOptions) (art : ArtifactPolicy) :
    (∀ sources, ∃ err, verifyKeyless lib bndl opts art sources = .error err ∧
      ¬RootsTried lib files bndl opts sources .certificate) ∨
    ∃ hasTlog, ∀ sources, sources ≠ [] →
      verifyKeyless lib bndl opts art sources =
        tryKeylessRoots lib bndl opts art hasTlog sources [] := by
  unfold verifyKeyless RootsTried
  split
  · next hissuers => exact .inl fun sources => ⟨_, rfl, fun h => h.1 hissuers⟩
  · split
    · next err hentries =>
      refine .inl fun sources => ⟨_, rfl, ?_⟩
      rintro ⟨-, ⟨entries, hok, -⟩, -⟩
      cases hentries.symm.trans hok
    · next entries hentries =>
      split
      · next hneeded =>
        refine .inl fun sources => ⟨_, rfl, ?_⟩
        rintro ⟨-, ⟨entries', hok, hrequired⟩, -⟩
        obtain rfl := Except.ok.inj (hentries.symm.trans hok)
        obtain ⟨hlog, hzero⟩ := Bool.and_eq_true_iff.mp hneeded
        exact hrequired hlog (eq_of_beq hzero)
      · refine .inr ⟨decide (entries > 0), fun sources hsources => ?_⟩
        rw [if_neg hsources]

theorem keyResult_of_unavailable {err : GoError} (hget : src.get = .error err) :
    keyResult lib bndl art keys src = none := by
  unfold keyResult
  rw [hget]

/-- The first root that verifies a bundle with a public key decides; if there is none, the
failures of all roots are reported. -/
def KeyOutcome (lib : Sigstore Bundle ArtifactPolicy Root) (now : Int) (bndl : Bundle)
    (art : ArtifactPolicy) (keys : TrustedKeys) (loadErr : Option GoError)
    (sources : List (RootSource Root)) (failures : RootFailures)
    (outcome : Except GoError SignerIdentity) : Prop :=
  (∃ src ∈ sources, ∃ result, keyResult lib bndl art keys src = some result ∧
    outcome = signerFromResult keys now result) ∨
  (∀ src ∈ sources, keyResult lib bndl art keys src = none) ∧
    ∃ all : RootFailures, (sources ≠ [] ∨ failures ≠ [] → all ≠ []) ∧
      (all.any (fun e => e.is .errTrustMaterialUnavailable) = true ↔
        failures.any (fun e => e.is .errTrustMaterialUnavailable) = true ∨
          ∃ src ∈ sources, src.Unavailable) ∧
      outcome = signerOr (unloadedKeyError lib keys bndl (GoError.join all) loadErr)

/-- A root that does not verify the bundle adds its failure. -/
theorem KeyOutcome.next {loadErr : Option GoError}
    {rest : List (RootSource Root)} {failures failures' : RootFailures}
    {outcome : Except GoError SignerIdentity} (hnone : keyResult lib bndl art keys src = none)
    (hne : failures' ≠ [])
    (hunavailable : failures'.any (fun e => e.is .errTrustMaterialUnavailable) = true ↔
      failures.any (fun e => e.is .errTrustMaterialUnavailable) = true ∨ src.Unavailable)
    (h : KeyOutcome lib now bndl art keys loadErr rest failures' outcome) :
    KeyOutcome lib now bndl art keys loadErr (src :: rest) failures outcome := by
  rcases h with ⟨other, hother, result, hresult, hrun⟩ | ⟨hall, all, hall', hany, hrun⟩
  · exact .inl ⟨other, List.mem_cons_of_mem src hother, result, hresult, hrun⟩
  · refine .inr ⟨?_, all, fun _ => hall' (.inr hne), ?_, hrun⟩
    · intro other hother
      rcases List.mem_cons.mp hother with rfl | hrest
      · exact hnone
      · exact hall other hrest
    · rw [hany, hunavailable, List.exists_mem_cons_iff, or_assoc]

theorem tryKeyRoots_cases (lib : Sigstore Bundle ArtifactPolicy Root) (now : Int) (bndl : Bundle)
    (art : ArtifactPolicy) (keys : TrustedKeys) (loadErr : Option GoError)
    (sources : List (RootSource Root)) (failures : RootFailures) :
    KeyOutcome lib now bndl art keys loadErr sources failures
      (tryKeyRoots lib keys loadErr now bndl art sources failures) := by
  induction sources generalizing failures with
  | nil =>
    refine .inr ⟨nofun, failures, ?_, ?_, rfl⟩
    · rintro (hnil | hfailures)
      · exact absurd rfl hnil
      · exact hfailures
    · simp
  | cons src rest ih =>
    cases hget : src.get with
    | error rootErr =>
      have hstep : tryKeyRoots lib keys loadErr now bndl art (src :: rest) failures =
          tryKeyRoots lib keys loadErr now bndl art rest
            (failures.unavailable src.name (trustedRootError rootErr)) := by
        rw [tryKeyRoots, hget]
      rw [hstep]
      apply KeyOutcome.next (keyResult_of_unavailable hget) ?_ ?_ (ih _)
      · simp [RootFailures.unavailable]
      · have hthere : src.Unavailable := ⟨rootErr, hget⟩
        simp [RootFailures.unavailable, trustedRootError_is, hthere]
    | ok trustedRoot =>
      cases hverify : runVerifier lib bndl ⟨some keys, some trustedRoot⟩ art .key
          [.transparencyLog 1, .observerTimestamps 1] with
      | error err =>
        have hnone : keyResult lib bndl art keys src = none := by
          rw [keyResult, hget]
          dsimp only
          rw [hverify]
        have hloaded : ¬src.Unavailable := by
          rintro ⟨rootErr, hrootErr⟩
          cases hget.symm.trans hrootErr
        have hstep : tryKeyRoots lib keys loadErr now bndl art (src :: rest) failures =
            tryKeyRoots lib keys loadErr now bndl art rest (failures.rejected err) := by
          rw [tryKeyRoots, hget]
          dsimp only
          rw [hverify]
        rw [hstep]
        apply KeyOutcome.next hnone ?_ ?_ (ih _)
        · simp [RootFailures.rejected]
        · simp [RootFailures.rejected, runVerifier_error hverify, hloaded]
      | ok result =>
        refine .inl ⟨src, List.mem_cons_self, result.toVerificationResult, ?_, ?_⟩
        · rw [keyResult, hget]
          dsimp only
          rw [hverify]
        · rw [tryKeyRoots, hget]
          dsimp only
          rw [hverify]

theorem unloadedKeyError_ne_none (lib : Sigstore Bundle ArtifactPolicy Root) (bndl : Bundle)
    (keys : TrustedKeys) (err : GoError) (loadErr : Option GoError) :
    ∃ err', unloadedKeyError lib keys bndl (some err) loadErr = some err' := by
  cases loadErr with
  | none => exact ⟨err, rfl⟩
  | some loadErr =>
    unfold unloadedKeyError
    dsimp only
    cases namesLoadedKey lib keys bndl with
    | true => exact ⟨err, rfl⟩
    | false => exact ⟨_, rfl⟩

/-- Without a root that verifies it, a bundle with a public key is rejected. -/
theorem tryKeyRoots_rejected (now : Int) (loadErr : Option GoError)
    {sources : List (RootSource Root)} (hsources : sources ≠ [])
    (hnone : ∀ src ∈ sources, keyResult lib bndl art keys src = none) :
    ∃ err, tryKeyRoots lib keys loadErr now bndl art sources [] = .error err := by
  rcases tryKeyRoots_cases lib now bndl art keys loadErr sources [] with
    ⟨src, hsrc, result, hresult, -⟩ | ⟨-, all, hne, -, hrun⟩
  · cases (hnone src hsrc).symm.trans hresult
  · obtain ⟨err, herr⟩ := join_ne_none (hne (.inl hsources))
    obtain ⟨err', herr'⟩ := unloadedKeyError_ne_none lib bndl keys err loadErr
    refine ⟨err', ?_⟩
    rw [hrun, herr, herr']
    rfl

/-- Unless a root verifies the bundle without attributing it while another one does, the
bundle is accepted exactly when some root attributes it. -/
theorem tryKeyRoots_isOk_iff (loadErr : Option GoError)
    {sources : List (RootSource Root)} (hsources : sources ≠ [])
    (hdecisive : (∃ src ∈ sources, Unattributed lib now bndl art keys src) →
      ∀ src ∈ sources, ¬Attributed lib now bndl art keys src) :
    (tryKeyRoots lib keys loadErr now bndl art sources []).isOk = true ↔
      ∃ src ∈ sources, Attributed lib now bndl art keys src := by
  rcases tryKeyRoots_cases lib now bndl art keys loadErr
      sources [] with ⟨src, hsrc, result, hresult, hrun⟩ | ⟨hnone, -⟩
  · rw [hrun]
    cases hsigner : signerFromResult keys now result with
    | ok signer =>
      exact ⟨fun _ => ⟨src, hsrc, result, signer, hresult, hsigner⟩, fun _ => rfl⟩
    | error err =>
      refine ⟨nofun, ?_⟩
      rintro ⟨other, hother, hattributed⟩
      exact absurd hattributed (hdecisive ⟨src, hsrc, result, err, hresult, hsigner⟩ other hother)
  · obtain ⟨err, herr⟩ := tryKeyRoots_rejected now loadErr hsources hnone
    rw [herr]
    refine ⟨nofun, ?_⟩
    rintro ⟨src, hsrc, result, signer, hresult, -⟩
    cases (hnone src hsrc).symm.trans hresult

/-- The first root decides when it verifies the bundle. -/
theorem tryKeyRoots_first {loadErr : Option GoError} {rest : List (RootSource Root)}
    {result : VerificationResult} (h : keyResult lib bndl art keys src = some result) :
    tryKeyRoots lib keys loadErr now bndl art (src :: rest) [] =
      signerFromResult keys now result := by
  unfold keyResult at h
  split at h
  · cases h
  · next trustedRoot hget =>
    split at h
    · cases h
    · next hverify =>
      cases h
      rw [tryKeyRoots, hget]
      dsimp only
      rw [hverify]

end lemmas

section results

variable {Bundle ArtifactPolicy Root Key : Type} {lib : Sigstore Bundle ArtifactPolicy Root}
  {files : KeyFiles Key} {now : Int} {bndl : Bundle} {opts : FetchOptions} {art : ArtifactPolicy}
  {sources : List (RootSource Root)}

/-- A bundle with a certificate is accepted when some root accepts it. -/
theorem tryKeylessRoots_isOk_iff {hasTlog : Bool} (hsources : sources ≠ []) :
    (tryKeylessRoots lib bndl opts art hasTlog sources []).isOk = true ↔
      ∃ src ∈ sources, ∃ signer,
        verifyKeylessWithRoot lib bndl opts art src hasTlog = .ok signer := by
  rcases tryKeylessRoots_cases lib bndl opts art hasTlog
      sources [] with ⟨src, hsrc, signer, hok, hrun⟩ | ⟨hall, all, hne, -, hrun⟩
  · rw [hrun]
    exact ⟨fun _ => ⟨src, hsrc, signer, hok⟩, fun _ => rfl⟩
  · obtain ⟨err, herr⟩ := join_ne_none (hne (.inl hsources))
    rw [hrun, herr]
    refine ⟨nofun, ?_⟩
    rintro ⟨src, hsrc, signer, hok⟩
    obtain ⟨err', herr'⟩ := hall src hsrc
    cases hok.symm.trans herr'

theorem verifyKeyless_ordered (files : KeyFiles Key) {sources' : List (RootSource Root)}
    (hperm : sources'.Perm sources) :
    (verifyKeyless lib bndl opts art sources').isOk =
      (verifyKeyless lib bndl opts art sources).isOk := by
  rcases verifyKeyless_cases lib files bndl opts art with hearly | ⟨hasTlog, htried⟩
  · obtain ⟨err, herr, -⟩ := hearly sources
    obtain ⟨err', herr', -⟩ := hearly sources'
    rw [herr, herr']
    rfl
  · by_cases hsources : sources = []
    · subst hsources
      rw [hperm.eq_nil]
    · have hsources' : sources' ≠ [] := fun h => hsources (h ▸ hperm.symm).eq_nil
      rw [htried sources hsources, htried sources' hsources', Bool.eq_iff_iff,
        tryKeylessRoots_isOk_iff hsources, tryKeylessRoots_isOk_iff hsources']
      simp only [hperm.mem_iff]

theorem verifyKeyless_vouched {signer : SignerIdentity} (files : KeyFiles Key)
    (h : verifyKeyless lib bndl opts art sources = .ok signer) :
    ∃ src ∈ sources, ¬src.Unavailable ∧ signer.issuer ∈ opts.trustedIssuers ∧
      src.Vouches signer.issuer ∧
      ∃ hasTlog, verifyKeylessWithRoot lib bndl opts art src hasTlog = .ok signer := by
  have hsources : sources ≠ [] := by
    rintro rfl
    unfold verifyKeyless at h
    split at h
    · cases h
    · split at h
      · cases h
      · split at h
        · cases h
        · cases h
  rcases verifyKeyless_cases lib files bndl opts art with hearly | ⟨hasTlog, htried⟩
  · obtain ⟨err, herr, -⟩ := hearly sources
    cases herr.symm.trans h
  · rw [htried sources hsources] at h
    rcases tryKeylessRoots_cases lib bndl opts art hasTlog
        sources [] with ⟨src, hsrc, signer', hok, hrun⟩ | ⟨-, all, hne, -, hrun⟩
    · obtain rfl := Except.ok.inj (hrun.symm.trans h)
      obtain ⟨htrusted, hvouches⟩ := verifyKeylessWithRoot_ok hok
      exact ⟨src, hsrc, verifyKeylessWithRoot_loaded hok, htrusted, hvouches, hasTlog, hok⟩
    · obtain ⟨err, herr⟩ := join_ne_none (hne (.inl hsources))
      rw [hrun, herr] at h
      cases h

variable {err : GoError}

theorem verifyKeyless_unavailable (htried : RootsTried lib files bndl opts sources .certificate)
    (h : verifyKeyless lib bndl opts art sources = .error err) :
    err.is .errTrustMaterialUnavailable = true ↔
      ∃ src ∈ sources, InScope opts .certificate src ∧ src.Unavailable := by
  rcases verifyKeyless_cases lib files bndl opts art with hearly | ⟨hasTlog, hrun⟩
  · obtain ⟨_, -, hnot⟩ := hearly sources
    exact absurd htried hnot
  · by_cases hsources : sources = []
    · subst hsources
      unfold verifyKeyless at h
      obtain ⟨hissuers, ⟨entries, hentries, hrequired⟩, -⟩ := htried
      rw [if_neg hissuers, hentries] at h
      dsimp only at h
      split at h
      · cases h
        simp
      · cases h
        simp
    · rw [hrun sources hsources] at h
      rcases tryKeylessRoots_cases lib bndl opts art hasTlog
          sources [] with ⟨src, hsrc, signer, hok, hok'⟩ | ⟨-, all, -, hany, hall⟩
      · cases hok'.symm.trans h
      · have hjoin : errorIs (some err) .errTrustMaterialUnavailable =
            all.any (fun e => e.is .errTrustMaterialUnavailable) := by
          rw [← errorIs_join]
          congr 1
          rw [hall] at h
          cases hj : GoError.join all with
          | none =>
            rw [hj] at h
            cases h
          | some joined =>
            rw [hj] at h
            cases h
            rfl
        rw [← errorIs_some, hjoin, hany]
        simp only [List.any_nil, Bool.false_eq_true, false_or]
        refine exists_congr fun src => and_congr_right fun hsrc => ?_
        exact verifyKeylessWithRoot_unavailable (htried.2.2 src hsrc)

variable {keys : TrustedKeys} {loadErr : Option GoError}

/-- The result for a bundle with a logged public key is that of its loop over the roots. -/
theorem verifyKeyBased_eq (hsources : sources ≠ []) (hlog : opts.requireTransparencyLog = true)
    (hkeys : buildKeyMaterial files opts.trustedKeys = (some keys, loadErr)) :
    verifyKeyBased lib files now bndl opts art sources =
      tryKeyRoots lib keys loadErr now bndl art sources [] := by
  have hconfigured : opts.trustedKeys ≠ [] := by
    intro hnil
    rw [hnil] at hkeys
    cases hkeys
  unfold verifyKeyBased
  rw [if_neg hconfigured, hkeys]
  dsimp only
  rw [hlog, if_neg (by decide), if_neg hsources]

/-- Otherwise the roots do not matter. -/
theorem verifyKeyBased_of_nil_or (sources' : List (RootSource Root))
    (hnil : sources = [] ↔ sources' = [])
    (h : ∀ keys loadErr, opts.requireTransparencyLog = true → sources ≠ [] →
      buildKeyMaterial files opts.trustedKeys ≠ (some keys, loadErr)) :
    verifyKeyBased lib files now bndl opts art sources =
      verifyKeyBased lib files now bndl opts art sources' := by
  unfold verifyKeyBased
  split
  · rfl
  · split
    · rfl
    · next keys loadErr hkeys =>
      cases hlog : opts.requireTransparencyLog with
      | false => rfl
      | true =>
        by_cases hsources : sources = []
        · rw [hsources, hnil.mp hsources]
        · exact absurd hkeys (h keys loadErr hlog hsources)

variable {hint : String}

theorem verifyKeyBased_ordered (hcontent : lib.verificationContent bndl = .ok (.publicKey hint))
    (hdecisive : Decisive lib files now bndl opts art sources) {sources' : List (RootSource Root)}
    (hperm : sources'.Perm sources) :
    (verifyKeyBased lib files now bndl opts art sources').isOk =
      (verifyKeyBased lib files now bndl opts art sources).isOk := by
  have hnil : sources' = [] ↔ sources = [] :=
    ⟨fun h => (h ▸ hperm.symm).eq_nil, fun h => (h ▸ hperm).eq_nil⟩
  by_cases htried : ∃ keys loadErr, opts.requireTransparencyLog = true ∧ sources' ≠ [] ∧
      buildKeyMaterial files opts.trustedKeys = (some keys, loadErr)
  · obtain ⟨keys, loadErr, hlog, hsources', hkeys⟩ := htried
    have hsources : sources ≠ [] := fun h => hsources' (hnil.mpr h)
    have hdecided := hdecisive hint keys loadErr hcontent hlog hkeys
    have hiff := tryKeyRoots_isOk_iff loadErr hsources fun h => (hdecided h).1
    have hiff' : (tryKeyRoots lib keys loadErr now bndl art sources' []).isOk = true ↔
        ∃ src ∈ sources', Attributed lib now bndl art keys src := by
      apply tryKeyRoots_isOk_iff loadErr hsources'
      simp only [hperm.mem_iff]
      exact fun h => (hdecided h).1
    rw [verifyKeyBased_eq hsources hlog hkeys, verifyKeyBased_eq hsources' hlog hkeys,
      Bool.eq_iff_iff, hiff, hiff']
    simp only [hperm.mem_iff]
  · rw [verifyKeyBased_of_nil_or sources hnil]
    intro keys loadErr hlog hsources hkeys
    exact htried ⟨keys, loadErr, hlog, hsources, hkeys⟩

variable {src : RootSource Root}

/-- Once a root has verified the bundle without attributing it, unavailable roots are not
reported. -/
theorem tryKeyRoots_unattributed (hsrc : src ∈ sources)
    (hunattributed : Unattributed lib now bndl art keys src)
    (h : tryKeyRoots lib keys loadErr now bndl art sources [] = .error err) :
    err.is .errTrustMaterialUnavailable = false := by
  rcases tryKeyRoots_cases lib now bndl art keys loadErr
      sources [] with ⟨other, hother, result, -, hrun⟩ | ⟨hnone, -⟩
  · exact signerFromResult_error (hrun.symm.trans h)
  · obtain ⟨result, -, hresult, -⟩ := hunattributed
    cases (hnone src hsrc).symm.trans hresult

theorem tryKeyRoots_unavailable
    (hdecisive : (∃ src ∈ sources, Unattributed lib now bndl art keys src) →
      ∀ src ∈ sources, ¬src.Unavailable)
    (h : tryKeyRoots lib keys none now bndl art sources [] = .error err) :
    err.is .errTrustMaterialUnavailable = true ↔ ∃ src ∈ sources, src.Unavailable := by
  rcases tryKeyRoots_cases lib now bndl art keys none
      sources [] with ⟨src, hsrc, result, hresult, hrun⟩ | ⟨-, all, -, hany, hrun⟩
  · have hunattributed : Unattributed lib now bndl art keys src :=
      ⟨result, err, hresult, hrun.symm.trans h⟩
    rw [tryKeyRoots_unattributed hsrc hunattributed h]
    refine ⟨nofun, ?_⟩
    rintro ⟨other, hother, hunavailable⟩
    exact absurd hunavailable (hdecisive ⟨src, hsrc, hunattributed⟩ other hother)
  · have herr : GoError.join all = some err := by
      rw [hrun] at h
      change signerOr (GoError.join all) = _ at h
      cases hjoin : GoError.join all with
      | none =>
        rw [hjoin] at h
        cases h
      | some joined =>
        rw [hjoin] at h
        cases h
        rfl
    rw [← errorIs_some, ← herr, errorIs_join, hany]
    simp

/-- Two roots that disagree about who signed the bundle make its acceptance depend on
their order. -/
theorem Fair.not_attributed (h : Fair lib files now bndl opts art sources)
    (hcontent : lib.verificationContent bndl = .ok (.publicKey hint))
    (hlog : opts.requireTransparencyLog = true)
    (hkeys : buildKeyMaterial files opts.trustedKeys = (some keys, loadErr)) (hsrc : src ∈ sources)
    (hunattributed : Unattributed lib now bndl art keys src) (other : RootSource Root)
    (hother : other ∈ sources) : ¬Attributed lib now bndl art keys other := by
  rintro ⟨result, signer, hresult, hsigner⟩
  obtain ⟨result', err, hresult', herr⟩ := hunattributed
  -- the same roots with one of them in front
  have hfront : ∀ root ∈ sources, ∃ rest, (root :: rest).Perm sources := by
    intro root hroot
    obtain ⟨before, after, rfl⟩ := List.append_of_mem hroot
    exact ⟨before ++ after, List.perm_middle.symm⟩
  have hverdict : ∀ root rest, verifySigner lib files now bndl opts art (root :: rest) =
      tryKeyRoots lib keys loadErr now bndl art (root :: rest) [] := by
    intro root rest
    rw [verifySigner, hcontent]
    exact verifyKeyBased_eq (List.cons_ne_nil root rest) hlog hkeys
  obtain ⟨rest, hrest⟩ := hfront other hother
  obtain ⟨rest', hrest'⟩ := hfront src hsrc
  have haccepted := h.ordered _ hrest
  have hrejected := h.ordered _ hrest'
  rw [hverdict, tryKeyRoots_first hresult, hsigner] at haccepted
  rw [hverdict, tryKeyRoots_first hresult', herr, ← haccepted] at hrejected
  cases hrejected

theorem verifyKeyBased_unavailable (hdecisive : Decisive lib files now bndl opts art sources)
    (hcontent : lib.verificationContent bndl = .ok (.publicKey hint))
    (htried : RootsTried lib files bndl opts sources (.publicKey hint))
    (h : verifyKeyBased lib files now bndl opts art sources = .error err) :
    err.is .errTrustMaterialUnavailable = true ↔ ∃ src ∈ sources, src.Unavailable := by
  obtain ⟨hlog, keys, hkeys⟩ := htried
  by_cases hsources : sources = []
  · subst hsources
    have hnone : verifyKeyBased lib files now bndl opts art [] = .error (.errorf
        (errNoTrustedRoot ++ ": transparency log verification requires one") []) := by
      unfold verifyKeyBased
      rw [hkeys, hlog]
      split
      · next hnil =>
        rw [hnil] at hkeys
        cases hkeys
      · rfl
    obtain rfl := Except.error.inj (hnone.symm.trans h)
    simp
  · have hrun : verifyKeyBased lib files now bndl opts art sources =
        tryKeyRoots lib keys none now bndl art sources [] :=
      verifyKeyBased_eq hsources hlog hkeys
    apply tryKeyRoots_unavailable ?_ (hrun.symm.trans h)
    intro hunattributed
    exact (hdecisive hint keys none hcontent hlog hkeys hunattributed).2 rfl

/-- A fair judgement leaves no root unloaded behind one that did not attribute the
signature. -/
theorem Fair.loaded (h : Fair lib files now bndl opts art sources)
    (hcontent : lib.verificationContent bndl = .ok (.publicKey hint))
    (hlog : opts.requireTransparencyLog = true)
    (hkeys : buildKeyMaterial files opts.trustedKeys = (some keys, none)) (hsrc : src ∈ sources)
    (hunattributed : Unattributed lib now bndl art keys src) (other : RootSource Root)
    (hother : other ∈ sources) : ¬other.Unavailable := by
  intro hunavailable
  have hnone := h.not_attributed hcontent hlog hkeys hsrc hunattributed
  have hsources := List.ne_nil_of_mem hsrc
  have hrun : verifySigner lib files now bndl opts art sources =
      tryKeyRoots lib keys none now bndl art sources [] := by
    rw [verifySigner, hcontent]
    exact verifyKeyBased_eq hsources hlog hkeys
  cases hresult : tryKeyRoots lib keys none now bndl art sources [] with
  | ok signer =>
    have hiff := tryKeyRoots_isOk_iff none hsources fun _ => hnone
    rw [hresult] at hiff
    obtain ⟨root, hroot, hattributed⟩ := hiff.mp rfl
    exact hnone root hroot hattributed
  | error err =>
    have hreported := (h.unavailable _ err hcontent ⟨hlog, keys, hkeys⟩
      (hrun.trans hresult)).mpr ⟨other, hother, nofun, hunavailable⟩
    cases hreported.symm.trans (tryKeyRoots_unattributed hsrc hunattributed hresult)

/-- Bundles are judged fairly exactly when a root that cannot attribute a signature is
decisive: it is all that the bundle could get from any root. -/
theorem fair_iff_decisive :
    Fair lib files now bndl opts art sources ↔
      Decisive lib files now bndl opts art sources := by
  constructor
  · rintro h hint keys loadErr hcontent hlog hkeys ⟨src, hsrc, hunattributed⟩
    refine ⟨h.not_attributed hcontent hlog hkeys hsrc hunattributed, ?_⟩
    rintro rfl
    exact h.loaded hcontent hlog hkeys hsrc hunattributed
  · intro h
    refine ⟨?_, ?_, ?_⟩
    · intro sources' hperm
      unfold verifySigner
      cases hcontent : lib.verificationContent bndl with
      | error err => rfl
      | ok content =>
        cases content with
        | certificate => exact verifyKeyless_ordered files hperm
        | publicKey hint => exact verifyKeyBased_ordered hcontent h hperm
        | neither => rfl
    · intro hcontent signer hsigner
      rw [verifySigner, hcontent] at hsigner
      exact verifyKeyless_vouched files hsigner
    · intro content err hcontent htried herr
      rw [verifySigner, hcontent] at herr
      cases content with
      | certificate => exact verifyKeyless_unavailable htried herr
      | neither => exact htried.elim
      | publicKey hint =>
        have hscope : ∀ src : RootSource Root, InScope opts (.publicKey hint) src := by
          intro src hcertificate
          cases hcertificate
        simp only [hscope, true_and]
        exact verifyKeyBased_unavailable h hcontent htried herr

end results

/-- One root knows both logs a bundle is in, the other only the first. -/
def twoLogs : Sigstore Unit Unit Bool where
  verificationContent _ := .ok (.publicKey "release")
  tlogEntries _ := .ok 2
  regexpCompiles _ := true
  newVerifier _ _ := .ok ()
  verify _ material _ policy _ :=
    match policy, material.root with
    | .key, some true => .ok ⟨⟨some "release", [5, 25]⟩, none⟩
    | .key, some false => .ok ⟨⟨some "release", [5]⟩, none⟩
    | _, _ => .error ⟨"no matching signature", []⟩
  verify_identity _ _ _ _ _ _ _ hverify := by
    dsimp only at hverify
    cases hverify
  newVerifier_foreign _ _ _ hnew := by cases hnew
  verify_foreign _ _ _ _ _ err hverify := by
    split at hverify
    · cases hverify
    · cases hverify
    · cases hverify
      rfl

/-- One key at two paths, valid at different times. -/
def rotatedOptions : FetchOptions where
  trustedIssuers := []
  trustedKeys := [⟨"old.pub", some 0, some 10⟩, ⟨"new.pub", some 20, some 30⟩]
  sanPatterns := []
  requireTransparencyLog := true
  timeout := 0
  digest := ""
  parsedRef := none

def oneKey : KeyFiles Unit where
  loadPublicKey _ := .ok ()
  computeKeyHint _ := .ok "release"
  loadVerifier _ := .ok ()

def logRoot (name : String) (bothLogs : Bool) : RootSource Bool :=
  ⟨name, [], .ok bothLogs, false, false⟩

theorem root_order_decides :
    (verifySigner twoLogs oneKey 30 () rotatedOptions ()
        [logRoot "both" true, logRoot "first" false]).isOk = false ∧
      (verifySigner twoLogs oneKey 30 () rotatedOptions ()
        [logRoot "first" false, logRoot "both" true]).isOk = true := by
  decide +kernel

end NriSupplyChain.Attestation
