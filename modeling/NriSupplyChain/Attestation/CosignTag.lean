import NriSupplyChain.Attestation.Referrers

/-!
Attestations stored under cosign's tag `sha256-<digest>.att`. The layers of the tag's
image are read and verified one after the other.

What reading the tag leaves open shows in the error of `cosignTagFallback`, apart
from what is recorded like a failed verification.
-/

namespace NriSupplyChain.Attestation

open NriSupplyChain.Types

/-- What is answered while one layer is processed. -/
structure LayerAnswers where
  /-- The context when it is the layer's turn. -/
  ctx : Option CtxErr
  /-- The context when a bundle is verified, and the verifier's answer. -/
  verify : List UInt8 → Option CtxErr × Except ForeignError VerifiedBundle

/-- What is answered while the tag is read. `manifestBytes` are charged for its
manifest, and `ctx` is the context in the end. -/
structure TagAnswers where
  image : Except RegistryFailure Image
  manifestBytes : Nat
  layer : Nat → LayerAnswers
  ctx : Option CtxErr

/-- What a pass knows: the fetcher, the repository and the options of the fetch. -/
structure FetchRequest where
  lib : FetchLibrary
  cfg : FetcherConfig
  repository : String
  digest : String
  trustedKeys : List TrustedKeyRef

structure LegacyKeys where
  hints : List String
  err : Option GoError

def errTrustMaterialUnavailable : GoError :=
  GoError.new .errTrustMaterialUnavailable "attestation trust material unavailable"

def errTrustedKeyUnavailable : GoError :=
  GoError.new .errTrustedKeyUnavailable "trusted key file unavailable"

def keyLoadError (path : String) (err : GoError) : GoError :=
  wrapAll [errTrustMaterialUnavailable, errTrustedKeyUnavailable,
    wrapOne ("loading public key \"" ++ path ++ "\"") err]

def loadLegacyKeys (lib : FetchLibrary) (trustedKeys : List TrustedKeyRef) : LegacyKeys where
  hints := trustedKeys.filterMap fun key =>
    match lib.loadKeyHint key.path with
    | .error _ => none
    | .ok hint => hint
  err := GoError.join (trustedKeys.filterMap fun key =>
    match lib.loadKeyHint key.path with
    | .error err => some (keyLoadError key.path err.val)
    | .ok _ => none)

/-- The rest of the loop of `verifyCosignCandidates`: `verifyErrs` are the errors so
far, and `cut` says that a verification found its context ended. -/
def verifyCosignCandidatesFrom (lib : FetchLibrary) (digest : String)
    (verify : List UInt8 → Option CtxErr × Except ForeignError VerifiedBundle) :
    List (List UInt8) → (verifyErrs : List GoError) → (cut : Bool) → Fetched
  | [], verifyErrs, cut =>
    match GoError.join verifyErrs with
    | none => .rejected
    | some joined =>
      if joined.is .errTrustMaterialUnavailable then .undecided joined
      else { Fetched.rejected with unanswered := if cut then [.cutOff] else [] }
  | bundle :: rest, verifyErrs, cut =>
    match verifyBundleCommon (verify bundle).1 (verify bundle).2 with
    | .error err =>
      verifyCosignCandidatesFrom lib digest verify rest (verifyErrs ++ [err])
        (cut || (verify bundle).1.isSome)
    | .ok verified =>
      match attestationFromVerified lib verified bundle digest with
      | none => .rejected
      | some att => ⟨some att, .verified, none, []⟩

def verifyCosignCandidates (lib : FetchLibrary) (digest : String) (answers : LayerAnswers)
    (candidates : List (List UInt8)) : Fetched :=
  verifyCosignCandidatesFrom lib digest answers.verify candidates [] false

/-- A legacy layer that a key which could not be loaded might have signed. -/
def Fetched.keyUnavailable (keyErr : GoError) : Fetched :=
  ⟨none, .keyUnavailable, some keyErr, [.undecided keyErr]⟩

/-- `processCosignLayer` once the layer is read. -/
def verifyCosignLayer (lib : FetchLibrary) (digest : String) (keys : LegacyKeys)
    (annotations : List (String × String)) (answers : LayerAnswers) (data : List UInt8) : Fetched :=
  if lib.isSigstoreBundleJSON data then verifyCosignCandidates lib digest answers [data]
  else
    match lib.legacyLayerToBundles data annotations keys.hints with
    | .error convErr =>
      match keys.err with
      | none => .rejected
      | some keyErr =>
        if convErr.val.is .errNoLegacyVerificationMaterial then .keyUnavailable keyErr
        else .rejected
    | .ok converted =>
      let f := verifyCosignCandidates lib digest answers converted
      match keys.err with
      | none => f
      | some keyErr => if f.outcome = .verifyFailed then .keyUnavailable keyErr else f

def processCosignLayer (req : FetchRequest) (keys : LegacyKeys) (used : Int) (layer : Layer)
    (desc : Option LayerDescriptor) (answers : LayerAnswers) : Int × Fetched :=
  match desc.bind rejectForeignLayer with
  | some _ => (used, .rejected)
  | none =>
    match readLayer req.lib req.cfg used layer with
    | (used, .error err) =>
      (used, ⟨none, (classifyCosignLayerError err).1, (classifyCosignLayerError err).2,
        layerUnanswered err (layer.truncated req.cfg.maxAttestationSize)⟩)
    | (used, .ok data) =>
      (used, verifyCosignLayer req.lib req.digest keys
        ((desc.map fun d => d.annotations).getD []) answers data)

/-- What the loop over the layers has collected. -/
structure TagState where
  attestations : List VerifiedAttestation
  stats : CollectStats
  totalSize : Nat
  used : Int
  unanswered : List Unanswered

def TagState.new (used : Int) : TagState := ⟨[], .empty, 0, used, []⟩

def TagState.record (st : TagState) (used : Int) (f : Fetched) : TagState :=
  { st with
    stats := st.stats.record f.outcome f.err
    used := used
    unanswered := f.unanswered ++ st.unanswered }

/-- The loop of `verifyCosignLayers` from layer `idx` on. -/
def verifyCosignLayersFrom (req : FetchRequest) (keys : LegacyKeys)
    (descriptors : List LayerDescriptor) (answers : Nat → LayerAnswers) :
    (idx : Nat) → List Layer → TagState → TagState
  | _, [], st => st
  | idx, layer :: rest, st =>
    match (answers idx).ctx with
    | some e => st.record st.used ⟨none, .fetchFailed,
        some (wrapOne "cosign tag discovery interrupted" e.error), [.interrupted]⟩
    | none =>
      let (used, f) :=
        processCosignLayer req keys st.used layer descriptors[idx]? (answers idx)
      let st := st.record used f
      match f.att with
      | none => verifyCosignLayersFrom req keys descriptors answers (idx + 1) rest st
      | some att =>
        let totalSize := st.totalSize + att.payload.length
        if maxTotalAttestationSize < totalSize then
          { st with
            totalSize := totalSize
            stats := st.stats.record .limitExceeded (some errAggregateSizeExceeded) }
        else
          verifyCosignLayersFrom req keys descriptors answers (idx + 1) rest
            { st with totalSize := totalSize, attestations := st.attestations ++ [att] }

def cosignLayerLimitError (layers : Nat) : GoError :=
  GoError.errorf (errReferrerLimitExceeded.text ++ ": " ++ toString layers ++
    " cosign attestation layers, limit " ++ toString maxReferrers) [errReferrerLimitExceeded]

def verifyCosignLayers (req : FetchRequest) (answers : TagAnswers) (used : Int)
    (layers : List Layer) (descriptors : List LayerDescriptor) : TagState :=
  if maxReferrers < layers.length then
    (TagState.new used).record used
      ⟨none, .limitExceeded, some (cosignLayerLimitError layers.length), []⟩
  else
    verifyCosignLayersFrom req (loadLegacyKeys req.lib req.trustedKeys) descriptors answers.layer
      0 layers (.new used)

def replaceFirstColon : List Char → List Char
  | [] => []
  | c :: rest => if c = ':' then '-' :: rest else c :: replaceFirstColon rest

def cosignAttestationTag (repository digest : String) : String :=
  repository ++ ":" ++ String.ofList (replaceFirstColon digest.toList) ++ ".att"

/-- What a failed request for the tag leaves open. -/
def tagUnanswered (err : GoError) (truncated : Bool) : List Unanswered :=
  if !isContentError err && isTransportFailure err then [.transport err]
  else if truncated then [.cutShort]
  else []

/-- `fetchCosignTagAttestations`. A failure comes with what it leaves open. -/
def fetchCosignTagAttestations (req : FetchRequest) (answers : TagAnswers) (used : Int) :
    Except (GoError × List Unanswered) TagState :=
  let used := used + answers.manifestBytes
  let failed (what : String) (err : GoError) (truncated : Bool) :=
    let err := wrapOne what err
    Except.error (tagContentError err, tagUnanswered err truncated)
  match answers.image with
  | .error failure =>
    if isRegistryNotFound failure.err.val then .ok (.new used)
    else
      failed ("fetching cosign attestation tag \"" ++
        cosignAttestationTag req.repository req.digest ++ "\"") failure.err.val failure.truncated
  | .ok img =>
    match img.manifest with
    | .error err => failed "reading cosign attestation manifest" err.val false
    | .ok manifest =>
      match img.layers with
      | .error err => failed "reading cosign attestation layers" err.val false
      | .ok layers =>
        .ok (verifyCosignLayers req answers used layers
          ((manifest.map fun m => m.layers).getD []))

/-- The attestations of the tag, the error, and what reading it left open. -/
structure TagResult where
  attestations : List VerifiedAttestation
  err : Option GoError
  unanswered : List Unanswered

def cosignTagFallback (req : FetchRequest) (answers : TagAnswers) (used : Int) : TagResult :=
  match fetchCosignTagAttestations req answers used with
  | .error (tagErr, unanswered) =>
    ⟨[], some (wrapOne "cosign tag-based discovery" tagErr), unanswered⟩
  | .ok st =>
    let err := evaluateCollection st.attestations.length [st.stats]
    if errorIs err .errVerificationFailed then
      ⟨[], err.map (wrapOne "cosign tag-based discovery"), st.unanswered⟩
    else
      match answers.ctx with
      | some e =>
        ⟨[], some (wrapOne "cosign tag-based discovery interrupted" e.error),
          .interrupted :: st.unanswered⟩
      | none =>
        match err with
        | some err => ⟨[], some (wrapOne "cosign tag-based discovery" err), st.unanswered⟩
        | none => ⟨st.attestations, none, st.unanswered⟩

variable {err : GoError}

theorem keyLoadError_notVerification (path : String) (h : NotVerification err) :
    NotVerification (keyLoadError path err) := by
  simp [NotVerification, keyLoadError, errTrustMaterialUnavailable, errTrustedKeyUnavailable,
    show err.is .errVerificationFailed = false from h]

theorem notVerification_join {errs : List GoError} (h : ∀ err ∈ errs, NotVerification err)
    {joined : GoError} (hjoin : GoError.join errs = some joined) : NotVerification joined := by
  have his := errorIs_join errs .errVerificationFailed
  rw [hjoin, errorIs_some] at his
  rw [NotVerification, his]
  exact List.any_eq_false.mpr fun err herr => by
    simp [show err.is .errVerificationFailed = false from h err herr]

variable {lib : FetchLibrary}

theorem loadLegacyKeys_notVerification {trustedKeys : List TrustedKeyRef} {keyErr : GoError}
    (h : (loadLegacyKeys lib trustedKeys).err = some keyErr) : NotVerification keyErr := by
  refine notVerification_join ?_ h
  intro err herr
  obtain ⟨key, _, hkey⟩ := List.mem_filterMap.mp herr
  split at hkey
  · next loadErr _ =>
    cases hkey
    exact keyLoadError_notVerification key.path loadErr.property
  · cases hkey

theorem Fetched.honest_keyUnavailable {keyErr : GoError} (h : NotVerification keyErr) :
    (Fetched.keyUnavailable keyErr).Honest := by
  refine ⟨?_, ?_, by simp [Fetched.keyUnavailable]⟩
  · intro u hu
    cases List.mem_singleton.mp hu
    exact .inr (.inr ⟨rfl, .inr rfl, rfl⟩)
  · rintro _ ⟨⟩
    exact h

theorem verifyCosignCandidatesFrom_honest {digest : String}
    {verify : List UInt8 → Option CtxErr × Except ForeignError VerifiedBundle}
    {candidates : List (List UInt8)} {verifyErrs : List GoError} {cut : Bool}
    (h : ∀ err ∈ verifyErrs, NotVerification err) :
    (verifyCosignCandidatesFrom lib digest verify candidates verifyErrs cut).Honest := by
  induction candidates generalizing verifyErrs cut with
  | nil =>
    simp only [verifyCosignCandidatesFrom]
    split
    · exact Fetched.honest_rejected
    · next joined hjoin =>
      split
      · exact Fetched.honest_undecided (notVerification_join h hjoin)
      · refine ⟨?_, ?_, ?_⟩
        · intro u hu
          split at hu
          · cases List.mem_singleton.mp hu
            exact .inr (.inl ⟨rfl, rfl⟩)
          · cases hu
        · rintro _ ⟨⟩
        · rintro ⟨⟩
  | cons bundle rest ih =>
    simp only [verifyCosignCandidatesFrom]
    split
    · next err herr =>
      apply ih
      intro e he
      rcases List.mem_append.mp he with hold | hnew
      · exact h e hold
      · cases List.mem_singleton.mp hnew
        exact verifyBundleCommon_error herr
    · split
      · exact Fetched.honest_rejected
      · exact Fetched.honest_of_answered rfl rfl rfl

theorem verifyCosignCandidates_honest (lib : FetchLibrary) (digest : String)
    (answers : LayerAnswers) (candidates : List (List UInt8)) :
    (verifyCosignCandidates lib digest answers candidates).Honest :=
  verifyCosignCandidatesFrom_honest (by simp)

variable {keys : LegacyKeys}

theorem verifyCosignLayer_honest {digest : String}
    (hkeys : ∀ keyErr, keys.err = some keyErr → NotVerification keyErr)
    {annotations : List (String × String)} {answers : LayerAnswers} {data : List UInt8} :
    (verifyCosignLayer lib digest keys annotations answers data).Honest := by
  unfold verifyCosignLayer
  split
  · exact verifyCosignCandidates_honest _ _ _ _
  · split
    · split
      · exact Fetched.honest_rejected
      · next keyErr hkeyErr =>
        split
        · exact Fetched.honest_keyUnavailable (hkeys keyErr hkeyErr)
        · exact Fetched.honest_rejected
    · dsimp only
      split
      · exact verifyCosignCandidates_honest _ _ _ _
      · next keyErr hkeyErr =>
        split
        · exact Fetched.honest_keyUnavailable (hkeys keyErr hkeyErr)
        · exact verifyCosignCandidates_honest _ _ _ _

theorem processCosignLayer_honest (req : FetchRequest)
    (hkeys : ∀ keyErr, keys.err = some keyErr → NotVerification keyErr) (used : Int) (layer : Layer)
    (desc : Option LayerDescriptor) (answers : LayerAnswers) :
    (processCosignLayer req keys used layer desc answers).2.Honest := by
  unfold processCosignLayer
  split
  · exact Fetched.honest_rejected
  · split
    · next err hread =>
      refine ⟨fun u hu => classifyCosignLayerError_reports hu, ?_,
        classifyCosignLayerError_lacking _⟩
      intro e he
      have hplain := readLayer_error (congrArg Prod.snd hread)
      simp only [classifyCosignLayerError] at he
      split at he
      · cases he
        exact hplain
      · split at he
        · cases he
        · split at he
          · cases he
            exact hplain
          · cases he
    · exact verifyCosignLayer_honest hkeys

/-- What reading the layers left open shows in the statistics, and nothing is lacking
otherwise. -/
structure TagState.Shown (st : TagState) : Prop where
  plain : st.stats.Plain
  logged : ∀ u ∈ st.unanswered, st.stats.Shows u
  backed : st.stats.lacking = true → st.unanswered ≠ []

theorem TagState.new_shown (used : Int) : (TagState.new used).Shown := by
  refine ⟨?_, ?_, by rintro ⟨⟩⟩
  · rintro _ (⟨⟨⟩⟩ | ⟨⟨⟩⟩)
  · intro u hu
    cases hu

theorem TagState.Shown.record {st : TagState} (h : st.Shown) {f : Fetched} (hf : f.Honest)
    (used : Int) : (st.record used f).Shown := by
  refine ⟨h.plain.record hf.plain, ?_, ?_⟩
  · intro u hu
    rcases List.mem_append.mp hu with hnew | hold
    · exact st.stats.record_shows (hf.reports u hnew)
    · exact (h.logged u hold).record _ _
  · intro hlacking hnil
    obtain ⟨hnew, hold⟩ := List.append_eq_nil_iff.mp hnil
    rcases CollectStats.lacking_of_record hlacking with hbefore | houtcome
    · exact h.backed hbefore hold
    · exact hf.backed houtcome hnew

theorem verifyCosignLayersFrom_shown {req : FetchRequest}
    (hkeys : ∀ keyErr, keys.err = some keyErr → NotVerification keyErr)
    {descriptors : List LayerDescriptor} {answers : Nat → LayerAnswers} {idx : Nat}
    {layers : List Layer} {st : TagState} (h : st.Shown) :
    (verifyCosignLayersFrom req keys descriptors answers idx layers st).Shown := by
  induction layers generalizing idx st with
  | nil => exact h
  | cons layer rest ih =>
    simp only [verifyCosignLayersFrom]
    split
    · next e _ =>
      refine h.record ⟨?_, ?_, by simp⟩ _
      · intro u hu
        cases List.mem_singleton.mp hu
        exact .inr (.inr ⟨rfl, .inl rfl, rfl⟩)
      · rintro _ ⟨⟩
        exact e.notVerification.wrapOne _
    · have hlayer :=
        processCosignLayer_honest req hkeys st.used layer descriptors[idx]? (answers idx)
      have hrecord := h.record hlayer
        (processCosignLayer req keys st.used layer descriptors[idx]? (answers idx)).1
      split
      · exact ih hrecord
      · split
        · refine ⟨hrecord.plain.record ?_, fun u hu => (hrecord.logged u hu).record _ _,
            hrecord.backed⟩
          rintro _ ⟨⟩
          rfl
        · exact ih ⟨hrecord.plain, hrecord.logged, hrecord.backed⟩

theorem verifyCosignLayers_shown (req : FetchRequest) (answers : TagAnswers) (used : Int)
    (layers : List Layer) (descriptors : List LayerDescriptor) :
    (verifyCosignLayers req answers used layers descriptors).Shown := by
  unfold verifyCosignLayers
  split
  · refine (TagState.new_shown used).record ⟨?_, ?_, by rintro ⟨⟩⟩ used
    · intro u hu
      cases hu
    · rintro _ ⟨⟩
      rfl
  · exact verifyCosignLayersFrom_shown (fun _ => loadLegacyKeys_notVerification)
      (TagState.new_shown used)

/-- Of a failed request that is marked as a verification failure, only a truncated
response was left open. -/
theorem tagContentError_ignorable (hplain : NotVerification err) {truncated : Bool}
    (h : Ignorable (tagContentError err)) :
    ∀ u ∈ tagUnanswered err truncated, u.overlooked = true := by
  unfold tagContentError at h
  split at h
  · simp [Ignorable] at h
  · split at h
    · exact absurd h hplain.not_ignorable
    · next hserved =>
      intro u hu
      unfold tagUnanswered at hu
      rw [if_neg hserved] at hu
      split at hu
      · cases List.mem_singleton.mp hu
        rfl
      · cases hu

theorem tagContentError_backed (truncated : Bool) (h : NotVerification (tagContentError err)) :
    tagUnanswered err truncated ≠ [] := by
  unfold tagContentError at h
  split at h
  · simp [NotVerification] at h
  · split at h
    · next hfailed =>
      unfold tagUnanswered
      rw [if_pos hfailed]
      simp
    · simp [NotVerification] at h

section Fetch

variable {req : FetchRequest} {answers : TagAnswers} {used : Int}

theorem fetchCosignTagAttestations_error {tagErr : GoError} {log : List Unanswered}
    (h : fetchCosignTagAttestations req answers used = .error (tagErr, log)) :
    ∃ err truncated, NotVerification err ∧ tagErr = tagContentError err ∧
      log = tagUnanswered err truncated := by
  unfold fetchCosignTagAttestations at h
  dsimp only at h
  split at h
  · next failure _ =>
    split at h
    · cases h
    · cases h
      exact ⟨_, failure.truncated, NotVerification.wrapOne failure.err.property _, rfl, rfl⟩
  · split at h
    · next err _ =>
      cases h
      exact ⟨_, false, NotVerification.wrapOne err.property _, rfl, rfl⟩
    · split at h
      · next err _ =>
        cases h
        exact ⟨_, false, NotVerification.wrapOne err.property _, rfl, rfl⟩
      · cases h

theorem fetchCosignTagAttestations_shown {st : TagState}
    (h : fetchCosignTagAttestations req answers used = .ok st) : st.Shown := by
  unfold fetchCosignTagAttestations at h
  dsimp only at h
  split at h
  · split at h
    · cases h
      exact TagState.new_shown _
    · cases h
  · split at h
    · cases h
    · split at h
      · cases h
      · cases h
        exact verifyCosignLayers_shown _ _ _ _ _

/-- A tag that merely failed verification left nothing open but what is recorded
like a failed verification. -/
theorem cosignTagFallback_ignorable {err : GoError}
    (herr : (cosignTagFallback req answers used).err = some err) (hign : Ignorable err) :
    ∀ u ∈ (cosignTagFallback req answers used).unanswered, u.overlooked = true := by
  unfold cosignTagFallback at herr ⊢
  cases hfetch : fetchCosignTagAttestations req answers used with
  | error failure =>
    obtain ⟨tagErr, log⟩ := failure
    simp only [hfetch, Option.some.injEq] at herr ⊢
    subst herr
    obtain ⟨inner, truncated, hplain, rfl, rfl⟩ := fetchCosignTagAttestations_error hfetch
    exact tagContentError_ignorable hplain (ignorable_wrapOne.mp hign)
  | ok st =>
    have hst := fetchCosignTagAttestations_shown hfetch
    simp only [hfetch] at herr ⊢
    cases heval : evaluateCollection st.attestations.length [st.stats] with
    | none =>
      exfalso
      cases hctx : answers.ctx with
      | none => simp [heval, hctx] at herr
      | some e =>
        simp only [heval, hctx, errorIs_none, Bool.false_eq_true, if_false,
          Option.some.injEq] at herr
        subst herr
        exact (e.notVerification.wrapOne _).not_ignorable hign
    | some verdict =>
      simp only [heval, errorIs_some, Option.map_some] at herr ⊢
      split at herr
      · next hfailed =>
        cases herr
        intro u hu
        simp only [hfailed, if_true] at hu
        have hplain : ∀ s ∈ [st.stats], s.Plain := by simpa using hst.plain
        exact (evaluateCollection_ignorable hplain heval (ignorable_wrapOne.mp hign)).2
          st.stats (by simp) u (hst.logged u hu)
      · next hfailed =>
        exfalso
        split at herr
        · next e _ =>
          cases herr
          exact (e.notVerification.wrapOne _).not_ignorable hign
        · cases herr
          exact hfailed (ignorable_wrapOne.mp hign).1

/-- An error of the tag that is no verification failure has its reason. -/
theorem cosignTagFallback_backed {err : GoError}
    (herr : (cosignTagFallback req answers used).err = some err) (hplain : NotVerification err) :
    (cosignTagFallback req answers used).unanswered ≠ [] := by
  unfold cosignTagFallback at herr ⊢
  cases hfetch : fetchCosignTagAttestations req answers used with
  | error failure =>
    obtain ⟨tagErr, log⟩ := failure
    simp only [hfetch, Option.some.injEq] at herr ⊢
    subst herr
    obtain ⟨inner, truncated, _, rfl, rfl⟩ := fetchCosignTagAttestations_error hfetch
    exact tagContentError_backed truncated ((wrapOne_is _ _ _).symm.trans hplain)
  | ok st =>
    have hst := fetchCosignTagAttestations_shown hfetch
    simp only [hfetch] at herr ⊢
    cases heval : evaluateCollection st.attestations.length [st.stats] with
    | none =>
      cases hctx : answers.ctx with
      | none => simp [heval, hctx] at herr
      | some e => simp
    | some verdict =>
      simp only [heval, errorIs_some, Option.map_some] at herr ⊢
      split at herr
      · next hfailed =>
        exfalso
        cases herr
        exact absurd (hfailed.symm.trans ((wrapOne_is _ _ _).symm.trans hplain)) (by decide)
      · next hfailed =>
        obtain ⟨s, hs, hlacking⟩ := evaluateCollection_lacking heval (by simpa using hfailed)
        cases List.mem_singleton.mp hs
        have hlog := hst.backed hlacking
        cases hctx : answers.ctx <;> simp [hfailed, hlog]

end Fetch

end NriSupplyChain.Attestation
