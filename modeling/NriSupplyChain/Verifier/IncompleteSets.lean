import NriSupplyChain.Verifier.Checks

/-!
What becomes of an incomplete attestation set. The errors of the index digest
and of the platform digest are folded into one error and one transport error
before they are classified, so an incomplete set on one of them can be outvoted
by the other. `Reports.Drops` says exactly when.
-/

namespace NriSupplyChain.Verifier

open NriSupplyChain.Types Attestation

/-- The error that decides when no transport failure was recorded. -/
def Reports.deciding (r : Reports) : Option GoError :=
  match r.platform with
  | none => r.index
  | some e => if isIgnorableVerificationFailure e then r.index else some e

/-- A transport failure was reported by one of the fetches. -/
def Reports.transport (r : Reports) (canceled : FetchTarget → Bool) : Bool :=
  r.index.any (isFetchTransportFailure (canceled .index)) ||
    r.platform.any (isFetchTransportFailure (canceled .platform))

variable {err : GoError}

theorem isIgnorable_eq_false (h : err.is .errIncompleteAttestationSet = true) :
    isIgnorableVerificationFailure err = false := by
  simp [isIgnorableVerificationFailure, h]

variable {r : Reports}

/-- Next to an incomplete set, an error that the platform fetch reported as
ignorable gives way to the index error. -/
theorem Reports.drops_iff (h : r.Incomplete) (canceled : FetchTarget → Bool) :
    r.Drops (canceled .index) ↔
      r.transport canceled = true ∨ errorIs r.deciding .errVerificationFailed = false := by
  constructor
  · rintro (⟨hindex, htransport, _⟩ | ⟨hindex, hplatform, hvf⟩ | ⟨hplatform, hinc, hvf⟩ |
      ⟨hindex, hinc, hvf, hplatform⟩)
    · left
      simp [Reports.transport, hindex, htransport]
    · right
      simp [Reports.deciding, hplatform, isIgnorableVerificationFailure, hvf]
    · right
      simp [Reports.deciding, hplatform, isIgnorableVerificationFailure, hvf]
    · right
      cases hp : r.platform with
      | none => simp [Reports.deciding, hp, hindex, hvf]
      | some p => simp [Reports.deciding, hp, hplatform p hp, hindex, hvf]
  · intro hdrop
    by_cases hign : ∀ p, r.platform = some p → isIgnorableVerificationFailure p = true
    · obtain ⟨e, hi, hinc⟩ : ∃ e, r.index = some e ∧
          e.is .errIncompleteAttestationSet = true := by
        rcases h with hindex | hplatform
        · cases hi : r.index <;> simp_all
        · cases hp : r.platform <;> simp_all [isIgnorableVerificationFailure]
      refine .indexUnmarked hi hinc ?_ hign
      cases hp : r.platform <;>
        grind [Reports.transport, Reports.deciding, isFetchTransportFailure,
          isIgnorableVerificationFailure, errorIs_some]
    · push Not at hign
      obtain ⟨p, hp, hign⟩ := hign
      cases hvf : p.is .errVerificationFailed with
      | false =>
        rcases h with hi | hplat
        · exact .platformFailed hi hp hvf
        · rw [hp] at hplat
          exact .platformUnmarked hp hplat hvf
      | true =>
        have hinc : p.is .errIncompleteAttestationSet = true := by
          simpa [isIgnorableVerificationFailure, hvf] using hign
        cases hi : r.index with
        | none => simp_all [Reports.transport, Reports.deciding, isFetchTransportFailure]
        | some e =>
          refine .indexTransport hi ?_ (by rw [hp]; exact hinc)
          simpa [Reports.transport, Reports.deciding, isFetchTransportFailure, hp, hi, hvf, hign]
            using hdrop

variable {env : Fetching} {opts : String → FetchOptions} {req : VerifyRequest}

theorem fetchIndexAttestations_error {atts : List VerifiedAttestation}
    (h : indexAnswer env req opts = .ok ⟨atts, some err⟩) (o : FetchOutcome) :
    ∃ kept wrapped, fetchIndexAttestations env req opts o =
        .ok (o.recordTransport (env.canceled .index) err, kept, some wrapped) ∧
      ∀ target, wrapped.is target = err.is target := by
  unfold indexAnswer at h
  unfold fetchIndexAttestations
  split at h
  · cases h
  · next hdigest =>
    rw [if_neg hdigest, h]
    exact ⟨_, _, rfl, fun target => by simp⟩

theorem fetchIndexAttestations_none (h : indexAnswer env req opts = .ok ⟨[], none⟩)
    (o : FetchOutcome) : fetchIndexAttestations env req opts o = .ok (o, [], none) := by
  unfold indexAnswer at h
  unfold fetchIndexAttestations
  split at h
  · next hdigest => rw [if_pos hdigest]
  · next hdigest => rw [if_neg hdigest, h]

theorem fetchIndexAttestations_found {att : VerifiedAttestation} {rest : List VerifiedAttestation}
    (h : indexAnswer env req opts = .ok ⟨att :: rest, none⟩) (o : FetchOutcome) :
    fetchIndexAttestations env req opts o =
      .ok ({ o with attestations := att :: rest, digest := req.indexDigest }, [], none) := by
  unfold indexAnswer at h
  unfold fetchIndexAttestations
  split at h
  · cases h
  · next hdigest => rw [if_neg hdigest, h]

theorem recordTransport_attestations (o : FetchOutcome) (canceled : Bool) (err : GoError) :
    (o.recordTransport canceled err).attestations = o.attestations := by
  unfold FetchOutcome.recordTransport
  split <;> rfl

theorem recordTransport_isSome (o : FetchOutcome) (canceled : Bool) (err : GoError) :
    (o.recordTransport canceled err).transportErr.isSome =
      (o.transportErr.isSome || isFetchTransportFailure canceled err) := by
  unfold FetchOutcome.recordTransport
  cases htransport : o.transportErr <;> cases isFetchTransportFailure canceled err <;>
    simp [htransport]

theorem keepPartial_err (o : FetchOutcome) (platform index : List VerifiedAttestation)
    (platformDigest indexDigest : String) :
    (o.keepPartial platform platformDigest index indexDigest).err = o.err ∧
      (o.keepPartial platform platformDigest index indexDigest).transportErr = o.transportErr := by
  unfold FetchOutcome.keepPartial
  split
  · exact ⟨rfl, rfl⟩
  · split <;> exact ⟨rfl, rfl⟩

/-- The error a failed platform fetch leaves behind. -/
theorem platformError_spec (o : FetchOutcome) (req : VerifyRequest) (err : GoError)
    (kept indexKept : List VerifiedAttestation) (indexErr : Option GoError) :
    (o.platformError req err kept indexErr indexKept).transportErr = o.transportErr ∧
      ∃ e, (o.platformError req err kept indexErr indexKept).err = some e ∧
        ∀ target, e.is target =
          if isIgnorableVerificationFailure err &&
            indexErr.any (fun e => !isIgnorableVerificationFailure e)
          then errorIs indexErr target else err.is target := by
  unfold FetchOutcome.platformError
  dsimp only
  split
  · next hindex =>
    cases indexErr with
    | none => simp at hindex
    | some e => exact ⟨rfl, e, rfl, fun target => by rw [errorIs_some]⟩
  · split
    · refine ⟨(keepPartial_err _ _ _ _ _).2, ?_⟩
      rw [(keepPartial_err _ _ _ _ _).1]
      cases indexErr with
      | none => exact ⟨_, rfl, fun target => by simp⟩
      | some e => exact ⟨_, rfl, fun target => by simp⟩
    · refine ⟨rfl, ?_⟩
      cases indexErr with
      | none => exact ⟨_, rfl, fun target => by simp⟩
      | some e => exact ⟨_, rfl, fun target => by simp⟩

/-- The answers behind the reports: the index digest has attestations and the
platform digest was not asked, or both were asked. -/
theorem fetchReports_cases (hr : fetchReports env req opts = some r) :
    (r = ⟨none, none⟩ ∧ ∃ att rest, indexAnswer env req opts = .ok ⟨att :: rest, none⟩) ∨
      ∃ atts kept, indexAnswer env req opts = .ok ⟨atts, r.index⟩ ∧
        (r.index = none → atts = []) ∧
        env.fetch .platform req.imageRef (opts req.digest) = .ok ⟨kept, r.platform⟩ := by
  unfold fetchReports at hr
  split at hr
  · cases hr
  · next att rest hindex =>
    cases hr
    exact .inl ⟨rfl, att, rest, hindex⟩
  · next atts indexErr hnone hindex =>
    split at hr
    · cases hr
    · next kept platformErr hplatform =>
      cases hr
      refine .inr ⟨atts, kept, hindex, ?_, hplatform⟩
      rintro rfl
      cases atts with
      | nil => rfl
      | cons att rest => exact (hnone att rest rfl rfl).elim

/-- What a failed platform fetch is folded into. -/
theorem fetched_platform_error {o : FetchOutcome} {canceled : FetchTarget → Bool}
    (herr : r.platform = some err)
    (htransport : o.transportErr.isSome = r.index.any (isFetchTransportFailure (canceled .index)))
    (req : VerifyRequest) (kept indexKept : List VerifiedAttestation) {wrapped : Option GoError}
    (hwrapped : ∀ target, errorIs wrapped target = errorIs r.index target) :
    let fetched := (o.recordTransport (canceled .platform) err).platformError req err kept wrapped
      indexKept
    fetched.transportErr.isSome = r.transport canceled ∧
      (r.Incomplete → ∃ e, fetched.err = some e ∧
        ∀ target, e.is target = errorIs r.deciding target) := by
  obtain ⟨hkeeps, e, he, hwraps⟩ := platformError_spec (o.recordTransport (canceled .platform) err)
    req err kept indexKept wrapped
  refine ⟨?_, fun h => ⟨e, he, ?_⟩⟩
  · rw [hkeeps, recordTransport_isSome, htransport, Reports.transport, herr, Option.any_some]
  · intro target
    rw [hwraps target]
    cases hignorable : isIgnorableVerificationFailure err with
    | false => simp [Reports.deciding, herr, hignorable]
    | true =>
      have hindex : errorIs r.index .errIncompleteAttestationSet = true := by
        rcases h with h | h
        · exact h
        · rw [herr, errorIs_some] at h
          rw [isIgnorable_eq_false h] at hignorable
          cases hignorable
      rw [← hwrapped] at hindex
      cases wrapped with
      | none => cases hindex
      | some w =>
        have hw : isIgnorableVerificationFailure w = false := isIgnorable_eq_false hindex
        simp [Reports.deciding, herr, hignorable, hw, ← hwrapped]

/-- What the fetches are folded into: the transport error is set exactly when one
of them reports a transport failure, and next to an incomplete set the deciding
error survives. -/
theorem fetchAttestations_spec (hr : fetchReports env req opts = some r) :
    ∃ o, fetchAttestations env req opts = .ok o ∧
      o.transportErr.isSome = r.transport env.canceled ∧
      (r.Incomplete → ∃ e, o.err = some e ∧
        ∀ target, e.is target = errorIs r.deciding target) := by
  rcases fetchReports_cases hr with ⟨rfl, att, rest, hindex⟩ | ⟨atts, kept, hindex, hnil, hplatform⟩
  · refine ⟨⟨att :: rest, req.indexDigest, none, none⟩, ?_, rfl, ?_⟩
    · rw [fetchAttestations, fetchIndexAttestations_found hindex]
      rfl
    · rintro (h | h) <;> cases h
  obtain ⟨indexErr, platformErr⟩ := r
  dsimp only at hindex hnil hplatform
  cases indexErr with
  | none =>
    rw [hnil rfl] at hindex
    simp only [fetchAttestations, fetchIndexAttestations_none hindex, hplatform]
    cases platformErr with
    | none =>
      refine ⟨⟨kept, req.digest, none, none⟩, by simp, rfl, ?_⟩
      rintro (h | h) <;> cases h
    | some err =>
      exact ⟨_, rfl, fetched_platform_error (r := ⟨none, some err⟩) rfl rfl req kept []
        (fun _ => rfl)⟩
  | some indexErr =>
    obtain ⟨indexKept, wrapped, hfetched, hwrapped⟩ :=
      fetchIndexAttestations_error hindex ⟨[], req.digest, none, none⟩
    have hempty := recordTransport_attestations ⟨[], req.digest, none, none⟩
      (env.canceled .index) indexErr
    have hsome := recordTransport_isSome ⟨[], req.digest, none, none⟩
      (env.canceled .index) indexErr
    generalize FetchOutcome.recordTransport ⟨[], req.digest, none, none⟩
      (env.canceled .index) indexErr = o at hfetched hempty hsome
    rw [Option.isSome_none, Bool.false_or] at hsome
    simp only [fetchAttestations, hfetched, hplatform]
    rw [if_neg (by simp [hempty])]
    cases platformErr with
    | some err =>
      exact ⟨_, rfl, fetched_platform_error (r := ⟨some indexErr, some err⟩) rfl hsome req kept
        indexKept hwrapped⟩
    | none =>
      have htransport : o.transportErr.isSome =
          Reports.transport ⟨some indexErr, none⟩ env.canceled := by
        rw [hsome]
        simp [Reports.transport]
      have hkept := keepPartial_err { o with err := some wrapped } [] indexKept req.digest
        req.indexDigest
      dsimp only
      split
      · refine ⟨_, rfl, ?_, fun _ => ⟨wrapped, hkept.1, hwrapped⟩⟩
        rw [hkept.2]
        exact htransport
      · split
        · exact ⟨_, rfl, htransport, fun _ => ⟨wrapped, rfl, hwrapped⟩⟩
        · next hignorable =>
          refine ⟨_, rfl, htransport, ?_⟩
          rintro (h | h)
          · rw [errorIs_some, ← hwrapped] at h
            simp [isIgnorable_eq_false h] at hignorable
          · cases h

/-- The deciding error is never one that is ignored. -/
theorem Reports.deciding_not_ignorable (h : r.Incomplete) :
    (errorIs r.deciding .errVerificationFailed &&
      !errorIs r.deciding .errIncompleteAttestationSet) = false := by
  have hindex (hi : errorIs r.index .errIncompleteAttestationSet = true) :
      (errorIs r.index .errVerificationFailed &&
        !errorIs r.index .errIncompleteAttestationSet) = false := by
    rw [hi]
    simp
  cases hp : r.platform with
  | none =>
    rw [Reports.deciding, hp]
    rcases h with h | h
    · exact hindex h
    · rw [hp] at h
      cases h
  | some p =>
    cases hign : isIgnorableVerificationFailure p with
    | false =>
      simp only [Reports.deciding, hp, hign, Bool.false_eq_true, if_false, errorIs_some]
      exact hign
    | true =>
      simp only [Reports.deciding, hp, hign, if_true]
      rcases h with h | h
      · exact hindex h
      · rw [hp, errorIs_some] at h
        rw [isIgnorable_eq_false h] at hign
        cases hign

/-- A fetch failure is admitted under this policy. -/
def Lenient (fetchPolicy : Action) : Prop :=
  fetchPolicy = .allow ∨ fetchPolicy = .warn

/-- What an incomplete set ends in when no transport failure was recorded. -/
theorem runFetchedChecks_decided (lib : Library) (env : Environment) (state : Snapshot)
    (pol : Policy) (fetchPolicy : Action) (req : VerifyRequest) {o : FetchOutcome} {e : GoError}
    (h : r.Incomplete) (hnone : o.transportErr = none) (herr : o.err = some e)
    (hdecides : ∀ target, e.is target = errorIs r.deciding target) :
    runFetchedChecks lib env state pol fetchPolicy req o =
      .ok (fetchErrorResult e req.imageRef fetchPolicy, fetchErrorCacheTTL state.config) := by
  have hignorable : isIgnorableVerificationFailure e = false := by
    rw [isIgnorableVerificationFailure, hdecides, hdecides]
    exact Reports.deciding_not_ignorable h
  simp [runFetchedChecks, hnone, herr, unverifiedAttestationsCheck, hignorable]

theorem fetchErrorResult_allowed (fetchErr : GoError) (imageRef : String) (action : Action) :
    (fetchErrorResult fetchErr imageRef action).allowed = true ↔
      Lenient action ∧ fetchErr.is .errVerificationFailed = false := by
  unfold fetchErrorResult
  cases hvf : fetchErr.is .errVerificationFailed with
  | false =>
    simp only [Bool.not_false, if_true, and_true]
    exact handleFetchError_allowed fetchErr imageRef action
  | true => simp [resultFromCheck, failResult]

/-- The errors the fetches of a verification report, when it fetches at all. -/
def performedReports (lib : Library) (env : Environment) (state : Snapshot) (pol : Policy)
    (req : VerifyRequest) : Option Reports :=
  if !state.hasFetcher || req.digest = "" then none
  else
    match env.access (registryHost (lib.parseReference req.imageRef) req.imageRef) with
    | .granted => fetchReports env.toFetching req (fetchOptions lib state pol req)
    | _ => none

/-- A verification that fetches is decided by the fold of its fetches. -/
theorem runChecks_of_reports {lib : Library} {env : Environment} {state : Snapshot} {pol : Policy}
    (mode : VerificationMode) (hr : performedReports lib env state pol req = some r) :
    ∃ o, runChecks lib env state pol mode req = runFetchedChecks lib env state pol
        (state.config.effectiveFetchFailurePolicy mode) req o ∧
      o.transportErr.isSome = r.transport env.canceled ∧
      (r.Incomplete → ∃ e, o.err = some e ∧
        ∀ target, e.is target = errorIs r.deciding target) := by
  unfold performedReports at hr
  split at hr
  · cases hr
  · next hfetches =>
    simp only [Bool.or_eq_true, Bool.not_eq_eq_eq_not, Bool.not_true, decide_eq_true_eq,
      not_or, Bool.not_eq_false] at hfetches
    obtain ⟨hfetcher, hdigest⟩ := hfetches
    split at hr
    · next haccess =>
      obtain ⟨o, hfetched, hspec⟩ := fetchAttestations_spec hr
      refine ⟨o, ?_, hspec⟩
      simp only [runChecks, hfetcher, hdigest, haccess, hfetched, Bool.not_true,
        Bool.false_eq_true, if_false]
    · cases hr

/-- A verification admits an incomplete set exactly when the fold drops it and
the policy is lenient. -/
theorem runChecks_of_incomplete {lib : Library} {env : Environment} {state : Snapshot}
    {pol : Policy} (mode : VerificationMode) (hr : performedReports lib env state pol req = some r)
    (h : r.Incomplete) :
    ∃ result ttl, runChecks lib env state pol mode req = .ok (result, ttl) ∧
      (result.allowed = true ↔
        Lenient (state.config.effectiveFetchFailurePolicy mode) ∧
          r.Drops (env.canceled .index)) := by
  obtain ⟨o, hrun, htransport, hdeciding⟩ := runChecks_of_reports mode hr
  obtain ⟨e, herr, hdecides⟩ := hdeciding h
  rw [hrun, Reports.drops_iff h env.canceled, ← htransport, ← hdecides]
  cases ht : o.transportErr with
  | some err =>
    refine ⟨_, _, by rw [runFetchedChecks, ht], ?_⟩
    rw [handleFetchError_allowed]
    simp [Lenient]
  | none =>
    refine ⟨_, _, runFetchedChecks_decided lib env state pol _ req h ht herr hdecides, ?_⟩
    rw [fetchErrorResult_allowed]
    simp

theorem Reports.Drops.incomplete {canceled : Bool} (h : r.Drops canceled) : r.Incomplete := by
  rcases h with ⟨_, _, hinc⟩ | ⟨hinc, _, _⟩ | ⟨hp, hinc, _⟩ | ⟨hi, hinc, _, _⟩
  · exact .inr hinc
  · exact .inl hinc
  · right
    rw [hp]
    exact hinc
  · left
    rw [hi]
    exact hinc

/-- A verification whose fetches report an incomplete attestation set denies the
image, unless the fold of the two fetches drops the report while
`fetch_failure_policy` is lenient. -/
theorem incomplete_set_denied_iff (lib : Library) (env : Environment) (state : Snapshot)
    (pol : Policy) (mode : VerificationMode) (req : VerifyRequest) :
    (∀ r, performedReports lib env state pol req = some r → r.Incomplete →
      ∃ result ttl, runChecks lib env state pol mode req = .ok (result, ttl) ∧
        result.allowed = false) ↔
    (∀ r, performedReports lib env state pol req = some r → r.Drops (env.canceled .index) →
      ¬Lenient (state.config.effectiveFetchFailurePolicy mode)) := by
  constructor
  · intro hdenied r hr hdrops hlenient
    obtain ⟨result, ttl, hrun, hallowed⟩ := runChecks_of_incomplete mode hr hdrops.incomplete
    obtain ⟨result', ttl', hrun', hdenies⟩ := hdenied r hr hdrops.incomplete
    cases hrun.symm.trans hrun'
    rw [hallowed.mpr ⟨hlenient, hdrops⟩] at hdenies
    cases hdenies
  · intro hkept r hr hinc
    obtain ⟨result, ttl, hrun, hallowed⟩ := runChecks_of_incomplete mode hr hinc
    refine ⟨result, ttl, hrun, ?_⟩
    cases hresult : result.allowed with
    | false => rfl
    | true =>
      obtain ⟨hlenient, hdrops⟩ := hallowed.mp hresult
      exact absurd hlenient (hkept r hr hdrops)

/-- A library for runs on fixed inputs: paths are clean, every image is included
and no rule matches. -/
def plainLibrary : Library where
  clean path := path
  globMatch pattern text := some (pattern == text)
  parseReference _ := none
  isIncluded _ _ := true
  isExcluded _ _ := false
  matchesImageRule _ _ := false
  applyRule pol _ := pol

/-- A policy that requires nothing. -/
def permissivePolicy : Policy where
  mode := .other ""
  include_ := []
  exclude := []
  rules := []
  trust := none
  signatures := none
  sections _ := none
  compiledCEL := none
  content := 0

/-- Verification in warn mode that admits images whose fetch failed. -/
def lenientSnapshot : Snapshot where
  config := ⟨.warn, .allow, true, .warn, 30, 300, 60, 0⟩
  policies := [("", permissivePolicy)]
  allowlistDigests := []
  hasFetcher := true

def incompleteError : GoError :=
  ⟨"attestation verification failed: attestation set is incomplete: referrer limit exceeded",
    [.sentinel .errVerificationFailed, .sentinel .errIncompleteAttestationSet]⟩

def unavailableError : GoError := ⟨"503 Service Unavailable", [.transport 503 true]⟩

/-- A registry that answers the fetch of the index digest with `index` and the
fetch of the platform digest with `platform`. -/
def answeringEnvironment (index platform : FetchAnswer) : Environment where
  fetch target _ _ := .ok (match target with | .index => index | .platform => platform)
  canceled _ := false
  access _ := .granted
  guac _ _ := .notConfigured
  vsaVerify _ _ _ _ := .ok (.error ⟨"no VSA", []⟩)
  verify _ := .panicked
  evalBool _ _ := .ok (.ok true)

def multiArchRequest : VerifyRequest :=
  ⟨"registry.example/app:v1", "sha256:aa", "sha256:bb", "default"⟩

/-- The index digest has too many referrers and the platform digest cannot be
fetched: the image is admitted. -/
theorem incomplete_index_admitted :
    ∃ r result ttl,
      performedReports plainLibrary
          (answeringEnvironment ⟨[], some incompleteError⟩ ⟨[], some unavailableError⟩)
          lenientSnapshot permissivePolicy multiArchRequest = some r ∧ r.Incomplete ∧
        runChecks plainLibrary
            (answeringEnvironment ⟨[], some incompleteError⟩ ⟨[], some unavailableError⟩)
            lenientSnapshot permissivePolicy .warn multiArchRequest = .ok (result, ttl) ∧
          result.allowed = true := by
  refine ⟨_, _, _, rfl, ?_, rfl, rfl⟩
  exact .inl rfl

end NriSupplyChain.Verifier
