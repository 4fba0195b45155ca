import NriSupplyChain.Attestation.Types

/-!
How the errors of one fetch pass are classified, and how the outcomes of the
single referrers are put together into the error of the pass.

A referrer that could not be fetched, or could not be decided for lack of trust
material, must reach the error of the pass: the recorded outcomes are what
`evaluateCollection` reads.
-/

namespace NriSupplyChain.Attestation

open NriSupplyChain.Types

/-- What happened to a single referrer candidate. -/
inductive ReferrerOutcome where
  | verified
  | unverified
  | skipped
  | verifyFailed
  | fetchFailed
  | limitExceeded
  | keyUnavailable
deriving DecidableEq, Repr

def errVerificationFailed : GoError :=
  GoError.new .errVerificationFailed "attestation verification failed"

def errIncompleteAttestationSet : GoError :=
  GoError.new .errIncompleteAttestationSet "attestation set is incomplete"

def errReferrerLimitExceeded : GoError :=
  GoError.errorf "attestation set is incomplete: referrer limit exceeded"
    [errIncompleteAttestationSet]

def errInvalidReferrer : GoError := GoError.new .errInvalidReferrer "invalid referrer content"

def errEmptyAttestation : GoError := GoError.new .errEmptyAttestation "empty attestation"

def errAttestationTooLarge : GoError :=
  GoError.new .errAttestationTooLarge "attestation exceeds maximum size"

def errDownloadLimitExceeded : GoError :=
  GoError.new .errDownloadLimitExceeded "attestation download limit exceeded"

def errAggregateSizeExceeded : GoError :=
  GoError.new .errAggregateSizeExceeded "aggregate attestation size exceeded"

def errTruncatedResponse : GoError :=
  GoError.new .errTruncatedResponse "truncated registry response"

/-- A sentinel that no caller compares with. -/
def errAllBundlesFailed : GoError := ⟨"all bundle verifications failed", []⟩

/-- `fmt.Errorf("%w: %w: ...", errs...)`: the texts joined by colons. -/
def wrapAll (errs : List GoError) : GoError :=
  GoError.errorf (": ".intercalate (errs.map GoError.text)) errs

/-- `fmt.Errorf(what + ": %w", err)`. -/
def wrapOne (what : String) (err : GoError) : GoError :=
  GoError.errorf (what ++ ": " ++ err.text) [err]

@[simp] theorem wrapAll_is (errs : List GoError) (target : Sentinel) :
    (wrapAll errs).is target = errs.any (fun err => err.is target) :=
  GoError.is_errorf _ _ _

@[simp] theorem wrapOne_is (what : String) (err : GoError) (target : Sentinel) :
    (wrapOne what err).is target = err.is target := by
  simp [wrapOne]

@[simp] theorem errVerificationFailed_is (target : Sentinel) :
    errVerificationFailed.is target = decide (target = .errVerificationFailed) :=
  GoError.is_new _ _ _

@[simp] theorem errReferrerLimitExceeded_is (target : Sentinel) :
    errReferrerLimitExceeded.is target = decide (target = .errIncompleteAttestationSet) := by
  simp [errReferrerLimitExceeded, errIncompleteAttestationSet]

/-- An error that is handled by ignoring the attestations: they failed
verification, and the set was complete. -/
def Ignorable (err : GoError) : Prop :=
  err.is .errVerificationFailed = true ∧ err.is .errIncompleteAttestationSet = false

instance (err : GoError) : Decidable (Ignorable err) :=
  inferInstanceAs (Decidable (_ ∧ _))

variable {err : GoError}

theorem ignorable_wrapOne {what : String} : Ignorable (wrapOne what err) ↔ Ignorable err := by
  simp only [Ignorable, wrapOne_is]

/-- An error of the registry, a key file or the verifier: `ErrVerificationFailed` is
only ever wrapped by the fetcher. -/
abbrev ForeignError : Type := { err : GoError // err.is .errVerificationFailed = false }

/-- A failed request for a manifest, a layer or the listing. `truncated` says that the
response body ended early while it was downloaded; the error does not tell. -/
structure RegistryFailure where
  err : ForeignError
  truncated : Bool

def isContentError (err : GoError) : Bool :=
  err.is .errEmptyAttestation || err.is .errInvalidReferrer

def isLimitError (err : GoError) : Bool :=
  err.is .errAttestationTooLarge || err.is .errDownloadLimitExceeded

def isTransportFailure (err : GoError) : Bool :=
  if err.is .contextDeadlineExceeded || err.is .contextCanceled then true
  else
    match err.asTransport with
    | some (statusCode, _) =>
      statusCode = 401 || statusCode = 403 || statusCode = 408 || statusCode = 429 ||
        decide (500 ≤ statusCode)
    | none => err.asNetError.isSome || err.is .errTruncatedResponse

/-- A 401 or 403 for one listed referrer is a decision of the registry about that
referrer. -/
def isReferrerTransportFailure (err : GoError) : Bool :=
  match err.asTransport with
  | some (401, _) | some (403, _) => false
  | _ => isTransportFailure err

def isRegistryNotFound (err : GoError) : Bool :=
  err.asTransport.map Prod.fst = some 404

def isTransientError (err : GoError) : Bool :=
  match err.asTransport with
  | some (_, temporary) => temporary
  | none => err.asNetError == some true

def classifyReferrerError (err : GoError) : ReferrerOutcome :=
  if isRegistryNotFound err then .skipped
  else if isLimitError err then .limitExceeded
  else if !isContentError err && isReferrerTransportFailure err then .fetchFailed
  else .verifyFailed

def classifyCosignLayerError (err : GoError) : ReferrerOutcome × Option GoError :=
  if isLimitError err then (.limitExceeded, some err)
  else if isContentError err then (.verifyFailed, none)
  else if isReferrerTransportFailure err then (.fetchFailed, some err)
  else (.verifyFailed, none)

def trustMaterialOutcome (err : GoError) : ReferrerOutcome :=
  if err.is .errTrustedKeyUnavailable then .keyUnavailable else .fetchFailed

def tagContentError (err : GoError) : GoError :=
  if isLimitError err then wrapAll [errVerificationFailed, errReferrerLimitExceeded, err]
  else if !isContentError err && isTransportFailure err then err
  else wrapAll [errVerificationFailed, errInvalidReferrer, err]

def referrersError (what : String) (err : GoError) : GoError :=
  if isLimitError err then
    wrapAll [errVerificationFailed, errReferrerLimitExceeded, wrapOne what err]
  else if isTransportFailure err then wrapOne what err
  else wrapAll [errVerificationFailed, errInvalidReferrer, wrapOne what err]

structure CollectStats where
  verifyFailures : Nat
  fetchErr : Option GoError
  limitErr : Option GoError
  keyErr : Option GoError

namespace CollectStats

def empty : CollectStats := ⟨0, none, none, none⟩

/-- The first error of each kind is kept. -/
def record (s : CollectStats) (outcome : ReferrerOutcome) (err : Option GoError) : CollectStats :=
  match outcome with
  | .verifyFailed => { s with verifyFailures := s.verifyFailures + 1 }
  | .fetchFailed => { s with fetchErr := s.fetchErr.or err }
  | .limitExceeded => { s with limitErr := s.limitErr.or err }
  | .keyUnavailable => { s with keyErr := s.keyErr.or err }
  | .verified | .unverified | .skipped => s

def merge (s other : CollectStats) : CollectStats :=
  { verifyFailures := s.verifyFailures + other.verifyFailures
    fetchErr := s.fetchErr.or other.fetchErr
    limitErr := s.limitErr.or other.limitErr
    keyErr := s.keyErr.or other.keyErr }

end CollectStats

def evaluateCollection (verified : Nat) (stats : List CollectStats) : Option GoError :=
  let merged := stats.foldl CollectStats.merge CollectStats.empty
  match merged.limitErr, merged.fetchErr with
  | some limitErr, _ => some (wrapAll [errVerificationFailed, errReferrerLimitExceeded, limitErr])
  | none, some fetchErr => some (wrapOne "fetching referrer" fetchErr)
  | none, none =>
    if verified ≠ 0 then none
    else
      match merged.keyErr with
      | some keyErr => some (wrapOne "verifying referrer" keyErr)
      | none =>
        if 0 < merged.verifyFailures then
          some (GoError.errorf (errVerificationFailed.text ++ ": " ++
            errAllBundlesFailed.text ++ ": all " ++ toString merged.verifyFailures ++
            " referrers failed verification") [errVerificationFailed, errAllBundlesFailed])
        else none

/-- Something a pass asked for that was not answered. -/
inductive Unanswered where
  /-- The registry could not be reached, or refused to serve the request. -/
  | transport (err : GoError)
  /-- The context ended before the request was made, or before its answer was used. -/
  | interrupted
  /-- The trust material to decide was unavailable. -/
  | undecided (err : GoError)
  /-- The context ended before the verification began. -/
  | cutOff
  /-- The response ended early and was taken for malformed content. -/
  | cutShort
deriving DecidableEq, Repr

/-- What is recorded like content that failed verification. -/
def Unanswered.overlooked : Unanswered → Bool
  | .cutOff | .cutShort => true
  | .transport _ | .interrupted | .undecided _ => false

/-- A referrer that could not be fetched: it is not gone, and what was served is not
invalid. -/
def referrerUnanswered (err : GoError) (truncated : Bool) : List Unanswered :=
  if isRegistryNotFound err then []
  else if !isContentError err && isReferrerTransportFailure err then [.transport err]
  else if truncated then [.cutShort]
  else []

/-- A layer of the cosign tag that could not be read. -/
def layerUnanswered (err : GoError) (truncated : Bool) : List Unanswered :=
  if !isContentError err && isReferrerTransportFailure err then [.transport err]
  else if truncated then [.cutShort]
  else []

/-- The error of a truncated response that `classifyReferrerError` takes for malformed
content. -/
def takenForContent (err : GoError) : Bool :=
  !isRegistryNotFound err && (isContentError err || !isReferrerTransportFailure err)

def RegistryFailure.cutShort (failure : RegistryFailure) : Bool :=
  failure.truncated && takenForContent failure.err.val

/-- The outcome that a fetch with unanswered requests has to have. -/
def ReferrerOutcome.Reports (outcome : ReferrerOutcome) (err : Option GoError)
    (u : Unanswered) : Prop :=
  (outcome = .limitExceeded ∧ err.isSome = true) ∨
    (u.overlooked = true ∧ outcome = .verifyFailed) ∨
      (u.overlooked = false ∧ (outcome = .fetchFailed ∨ outcome = .keyUnavailable) ∧
        err.isSome = true)

/-- The recorded outcomes show that something went unanswered. -/
def CollectStats.Shows (s : CollectStats) (u : Unanswered) : Prop :=
  s.limitErr.isSome = true ∨ (u.overlooked = true ∧ 0 < s.verifyFailures) ∨
    (u.overlooked = false ∧ (s.fetchErr.isSome = true ∨ s.keyErr.isSome = true))

/-- Something is missing: a fetch failed, or a key was unavailable. -/
def ReferrerOutcome.lacking : ReferrerOutcome → Bool
  | .fetchFailed | .keyUnavailable => true
  | .verified | .unverified | .skipped | .verifyFailed | .limitExceeded => false

def CollectStats.lacking (s : CollectStats) : Bool := s.fetchErr.isSome || s.keyErr.isSome

variable {outcome : ReferrerOutcome} {s : CollectStats}

theorem CollectStats.lacking_of_record {err : Option GoError}
    (h : (s.record outcome err).lacking = true) : s.lacking = true ∨ outcome.lacking = true := by
  cases outcome with
  | fetchFailed | keyUnavailable => exact .inr rfl
  | verified | unverified | skipped | verifyFailed | limitExceeded => exact .inl h

theorem classifyReferrerError_lacking (truncated : Bool)
    (h : (classifyReferrerError err).lacking = true) : referrerUnanswered err truncated ≠ [] := by
  unfold classifyReferrerError at h
  unfold referrerUnanswered
  split at h
  · cases h
  · next hfound =>
    rw [if_neg hfound]
    split at h
    · cases h
    · split at h
      · next hfailed =>
        rw [if_pos hfailed]
        simp
      · cases h

theorem classifyCosignLayerError_lacking (truncated : Bool)
    (h : (classifyCosignLayerError err).1.lacking = true) : layerUnanswered err truncated ≠ [] := by
  unfold classifyCosignLayerError at h
  split at h
  · cases h
  · split at h
    · cases h
    · next hcontent =>
      split at h
      · next hfailed => simp [layerUnanswered, hcontent, hfailed]
      · cases h

variable {u : Unanswered}

theorem classifyReferrerError_reports {truncated : Bool}
    (hu : u ∈ referrerUnanswered err truncated) :
    (classifyReferrerError err).Reports (some err) u := by
  unfold referrerUnanswered at hu
  split at hu
  · cases hu
  · next hfound =>
    split at hu
    · next hfailed =>
      cases List.mem_singleton.mp hu
      cases hlimit : isLimitError err <;>
        simp [classifyReferrerError, ReferrerOutcome.Reports, Unanswered.overlooked, hfound,
          hlimit, hfailed]
    · next hserved =>
      split at hu
      · cases List.mem_singleton.mp hu
        cases hlimit : isLimitError err <;>
          simp [classifyReferrerError, ReferrerOutcome.Reports, Unanswered.overlooked, hfound,
            hlimit, hserved]
      · cases hu

theorem referrerUnanswered_overlooked (err : GoError) (truncated : Bool) :
    (∀ u ∈ referrerUnanswered err truncated, u.overlooked = false) ↔
      (truncated && takenForContent err) = false := by
  cases hfound : isRegistryNotFound err <;> cases hcontent : isContentError err <;>
    cases hfailed : isReferrerTransportFailure err <;> cases truncated <;>
    simp [referrerUnanswered, takenForContent, Unanswered.overlooked, hfound, hcontent, hfailed]

theorem classifyCosignLayerError_reports {truncated : Bool}
    (hu : u ∈ layerUnanswered err truncated) :
    (classifyCosignLayerError err).1.Reports (classifyCosignLayerError err).2 u := by
  unfold layerUnanswered at hu
  split at hu
  · next hfailed =>
    cases List.mem_singleton.mp hu
    simp only [Bool.and_eq_true, Bool.not_eq_true'] at hfailed
    cases hlimit : isLimitError err <;>
      simp [classifyCosignLayerError, ReferrerOutcome.Reports, Unanswered.overlooked, hlimit,
        hfailed]
  · next hserved =>
    split at hu
    · cases List.mem_singleton.mp hu
      cases hlimit : isLimitError err <;> cases hcontent : isContentError err <;>
        simp_all [classifyCosignLayerError, ReferrerOutcome.Reports, Unanswered.overlooked]
    · cases hu

theorem CollectStats.Shows.record (h : s.Shows u) (outcome : ReferrerOutcome)
    (err : Option GoError) : (s.record outcome err).Shows u := by
  rcases h with hlimit | ⟨hover, hfailed⟩ | ⟨hover, hfetch | hkey⟩
  · left
    cases outcome <;> simp [CollectStats.record, hlimit]
  · refine .inr (.inl ⟨hover, ?_⟩)
    cases outcome <;> simp [CollectStats.record, hfailed]
  · refine .inr (.inr ⟨hover, .inl ?_⟩)
    cases outcome <;> simp [CollectStats.record, hfetch]
  · refine .inr (.inr ⟨hover, .inr ?_⟩)
    cases outcome <;> simp [CollectStats.record, hkey]

theorem CollectStats.record_shows (s : CollectStats) {err : Option GoError}
    (h : outcome.Reports err u) : (s.record outcome err).Shows u := by
  rcases h with ⟨rfl, herr⟩ | ⟨hover, rfl⟩ | ⟨hover, rfl | rfl, herr⟩
  · left
    simp [CollectStats.record, herr]
  · exact .inr (.inl ⟨hover, Nat.succ_pos _⟩)
  · refine .inr (.inr ⟨hover, .inl ?_⟩)
    simp [CollectStats.record, herr]
  · refine .inr (.inr ⟨hover, .inr ?_⟩)
    simp [CollectStats.record, herr]

/-- The errors kept for the fetch failure policy are no verification failures. -/
def CollectStats.Plain (s : CollectStats) : Prop :=
  ∀ err, s.fetchErr = some err ∨ s.keyErr = some err → err.is .errVerificationFailed = false

theorem CollectStats.Plain.record (h : s.Plain) {err : Option GoError}
    (herr : ∀ e, err = some e → e.is .errVerificationFailed = false) :
    (s.record outcome err).Plain := by
  intro e he
  cases outcome with
  | fetchFailed =>
    rcases he with hfetch | hkey
    · rcases Option.or_eq_some_iff.mp hfetch with hold | ⟨_, hnew⟩
      · exact h e (.inl hold)
      · exact herr e hnew
    · exact h e (.inr hkey)
  | keyUnavailable =>
    rcases he with hfetch | hkey
    · exact h e (.inl hfetch)
    · rcases Option.or_eq_some_iff.mp hkey with hold | ⟨_, hnew⟩
      · exact h e (.inr hold)
      · exact herr e hnew
  | verified | unverified | skipped | verifyFailed | limitExceeded => exact h e he

section Merge

variable {α : Type} {f : CollectStats → Option α}
  (hf : ∀ a b : CollectStats, f (a.merge b) = (f a).or (f b))
include hf

theorem foldl_merge_eq_none (stats : List CollectStats) (acc : CollectStats) :
    f (stats.foldl CollectStats.merge acc) = none ↔ f acc = none ∧ ∀ s ∈ stats, f s = none := by
  induction stats generalizing acc with
  | nil => simp
  | cons s rest ih => simp [ih, hf, and_assoc]

theorem foldl_merge_eq_some {stats : List CollectStats} {acc : CollectStats} {x : α}
    (h : f (stats.foldl CollectStats.merge acc) = some x) :
    f acc = some x ∨ ∃ s ∈ stats, f s = some x := by
  induction stats generalizing acc with
  | nil => exact .inl h
  | cons s rest ih =>
    rcases ih h with hacc | ⟨t, ht, hx⟩
    · rcases Option.or_eq_some_iff.mp (hf acc s ▸ hacc) with hold | ⟨_, hnew⟩
      · exact .inl hold
      · exact .inr ⟨s, List.mem_cons_self, hnew⟩
    · exact .inr ⟨t, List.mem_cons_of_mem s ht, hx⟩

end Merge

theorem foldl_merge_verifyFailures (stats : List CollectStats) (acc : CollectStats) :
    (stats.foldl CollectStats.merge acc).verifyFailures = 0 ↔
      acc.verifyFailures = 0 ∧ ∀ s ∈ stats, s.verifyFailures = 0 := by
  induction stats generalizing acc with
  | nil => simp
  | cons s rest ih => simp [ih, CollectStats.merge, and_assoc]

variable {stats : List CollectStats}

/-- A collection without fetch, key and limit errors shows nothing but what is
recorded like failed verifications. -/
theorem CollectStats.Shows.overlooked_of_merged (hs : s ∈ stats) (h : s.Shows u)
    (hlimit : (stats.foldl CollectStats.merge .empty).limitErr = none)
    (hfetch : (stats.foldl CollectStats.merge .empty).fetchErr = none)
    (hkey : (stats.foldl CollectStats.merge .empty).keyErr = none) :
    u.overlooked = true ∧ 0 < s.verifyFailures := by
  have hlimit := ((foldl_merge_eq_none (fun _ _ => rfl) _ _).mp hlimit).2 s hs
  have hfetch := ((foldl_merge_eq_none (fun _ _ => rfl) _ _).mp hfetch).2 s hs
  have hkey := ((foldl_merge_eq_none (fun _ _ => rfl) _ _).mp hkey).2 s hs
  cases hover : u.overlooked with
  | true => exact ⟨rfl, by simpa [CollectStats.Shows, hlimit, hover] using h⟩
  | false => simp [CollectStats.Shows, hlimit, hfetch, hkey, hover] at h

/-- A collection that merely failed verification has asked for everything, and
everything was answered but what is recorded like failed verifications. -/
theorem evaluateCollection_ignorable {verified : Nat} (hplain : ∀ s ∈ stats, s.Plain)
    (h : evaluateCollection verified stats = some err) (hign : Ignorable err) :
    verified = 0 ∧ ∀ s ∈ stats, ∀ u, s.Shows u → u.overlooked = true := by
  unfold evaluateCollection at h
  dsimp only at h
  split at h
  · cases h
    simp [Ignorable] at hign
  · next fetchErr _ hfetch =>
    cases h
    rcases foldl_merge_eq_some (fun _ _ => rfl) hfetch with hacc | ⟨s, hs, hfetch⟩
    · cases hacc
    · simp [Ignorable, hplain s hs fetchErr (.inl hfetch)] at hign
  · next hlimit hfetch =>
    split at h
    · cases h
    · next hverified =>
      split at h
      · next keyErr hkey =>
        cases h
        rcases foldl_merge_eq_some (fun _ _ => rfl) hkey with hacc | ⟨s, hs, hkey⟩
        · cases hacc
        · simp [Ignorable, hplain s hs keyErr (.inr hkey)] at hign
      · next hkey =>
        refine ⟨by simpa using hverified, ?_⟩
        intro s hs u hu
        exact (hu.overlooked_of_merged hs hlimit hfetch hkey).1

/-- An error of a collection that is no verification failure has its reason. -/
theorem evaluateCollection_lacking {verified : Nat}
    (h : evaluateCollection verified stats = some err)
    (hplain : err.is .errVerificationFailed = false) : ∃ s ∈ stats, s.lacking = true := by
  unfold evaluateCollection at h
  dsimp only at h
  split at h
  · cases h
    simp at hplain
  · next fetchErr _ hfetch =>
    rcases foldl_merge_eq_some (fun _ _ => rfl) hfetch with hacc | ⟨s, hs, hfetch⟩
    · cases hacc
    · exact ⟨s, hs, by simp [CollectStats.lacking, hfetch]⟩
  · split at h
    · cases h
    · split at h
      · next keyErr hkey =>
        rcases foldl_merge_eq_some (fun _ _ => rfl) hkey with hacc | ⟨s, hs, hkey⟩
        · cases hacc
        · exact ⟨s, hs, by simp [CollectStats.lacking, hkey]⟩
      · split at h
        · cases h
          simp at hplain
        · cases h

/-- A collection without verified attestations and without an error was answered
completely. -/
theorem evaluateCollection_none (h : evaluateCollection 0 stats = none) :
    ∀ s ∈ stats, ∀ u, ¬s.Shows u := by
  unfold evaluateCollection at h
  dsimp only at h
  split at h
  · cases h
  · cases h
  · next hlimit hfetch =>
    simp only [ne_eq, not_true_eq_false, if_false] at h
    split at h
    · cases h
    · next hkey =>
      split at h
      · cases h
      · next hzero =>
        intro s hs u hu
        have hfailed := (hu.overlooked_of_merged hs hlimit hfetch hkey).2
        have hnone :=
          (foldl_merge_verifyFailures stats .empty).mp (Nat.eq_zero_of_not_pos hzero)
        exact absurd (hnone.2 s hs) (Nat.ne_of_gt hfailed)

end NriSupplyChain.Attestation
