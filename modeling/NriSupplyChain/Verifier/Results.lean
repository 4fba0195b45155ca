import NriSupplyChain.Policy.Settings

/-!
How check results are put together into the result of a verification, and how
the mode is applied to it. A result the checks produced is `Sound`: it is allowed
exactly when every check in it passed.
-/

namespace NriSupplyChain.Verifier

open NriSupplyChain.Types

def resultFromCheck (check : CheckResult) : Result :=
  ⟨check.passed, false, "", check.detail, [check]⟩

def allowResult (reason : String) : Result :=
  ⟨true, true, "", reason, []⟩

def appendReason (result : Result) (detail : String) : Result :=
  { result with
    reason := if result.reason = "" then detail else result.reason ++ "; " ++ detail }

def applyCheckResult (result : Result) (check : CheckResult) : Result :=
  if !check.passed then appendReason { result with allowed := false } check.detail
  else if check.status = .warn then appendReason result check.detail
  else result

/-- A check is appended to the check results and applied, unless it is nil. -/
def appendCheck (result : Result) : Option CheckResult → Result
  | none => result
  | some check =>
    applyCheckResult { result with checkResults := result.checkResults ++ [check] } check

def combineResults (checks : List (Option CheckResult)) : Result :=
  checks.foldl appendCheck ⟨true, false, "", "", []⟩

def appendOptionalChecks (result : Result) (optional : List (Option CheckResult)) : Result :=
  optional.foldl appendCheck result

def handleMissingAttestation (pol : Action) (checkType : CheckType) (detail : String) :
    CheckResult :=
  let result := match pol with
    | .deny | .unrecognized _ => failResult checkType detail none
    | .warn => warnResult checkType detail
    | .allow => passResult checkType detail
  { result with missing := checkType ≠ .fetch }

def handleFetchError (fetchErr : GoError) (imageRef : String) (fetchFailurePolicy : Action) :
    Result :=
  let detail := "attestation fetch failed for " ++ imageRef
  let detail := if fetchErr.is .errCircuitBreakerOpen then detail ++ " (circuit breaker open)"
    else detail
  resultFromCheck (handleMissingAttestation fetchFailurePolicy .fetch detail)

/-- The missing policy of a VSA, applied when no trusted VSA passed; `none` when
direct verification should run. -/
def checkVSAMissing (pol : Policy) (detail : String) : Option Result :=
  match pol.missingPolicyFor .vsa with
  | .allow | .warn => none
  | action => some (resultFromCheck (handleMissingAttestation action .vsa detail))

def appendVSAWarning (result : Result) (pol : Policy) (detail : String) : Result :=
  if pol.missingPolicyFor .vsa = .warn then
    appendCheck result (some (handleMissingAttestation .warn .vsa detail))
  else result

def resultHasFailures (result : Result) : Bool :=
  !result.allowed || result.hasFailedCheck

def resultShouldUseShorterTTL (result : Result) : Bool :=
  resultHasFailures result || result.checkResults.any (fun check => check.type = .fetch)

def resultCacheTTL (cfg : Config) (result : Result) : Int :=
  if resultShouldUseShorterTTL result && decide (0 < cfg.cacheFailureTTL) then
    cfg.cacheFailureTTL
  else cfg.cacheTTL

def fetchErrorCacheTTL (cfg : Config) : Int :=
  let ttl := if cfg.cacheFailureTTL ≤ 0 then cfg.cacheTTL else cfg.cacheFailureTTL
  if 0 < cfg.circuitBreakerCooldown then min ttl cfg.circuitBreakerCooldown else ttl

/-- The fields `applyEnforcement` writes into the result it is given. -/
def recordOutcome (mode : VerificationMode) (result : Result) : Result :=
  { result with
    verified := !resultHasFailures result && !result.incomplete
    mode := mode.text }

def verificationFailed (imageRef reason : String) : GoError :=
  GoError.errorf ("supply chain verification failed: " ++ imageRef ++ ": " ++ reason)
    [GoError.new .errSupplyChainVerificationFailed "supply chain verification failed"]

/-- What a caller may rely on in a result that was returned to it. -/
structure Verdict (result : Result) : Prop where
  allowed : result.verified = true → result.allowed = true
  passed : result.verified = true → result.hasFailedCheck = false
  complete : result.verified = true → result.incomplete = false

/-- Allowed exactly when no check failed. -/
def Sound (result : Result) : Prop :=
  result.allowed = !result.hasFailedCheck

theorem sound_resultFromCheck (check : CheckResult) : Sound (resultFromCheck check) := by
  simp [Sound, resultFromCheck, Result.hasFailedCheck]

@[simp] theorem appendReason_allowed (result : Result) (detail : String) :
    (appendReason result detail).allowed = result.allowed := rfl

@[simp] theorem appendReason_hasFailedCheck (result : Result) (detail : String) :
    (appendReason result detail).hasFailedCheck = result.hasFailedCheck := rfl

theorem applyCheckResult_allowed (result : Result) (check : CheckResult) :
    (applyCheckResult result check).allowed = (result.allowed && check.passed) := by
  unfold applyCheckResult
  cases check.passed <;> cases check.status <;> simp

theorem applyCheckResult_hasFailedCheck (result : Result) (check : CheckResult) :
    (applyCheckResult result check).hasFailedCheck = result.hasFailedCheck := by
  unfold applyCheckResult
  split
  · rfl
  · split <;> rfl

variable {result : Result}

theorem Sound.appendCheck (h : Sound result) (check : Option CheckResult) :
    Sound (appendCheck result check) := by
  cases check with
  | none => exact h
  | some check =>
    rw [Sound, Verifier.appendCheck, applyCheckResult_allowed, applyCheckResult_hasFailedCheck]
    change (result.allowed && check.passed) =
      !(result.checkResults ++ [check]).any (fun c => !c.passed)
    rw [h, List.any_append, Result.hasFailedCheck]
    simp

theorem Sound.foldl_appendCheck (h : Sound result) (checks : List (Option CheckResult)) :
    Sound (checks.foldl Verifier.appendCheck result) := by
  induction checks generalizing result with
  | nil => exact h
  | cons check rest ih => exact ih (h.appendCheck check)

theorem sound_combineResults (checks : List (Option CheckResult)) :
    Sound (combineResults checks) := by
  apply Sound.foldl_appendCheck
  rfl

theorem Sound.appendVSAWarning (h : Sound result) (pol : Policy) (detail : String) :
    Sound (appendVSAWarning result pol detail) := by
  rw [Verifier.appendVSAWarning]
  split
  · exact h.appendCheck _
  · exact h

theorem sound_handleFetchError (fetchErr : GoError) (imageRef : String) (action : Action) :
    Sound (handleFetchError fetchErr imageRef action) :=
  sound_resultFromCheck _

theorem sound_checkVSAMissing {pol : Policy} {detail : String}
    (h : checkVSAMissing pol detail = some result) : Sound result := by
  unfold checkVSAMissing at h
  split at h
  · cases h
  · cases h
  · cases h
    exact sound_resultFromCheck _

/-- A fetch failure denies exactly when its policy is not lenient. -/
theorem handleFetchError_allowed (fetchErr : GoError) (imageRef : String) (action : Action) :
    (handleFetchError fetchErr imageRef action).allowed = true ↔
      action = .allow ∨ action = .warn := by
  cases action <;>
    simp [handleFetchError, resultFromCheck, handleMissingAttestation, failResult, warnResult,
      passResult]

theorem verdict_recordOutcome (mode : VerificationMode) (result : Result) :
    Verdict (recordOutcome mode result) := by
  have h : (recordOutcome mode result).verified = true →
      result.allowed = true ∧ result.hasFailedCheck = false ∧ result.incomplete = false := by
    simp only [recordOutcome, resultHasFailures]
    intro hverified
    simp only [Bool.not_or, Bool.not_not, Bool.and_eq_true, Bool.not_eq_eq_eq_not,
      Bool.not_true] at hverified
    exact ⟨hverified.1.1, hverified.1.2, hverified.2⟩
  exact ⟨fun hv => (h hv).1, fun hv => (h hv).2.1, fun hv => (h hv).2.2⟩

/-- A result that is not allowed is not verified, so admitting it keeps the
verdict honest. -/
theorem verdict_admitted {mode : VerificationMode}
    (h : (recordOutcome mode result).allowed = false) :
    Verdict { recordOutcome mode result with allowed := true } := by
  have hverified : (recordOutcome mode result).verified = false := by
    cases hv : (recordOutcome mode result).verified with
    | false => rfl
    | true =>
      rw [(verdict_recordOutcome mode result).allowed hv] at h
      cases h
  constructor
  · intro _
    rfl
  · intro hv
    rw [hverified] at hv
    cases hv
  · intro hv
    rw [hverified] at hv
    cases hv

end NriSupplyChain.Verifier
