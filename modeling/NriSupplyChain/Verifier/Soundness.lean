import NriSupplyChain.Verifier.Checks

/-!
Whatever the fetcher, GUAC, the individual checks and the CEL rules answer, the
result of a verification is allowed exactly when no check in it failed.
-/

namespace NriSupplyChain.Verifier

open NriSupplyChain.Types Attestation Policy

/-- What the VSA step may conclude: a passed VSA is a passed check, a rejection
is a sound result. -/
structure VsaOutcome.Sound (o : VsaOutcome) : Prop where
  passed : ∀ check, o.passed = some check → check.passed = true
  rejected : ∀ result, o.rejected = some result → Verifier.Sound result

variable {env : Environment} {lib : Library} {o : VsaOutcome} {pol : Policy}

theorem VsaOutcome.Sound.add {digestRef : String} {idx : Nat} (h : o.Sound)
    {att : VerifiedAttestation} {next : VsaOutcome} {ends : Bool}
    (hadd : o.add lib env pol digestRef idx att = .ok (next, ends)) : next.Sound := by
  have hfailed (detail : String) : VsaOutcome.Sound { o with failures := o.failures ++ [detail] } :=
    ⟨h.passed, h.rejected⟩
  unfold VsaOutcome.add at hadd
  cases hverify : env.vsaVerify idx att.payload pol digestRef with
  | error value => simp only [hverify, reduceCtorEq] at hadd
  | ok answer =>
    cases answer with
    | error err =>
      simp only [hverify, Except.ok.injEq, Prod.mk.injEq] at hadd
      rw [← hadd.1]
      exact hfailed err.text
    | ok result =>
      simp only [hverify] at hadd
      split at hadd
      · cases hadd
        exact hfailed result.check.detail
      · next hconclusive =>
        split at hadd
        · cases hadd
          exact hfailed _
        · split at hadd
          · cases hadd
            refine ⟨h.passed, ?_⟩
            rintro _ ⟨⟩
            exact sound_resultFromCheck result.check
          · next hreject =>
            cases hadd
            refine ⟨?_, h.rejected⟩
            intro check hcheck
            cases hpassed : o.passed with
            | some first =>
              rw [hpassed, Option.some_or] at hcheck
              exact h.passed check (hpassed.trans hcheck)
            | none =>
              rw [hpassed, Option.none_or] at hcheck
              cases hcheck
              simp only [Bool.not_eq_true] at hreject
              simp only [hreject, Bool.false_or, Bool.not_eq_true', Bool.not_eq_false,
                Bool.and_eq_true] at hconclusive
              exact hconclusive.1

theorem VsaOutcome.Sound.addAll {digestRef : String} {final : VsaOutcome} {idx : Nat}
    {atts : List VerifiedAttestation} (h : o.Sound)
    (hrun : o.addAll lib env pol digestRef idx atts = .ok final) : final.Sound := by
  induction atts generalizing o idx with
  | nil =>
    cases hrun
    exact h
  | cons att rest ih =>
    rw [VsaOutcome.addAll] at hrun
    cases hadd : o.add lib env pol digestRef idx att with
    | error value => simp only [hadd, reduceCtorEq] at hrun
    | ok answer =>
      obtain ⟨next, ends⟩ := answer
      cases ends with
      | true =>
        simp only [hadd, Except.ok.injEq] at hrun
        rw [← hrun]
        exact h.add hadd
      | false =>
        simp only [hadd] at hrun
        exact ih (h.add hadd) hrun

theorem checkVSA_sound {atts : List VerifiedAttestation} {imageRef digest : String}
    {parsedRef : Option ParsedRef}
    (h : checkVSA lib env atts pol imageRef digest parsedRef = .ok o) : o.Sound := by
  refine VsaOutcome.Sound.addAll ⟨?_, ?_⟩ h
  · intro check hcheck
    cases hcheck
  · intro result hresult
    cases hresult

variable {result : Result}

theorem Sound.appendCELCheck {imageRef digest nameSpace : String} {parsedRef : Option ParsedRef}
    {final : Result} (h : Sound result)
    (hrun : appendCELCheck env pol imageRef digest nameSpace parsedRef result = .ok final) :
    Sound final := by
  unfold Verifier.appendCELCheck at hrun
  split at hrun
  · cases hrun
    exact h
  · cases hrun
    exact h.appendCheck _
  · next rules _ _ =>
    cases hcel : evaluateCEL env (celVars imageRef digest nameSpace parsedRef result) 0 rules with
    | error value =>
      rw [hcel] at hrun
      cases hrun
    | ok check =>
      rw [hcel] at hrun
      cases hrun
      exact h.appendCheck _

theorem sound_runVSAAndParallelChecks {input : CheckInput} {nameSpace : String}
    {optional : List (Option CheckResult)}
    (hrun : runVSAAndParallelChecks lib env input nameSpace optional = .ok result) :
    Sound result := by
  unfold runVSAAndParallelChecks at hrun
  cases hvsa : checkVSA lib env (input.bins .vsa) input.pol input.imageRef input.digest
      input.parsedRef with
  | error value =>
    rw [hvsa] at hrun
    cases hrun
  | ok outcome =>
    have hsound := checkVSA_sound hvsa
    rw [hvsa] at hrun
    simp only [bind, Except.bind] at hrun
    split at hrun
    · next rejected hrejected =>
      cases hrun
      exact hsound.rejected _ hrejected
    · next passed _ hpassed =>
      have hpass : passed.passed = true := hsound.passed passed hpassed
      refine Sound.appendCELCheck (Sound.foldl_appendCheck ?_ optional) hrun
      simp [Sound, Result.hasFailedCheck, hpass]
    · split at hrun
      · next denied hdenied =>
        cases hrun
        exact sound_checkVSAMissing hdenied
      · refine Sound.appendCELCheck (Sound.appendVSAWarning ?_ _ _) hrun
        exact Sound.foldl_appendCheck (sound_combineResults _) optional

theorem sound_runChecksWithoutFetcher (pol : Policy) (imageRef : String) :
    Sound (runChecksWithoutFetcher pol imageRef) := by
  unfold runChecksWithoutFetcher
  dsimp only
  split
  · next denied hdenied => exact sound_checkVSAMissing hdenied
  · exact (sound_combineResults _).appendVSAWarning _ _

theorem sound_fetchErrorResult (fetchErr : GoError) (imageRef : String) (action : Action) :
    Sound (fetchErrorResult fetchErr imageRef action) := by
  unfold fetchErrorResult
  split
  · exact sound_handleFetchError _ _ _
  · exact sound_resultFromCheck _

theorem sound_runFetchedChecks {state : Snapshot} {action : Action} {req : VerifyRequest}
    {fetched : FetchOutcome} {ttl : Int}
    (hrun : runFetchedChecks lib env state pol action req fetched = .ok (result, ttl)) :
    Sound result := by
  unfold runFetchedChecks at hrun
  split at hrun
  · cases hrun
    exact sound_handleFetchError _ _ _
  · dsimp only at hrun
    split at hrun
    · cases hrun
      exact sound_fetchErrorResult _ _ _
    · simp only [bind, Except.bind] at hrun
      split at hrun
      · cases hrun
      · next checked hchecked =>
        cases hrun
        exact sound_runVSAAndParallelChecks hchecked

/-- Every result of `runChecks` is allowed exactly when no check in it failed. -/
theorem sound_runChecks {state : Snapshot} {mode : VerificationMode} {req : VerifyRequest}
    {ttl : Int} (hrun : runChecks lib env state pol mode req = .ok (result, ttl)) :
    Sound result := by
  unfold runChecks at hrun
  split at hrun
  · cases hrun
    exact sound_runChecksWithoutFetcher _ _
  · split at hrun
    · cases hrun
      exact sound_resultFromCheck _
    · dsimp only at hrun
      split at hrun
      · cases hrun
        exact sound_handleFetchError _ _ _
      · cases hrun
        exact sound_handleFetchError _ _ _
      · split at hrun
        · cases hrun
        · exact sound_runFetchedChecks hrun

end NriSupplyChain.Verifier
