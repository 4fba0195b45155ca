import NriSupplyChain.Attestation.Fetcher

/-!
What an ignorable failure of `Fetch` says. It lets an image be evaluated as having no
attestations, so everything the deciding pass asked for should have been answered.

That is so exactly when nothing was taken for a failed verification that was not one: a
verification that begins after the deadline, a response that ends early, a tag that could
not be read after junk referrers had failed, and the failed verification of a mirror
when the original registry fails otherwise.
-/

namespace NriSupplyChain.Attestation

open NriSupplyChain.Types Lib

/-- No verification of the pass begins after its context has ended, and no response
ends early and is taken for malformed content. -/
structure Pass.Undisturbed (pass : Pass) (req : FetchRequest) : Prop where
  listing : ∀ failure, pass.listing = .error failure → failure.truncated = false
  referrers : ∀ manifests, pass.listing = .ok (.ok manifests) →
    let input := pass.input req (selectReferrers manifests)
    (collectMachine input pass.listingBytes).AllAllowed (CollectState.Undisturbed input)
      (.new input pass.listingBytes) pass.schedule

/-- The cosign tag left nothing open that an ignorable failure can hide: after failed
referrers that is anything, otherwise what is recorded like a failed verification. -/
structure PassResult.TagAnswered (r : PassResult) : Prop where
  alone : ∀ u, (.tag, u) ∈ r.unanswered → u.overlooked = false
  afterFailure : ∀ u, (.tagAfterFailure, u) ∉ r.unanswered

/-- A failed listing that is a mere verification failure was answered, unless its
response ended early. -/
theorem referrersError_ignorable {what : String} {err : GoError} (hplain : NotVerification err)
    (h : Ignorable (referrersError what err)) (truncated : Bool) :
    listingUnanswered err truncated = [] ↔ truncated = false := by
  unfold referrersError at h
  split at h
  · simp [Ignorable] at h
  · split at h
    · exact absurd h (hplain.wrapOne what).not_ignorable
    · next hserved =>
      unfold listingUnanswered
      rw [if_neg hserved]
      cases truncated <;> simp

theorem referrersError_backed {what : String} {err : GoError} (truncated : Bool)
    (h : NotVerification (referrersError what err)) : listingUnanswered err truncated ≠ [] := by
  unfold referrersError at h
  split at h
  · simp [NotVerification] at h
  · split at h
    · next hfailed =>
      unfold listingUnanswered
      rw [if_pos hfailed]
      simp
    · simp [NotVerification] at h

theorem droppedReferrersError_not_ignorable (dropped : Nat) :
    ¬Ignorable (droppedReferrersError dropped) := by
  simp [Ignorable, droppedReferrersError]

section Pass

variable {req : FetchRequest} {pass : Pass} {err : GoError}

variable {s : CollectState} {used : Int}

/-- The collection of a pass that merely failed verification was answered, unless a
step was disturbed. -/
theorem collectSelection_answered_iff {input : CollectInput} {schedule : List CollectOp}
    (hrun : (collectMachine input used).exec (.new input used) schedule = some s)
    (hcomplete : s.complete = true) (herr : s.collectSelection.err = some err)
    (hign : Ignorable err) :
    s.collectSelection.unanswered = [] ↔
      (collectMachine input used).AllAllowed (CollectState.Undisturbed input) (.new input used)
        schedule := by
  have hlog := (CollectState.collectSelection_failure herr hign).2
  have hover := CollectState.collectSelection_ignorable (exec_shown hrun) herr hign
  rw [← exec_clear_iff hrun hcomplete, ← hlog]
  constructor
  · intro hnil u hu
    rw [hnil] at hu
    cases hu
  · intro hclear
    refine List.eq_nil_iff_forall_not_mem.mpr ?_
    intro u hu
    have := (hover u hu).symm.trans (hclear u hu)
    cases this

theorem tagFallbackAfterFailedReferrers_error {referrersErr tagErr : GoError}
    {baselineSBOMs : List VerifiedAttestation}
    (h : (tagFallbackAfterFailedReferrers req pass used referrersErr baselineSBOMs).err =
      some tagErr) : ¬Ignorable tagErr := by
  unfold tagFallbackAfterFailedReferrers at h
  split at h
  · cases h
  · dsimp only at h
    split at h
    · next hincomplete =>
      rintro ⟨_, hcomplete⟩
      rw [show (cosignTagFallback req pass.tag used).err = some tagErr from h,
        errorIs_some] at hincomplete
      rw [hincomplete] at hcomplete
      cases hcomplete
    · split at h <;> cases h

theorem tagFallbackAfterFailedReferrers_backed {referrersErr tagErr : GoError}
    {baselineSBOMs : List VerifiedAttestation}
    (h : (tagFallbackAfterFailedReferrers req pass used referrersErr baselineSBOMs).err =
      some tagErr) (hplain : NotVerification tagErr) :
    (tagFallbackAfterFailedReferrers req pass used referrersErr baselineSBOMs).unanswered ≠ [] := by
  unfold tagFallbackAfterFailedReferrers at h ⊢
  split at h
  · cases h
  · next hread =>
    rw [if_neg hread]
    dsimp only at h ⊢
    split at h
    · next hincomplete =>
      rw [if_pos hincomplete]
      exact cosignTagFallback_backed h hplain
    · split at h <;> cases h

/-- An ignorable failure after a failed collection is the failure of the collection,
whatever became of the tag. -/
theorem collectionFailure_ignorable {c : Collected} {cerr : GoError}
    (herr : (collectionFailure req pass used c cerr).answer.err = some err) (hign : Ignorable err) :
    err = cerr ∧ ∃ tagLog : List Unanswered,
      (collectionFailure req pass used c cerr).unanswered =
        c.unanswered.map (Prod.mk .referrers) ++ tagLog.map (Prod.mk .tagAfterFailure) := by
  unfold collectionFailure at herr ⊢
  dsimp only at herr ⊢
  split at herr
  · next htag =>
    cases herr
    exact absurd hign (tagFallbackAfterFailedReferrers_error htag)
  · split at herr
    · cases herr
    · next hnone =>
      cases herr
      refine ⟨rfl, (tagFallbackAfterFailedReferrers req pass used err
        c.baselineSBOMs).unanswered, ?_⟩
      simp only [hnone, Bool.false_eq_true, if_false]

/-- An ignorable failure after the referrers were collected is theirs, or that of the
tag when they left nothing open. -/
theorem evaluatePass_ignorable (hs : s.Shown)
    (herr : (evaluatePass req pass s).answer.err = some err) (hign : Ignorable err) :
    (∃ tagLog : List Unanswered, s.collectSelection.err = some err ∧
      (evaluatePass req pass s).unanswered =
        s.collectSelection.unanswered.map (Prod.mk .referrers) ++
          tagLog.map (Prod.mk .tagAfterFailure)) ∨
    (∃ tagLog : List Unanswered, s.unanswered = [] ∧ (∀ u ∈ tagLog, u.overlooked = true) ∧
      (evaluatePass req pass s).unanswered = tagLog.map (Prod.mk .tag)) := by
  unfold evaluatePass at herr ⊢
  dsimp only at herr ⊢
  cases hc : s.collectSelection.err with
  | some cerr =>
    simp only [hc] at herr ⊢
    obtain ⟨rfl, tagLog, hlog⟩ := collectionFailure_ignorable herr hign
    exact .inl ⟨tagLog, rfl, hlog⟩
  | none =>
    right
    simp only [hc] at herr ⊢
    split at herr
    · next hempty =>
      simp only [Bool.and_eq_true, List.isEmpty_iff] at hempty
      have hcollected := CollectState.collectSelection_empty hs hc hempty.1
      have hlog := (CollectState.collectSelection_success hc).2.2
      refine ⟨(cosignTagFallback req pass.tag s.used).unanswered,
        hlog.symm.trans hcollected, ?_, ?_⟩
      · cases htag : (cosignTagFallback req pass.tag s.used).err with
        | none => simp [htag] at herr
        | some tagErr =>
          simp only [htag] at herr
          refine cosignTagFallback_ignorable ?_ hign
          split at herr <;> exact htag.trans herr
      · simp only [hempty.1, hempty.2, List.isEmpty_nil, Bool.and_self, if_true, hcollected,
          List.map_nil, List.nil_append]
        split
        · split <;> rfl
        · rfl
    · cases herr

variable {r : PassResult}

theorem PassResult.TagAnswered.of_nil (h : r.unanswered = []) : r.TagAnswered := by
  refine ⟨?_, ?_⟩ <;> simp [h]

theorem evaluatePass_answered_iff {input : CollectInput} {schedule : List CollectOp}
    (hrun : (collectMachine input used).exec (.new input used) schedule = some s)
    (hcomplete : s.complete = true) (herr : (evaluatePass req pass s).answer.err = some err)
    (hign : Ignorable err) :
    (evaluatePass req pass s).unanswered = [] ↔
      (collectMachine input used).AllAllowed (CollectState.Undisturbed input) (.new input used)
        schedule ∧ (evaluatePass req pass s).TagAnswered := by
  rcases evaluatePass_ignorable (exec_shown hrun) herr hign with
    ⟨tagLog, hc, hlog⟩ | ⟨tagLog, hnone, hover, hlog⟩
  · rw [← collectSelection_answered_iff hrun hcomplete hc hign]
    constructor
    · intro hnil
      refine ⟨?_, .of_nil hnil⟩
      rw [hlog] at hnil
      exact List.map_eq_nil_iff.mp (List.append_eq_nil_iff.mp hnil).1
    · rintro ⟨hcollected, htag⟩
      have htagLog : tagLog = [] := by
        refine List.eq_nil_iff_forall_not_mem.mpr ?_
        intro u hu
        apply htag.afterFailure u
        rw [hlog]
        exact List.mem_append_right _ (List.mem_map_of_mem hu)
      rw [hlog, hcollected, htagLog]
      rfl
  · constructor
    · intro hnil
      refine ⟨(exec_clear_iff hrun hcomplete).mp ?_, .of_nil hnil⟩
      rw [hnone]
      simp
    · rintro ⟨_, htag⟩
      have htagLog : tagLog = [] := by
        refine List.eq_nil_iff_forall_not_mem.mpr ?_
        intro u hu
        have hplain := htag.alone u (by rw [hlog]; exact List.mem_map_of_mem hu)
        rw [hover u hu] at hplain
        cases hplain
      rw [hlog, htagLog]
      rfl

/-- Of a pass that merely failed verification, everything was answered exactly if it
was undisturbed and nothing that the tag left open was hidden. -/
theorem fetchOnce_answered_iff (h : fetchOnce req pass = some r) (herr : r.answer.err = some err)
    (hign : Ignorable err) : r.unanswered = [] ↔ pass.Undisturbed req ∧ r.TagAnswered := by
  unfold fetchOnce at h
  split at h
  · next failure hlisting =>
    cases h
    cases herr
    have hiff := referrersError_ignorable failure.err.property hign failure.truncated
    constructor
    · intro hnil
      refine ⟨⟨?_, ?_⟩, .of_nil hnil⟩
      · intro other hother
        cases hlisting.symm.trans hother
        exact hiff.mp (List.map_eq_nil_iff.mp hnil)
      · intro manifests hmanifests
        cases hlisting.symm.trans hmanifests
    · rintro ⟨hundisturbed, _⟩
      exact List.map_eq_nil_iff.mpr (hiff.mpr (hundisturbed.listing failure hlisting))
  · next inner hlisting =>
    cases h
    cases herr
    have hnil := (referrersError_ignorable inner.property hign false).mpr rfl
    refine iff_of_true (List.map_eq_nil_iff.mpr hnil) ⟨⟨?_, ?_⟩, .of_nil ?_⟩
    · intro failure hfailure
      cases hlisting.symm.trans hfailure
    · intro manifests hmanifests
      cases hlisting.symm.trans hmanifests
    · exact List.map_eq_nil_iff.mpr hnil
  · next manifests hlisting =>
    dsimp only at h
    split at h
    · cases h
      cases herr
      exact absurd hign (droppedReferrersError_not_ignorable _)
    · split at h
      · cases h
      · next s hrun =>
        split at h
        · next hcomplete =>
          cases h
          rw [evaluatePass_answered_iff hrun hcomplete herr hign]
          refine and_congr_left fun _ => ⟨?_, ?_⟩
          · intro hallowed
            refine ⟨?_, ?_⟩
            · intro failure hfailure
              cases hlisting.symm.trans hfailure
            · intro other hother
              cases hlisting.symm.trans hother
              exact hallowed
          · intro hundisturbed
            exact hundisturbed.referrers manifests hlisting
        · cases h

theorem collectionFailure_backed {c : Collected} {cerr : GoError}
    (hc : NotVerification cerr → c.unanswered ≠ [])
    (herr : (collectionFailure req pass used c cerr).answer.err = some err)
    (hplain : NotVerification err) : (collectionFailure req pass used c cerr).unanswered ≠ [] := by
  unfold collectionFailure at herr ⊢
  dsimp only at herr ⊢
  split at herr
  · next tagErr htag =>
    cases herr
    have hlog := tagFallbackAfterFailedReferrers_backed htag hplain
    simp [hlog]
  · split at herr
    · cases herr
    · next hnone =>
      cases herr
      simp [hnone, hc hplain]

theorem evaluatePass_backed (hs : s.Shown) (herr : (evaluatePass req pass s).answer.err = some err)
    (hplain : NotVerification err) : (evaluatePass req pass s).unanswered ≠ [] := by
  unfold evaluatePass at herr ⊢
  dsimp only at herr ⊢
  cases hc : s.collectSelection.err with
  | some cerr =>
    simp only [hc] at herr ⊢
    exact collectionFailure_backed (CollectState.collectSelection_backed hs hc) herr hplain
  | none =>
    simp only [hc] at herr ⊢
    split at herr
    · next hempty =>
      cases htag : (cosignTagFallback req pass.tag s.used).err with
      | none => simp [htag] at herr
      | some tagErr =>
        simp only [htag] at herr
        have htagErr : tagErr = err := by
          split at herr <;> exact Option.some.inj herr
        have hlog := cosignTagFallback_backed htag (htagErr ▸ hplain)
        simp only [hempty, if_true]
        split <;> simp [hlog]
    · cases herr

/-- An error of a pass that is no verification failure has its reason: something was
left open. -/
theorem fetchOnce_backed (h : fetchOnce req pass = some r) (herr : r.answer.err = some err)
    (hplain : NotVerification err) : r.unanswered ≠ [] := by
  unfold fetchOnce at h
  split at h
  · cases h
    cases herr
    simpa using referrersError_backed _ hplain
  · cases h
    cases herr
    simpa using referrersError_backed _ hplain
  · dsimp only at h
    split at h
    · cases h
      cases herr
      simp [NotVerification, droppedReferrersError] at hplain
    · split at h
      · cases h
      · next s hrun =>
        split at h
        · cases h
          exact evaluatePass_backed (exec_shown hrun) herr hplain
        · cases h

end Pass

section Retry

variable {req : FetchRequest} {err : GoError}

/-- The error that ends a loop is the error of the last pass when that failed
verification, and no verification failure otherwise. -/
theorem finalFetchError_cases {ctx : Option CtxErr} {finalErr : GoError}
    (h : finalFetchError ctx err = some finalErr) :
    (finalErr = err ∧ ¬NotVerification err) ∨ (NotVerification finalErr ∧ NotVerification err) := by
  unfold finalFetchError at h
  split at h
  · next hfailed =>
    cases h
    exact .inl ⟨rfl, by simp [NotVerification, hfailed]⟩
  · next hfailed =>
    have hplain : NotVerification err := by simpa [NotVerification] using hfailed
    right
    split at h
    · next e =>
      cases h
      exact ⟨e.notVerification.wrapOne _, hplain⟩
    · split at h
      · cases h
      · cases h
        exact ⟨hplain, hplain⟩

/-- How a retry loop ends: before a pass, with the answer of its last pass, or with an
error in place of one that is no verification failure. -/
inductive RetryResult.Ending (r : RetryResult) : Prop where
  | interrupted (err : GoError) (hplain : NotVerification err) (hr : r = .failed err)
  | kept (run : PassRun) (hr : r = ⟨run.result.answer, some run⟩)
  | replaced (run : PassRun) (passErr err : GoError)
      (hpass : run.result.answer.err = some passErr) (hpassPlain : NotVerification passErr)
      (hplain : NotVerification err) (hr : r = ⟨⟨[], some err⟩, some run⟩)

theorem runAttempt_final {first : Bool} {attempt : Attempt} {r : RetryResult}
    (h : runAttempt req first attempt = some (.final r)) : r.Ending := by
  unfold runAttempt at h
  split at h
  · next e _ =>
    cases h
    exact .interrupted _ (e.notVerification.wrapOne _) rfl
  · next waitErr _ _ =>
    cases h
    exact .interrupted _ (NotVerification.wrapOne waitErr.property _) rfl
  · split at h
    · cases h
    · next result hrun =>
      dsimp only at h
      split at h
      · cases h
        exact .kept ⟨req, attempt.pass, result, hrun⟩ rfl
      · next passErr hpassErr =>
        split at h
        · cases h
        · next finalErr hfinal =>
          rcases finalFetchError_cases hfinal with ⟨rfl, hfailed⟩ | ⟨hplain, hpass⟩
          · rw [if_pos (by simpa [NotVerification] using hfailed), ← hpassErr] at h
            cases h
            exact .kept ⟨req, attempt.pass, result, hrun⟩ rfl
          · rw [if_neg (by simp [show finalErr.is .errVerificationFailed = false from hplain])] at h
            cases h
            exact .replaced ⟨req, attempt.pass, result, hrun⟩ passErr finalErr hpassErr hpass
              hplain rfl

/-- The loop goes on after a pass that failed without a verification failure. -/
theorem runAttempt_retry {first : Bool} {attempt : Attempt} {lastErr : GoError} {last : PassRun}
    (h : runAttempt req first attempt = some (.retry lastErr last)) :
    NotVerification lastErr ∧ last.result.answer.err = some lastErr := by
  unfold runAttempt at h
  split at h
  · cases h
  · cases h
  · split at h
    · cases h
    · next result hrun =>
      dsimp only at h
      split at h
      · cases h
      · next passErr hpassErr =>
        split at h
        · next hfinal =>
          cases h
          have hplain : NotVerification lastErr := by
            unfold finalFetchError at hfinal
            split at hfinal
            · cases hfinal
            · next hfailed => simpa [NotVerification] using hfailed
          exact ⟨hplain, hpassErr⟩
        · split at h <;> cases h

theorem fetchWithRetryFrom_ending {attempts : Nat → Attempt} {retries attempt : Nat}
    {r : RetryResult} (h : fetchWithRetryFrom req attempts retries attempt = some r) :
    r.Ending := by
  induction retries generalizing attempt with
  | zero =>
    simp only [fetchWithRetryFrom] at h
    split at h
    · cases h
    · next hended =>
      cases h
      exact runAttempt_final hended
    · next lastErr last hended =>
      cases h
      obtain ⟨hplain, hpass⟩ := runAttempt_retry hended
      exact .replaced last lastErr _ hpass hplain (hplain.wrapOne _) rfl
  | succ retries ih =>
    simp only [fetchWithRetryFrom] at h
    split at h
    · cases h
    · next hended =>
      cases h
      exact runAttempt_final hended
    · exact ih h

end Retry

section Fetch

variable {f : Fetcher} {err : GoError}

theorem parseDigestRef_error {imageRef : String} {parsed : Option ParsedRef}
    (h : f.parseDigestRef imageRef parsed = .error err) : NotVerification err := by
  unfold Fetcher.parseDigestRef at h
  split at h
  · cases h
  · split at h
    · next inner _ =>
      cases h
      exact NotVerification.wrapOne inner.property _
    · cases h

/-- A fetch ends before a retry loop, with the result of one, or with the result of the
fallback loop and an error that wraps that of the mirror as well. -/
inductive FetchResult.Origin (r : FetchResult) : Prop where
  | unparsed (err : GoError) (mirrorErr : Option GoError) (hplain : NotVerification err)
      (hr : r = ⟨.failed err, mirrorErr⟩)
  | plain (hmirror : r.mirrorErr = none) (hending : r.Ending)
  | fallback (mirrorErr : GoError) (result : RetryResult) (hending : result.Ending)
      (originalRef mirrorRef : String)
      (hr : r = ⟨⟨⟨result.answer.attestations, result.answer.err.map fun fallbackErr =>
        fallbackError originalRef mirrorRef fallbackErr mirrorErr⟩, result.decided⟩,
        some mirrorErr⟩)

theorem fetchWithFallback_origin {opts : FetchOptions} {mirrorRef : String} {fallback : Fallback}
    {mirrorErr : GoError} {r : FetchResult}
    (h : f.fetchWithFallback opts mirrorRef fallback mirrorErr = some r) : r.Origin := by
  unfold Fetcher.fetchWithFallback at h
  split at h
  · next hparse =>
    cases h
    exact .unparsed _ _ ((parseDigestRef_error hparse).wrapOne _) rfl
  · obtain ⟨result, hresult, rfl⟩ := Option.map_eq_some_iff.mp h
    exact .fallback mirrorErr result (fetchWithRetryFrom_ending hresult) _ _ rfl

theorem fetch_origin {imageRef : String} {opts : Option FetchOptions}
    {registry : Except ForeignError Registry} {r : FetchResult}
    (h : f.fetch imageRef opts registry = some r) : r.Origin := by
  unfold Fetcher.fetch at h
  split at h
  · cases h
    exact .unparsed _ _ (by rfl) rfl
  · split at h
    · cases h
      exact .unparsed _ _ (by rfl) rfl
    · split at h
      · next inner =>
        cases h
        exact .unparsed _ _ (NotVerification.wrapOne inner.property _) rfl
      · dsimp only at h
        split at h
        · next hparse =>
          cases h
          exact .unparsed _ _ ((parseDigestRef_error hparse).wrapOne _) rfl
        · obtain ⟨result, hresult, hnext⟩ := Option.bind_eq_some_iff.mp h
          have hending := fetchWithRetryFrom_ending hresult
          split at hnext
          · split at hnext
            · exact fetchWithFallback_origin hnext
            · cases hnext
              exact .plain rfl hending
          · cases hnext
            exact .plain rfl hending

namespace RetryResult.Ending

variable {r : RetryResult} {run : PassRun}

/-- The failed verification of a retry loop is that of its last pass. -/
theorem failed_run (h : r.Ending) (herr : r.answer.err = some err)
    (hdecided : r.decided = some run) (hfailed : err.is .errVerificationFailed = true) :
    run.result.answer.err = some err := by
  cases h with
  | interrupted _ _ hr =>
    rw [hr] at hdecided
    cases hdecided
  | kept other hr =>
    rw [hr] at herr hdecided
    cases hdecided
    exact herr
  | replaced _ _ _ _ _ hplain hr =>
    rw [hr] at herr
    cases herr
    exact absurd (hfailed.symm.trans hplain) (by decide)

/-- The last pass of a retry loop was answered exactly if it was undisturbed, failed
verification, and nothing that the tag left open was hidden. -/
theorem answered_iff (h : r.Ending) (herr : r.answer.err = some err)
    (hdecided : r.decided = some run)
    (hcomplete : err.is .errIncompleteAttestationSet = false) :
    run.result.unanswered = [] ↔ run.pass.Undisturbed run.req ∧ run.result.TagAnswered ∧
      errorIs run.result.answer.err .errVerificationFailed = true := by
  cases h with
  | interrupted _ _ hr =>
    rw [hr] at hdecided
    cases hdecided
  | kept other hr =>
    rw [hr] at herr hdecided
    cases hdecided
    rw [show run.result.answer.err = some err from herr, errorIs_some]
    cases hfailed : err.is .errVerificationFailed with
    | true =>
      rw [fetchOnce_answered_iff run.run herr ⟨hfailed, hcomplete⟩]
      simp
    | false => simp [fetchOnce_backed run.run herr hfailed]
  | replaced other passErr _ hpass hpassPlain _ hr =>
    rw [hr] at hdecided
    cases hdecided
    rw [hpass, errorIs_some, show passErr.is .errVerificationFailed = false from hpassPlain]
    simp [fetchOnce_backed run.run hpass hpassPlain]

end RetryResult.Ending

theorem fallbackError_ignorable_iff {originalRef mirrorRef : String}
    {fallbackErr mirrorErr : GoError} :
    Ignorable (fallbackError originalRef mirrorRef fallbackErr mirrorErr) ↔
      (fallbackErr.is .errVerificationFailed = true ∨ mirrorErr.is .errVerificationFailed = true) ∧
        fallbackErr.is .errIncompleteAttestationSet = false ∧
        mirrorErr.is .errIncompleteAttestationSet = false := by
  simp [Ignorable, fallbackError]

end Fetch

/-- Everything the pass that decided the fetch asked for was answered. -/
def FetchResult.Answered (r : FetchResult) : Prop :=
  ∃ run, r.decided = some run ∧ run.result.unanswered = []

/-- The pass that decided the fetch was undisturbed and its tag was read, and it is not
a mirror's failed verification that made the failure of the original registry
ignorable. -/
def FetchResult.Undisturbed (r : FetchResult) : Prop :=
  ∃ run, r.decided = some run ∧ run.pass.Undisturbed run.req ∧ run.result.TagAnswered ∧
    ∀ mirrorErr, r.mirrorErr = some mirrorErr → mirrorErr.is .errVerificationFailed = true →
      errorIs run.result.answer.err .errVerificationFailed = true

def foreign (text : String) : ForeignError := ⟨⟨text, []⟩, rfl⟩

def plainLibrary : FetchLibrary where
  gunzip _ := .error (foreign "gzip: invalid header")
  extractPredicateType _ := ""
  baselineSBOMDocument _ _ := none
  isSigstoreBundleJSON _ := true
  legacyLayerToBundles _ _ _ := .ok []
  loadKeyHint _ := .ok none

def plainFetcher : Fetcher where
  lib := plainLibrary
  cfg := ⟨1048576, 0⟩
  parseReference imageRef := .ok imageRef

def plainOptions : FetchOptions := ⟨[], [], [], false, 0, "sha256:00", none⟩

/-- A pass that finds one junk bundle, which fails verification. -/
def junkPass (tagImage : Except RegistryFailure Image) : Pass where
  listing := .ok (.ok [⟨bundleMediaType, "sha256:01", 512, []⟩])
  listingBytes := 128
  candidate _ :=
    { image := .ok ⟨.ok (some ⟨[⟨bundleMediaType, [], []⟩], none⟩),
        .ok [⟨.ok 4, .ok ⟨[0x6a, 0x75, 0x6e, 0x6b], none⟩⟩]⟩
      verify := fun _ => .error (foreign "parsing sigstore bundle") }
  schedule := [.start 0, .openReferrer 0 128, .download 0, .add 0, .verify 0, .finish 0].map
    (CollectOp.work .bundles)
  tag := ⟨tagImage, 0, fun _ => ⟨none, fun _ => (none, .error (foreign "no bundle"))⟩, none⟩

/-- A tag request that the registry answers with a status code. -/
def tagStatus (statusCode : Nat) (temporary : Bool) : Except RegistryFailure Image :=
  .error ⟨⟨⟨"unexpected status code", [.transport statusCode temporary]⟩, rfl⟩, false⟩

def junkRegistry (tagImage : Except RegistryFailure Image) : Registry where
  effectiveRef := "registry.example/app"
  attempts _ := ⟨none, none, junkPass tagImage, none⟩
  ctx := none
  fallback := none

/-- When a fetch ends with an ignorable verification failure, everything the deciding
pass asked for was answered exactly if the pass was undisturbed, the cosign tag was not
unreadable behind junk referrers, and no mirror decided for the original registry. -/
theorem ignorable_failure_answered_iff (f : Fetcher) (imageRef : String)
    (opts : Option FetchOptions) (registry : Except ForeignError Registry) (r : FetchResult)
    (err : GoError) (hfetch : f.fetch imageRef opts registry = some r)
    (herr : r.answer.err = some err) (hign : Ignorable err) :
    r.Answered ↔ r.Undisturbed := by
  unfold FetchResult.Answered FetchResult.Undisturbed
  refine exists_congr fun run => and_congr_right fun hdecided => ?_
  cases fetch_origin hfetch with
  | plain hmirror hending =>
    rw [hending.answered_iff herr hdecided hign.2]
    have hfailed : errorIs run.result.answer.err .errVerificationFailed = true := by
      rw [hending.failed_run herr hdecided hign.1]
      exact hign.1
    simp [hmirror, hfailed]
  | unparsed err' mirrorErr hplain hr =>
    subst hr
    cases herr
    exact absurd hign hplain.not_ignorable
  | fallback mirrorErr result hending originalRef mirrorRef hr =>
    subst hr
    obtain ⟨fallbackErr, hfallback, rfl⟩ := Option.map_eq_some_iff.mp herr
    obtain ⟨hfailed, hcomplete, _⟩ := fallbackError_ignorable_iff.mp hign
    rw [hending.answered_iff hfallback hdecided hcomplete]
    refine and_congr_right fun _ => and_congr_right fun _ => ⟨fun hown _ _ _ => hown, ?_⟩
    intro hdecides
    rcases hfailed with hown | hmirrorFailed
    · rw [hending.failed_run hfallback hdecided hown]
      exact hown
    · exact hdecides mirrorErr rfl hmirrorFailed

/-- A junk referrer and no tag: the failure is ignorable, and everything was answered. -/
theorem junk_referrer_missing_tag_answered :
    ∃ r err, plainFetcher.fetch "registry.example/app" (some plainOptions)
        (.ok (junkRegistry (tagStatus 404 false))) = some r ∧
      r.answer.err = some err ∧ Ignorable err ∧ (r.Answered ↔ r.Undisturbed) ∧ r.Answered := by
  refine ⟨_, _, rfl, rfl, by decide, ?_, ⟨_, rfl, rfl⟩⟩
  exact ignorable_failure_answered_iff plainFetcher "registry.example/app" (some plainOptions)
    (.ok (junkRegistry (tagStatus 404 false))) _ _ rfl rfl (by decide)

/-- One junk referrer turns a registry that cannot serve the cosign tag into an
ignorable failure: the image is evaluated as having no attestations. -/
theorem junk_referrer_hides_unreachable_tag :
    ∃ r err, plainFetcher.fetch "registry.example/app" (some plainOptions)
        (.ok (junkRegistry (tagStatus 503 true))) = some r ∧
      r.answer.err = some err ∧ Ignorable err ∧ ¬r.Answered := by
  refine ⟨_, _, rfl, rfl, by decide, ?_⟩
  rintro ⟨run, hrun, hnil⟩
  cases hrun
  cases hnil

end NriSupplyChain.Attestation
