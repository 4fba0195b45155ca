import NriSupplyChain.Verifier.IncompleteSets
import NriSupplyChain.Verifier.Requests

/-!
When one request may be served the result of another. The checks read the index
digest of a request, but neither the cache key nor the flight key names it.
-/

namespace NriSupplyChain.Verifier

open NriSupplyChain.Types Attestation

/-- The fetcher answers the same for the same image reference and options,
whichever of the two fetches asks. -/
def Environment.Deterministic (env : Environment) : Prop :=
  ∀ imageRef opts, env.fetch .index imageRef opts = env.fetch .platform imageRef opts

/-- The checks of a request under a snapshot. -/
def computedResult (lib : Library) (env : Environment) (state : Snapshot) (req : VerifyRequest) :
    Option (Except String (Result × Int)) :=
  (resolvedPolicy lib state req).map fun resolved =>
    runChecks lib env state resolved.1 (effectiveMode lib state req) req

/-- The cache key of a request under a snapshot. -/
def requestKey (lib : Library) (state : Snapshot) (req : VerifyRequest) : Option Cache.Key :=
  (resolvedPolicy lib state req).map fun resolved => sharedKey req resolved.2

/-- Namespaces and image references hold no zero byte. -/
def VerifyRequest.ZeroFree (req : VerifyRequest) : Prop :=
  (0 : UInt8) ∉ bytes req.nameSpace ∧ (0 : UInt8) ∉ bytes req.imageRef

/-- Requests with one key differ in nothing but the index digest. -/
theorem eq_of_requestKey_eq {lib : Library} {state : Snapshot} {r₁ r₂ : VerifyRequest}
    {key : Cache.Key} (hfree₁ : r₁.ZeroFree) (hfree₂ : r₂.ZeroFree)
    (h₁ : requestKey lib state r₁ = some key) (h₂ : requestKey lib state r₂ = some key) :
    r₁.imageRef = r₂.imageRef ∧ r₁.digest = r₂.digest ∧ r₁.nameSpace = r₂.nameSpace := by
  obtain ⟨p₁, _, rfl⟩ := Option.map_eq_some_iff.mp h₁
  obtain ⟨p₂, _, hkey⟩ := Option.map_eq_some_iff.mp h₂
  simp only [sharedKey, Cache.Key.mk.injEq] at hkey
  obtain ⟨hns, href⟩ :=
    cacheNamespaceKey_injective hfree₂.1 hfree₁.1 hfree₂.2 hfree₁.2 hkey.2
  exact ⟨(bytes_injective href).symm, (bytes_injective hkey.1).symm, (bytes_injective hns).symm⟩

/-- A registry that answers a fetch by the digest it asks for. -/
def digestEnvironment (answer : String → FetchAnswer) : Environment :=
  { answeringEnvironment ⟨[], none⟩ ⟨[], none⟩ with
    fetch := fun _ _ opts => .ok (answer opts.digest) }

theorem digestEnvironment_deterministic (answer : String → FetchAnswer) :
    (digestEnvironment answer).Deterministic :=
  fun _ _ => rfl

section Distinguish

variable (lib : Library) {state : Snapshot} (pol : Policy) (mode : VerificationMode)
  {req : VerifyRequest}

theorem performedReports_digestEnvironment (answer : String → FetchAnswer)
    (hfetcher : state.hasFetcher = true) (hdigest : req.digest ≠ "")
    (hnone : ∀ digest, (answer digest).attestations = []) :
    performedReports lib (digestEnvironment answer) state pol req =
      some ⟨if req.indexDigest = "" then none else (answer req.indexDigest).err,
        (answer req.digest).err⟩ := by
  have hanswer (digest : String) : answer digest = ⟨[], (answer digest).err⟩ := by
    rw [← hnone digest]
  have hindex : indexAnswer (digestEnvironment answer).toFetching req
      (fetchOptions lib state pol req) =
        .ok ⟨[], if req.indexDigest = "" then none else (answer req.indexDigest).err⟩ := by
    unfold indexAnswer
    split
    · rfl
    · exact congrArg Except.ok (hanswer req.indexDigest)
  have hplatform : (digestEnvironment answer).fetch .platform req.imageRef
      (fetchOptions lib state pol req req.digest) = .ok (answer req.digest) := rfl
  have haccess (host : List UInt8) : (digestEnvironment answer).access host = .granted := rfl
  simp only [performedReports, hfetcher, hdigest, Bool.not_true, decide_false, Bool.or_false,
    Bool.false_eq_true, if_false, haccess, fetchReports, hindex, hplatform]

/-- The types of the checks in a computed result. -/
def checkTypesOf (result : Result) : List CheckType :=
  result.checkResults.map (fun check => check.type)

/-- A transport failure ends in a fetch check. -/
theorem runChecks_transport {env : Environment} {r : Reports}
    (hr : performedReports lib env state pol req = some r) (h : r.transport env.canceled = true) :
    ∃ result ttl, runChecks lib env state pol mode req = .ok (result, ttl) ∧
      checkTypesOf result = [.fetch] := by
  obtain ⟨o, hrun, htransport, _⟩ := runChecks_of_reports mode hr
  rw [h] at htransport
  obtain ⟨err, herr⟩ := Option.isSome_iff_exists.mp htransport
  refine ⟨_, _, by rw [hrun, runFetchedChecks, herr], ?_⟩
  cases state.config.effectiveFetchFailurePolicy mode <;> rfl

/-- An incomplete set that is not outvoted ends in an attestation check. -/
theorem runChecks_incomplete {env : Environment} {r : Reports}
    (hr : performedReports lib env state pol req = some r) (h : r.Incomplete)
    (htransport : r.transport env.canceled = false)
    (hvf : errorIs r.deciding .errVerificationFailed = true) :
    ∃ result ttl, runChecks lib env state pol mode req = .ok (result, ttl) ∧
      checkTypesOf result = [.attestation] := by
  obtain ⟨o, hrun, hsome, hdeciding⟩ := runChecks_of_reports mode hr
  obtain ⟨e, herr, hdecides⟩ := hdeciding h
  rw [htransport, Option.isSome_eq_false_iff, Option.isNone_iff_eq_none] at hsome
  refine ⟨_, _, hrun.trans (runFetchedChecks_decided lib env state pol _ req h hsome herr hdecides),
    ?_⟩
  rw [← hdecides] at hvf
  simp [fetchErrorResult, hvf, checkTypesOf, resultFromCheck, failResult]

/-- One index digest cannot be reached and every other digest has too many
referrers. -/
def unreachableAnswer (index digest : String) : FetchAnswer :=
  ⟨[], some (if digest = index then unavailableError else incompleteError)⟩

def unreachableAt (index : String) : Environment := digestEnvironment (unreachableAnswer index)

theorem runChecks_ne_of_index {r r' : VerifyRequest} (hfetcher : state.hasFetcher = true)
    (hdigest : r.digest ≠ "") (hsame : r'.digest = r.digest) (hindex : r.indexDigest ≠ "")
    (hplatform : r.indexDigest ≠ r.digest) (hne : r.indexDigest ≠ r'.indexDigest) :
    runChecks lib (unreachableAt r.indexDigest) state pol mode r ≠
      runChecks lib (unreachableAt r.indexDigest) state pol mode r' := by
  have hr := performedReports_digestEnvironment lib pol (unreachableAnswer r.indexDigest) hfetcher
    hdigest (fun _ => rfl)
  have hr' := performedReports_digestEnvironment lib pol (unreachableAnswer r.indexDigest) hfetcher
    (hsame ▸ hdigest) (fun _ => rfl)
  simp only [unreachableAnswer, if_neg hindex, if_true, if_neg hplatform.symm] at hr
  simp only [unreachableAnswer, hsame, if_neg hplatform.symm, if_neg hne.symm] at hr'
  obtain ⟨result, ttl, hrun, htypes⟩ := runChecks_transport lib pol mode hr rfl
  obtain ⟨result', ttl', hrun', htypes'⟩ := runChecks_incomplete lib pol mode hr' (.inr rfl)
    (by
      cases hempty : decide (r'.indexDigest = "") <;> simp at hempty <;> simp [hempty] <;> rfl) rfl
  intro heq
  cases (hrun.symm.trans heq).trans hrun'
  rw [htypes] at htypes'
  cases htypes'

/-- A registry where every digest has too many referrers. -/
def overflowing : Environment := digestEnvironment fun _ => ⟨[], some incompleteError⟩

/-- What an image fetched once, or twice, fails with. -/
theorem runChecks_overflowing (req : VerifyRequest) (hfetcher : state.hasFetcher = true)
    (hdigest : req.digest ≠ "") : ∃ e ttl, runChecks lib overflowing state pol mode req =
        .ok (fetchErrorResult e req.imageRef (state.config.effectiveFetchFailurePolicy mode), ttl) ∧
      e.is .errVerificationFailed = true ∧
      e.text = "fetching attestations: " ++ incompleteError.text ++
        (if req.indexDigest = "" then "" else " (index digest: " ++
          ("fetching attestations for index digest " ++ req.indexDigest ++ ": " ++
            incompleteError.text) ++ ")") := by
  by_cases hindex : req.indexDigest = ""
  · refine ⟨GoError.errorf ("fetching attestations: " ++ incompleteError.text) [incompleteError],
      fetchErrorCacheTTL state.config, ?_, rfl, ?_⟩
    · simp only [runChecks, hfetcher, hdigest, fetchAttestations, fetchIndexAttestations, hindex]
      rfl
    · simp [GoError.errorf, hindex]
  · refine ⟨GoError.errorf ("fetching attestations: " ++ incompleteError.text ++
        " (index digest: " ++ ("fetching attestations for index digest " ++ req.indexDigest ++
          ": " ++ incompleteError.text) ++ ")") [incompleteError],
      fetchErrorCacheTTL state.config, ?_, rfl, ?_⟩
    · simp only [runChecks, hfetcher, hdigest, fetchAttestations, fetchIndexAttestations, hindex]
      rfl
    · simp [GoError.errorf, hindex, String.append_assoc]

/-- An image fetched by one digest twice fails with a longer text than one
fetched once. -/
theorem runChecks_ne_of_fetched_twice {r r' : VerifyRequest} (hfetcher : state.hasFetcher = true)
    (hdigest : r.digest ≠ "") (hsame : r'.digest = r.digest) (hindex : r.indexDigest ≠ "")
    (hnone : r'.indexDigest = "") :
    runChecks lib overflowing state pol mode r ≠ runChecks lib overflowing state pol mode r' := by
  obtain ⟨e, ttl, hrun, hvf, htext⟩ :=
    runChecks_overflowing lib pol mode r hfetcher hdigest
  obtain ⟨e', ttl', hrun', hvf', htext'⟩ :=
    runChecks_overflowing lib pol mode r' hfetcher (hsame ▸ hdigest)
  intro heq
  have hresult := Except.ok.inj ((hrun.symm.trans heq).trans hrun')
  have herr := congrArg (fun x => x.1.checkResults.map (fun check => check.err)) hresult
  simp only [fetchErrorResult, hvf, hvf', Bool.not_true, Bool.false_eq_true, if_false,
    resultFromCheck, failResult, List.map_cons, List.map_nil, List.cons.injEq, Option.some.injEq,
    and_true] at herr
  have hlength := congrArg (fun err => err.text.length) herr
  simp only [htext, htext', hindex, hnone, if_true, if_false, String.length_append] at hlength
  have hpositive : 0 < " (index digest: ".length := by decide
  have hzero : "".length = 0 := rfl
  omega

end Distinguish

/-- Requests through different indexes are told apart by some registry. -/
theorem exists_distinguishing (lib : Library) {state : Snapshot} (pol : Policy)
    (mode : VerificationMode) {r₁ r₂ : VerifyRequest} (hfetcher : state.hasFetcher = true)
    (hdigest : r₁.digest ≠ "") (hsame : r₁.digest = r₂.digest)
    (hne : r₁.indexDigest ≠ r₂.indexDigest) :
    ∃ env : Environment, env.Deterministic ∧
      runChecks lib env state pol mode r₁ ≠ runChecks lib env state pol mode r₂ := by
  have hdigest₂ : r₂.digest ≠ "" := hsame ▸ hdigest
  by_cases h₁ : r₁.indexDigest ≠ "" ∧ r₁.indexDigest ≠ r₁.digest
  · exact ⟨_, digestEnvironment_deterministic _,
      runChecks_ne_of_index lib pol mode hfetcher hdigest hsame.symm h₁.1 h₁.2 hne⟩
  by_cases h₂ : r₂.indexDigest ≠ "" ∧ r₂.indexDigest ≠ r₂.digest
  · exact ⟨_, digestEnvironment_deterministic _,
      (runChecks_ne_of_index lib pol mode hfetcher hdigest₂ hsame h₂.1 h₂.2 hne.symm).symm⟩
  by_cases hempty : r₁.indexDigest = ""
  · have hindex : r₂.indexDigest ≠ "" := fun h => hne (hempty.trans h.symm)
    exact ⟨_, digestEnvironment_deterministic _,
      (runChecks_ne_of_fetched_twice lib pol mode hfetcher hdigest₂ hsame hindex hempty).symm⟩
  · have hindex : r₁.indexDigest = r₁.digest := by
      by_contra h
      exact h₁ ⟨hempty, h⟩
    have hempty₂ : r₂.indexDigest = "" := by
      by_contra h
      refine h₂ ⟨h, ?_⟩
      rw [← hsame, ← hindex]
      exact hne.symm
    exact ⟨_, digestEnvironment_deterministic _,
      runChecks_ne_of_fetched_twice lib pol mode hfetcher hdigest hsame.symm hempty hempty₂⟩

/-- Two requests with one cache key get the same result from every registry
exactly when they were resolved through the same index, or when the checks fetch
nothing. -/
theorem shared_results_agree_iff {lib : Library} {state : Snapshot} {r₁ r₂ : VerifyRequest}
    {key : Cache.Key} (hfree₁ : r₁.ZeroFree) (hfree₂ : r₂.ZeroFree)
    (h₁ : requestKey lib state r₁ = some key) (h₂ : requestKey lib state r₂ = some key) :
    (∀ env : Environment, env.Deterministic →
      computedResult lib env state r₁ = computedResult lib env state r₂) ↔
    r₁.indexDigest = r₂.indexDigest ∨ state.hasFetcher = false ∨ r₁.digest = "" := by
  obtain ⟨href, hdigest, hns⟩ := eq_of_requestKey_eq hfree₁ hfree₂ h₁ h₂
  have hresolved : resolvedPolicy lib state r₁ = resolvedPolicy lib state r₂ := by
    simp only [resolvedPolicy, href, hns]
  have hmode : effectiveMode lib state r₁ = effectiveMode lib state r₂ := by
    simp only [effectiveMode, hresolved]
  obtain ⟨resolved, hpol, _⟩ := Option.map_eq_some_iff.mp h₂
  have hcomputed (env : Environment) :
      computedResult lib env state r₁ = computedResult lib env state r₂ ↔
        runChecks lib env state resolved.1 (effectiveMode lib state r₂) r₁ =
          runChecks lib env state resolved.1 (effectiveMode lib state r₂) r₂ := by
    simp [computedResult, hresolved, hmode, hpol]
  constructor
  · intro hagree
    by_contra hdiffer
    simp only [not_or, Bool.not_eq_false] at hdiffer
    obtain ⟨hne, hfetcher, hnonempty⟩ := hdiffer
    obtain ⟨env, hdeterministic, hdistinct⟩ := exists_distinguishing lib resolved.1
      (effectiveMode lib state r₂) hfetcher hnonempty hdigest hne
    exact hdistinct ((hcomputed env).mp (hagree env hdeterministic))
  · intro hsame env _
    rw [hcomputed env]
    rcases hsame with hindex | hfetcher | hempty
    · have hreq : r₁ = r₂ := by
        cases r₁
        cases r₂
        simp_all
      rw [hreq]
    · simp only [runChecks, hfetcher, href, Bool.not_false, if_true]
    · simp only [runChecks, href, ← hdigest, hempty, if_true]

/-- The same platform image, resolved through another index. -/
def otherIndexRequest : VerifyRequest := { multiArchRequest with indexDigest := "sha256:cc" }

/-- Both requests share a key and differ in the index only, so some registry
tells them apart. -/
theorem multiArch_results_disagree :
    ¬∀ env : Environment, env.Deterministic →
      computedResult plainLibrary env lenientSnapshot multiArchRequest =
        computedResult plainLibrary env lenientSnapshot otherIndexRequest := by
  intro hagree
  have hindex := (shared_results_agree_iff (by constructor <;> decide) (by constructor <;> decide)
    (rfl : requestKey plainLibrary lenientSnapshot multiArchRequest = some _) rfl).mp hagree
  rcases hindex with h | h | h
  · exact absurd h (by decide)
  · cases h
  · exact absurd h (by decide)

/-- A registry where the index of `multiArchRequest` has too many referrers and
no other digest has any. -/
def overflowingIndex : Environment :=
  digestEnvironment fun digest =>
    if digest = multiArchRequest.indexDigest then ⟨[], some incompleteError⟩ else ⟨[], none⟩

/-- Two requests with one key: the checks deny the image for one index and admit
it for the other. -/
theorem index_decides_under_one_key :
    requestKey plainLibrary lenientSnapshot multiArchRequest =
        requestKey plainLibrary lenientSnapshot otherIndexRequest ∧
      overflowingIndex.Deterministic ∧
      ∃ denied admitted ttl ttl',
        computedResult plainLibrary overflowingIndex lenientSnapshot multiArchRequest =
            some (.ok (denied, ttl)) ∧ denied.allowed = false ∧
          computedResult plainLibrary overflowingIndex lenientSnapshot otherIndexRequest =
            some (.ok (admitted, ttl')) ∧ admitted.allowed = true := by
  refine ⟨rfl, digestEnvironment_deterministic _, _, _, _, _, rfl, rfl, rfl, rfl⟩

end NriSupplyChain.Verifier
