import NriSupplyChain.Attestation.ScheduleOrder
import NriSupplyChain.Bundle.Treatment

/-!
The registry path for attestations that are held as referrers: under every schedule of the
fetches, over all retries and with a fallback registry, its answer is treated as the outcomes of
the single verifications say.
-/

namespace NriSupplyChain.Bundle

open NriSupplyChain.Types Lib Attestation

theorem attestationFromVerified_bundle {lib : FetchLibrary} {verified : VerifiedBundle}
    {data : List UInt8} {digest : String} {att : VerifiedAttestation}
    (h : attestationFromVerified lib verified data digest = some att) : att.bundle = data := by
  unfold attestationFromVerified at h
  dsimp only at h
  generalize (if verified.predicateType = "" then lib.extractPredicateType verified.payload
    else verified.predicateType) = predicateType at h
  split at h
  · cases h
  · obtain ⟨payload, -, rfl⟩ := Option.map_eq_some_iff.mp h
    rfl

section Judged

variable (lib : FetchLibrary) (digest : String) (v : BundleVerifier)

/-- Nothing has to be served for a candidate that is only verified. -/
def verifyOnly : Candidate := ⟨.ok ⟨.ok none, .ok []⟩, v.verify⟩

/-- Referrers that are all fetched. -/
def referrers (datas : List (List UInt8)) : Workload where
  deliveries := datas.map Delivery.read
  verdict := verifyReferrer lib digest none (verifyOnly v)
  verdict_bundle data att h := by
    simp only [verifyReferrer] at h
    split at h
    · split at h <;> cases h
    · split at h
      · cases h
      · next hatt =>
        obtain rfl := Option.some.inj h
        exact attestationFromVerified_bundle hatt
  unmixed f data h _ := by
    obtain ⟨data', -, hread⟩ := List.mem_map.mp h
    cases hread

/-- What becomes of a referrer is what is judged of its bundle. -/
theorem verdict_eq (datas : List (List UInt8)) (data : List UInt8) :
    (referrers lib digest v datas).verdict data =
      match judge lib digest v data with
      | .verified att => ⟨some att, .verified, none, []⟩
      | .rejected => .rejected
      | .keyUnavailable err => ⟨none, .keyUnavailable, some err, [.undecided err]⟩
      | .rootUnavailable err => ⟨none, .fetchFailed, some err, [.undecided err]⟩ := by
  simp only [referrers, verifyReferrer, verifyOnly, verifyBundleCommon, judge, Option.map_none]
  cases hverify : v.verify data with
  | error err =>
    cases hkey : err.val.is .errTrustedKeyUnavailable with
    | true =>
      have hmaterial := v.key_material data err hverify hkey
      simp [hkey, hmaterial, Fetched.undecided, trustMaterialOutcome]
    | false =>
      cases hroot : err.val.is .errTrustMaterialUnavailable with
      | true => simp [hkey, hroot, Fetched.undecided, trustMaterialOutcome]
      | false => simp [hkey, hroot, Fetched.rejected]
  | ok verified =>
    dsimp only
    cases attestationFromVerified lib verified data digest <;> rfl

theorem marked_merge (s t : CollectStats) (mark : Mark) :
    (s.merge t).marked mark = (s.marked mark || t.marked mark) := by
  cases mark with
  | limit | fetch | key => simp [CollectStats.marked, CollectStats.merge]
  | failed =>
    rw [Bool.eq_iff_iff]
    simp only [CollectStats.marked, CollectStats.merge, bne_iff_ne, Bool.or_eq_true]
    omega

/-- Bundles with another predicate than baseline SBOMs are marked as failed. -/
theorem marked_baselineStats (s : CollectState) (mark : Mark) :
    s.baselineStats.marked mark = true ↔ (s.collector .baselines).stats.marked mark = true ∨
      (mark = .failed ∧
        ∃ att ∈ s.collected .baselines, att.predicateType ≠ predicateBaselineSBOM) := by
  have hfold (rejected : List VerifiedAttestation) (stats : CollectStats) :
      (rejected.foldl (fun stats _ => stats.record .verifyFailed none) stats).marked mark = true ↔
        stats.marked mark = true ∨ (mark = .failed ∧ ∃ att, att ∈ rejected) := by
    induction rejected generalizing stats with
    | nil => simp
    | cons att rest ih =>
      have hrecord : (stats.record .verifyFailed none).marked mark =
          (stats.marked mark || Fetched.rejected.marks mark) :=
        CollectStats.marked_record stats .rejected mark
      rw [List.foldl_cons, ih, hrecord]
      cases mark <;> simp [Fetched.marks, Fetched.rejected]
  rw [CollectState.baselineStats, hfold]
  simp [List.mem_filter]

/-- What a collector of referrers that are all fetched ends with. -/
structure Gathered (datas : List (List UInt8)) (atts : List VerifiedAttestation)
    (stats : CollectStats) : Prop where
  attestations : ∀ att, att ∈ atts ↔ ∃ data ∈ datas, judge lib digest v data = .verified att
  limit : stats.marked .limit = false
  root : stats.marked .fetch = true ↔
    ∃ data ∈ datas, ∃ err, judge lib digest v data = .rootUnavailable err
  key : stats.marked .key = true ↔
    ∃ data ∈ datas, ∃ err, judge lib digest v data = .keyUnavailable err
  failed : stats.marked .failed = true ↔ ∃ data ∈ datas, judge lib digest v data = .rejected

variable {lib digest v}

theorem mem_keys_referrers {datas : List (List UInt8)} {k : Workload.Key} :
    k ∈ (referrers lib digest v datas).keys ↔ ∃ data ∈ datas, k = .blob data := by
  constructor
  · intro hk
    obtain ⟨i, hi⟩ := List.getElem?_of_mem hk
    rw [Workload.keys_getElem?] at hi
    obtain ⟨delivery, hdelivery, rfl⟩ := Option.map_eq_some_iff.mp hi
    obtain ⟨data, hdata, rfl⟩ := List.mem_map.mp (List.mem_of_getElem? hdelivery)
    exact ⟨data, hdata, rfl⟩
  · rintro ⟨data, hdata, rfl⟩
    obtain ⟨i, hi⟩ := List.getElem?_of_mem hdata
    apply List.mem_of_getElem? (i := i)
    rw [Workload.keys_getElem?]
    simp [referrers, hi, Workload.keyAt]

/-- The marks in the statistics are those of the judgements. -/
theorem gathered_of_complete {datas : List (List UInt8)} {c : Collector}
    (hfits : (referrers lib digest v datas).total ≤ maxTotalAttestationSize)
    (hsound : (referrers lib digest v datas).Sound c) (hcomplete : c.complete) :
    Gathered lib digest v datas c.compactSlots c.stats := by
  obtain ⟨owner, settled, hexact⟩ := hsound.exact hfits
  have hmarked (mark : Mark) : c.stats.marked mark = true ↔
      ∃ data ∈ datas, ((referrers lib digest v datas).verdict data).marks mark = true := by
    rw [hexact.marked, hexact.settled_eq hcomplete]
    simp only [List.mem_toFinset, mem_keys_referrers]
    constructor
    · rintro ⟨k, ⟨data, hdata, rfl⟩, hmark⟩
      exact ⟨data, hdata, hmark⟩
    · rintro ⟨data, hdata, hmark⟩
      exact ⟨_, ⟨data, hdata, rfl⟩, hmark⟩
  refine ⟨?_, ?_, ?_, ?_, ?_⟩
  · intro att
    rw [hexact.compactSlots_eq hcomplete, List.mem_filterMap]
    constructor
    · rintro ⟨k, hk, hvalue⟩
      have hmem := List.mem_of_getElem? (mem_pickedKeys.mp hk)
      obtain ⟨data, hdata, rfl⟩ := mem_keys_referrers.mp hmem
      refine ⟨data, hdata, ?_⟩
      rw [Workload.value, Workload.fetched, verdict_eq] at hvalue
      cases hjudge : judge lib digest v data with
      | verified other =>
        rw [hjudge] at hvalue
        rw [Option.some.inj hvalue]
      | rejected | keyUnavailable _ | rootUnavailable _ =>
        rw [hjudge] at hvalue
        cases hvalue
    · rintro ⟨data, hdata, hjudge⟩
      have hk : Workload.Key.blob data ∈ (referrers lib digest v datas).keys :=
        mem_keys_referrers.mpr ⟨data, hdata, rfl⟩
      refine ⟨.blob data, mem_pickedKeys.mpr (hexact.picks hcomplete _ hk), ?_⟩
      rw [Workload.value, Workload.fetched, verdict_eq, hjudge]
  · rw [← Bool.not_eq_true, hmarked]
    rintro ⟨data, -, hmark⟩
    rw [verdict_eq] at hmark
    cases hjudge : judge lib digest v data <;> rw [hjudge] at hmark <;> cases hmark
  all_goals
    rw [hmarked]
    refine exists_congr fun data => and_congr_right fun _ => ?_
    rw [verdict_eq]
    cases judge lib digest v data <;> simp [Fetched.marks, Fetched.rejected]

variable (lib digest v) in
/-- A collection that is not interrupted, of the referrers that are held. -/
structure CollectedFor (held : List Held) (s : CollectState) : Prop where
  shown : s.Shown
  ctx : s.ctx = none
  bundles : Gathered lib digest v (bundlesOf held) (s.collected .bundles)
    (s.collector .bundles).stats
  baselines : Gathered lib digest v (baselinesOf held) (s.collected .baselines)
    (s.collector .baselines).stats
  no_signatures : s.collected .notationSigs = []
  no_signature_marks : ∀ mark, (s.collector .notationSigs).stats.marked mark = false

namespace CollectedFor

variable {held : List Held} {s : CollectState}

theorem baselineSBOMs (h : CollectedFor lib digest v held s) :
    {att | att ∈ s.baselineSBOMs} = (summary lib digest v held).baselines := by
  ext att
  simp only [CollectState.baselineSBOMs, List.mem_filter, decide_eq_true_eq, Set.mem_ofPred_eq,
    h.baselines.attestations, summary, verifiedOf]

theorem bundles_eq (h : CollectedFor lib digest v held s) :
    {att | att ∈ s.collected .bundles} = (summary lib digest v held).bundles := by
  ext att
  exact h.bundles.attestations att

/-- The marks of the merged statistics. -/
theorem marked (h : CollectedFor lib digest v held s) (mark : Mark) :
    (s.stats.foldl CollectStats.merge .empty).marked mark = true ↔
      (s.collector .bundles).stats.marked mark = true ∨
        (s.collector .baselines).stats.marked mark = true ∨
        (mark = .failed ∧ (summary lib digest v held).misplaced.Nonempty) := by
  have hempty : CollectStats.empty.marked mark = false := by cases mark <;> rfl
  have hmisplaced : (∃ att ∈ s.collected .baselines, att.predicateType ≠ predicateBaselineSBOM) ↔
      (summary lib digest v held).misplaced.Nonempty := by
    refine exists_congr fun att => ?_
    rw [h.baselines.attestations]
    rfl
  simp only [CollectState.stats, List.foldl_cons, List.foldl_nil, marked_merge, hempty,
    h.no_signature_marks, Bool.or_false, Bool.false_or, Bool.or_eq_true, marked_baselineStats,
    hmisplaced]

theorem limit (h : CollectedFor lib digest v held s) :
    (s.stats.foldl CollectStats.merge .empty).marked .limit = false := by
  rw [← Bool.not_eq_true, h.marked, h.bundles.limit, h.baselines.limit]
  simp

theorem root (h : CollectedFor lib digest v held s) :
    (s.stats.foldl CollectStats.merge .empty).marked .fetch = true ↔
      (summary lib digest v held).rootUnavailable := by
  have hheld := exists_held_iff held fun data => ∃ err, judge lib digest v data =
    .rootUnavailable err
  rw [h.marked, h.bundles.root, h.baselines.root]
  refine Iff.trans ?_ hheld.symm
  simp

theorem key (h : CollectedFor lib digest v held s) :
    (s.stats.foldl CollectStats.merge .empty).marked .key = true ↔
      (summary lib digest v held).keyUnavailable := by
  have hheld := exists_held_iff held fun data => ∃ err, judge lib digest v data =
    .keyUnavailable err
  rw [h.marked, h.bundles.key, h.baselines.key]
  refine Iff.trans ?_ hheld.symm
  simp

theorem failed (h : CollectedFor lib digest v held s) :
    (s.stats.foldl CollectStats.merge .empty).marked .failed = true ↔
      (summary lib digest v held).rejected ∨
        (summary lib digest v held).misplaced.Nonempty := by
  have hheld := exists_held_iff held fun data => judge lib digest v data = .rejected
  rw [h.marked, h.bundles.failed, h.baselines.failed, ← or_assoc]
  refine or_congr hheld.symm ?_
  simp

end CollectedFor

/-- There is no cosign tag for the image, and nothing interrupts the search for it. -/
structure NoTag (tag : TagAnswers) : Prop where
  missing : ∃ failure, tag.image = .error failure ∧ isRegistryNotFound failure.err.val = true
  ctx : tag.ctx = none

theorem NoTag.fallback {tag : TagAnswers} (h : NoTag tag) (req : FetchRequest) (used : Int) :
    cosignTagFallback req tag used = ⟨[], none, []⟩ := by
  obtain ⟨failure, himage, hmissing⟩ := h.missing
  have hfetch : fetchCosignTagAttestations req tag used =
      .ok (.new (used + tag.manifestBytes)) := by
    simp [fetchCosignTagAttestations, himage, hmissing]
  rw [cosignTagFallback, hfetch]
  dsimp only
  rw [h.ctx]
  rfl

section Pass

variable {req : FetchRequest} {pass : Pass} {held : List Held} {s : CollectState}

variable {err : GoError}

/-- An error of the collection that is no verification failure is the one of the pass. -/
theorem treatment_of_plainCollection (hctx : s.ctx = none)
    (herr : evaluateCollection (s.collected .bundles).length s.stats = some err)
    (hplain : NotVerification err) :
    treatment (evaluatePass req pass s).answer = .failurePolicy := by
  have hnot : err.is .errVerificationFailed = false := hplain
  have hanswer : (evaluatePass req pass s).answer.err = some err := by
    simp [evaluatePass, CollectState.collectSelection, herr, hnot, hctx, collectionFailure,
      tagFallbackAfterFailedReferrers]
  exact treatment_of_plain hanswer hplain

theorem treatment_of_failedCollection (htag : NoTag pass.tag)
    (hsignatures : s.collected .notationSigs = [])
    (herr : evaluateCollection (s.collected .bundles).length s.stats = some err)
    (hignorable : Ignorable err) :
    treatment (evaluatePass req pass s).answer = .ignored {att | att ∈ s.baselineSBOMs} := by
  have hfallback : tagFallbackAfterFailedReferrers req pass s.used err s.baselineSBOMs =
      ⟨[], none, []⟩ := by
    simp [tagFallbackAfterFailedReferrers, hignorable.1, hignorable.2, htag.fallback]
  have hanswer : (evaluatePass req pass s).answer = ⟨s.baselineSBOMs, some err⟩ := by
    simp [evaluatePass, CollectState.collectSelection, herr, hignorable.1, hignorable.2,
      hsignatures, collectionFailure, hfallback]
  rw [treatment_of_ignorable (congrArg FetchAnswer.err hanswer) hignorable, hanswer]

theorem treatment_of_collection (htag : NoTag pass.tag) (hctx : s.ctx = none)
    (hsignatures : s.collected .notationSigs = [])
    (herr : evaluateCollection (s.collected .bundles).length s.stats = none) :
    treatment (evaluatePass req pass s).answer =
      .evaluated ({att | att ∈ s.collected .bundles} ∪ {att | att ∈ s.baselineSBOMs}) := by
  have hselection : s.collectSelection =
      ⟨s.collected .bundles, [], s.baselineSBOMs, none, s.unanswered⟩ := by
    simp [CollectState.collectSelection, herr, hctx, hsignatures]
  have hanswer : (evaluatePass req pass s).answer =
      ⟨s.collected .bundles ++ s.baselineSBOMs, none⟩ := by
    rw [evaluatePass, hselection]
    cases s.collected .bundles with
    | nil =>
      cases s.baselineSBOMs with
      | nil => simp [htag.fallback]
      | cons att rest => simp
    | cons att rest => simp
  rw [treatment_of_none (congrArg FetchAnswer.err hanswer), hanswer]
  congr 1
  ext att
  simp

theorem plain_fetchErr (hshown : s.Shown)
    (h : (s.stats.foldl CollectStats.merge .empty).fetchErr = some err) : NotVerification err := by
  rcases foldl_merge_eq_some (fun _ _ => rfl) h with hempty | ⟨stats, hstats, hfetch⟩
  · cases hempty
  · exact hshown.stats_plain stats hstats err (.inl hfetch)

theorem plain_keyErr (hshown : s.Shown)
    (h : (s.stats.foldl CollectStats.merge .empty).keyErr = some err) : NotVerification err := by
  rcases foldl_merge_eq_some (fun _ _ => rfl) h with hempty | ⟨stats, hstats, hkey⟩
  · cases hempty
  · exact hshown.stats_plain stats hstats err (.inr hkey)

/-- The registry path follows its summary. -/
theorem treatment_evaluatePass (htag : NoTag pass.tag) (h : CollectedFor lib digest v held s) :
    treatment (evaluatePass req pass s).answer = (summary lib digest v held).registry := by
  have heval := evaluateCollection_eq (s.collected .bundles).length s.stats
  rw [collectionClass, h.limit, if_neg Bool.false_ne_true] at heval
  have hverified : (s.collected .bundles).length ≠ 0 ↔
      (summary lib digest v held).bundles.Nonempty := by
    rw [← h.bundles_eq, ← Nat.pos_iff_ne_zero, List.length_pos_iff_exists_mem]
    rfl
  rw [Summary.registry]
  split_ifs with hroot hbundles hkey hfailed
  · have hmarked := h.root.mpr hroot
    rw [if_pos hmarked] at heval
    obtain ⟨err, herr⟩ := Option.isSome_iff_exists.mp hmarked
    rw [CollectionClass.error, herr] at heval
    exact treatment_of_plainCollection h.ctx heval ((plain_fetchErr h.shown herr).wrapOne _)
  · rw [if_neg (mt h.root.mp hroot), if_pos (hverified.mpr hbundles)] at heval
    rw [treatment_of_collection htag h.ctx h.no_signatures heval, h.bundles_eq, h.baselineSBOMs]
  · have hmarked := h.key.mpr hkey
    rw [if_neg (mt h.root.mp hroot), if_neg (mt hverified.mp hbundles), if_pos hmarked] at heval
    obtain ⟨err, herr⟩ := Option.isSome_iff_exists.mp hmarked
    rw [CollectionClass.error, herr] at heval
    exact treatment_of_plainCollection h.ctx heval ((plain_keyErr h.shown herr).wrapOne _)
  · rw [if_neg (mt h.root.mp hroot), if_neg (mt hverified.mp hbundles), if_neg (mt h.key.mp hkey),
      if_pos (h.failed.mpr hfailed)] at heval
    rw [treatment_of_failedCollection htag h.no_signatures heval, h.baselineSBOMs]
    have hcomplete : errAllBundlesFailed.is .errIncompleteAttestationSet = false := rfl
    simp [Ignorable, hcomplete]
  · rw [if_neg (mt h.root.mp hroot), if_neg (mt hverified.mp hbundles), if_neg (mt h.key.mp hkey),
      if_neg (mt h.failed.mp hfailed)] at heval
    rw [treatment_of_collection htag h.ctx h.no_signatures heval, h.bundles_eq, h.baselineSBOMs,
      Set.not_nonempty_iff_eq_empty.mp hbundles, Set.empty_union]

end Pass

end Judged

/-- The bundles a registry lists for an image, in any order. -/
structure Listing where
  manifests : List Descriptor
  bundles : List (List UInt8)
  baselines : List (List UInt8)

/-- A pass over the referrers of a registry that holds the same attestations: all referrers are
within the limits, are fetched and are verified by `v`, nothing interrupts the pass, and there
is no cosign tag. -/
structure PassHolds (v : BundleVerifier) (held : List Held) (req : FetchRequest) (pass : Pass)
    (listing : Listing) : Prop where
  listed : pass.listing = .ok (.ok listing.manifests)
  same_bundles : ∀ data, data ∈ listing.bundles ↔ data ∈ bundlesOf held
  same_baselines : ∀ data, data ∈ listing.baselines ↔ data ∈ baselinesOf held
  within : (selectReferrers listing.manifests).dropped = 0
  bundles_length : (selectReferrers listing.manifests).bundles.length = listing.bundles.length
  baselines_length :
    (selectReferrers listing.manifests).baselines.length = listing.baselines.length
  no_signatures : (selectReferrers listing.manifests).notationSigs = []
  verify : ∀ desc, (pass.candidate desc).verify = v.verify
  uninterrupted : ∀ op ∈ pass.schedule, ∀ e, op ≠ .expire e
  fetched_bundles : (collectMachine (pass.input req (selectReferrers listing.manifests))
      pass.listingBytes).AllAllowed ((referrers req.lib req.digest v listing.bundles).FollowsPass
        (pass.input req (selectReferrers listing.manifests)) .bundles)
      (.new (pass.input req (selectReferrers listing.manifests)) pass.listingBytes) pass.schedule
  fetched_baselines : (collectMachine (pass.input req (selectReferrers listing.manifests))
      pass.listingBytes).AllAllowed ((referrers req.lib req.digest v listing.baselines).FollowsPass
        (pass.input req (selectReferrers listing.manifests)) .baselines)
      (.new (pass.input req (selectReferrers listing.manifests)) pass.listingBytes) pass.schedule
  bundles_fit : (referrers req.lib req.digest v listing.bundles).total ≤ maxTotalAttestationSize
  baselines_fit :
    (referrers req.lib req.digest v listing.baselines).total ≤ maxTotalAttestationSize
  no_tag : NoTag pass.tag

section Fetch

variable {v : BundleVerifier} {held : List Held} {req : FetchRequest} {pass : Pass}
  {listing : Listing} {input : CollectInput} {used : Int} {s : CollectState}

theorem Gathered.congr {lib : FetchLibrary} {digest : String} {datas datas' : List (List UInt8)}
    {atts : List VerifiedAttestation} {stats : CollectStats}
    (h : Gathered lib digest v datas atts stats) (hsame : ∀ data, data ∈ datas ↔ data ∈ datas') :
    Gathered lib digest v datas' atts stats := by
  obtain ⟨hattestations, hlimit, hroot, hkey, hfailed⟩ := h
  simp only [hsame] at hattestations hroot hkey hfailed
  exact ⟨hattestations, hlimit, hroot, hkey, hfailed⟩

theorem collector_complete (h : s.complete = true) (kind : CollectorKind) :
    (s.collector kind).complete := by
  intro phase hphase
  simp only [CollectState.complete, List.all_eq_true] at h
  have hrecorded := h kind (by cases kind <;> simp) phase hphase
  cases phase with
  | recorded => rfl
  | waiting | started | opened _ | read _ | fresh _ | ended _ => cases hrecorded

/-- A pass whose context does not end is never interrupted. -/
theorem exec_ctx {schedule : List CollectOp} (hops : ∀ op ∈ schedule, ∀ e, op ≠ .expire e)
    (hrun : (collectMachine input used).exec (.new input used) schedule = some s) :
    s.ctx = none := by
  have hstep (t : CollectState) (op : CollectOp) (u : CollectState)
      (h : (collectMachine input used).step t op = some u) :
      u.ctx = none ↔ t.ctx = none ∧ ∀ e, op ≠ .expire e := by
    change t.step input op = some u at h
    cases op with
    | expire e =>
      rw [CollectState.step] at h
      split at h
      · cases h
      · cases h
        simp
    | cancel kind =>
      obtain ⟨e, hctx, rfl⟩ := Option.map_eq_some_iff.mp h
      simp [CollectState.set]
    | work kind op =>
      obtain ⟨w, -, rfl⟩ := Option.map_eq_some_iff.mp h
      simp [CollectState.set]
  refine (Machine.exec_iff_allAllowed hstep hrun).mpr ⟨rfl, ?_⟩
  exact Machine.AllAllowed.of_forall (fun op hop _ => hops op hop) _

/-- A collector without candidates does nothing. -/
def Idle (c : Collector) : Prop := c.phases = [] ∧ c.slots = [] ∧ c.stats = .empty

theorem exec_idle {kind : CollectorKind} {schedule : List CollectOp}
    (hnone : input.candidates kind = [])
    (hrun : (collectMachine input used).exec (.new input used) schedule = some s) :
    Idle (s.collector kind) := by
  refine Machine.exec_preserves (I := fun s => Idle (s.collector kind)) ?_ ?_ hrun
  · intro t op u hidle hstep
    change t.step input op = some u at hstep
    cases op with
    | expire e =>
      rw [CollectState.step] at hstep
      split at hstep
      · cases hstep
      · cases hstep
        exact hidle
    | cancel other =>
      obtain ⟨e, -, rfl⟩ := Option.map_eq_some_iff.mp hstep
      by_cases hkind : kind = other
      · subst hkind
        rw [CollectState.set_collector_self]
        exact hidle
      · rw [CollectState.set_collector_of_ne _ _ hkind]
        exact hidle
    | work other op =>
      obtain ⟨w, hw, rfl⟩ := Option.map_eq_some_iff.mp hstep
      by_cases hkind : kind = other
      · subst hkind
        cases op <;> simp [Collector.step, hidle.1] at hw
      · have hother := t.set_collector_of_ne w.collector hkind
        dsimp only
        rw [hother]
        exact hidle
  · simp [Idle, CollectState.new, Collector.new, hnone]

/-- The collection of such a pass. -/
theorem PassHolds.collectedFor (h : PassHolds v held req pass listing)
    (hrun : (collectMachine (pass.input req (selectReferrers listing.manifests))
      pass.listingBytes).exec (.new (pass.input req (selectReferrers listing.manifests))
        pass.listingBytes) pass.schedule = some s) (hcomplete : s.complete = true) :
    CollectedFor req.lib req.digest v held s := by
  have hjudges (datas : List (List UInt8)) (kind : CollectorKind) :
      (referrers req.lib req.digest v datas).Judges
        (pass.input req (selectReferrers listing.manifests)) kind := by
    intro i cand data hcand
    have hverify : cand.verify = v.verify := by
      cases kind with
      | bundles | baselines | notationSigs =>
        obtain ⟨desc, -, rfl⟩ := List.mem_map.mp (List.mem_of_getElem? hcand)
        exact h.verify desc
    simp only [verifyReferrer, referrers, verifyOnly, hverify]
    rfl
  have hidle : Idle (s.collector .notationSigs) :=
    exec_idle (by simp [Pass.input, h.no_signatures]) hrun
  refine ⟨exec_shown hrun, exec_ctx h.uninterrupted hrun, ?_, ?_, ?_, ?_⟩
  · have hsound := Workload.sound_of_pass (hjudges listing.bundles .bundles)
      (by simp [Pass.input, referrers, h.bundles_length]) hrun h.fetched_bundles
    exact (gathered_of_complete h.bundles_fit hsound
      (Workload.complete_coarse (collector_complete hcomplete .bundles))).congr h.same_bundles
  · have hsound := Workload.sound_of_pass (hjudges listing.baselines .baselines)
      (by simp [Pass.input, referrers, h.baselines_length]) hrun h.fetched_baselines
    exact (gathered_of_complete h.baselines_fit hsound
      (Workload.complete_coarse (collector_complete hcomplete .baselines))).congr h.same_baselines
  · rw [CollectState.collected, hidle.2.1]
    rfl
  · intro mark
    rw [hidle.2.2]
    cases mark <;> rfl

theorem PassHolds.treatment (h : PassHolds v held req pass listing) {result : PassResult}
    (hfetch : fetchOnce req pass = some result) :
    Bundle.treatment result.answer = (summary req.lib req.digest v held).registry := by
  simp only [fetchOnce, h.listed, h.within, Nat.lt_irrefl, if_false] at hfetch
  split at hfetch
  · cases hfetch
  · next s hrun =>
    split at hfetch
    · next hcomplete =>
      cases hfetch
      exact treatment_evaluatePass h.no_tag (h.collectedFor hrun hcomplete)
    · cases hfetch

/-- An attempt that nothing interrupts. -/
structure AttemptHolds (v : BundleVerifier) (held : List Held) (req : FetchRequest)
    (attempt : Attempt) : Prop where
  delay : attempt.delay = none
  limiter : attempt.limiter = none
  ctx : attempt.ctx = none
  pass : ∃ listing, PassHolds v held req attempt.pass listing

theorem AttemptHolds.treatment {attempt : Attempt} (h : AttemptHolds v held req attempt)
    {first : Bool} {ended : AttemptEnd} (hrun : runAttempt req first attempt = some ended) :
    match ended with
    | .final result =>
      Bundle.treatment result.answer = (summary req.lib req.digest v held).registry
    | .retry lastErr _ => NotVerification lastErr ∧
        (summary req.lib req.digest v held).registry = .failurePolicy := by
  obtain ⟨listing, hpass⟩ := h.pass
  simp only [runAttempt, h.delay, h.limiter, ite_self] at hrun
  split at hrun
  · cases hrun
  · next result hresult =>
    have htreatment := hpass.treatment hresult
    split at hrun
    · cases hrun
      exact htreatment
    · next err herr =>
      simp only [finalFetchError, h.ctx] at hrun
      cases hfailed : err.is .errVerificationFailed with
      | true =>
        simp only [hfailed, if_true] at hrun
        cases hrun
        refine Eq.trans ?_ htreatment
        exact congrArg (fun err => Bundle.treatment ⟨_, err⟩) herr.symm
      | false =>
        have hpolicy := treatment_of_plain herr hfailed
        rw [htreatment] at hpolicy
        cases htransient : isTransientError err with
        | true =>
          simp only [htransient, hfailed, Bool.false_eq_true, if_false, if_true] at hrun
          cases hrun
          exact ⟨hfailed, hpolicy⟩
        | false =>
          simp only [htransient, hfailed, Bool.false_eq_true, if_false] at hrun
          cases hrun
          rw [hpolicy]
          exact treatment_of_plain rfl hfailed

theorem treatment_fetchWithRetryFrom {attempts : Nat → Attempt} {retries attempt : Nat}
    (h : ∀ n, AttemptHolds v held req (attempts n)) {result : RetryResult}
    (hrun : fetchWithRetryFrom req attempts retries attempt = some result) :
    treatment result.answer = (summary req.lib req.digest v held).registry := by
  induction retries generalizing attempt with
  | zero =>
    simp only [fetchWithRetryFrom] at hrun
    split at hrun
    · cases hrun
    · next hended =>
      cases hrun
      exact (h attempt).treatment hended
    · next hended =>
      cases hrun
      obtain ⟨hplain, hpolicy⟩ := (h attempt).treatment hended
      rw [hpolicy]
      exact treatment_of_plain rfl (hplain.wrapOne _)
  | succ retries ih =>
    simp only [fetchWithRetryFrom] at hrun
    split at hrun
    · cases hrun
    · next hended =>
      cases hrun
      exact (h attempt).treatment hended
    · exact ih hrun

/-- A registry, and the one it mirrors, that hold the same attestations as referrers. -/
structure RegistryHolds (f : Fetcher) (v : BundleVerifier) (held : List Held)
    (opts : FetchOptions) (imageRef : String) (registry : Registry) : Prop where
  parses : ∃ repository, f.parseDigestRef registry.effectiveRef
    (if registry.effectiveRef = imageRef then opts.parsedRef else none) = .ok repository
  attempts : ∀ repository n, AttemptHolds v held (f.request opts repository) (registry.attempts n)
  fallback : ∀ fallback, registry.fallback = some fallback →
    (∃ repository, f.parseDigestRef fallback.originalRef opts.parsedRef = .ok repository) ∧
      ∀ repository n, AttemptHolds v held (f.request opts repository) (fallback.attempts n)

variable {f : Fetcher} {opts : FetchOptions} {imageRef : String} {registry : Registry}

/-- An error that wraps two errors of the same treatment is treated like them. -/
theorem treatment_fallbackError {mirror answer : FetchAnswer} {mirrorErr : GoError}
    (hmirror : mirror.err = some mirrorErr) (hsame : treatment mirror = treatment answer)
    (originalRef mirrorRef : String) :
    treatment ⟨answer.attestations, answer.err.map fun err =>
      fallbackError originalRef mirrorRef err mirrorErr⟩ = treatment answer := by
  cases herr : answer.err with
  | none => simp only [treatment, herr, Option.map_none]
  | some err =>
    simp only [treatment, hmirror, herr, Verifier.isIgnorableVerificationFailure] at hsame
    simp only [treatment, herr, Option.map_some, Verifier.isIgnorableVerificationFailure,
      fallbackError, GoError.is_errorf, List.any_cons, List.any_nil, Bool.or_false]
    rcases Bool.eq_false_or_eq_true (err.is .errVerificationFailed) with hfailed | hfailed <;>
      rcases Bool.eq_false_or_eq_true (mirrorErr.is .errVerificationFailed) with
        hother | hother <;>
      rcases Bool.eq_false_or_eq_true (err.is .errIncompleteAttestationSet) with hset | hset <;>
      rcases Bool.eq_false_or_eq_true (mirrorErr.is .errIncompleteAttestationSet) with
        hmirrorSet | hmirrorSet <;>
      simp [hfailed, hother, hset, hmirrorSet] at hsame ⊢

theorem treatment_fetchWithFallback {mirrorRef : String} {fallback : Fallback}
    {mirror : FetchAnswer} {mirrorErr : GoError}
    (h : ∀ repository n, AttemptHolds v held (f.request opts repository) (fallback.attempts n))
    (hparses : ∃ repository, f.parseDigestRef fallback.originalRef opts.parsedRef =
      .ok repository) (hmirror : mirror.err = some mirrorErr)
    (htreatment : treatment mirror = (summary f.lib opts.digest v held).registry)
    {result : FetchResult}
    (hrun : f.fetchWithFallback opts mirrorRef fallback mirrorErr = some result) :
    treatment result.answer = (summary f.lib opts.digest v held).registry := by
  obtain ⟨repository, hparse⟩ := hparses
  rw [Fetcher.fetchWithFallback, hparse] at hrun
  obtain ⟨inner, hinner, rfl⟩ := Option.map_eq_some_iff.mp hrun
  have hsame : treatment inner.answer = (summary f.lib opts.digest v held).registry :=
    treatment_fetchWithRetryFrom (h repository) hinner
  rw [← hsame]
  exact treatment_fallbackError hmirror (htreatment.trans hsame.symm) _ _

/-- The registry path, with retries and the fallback, follows its summary. -/
theorem RegistryHolds.treatment (h : RegistryHolds f v held opts imageRef registry)
    (hdigest : opts.digest ≠ "") {result : FetchResult}
    (hfetch : f.fetch imageRef (some opts) (.ok registry) = some result) :
    Bundle.treatment result.answer = (summary f.lib opts.digest v held).registry := by
  obtain ⟨repository, hparse⟩ := h.parses
  simp only [Fetcher.fetch, if_neg hdigest, hparse] at hfetch
  obtain ⟨inner, hinner, hnext⟩ := Option.bind_eq_some_iff.mp hfetch
  have htreatment := treatment_fetchWithRetryFrom (h.attempts repository) hinner
  split at hnext
  · next fetchErr fallback herr hfallback =>
    split at hnext
    · obtain ⟨hparses, hattempts⟩ := h.fallback fallback hfallback
      exact treatment_fetchWithFallback hattempts hparses herr htreatment hnext
    · cases hnext
      exact htreatment
  · cases hnext
    exact htreatment

end Fetch

end NriSupplyChain.Bundle
