import NriSupplyChain.Bundle.RegistryPath

/-!
The same attestations in an offline bundle and as referrers in a registry.
-/

namespace NriSupplyChain.Bundle

open NriSupplyChain.Types Lib Attestation

/-- A bundle that can be used and stores the attestations for the image. -/
structure BundleHolds (bundle : OpenBundle) (held : List Held) (digest : String) : Prop where
  usable : bundle.closed = false ∧ bundle.stalenessErr = none ∧ bundle.signatureErr = none
  stores : bundle.attestationsFor digest = .ok (held.map Held.stored)
  bound : ∀ h ∈ held, h.stored.Holds digest

section Example

def sbomFetcher : Fetcher where
  lib := { plainLibrary with baselineSBOMDocument := fun document _ => some document }
  cfg := ⟨1048576, 0⟩
  parseReference imageRef := .ok imageRef

def sbomRequest (repository : String) : FetchRequest := sbomFetcher.request plainOptions repository

def bundleDescriptor : Descriptor := ⟨bundleMediaType, "sha256:01", 512, []⟩

def baselineDescriptor : Descriptor := ⟨baselineSBOMArtifactType, "sha256:02", 512, []⟩

theorem follows_sole {w : Workload} {c d : Collector} {op : CollectorOp} {old new : FetchPhase}
    (hopen : c.groupEnd = none) (hc : c.phases = [old]) (hd : d.phases = [new])
    (hnew : ∀ delivery, (op = .download 0 ∨ ∃ bytes, op = .openReferrer 0 bytes) →
      new.delivery = some delivery → w.deliveries[0]? = some delivery) : w.Follows c op d := by
  refine ⟨?_, ?_, ?_⟩
  · intro e hend
    rw [hopen] at hend
    cases hend
  · intro i _
    have hle : c.unfinishedBefore i ≤ c.phases.length :=
      List.countP_le_length.trans (List.length_take_le' _ _)
    rw [hc, List.length_singleton] at hle
    exact Nat.lt_of_le_of_lt hle (by decide)
  · intro i delivery hop hdelivery
    rw [hd] at hdelivery
    cases i with
    | zero => exact hnew delivery hop hdelivery
    | succ i => cases hdelivery

/-- The goroutine of the only candidate of a collector. -/
def soleOps (manifestBytes : Nat) : List CollectorOp :=
  [.start 0, .openReferrer 0 manifestBytes, .download 0, .add 0, .verify 0, .finish 0]

section Sole

variable {w : Workload} {input : CollectInput} {bytes : Int} {kind : CollectorKind}
  {s : CollectState}

/-- A step of the only candidate of a collector in a pass. -/
theorem followsPass_sole {op : CollectorOp} {worked : Worked} {old new : FetchPhase}
    (hstep : (s.collector kind).step input kind s.used op = some worked)
    (hopen : (s.collector kind).groupEnd = none) (hc : (s.collector kind).phases = [old])
    (hd : worked.collector.phases = [new])
    (hnew : ∀ delivery, (op = .download 0 ∨ ∃ bytes, op = .openReferrer 0 bytes) →
      new.delivery = some delivery → w.deliveries[0]? = some delivery) :
    w.FollowsPass input kind s (.work kind op) := by
  intro _ other hother
  cases hstep.symm.trans hother
  exact follows_sole hopen hc hd hnew

theorem allAllowed_other {other : CollectorKind} (hother : other ≠ kind) (s : CollectState)
    (ops : List CollectorOp) : (collectMachine input bytes).AllAllowed (w.FollowsPass input kind) s
      (ops.map (CollectOp.work other)) := by
  refine Machine.AllAllowed.of_forall ?_ s
  intro op hop t
  obtain ⟨op', -, rfl⟩ := List.mem_map.mp hop
  exact fun hkind => absurd hkind hother

end Sole

/-- An attestation that is held as a bundle, and one that is held as a baseline SBOM. -/
def heldPair : List Held :=
  [⟨⟨predicateSLSAProvenanceV1, [1], "sha256:00", signatureTypeSigstore⟩, false⟩,
    ⟨⟨predicateBaselineSBOM, [2], "sha256:00", signatureTypeSigstore⟩, true⟩]

def pairListing : Listing := ⟨[bundleDescriptor, baselineDescriptor], [[1]], [[2]]⟩

def soleImage (data : List UInt8) : Image :=
  ⟨.ok (some ⟨[⟨bundleMediaType, [], []⟩], none⟩), .ok [storedLayer data]⟩

def pairPass (v : BundleVerifier) : Pass where
  listing := .ok (.ok pairListing.manifests)
  listingBytes := 256
  candidate desc := ⟨.ok (soleImage (if desc = bundleDescriptor then [1] else [2])), v.verify⟩
  schedule := (soleOps 512).map (CollectOp.work .bundles) ++
    (soleOps 512).map (CollectOp.work .baselines)
  tag := ⟨tagStatus 404 false, 0, fun _ => ⟨none, fun _ => (none, .error (foreign "no bundle"))⟩,
    none⟩

def pairRegistry (v : BundleVerifier) : Registry :=
  ⟨"registry.example/app", fun _ => ⟨none, none, pairPass v, none⟩, none, none⟩

def pairBundle : OpenBundle := ⟨false, none, none, fun _ => .ok (heldPair.map Held.stored)⟩

theorem bundleHolds_pair : BundleHolds pairBundle heldPair plainOptions.digest := by
  refine ⟨⟨rfl, rfl, rfl⟩, rfl, ?_⟩
  intro h hmem
  rcases List.mem_pair.mp hmem with rfl | rfl <;> exact ⟨.inr rfl, rfl⟩

def pairInput (v : BundleVerifier) (repository : String) : CollectInput :=
  (pairPass v).input (sbomRequest repository) (selectReferrers pairListing.manifests)

theorem follows_bundles (v : BundleVerifier) (repository : String) :
    (collectMachine (pairInput v repository) 256).AllAllowed
      ((referrers sbomFetcher.lib "sha256:00" v [[1]]).FollowsPass (pairInput v repository)
        .bundles) (.new (pairInput v repository) 256) (pairPass v).schedule := by
  have hread : (referrers sbomFetcher.lib "sha256:00" v [[1]]).deliveries[0]? =
      some (.read [1]) := rfl
  iterate 2 refine .cons rfl (followsPass_sole rfl rfl rfl rfl (by simp [FetchPhase.delivery])) ?_
  refine .cons rfl (followsPass_sole rfl rfl rfl rfl ?_) ?_
  · rintro delivery - ⟨⟩
    exact hread
  iterate 2 refine .cons rfl (followsPass_sole rfl rfl rfl rfl (by simp)) ?_
  refine .cons rfl (followsPass_sole rfl rfl rfl (Collector.finish_phases ..) (by simp)) ?_
  exact allAllowed_other (by decide) _ (soleOps 512)

set_option maxRecDepth 8000 in
theorem follows_baselines (v : BundleVerifier) (repository : String) :
    (collectMachine (pairInput v repository) 256).AllAllowed
      ((referrers sbomFetcher.lib "sha256:00" v [[2]]).FollowsPass (pairInput v repository)
        .baselines) (.new (pairInput v repository) 256) (pairPass v).schedule := by
  have hread : (referrers sbomFetcher.lib "sha256:00" v [[2]]).deliveries[0]? =
      some (.read [2]) := rfl
  iterate 6 refine .cons rfl (fun hkind => absurd hkind (by decide)) ?_
  iterate 2 refine .cons rfl (followsPass_sole rfl rfl rfl rfl (by simp [FetchPhase.delivery])) ?_
  refine .cons rfl (followsPass_sole rfl rfl rfl rfl ?_) ?_
  · rintro delivery - ⟨⟩
    exact hread
  iterate 2 refine .cons rfl (followsPass_sole rfl rfl rfl rfl (by simp)) ?_
  refine .cons rfl (followsPass_sole rfl rfl rfl (Collector.finish_phases ..) (by simp)) ?_
  trivial

theorem registryHolds_pair (v : BundleVerifier)
    (hbundle : (referrers sbomFetcher.lib "sha256:00" v [[1]]).total ≤ maxTotalAttestationSize)
    (hbaseline : (referrers sbomFetcher.lib "sha256:00" v [[2]]).total ≤ maxTotalAttestationSize) :
    RegistryHolds sbomFetcher v heldPair plainOptions "registry.example/app" (pairRegistry v) := by
  refine ⟨⟨_, rfl⟩, fun repository _ => ⟨rfl, rfl, rfl, pairListing, ?_⟩, by simp [pairRegistry]⟩
  refine ⟨rfl, fun _ => Iff.rfl, fun _ => Iff.rfl, rfl, rfl, rfl, rfl, fun _ => rfl, ?_,
    follows_bundles v repository, follows_baselines v repository, hbundle, hbaseline,
    ⟨⟨_, rfl, rfl⟩, rfl⟩⟩
  intro op hop e hexpire
  rw [hexpire] at hop
  simp [pairRegistry, pairPass] at hop

def provenanceStatement : VerifiedBundle := ⟨[3], predicateSLSAProvenanceV1, ⟨"", [], "", ""⟩⟩

def baselineStatement : VerifiedBundle := ⟨[4], predicateBaselineSBOM, ⟨"", [], "", ""⟩⟩

/-- Both attestations verify. -/
def loadedKey : BundleVerifier where
  verify data := if data = [1] then .ok provenanceStatement else .ok baselineStatement
  key_material data err h _ := by
    split at h <;> cases h
  predicate data verified h := by
    split at h <;> cases h <;> decide

def keyFileError : ForeignError :=
  ⟨keyLoadError "/keys/cosign.pub" ⟨"open /keys/cosign.pub: no such file or directory", []⟩, rfl⟩

/-- The bundle cannot be checked without its key file. -/
def missingKey : BundleVerifier where
  verify data := if data = [1] then .error keyFileError else .ok baselineStatement
  key_material data err h _ := by
    split at h
    · cases h
      rfl
    · cases h
  predicate data verified h := by
    split at h
    · cases h
    · cases h
      decide

theorem judge_baseline (v : BundleVerifier) (h : v.verify [2] = .ok baselineStatement) :
    judge sbomFetcher.lib "sha256:00" v [2] = .verified ⟨predicateBaselineSBOM, [4], "sha256:00",
      .sigstore, ⟨"", [], "", ""⟩, [2], "", "", 0, ""⟩ := by
  rw [judge, h]
  rfl

end Example

section Agreement

variable {f : Fetcher} {opts : FetchOptions} {imageRef : String} {registry : Registry}
  {bundle : OpenBundle} {v : BundleVerifier} {held : List Held}

theorem BundleHolds.treatment (h : BundleHolds bundle held opts.digest)
    (hdigest : opts.digest ≠ "") :
    Bundle.treatment (fetch f.lib bundle (some opts) v.answers) =
      (summary f.lib opts.digest v held).offline := by
  obtain ⟨hopen, hfresh, hsigned⟩ := h.usable
  simp only [fetch, if_neg hdigest, hopen, hfresh, hsigned, h.stores, Bool.false_eq_true, if_false]
  exact treatment_stored h.bound

/-- Offline and registry fetches are treated alike exactly if a trusted root is unavailable, a
bundle referrer verified and what verified in the place of a baseline SBOM is held as a bundle
as well, nothing verified, or everything verified in its place. -/
theorem treatment_eq_iff_agreeing (hdigest : opts.digest ≠ "")
    (hbundle : BundleHolds bundle held opts.digest)
    (hregistry : RegistryHolds f v held opts imageRef registry) {result : FetchResult}
    (hfetch : f.fetch imageRef (some opts) (.ok registry) = some result) :
    treatment (fetch f.lib bundle (some opts) v.answers) = treatment result.answer ↔
      (summary f.lib opts.digest v held).Agreeing := by
  rw [hbundle.treatment hdigest, hregistry.treatment hdigest hfetch]
  exact Summary.agree_iff (summary_disjoint held)

end Agreement

/-- A bundle and a baseline SBOM that both verify are treated alike. -/
theorem treatment_eq_iff_agreeing_pair :
    ∃ result, sbomFetcher.fetch "registry.example/app" (some plainOptions)
        (.ok (pairRegistry loadedKey)) = some result ∧
      treatment (fetch sbomFetcher.lib pairBundle (some plainOptions) loadedKey.answers) =
        treatment result.answer := by
  obtain ⟨result, hfetch⟩ : ∃ result, sbomFetcher.fetch "registry.example/app" (some plainOptions)
      (.ok (pairRegistry loadedKey)) = some result := ⟨_, rfl⟩
  refine ⟨result, hfetch, ?_⟩
  refine (treatment_eq_iff_agreeing (by decide) bundleHolds_pair
    (registryHolds_pair loadedKey (by decide) (by decide)) hfetch).mpr ?_
  refine .inr (.inl ⟨⟨_, [1], List.mem_singleton_self _, rfl⟩, ?_⟩)
  rintro att ⟨⟨data, hdata, hjudge⟩, hother⟩
  obtain rfl := List.mem_singleton.mp hdata
  cases (judge_baseline loadedKey rfl).symm.trans hjudge
  exact absurd rfl hother

/-- A bundle whose key file is missing next to a verified baseline SBOM: offline the baseline
SBOM is evaluated, the registry path follows the fetch failure policy. -/
theorem missing_key_hides_baseline :
    BundleHolds pairBundle heldPair plainOptions.digest ∧
      RegistryHolds sbomFetcher missingKey heldPair plainOptions "registry.example/app"
        (pairRegistry missingKey) ∧
      ∃ result, sbomFetcher.fetch "registry.example/app" (some plainOptions)
          (.ok (pairRegistry missingKey)) = some result ∧
        treatment result.answer = .failurePolicy ∧
        (fetch sbomFetcher.lib pairBundle (some plainOptions) missingKey.answers).err = none ∧
        treatment (fetch sbomFetcher.lib pairBundle (some plainOptions) missingKey.answers) ≠
          treatment result.answer := by
  have hregistry := registryHolds_pair missingKey (by decide) (by decide)
  obtain ⟨result, hfetch⟩ : ∃ result, sbomFetcher.fetch "registry.example/app" (some plainOptions)
      (.ok (pairRegistry missingKey)) = some result := ⟨_, rfl⟩
  have hpolicy : (summary sbomFetcher.lib "sha256:00" missingKey heldPair).registry =
      .failurePolicy := by
    have hkey : (summary sbomFetcher.lib "sha256:00" missingKey heldPair).keyUnavailable :=
      ⟨_, List.mem_cons_self, _, rfl⟩
    have hbundles :
        ¬(summary sbomFetcher.lib "sha256:00" missingKey heldPair).bundles.Nonempty := by
      rintro ⟨att, data, hdata, hjudge⟩
      obtain rfl := List.mem_singleton.mp hdata
      cases hjudge
    rw [Summary.registry, if_neg hbundles, if_pos hkey, ite_self]
  have htreatment : treatment result.answer = .failurePolicy :=
    (hregistry.treatment (by decide) hfetch).trans hpolicy
  have hnone : (fetch sbomFetcher.lib pairBundle (some plainOptions)
      missingKey.answers).err = none := rfl
  refine ⟨bundleHolds_pair, hregistry, result, hfetch, htreatment, hnone, ?_⟩
  rw [htreatment, treatment_of_none hnone]
  intro h
  cases h

end NriSupplyChain.Bundle
