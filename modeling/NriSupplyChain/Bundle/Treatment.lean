import NriSupplyChain.Bundle.Offline
import NriSupplyChain.Verifier.Checks

/-!
What a verification makes of the answer of a fetch, and what the offline path and the registry
path make of the outcomes of the single verifications.

The registry path counts only verified bundle referrers when it asks whether anything
verified, the offline path counts every verified attestation.
-/

namespace NriSupplyChain.Bundle

open NriSupplyChain.Types Attestation

/-- What a verification makes of an answer: it evaluates the attestations, it evaluates what
remains next to a failed verification, it follows the fetch failure policy, or it denies. -/
inductive Treatment where
  | evaluated (attestations : Set VerifiedAttestation)
  | ignored (remaining : Set VerifiedAttestation)
  | failurePolicy
  | denied

def treatment (answer : FetchAnswer) : Treatment :=
  match answer.err with
  | none => .evaluated {att | att ∈ answer.attestations}
  | some err =>
    if Verifier.isIgnorableVerificationFailure err then
      .ignored {att | att ∈ answer.attestations}
    else if err.is .errVerificationFailed then .denied
    else .failurePolicy

variable {answer : FetchAnswer}

theorem treatment_of_plain {err : GoError} (herr : answer.err = some err)
    (hplain : NotVerification err) : treatment answer = .failurePolicy := by
  have hfailed : err.is .errVerificationFailed = false := hplain
  simp [treatment, herr, Verifier.isIgnorableVerificationFailure, hfailed]

theorem treatment_of_ignorable {err : GoError} (herr : answer.err = some err) (h : Ignorable err) :
    treatment answer = .ignored {att | att ∈ answer.attestations} := by
  simp [treatment, herr, Verifier.isIgnorableVerificationFailure, h.1, h.2]

theorem treatment_of_none (herr : answer.err = none) :
    treatment answer = .evaluated {att | att ∈ answer.attestations} := by
  simp [treatment, herr]

/-- What the verification of all attestations of an image comes to. `misplaced` are those that
verified in a referrer with the artifact type of baseline SBOMs and are none. -/
structure Summary where
  rootUnavailable : Prop
  keyUnavailable : Prop
  rejected : Prop
  bundles : Set VerifiedAttestation
  baselines : Set VerifiedAttestation
  misplaced : Set VerifiedAttestation

namespace Summary

def verified (m : Summary) : Set VerifiedAttestation := m.bundles ∪ m.baselines ∪ m.misplaced

open Classical in
/-- What the offline path makes of it: any verified attestation counts. -/
noncomputable def offline (m : Summary) : Treatment :=
  if m.rootUnavailable then .failurePolicy
  else if m.verified.Nonempty then .evaluated m.verified
  else if m.keyUnavailable then .failurePolicy
  else if m.rejected then .ignored ∅
  else .evaluated ∅

open Classical in
/-- What the registry path makes of it: baseline SBOMs do not count as verified. -/
noncomputable def registry (m : Summary) : Treatment :=
  if m.rootUnavailable then .failurePolicy
  else if m.bundles.Nonempty then .evaluated (m.bundles ∪ m.baselines)
  else if m.keyUnavailable then .failurePolicy
  else if m.rejected ∨ m.misplaced.Nonempty then .ignored m.baselines
  else .evaluated m.baselines

/-- A root is unavailable, a bundle referrer verified and holds what is misplaced as well,
nothing verified, or everything verified in its place. -/
def Agreeing (m : Summary) : Prop :=
  m.rootUnavailable ∨ (m.bundles.Nonempty ∧ m.misplaced ⊆ m.bundles) ∨ m.verified = ∅ ∨
    (¬m.keyUnavailable ∧ ¬m.rejected ∧ m.misplaced = ∅)

variable {m : Summary}

theorem offline_of_root (h : m.rootUnavailable) : m.offline = .failurePolicy := if_pos h

theorem registry_of_root (h : m.rootUnavailable) : m.registry = .failurePolicy := if_pos h

theorem offline_of_verified (hroot : ¬m.rootUnavailable) (h : m.verified.Nonempty) :
    m.offline = .evaluated m.verified := by
  rw [offline, if_neg hroot, if_pos h]

theorem registry_of_bundles (hroot : ¬m.rootUnavailable) (h : m.bundles.Nonempty) :
    m.registry = .evaluated (m.bundles ∪ m.baselines) := by
  rw [registry, if_neg hroot, if_pos h]

/-- With a verified bundle referrer, only what is misplaced can be missing. -/
theorem agree_of_bundles (hdisjoint : ∀ att ∈ m.baselines, att ∉ m.misplaced)
    (hroot : ¬m.rootUnavailable) (h : m.bundles.Nonempty) :
    m.offline = m.registry ↔ m.misplaced ⊆ m.bundles := by
  have hverified : m.verified.Nonempty := h.mono fun att hatt => .inl (.inl hatt)
  rw [offline_of_verified hroot hverified, registry_of_bundles hroot h,
    Treatment.evaluated.injEq, verified, Set.union_eq_left]
  constructor
  · intro hsub att hatt
    rcases hsub hatt with hbundle | hbaseline
    · exact hbundle
    · exact absurd hatt (hdisjoint att hbaseline)
  · intro hsub att hatt
    exact .inl (hsub hatt)

/-- Without one, a verified baseline SBOM decides only if everything verified. -/
theorem agree_of_no_bundles (hroot : ¬m.rootUnavailable) (h : ¬m.bundles.Nonempty) :
    m.offline = m.registry ↔
      m.verified = ∅ ∨ (¬m.keyUnavailable ∧ ¬m.rejected ∧ m.misplaced = ∅) := by
  have hbundles : m.bundles = ∅ := Set.not_nonempty_iff_eq_empty.mp h
  rcases Set.eq_empty_or_nonempty m.verified with hnone | hverified
  · have hparts : m.baselines = ∅ ∧ m.misplaced = ∅ := by
      rw [verified, Set.union_empty_iff, Set.union_empty_iff] at hnone
      exact ⟨hnone.1.2, hnone.2⟩
    refine iff_of_true ?_ (.inl hnone)
    rw [offline, registry, if_neg hroot, if_neg hroot, if_neg h, hnone,
      if_neg Set.not_nonempty_empty, hparts.1, hparts.2]
    split_ifs with hkey hrejected hfailed hfailed
    · rfl
    · rfl
    · exact absurd (.inl hrejected) hfailed
    · exact absurd (hfailed.resolve_right Set.not_nonempty_empty) hrejected
    · rfl
  · have hsome : m.verified ≠ ∅ := hverified.ne_empty
    rw [offline_of_verified hroot hverified, registry, if_neg hroot, if_neg h]
    split_ifs with hkey hrejected
    · refine iff_of_false (by simp) ?_
      rintro (hnone | ⟨hloaded, -, -⟩)
      · exact hsome hnone
      · exact hloaded hkey
    · refine iff_of_false (by simp) ?_
      rintro (hnone | ⟨-, haccepted, hplaced⟩)
      · exact hsome hnone
      · rcases hrejected with hrejected | hmisplaced
        · exact haccepted hrejected
        · exact hmisplaced.ne_empty hplaced
    · obtain ⟨haccepted, hplaced⟩ := not_or.mp hrejected
      have hmisplaced : m.misplaced = ∅ := Set.not_nonempty_iff_eq_empty.mp hplaced
      refine iff_of_true ?_ (.inr ⟨hkey, haccepted, hmisplaced⟩)
      rw [verified, hbundles, hmisplaced, Set.empty_union, Set.union_empty]

theorem agree_iff (hdisjoint : ∀ att ∈ m.baselines, att ∉ m.misplaced) :
    m.offline = m.registry ↔ m.Agreeing := by
  by_cases hroot : m.rootUnavailable
  · rw [offline_of_root hroot, registry_of_root hroot]
    exact iff_of_true rfl (.inl hroot)
  · by_cases hbundles : m.bundles.Nonempty
    · rw [agree_of_bundles hdisjoint hroot hbundles]
      constructor
      · intro hsub
        exact .inr (.inl ⟨hbundles, hsub⟩)
      · rintro (hno | ⟨-, hsub⟩ | hnone | ⟨-, -, hplaced⟩)
        · exact absurd hno hroot
        · exact hsub
        · rw [verified, Set.union_empty_iff] at hnone
          rw [hnone.2]
          exact Set.empty_subset _
        · rw [hplaced]
          exact Set.empty_subset _
    · rw [agree_of_no_bundles hroot hbundles, Agreeing]
      simp only [hroot, hbundles, false_and, false_or]

end Summary

/-- An attestation that a bundle stores and a registry holds as a referrer. -/
structure Held where
  stored : StoredAttestation
  /-- Whether the referrer has the artifact type of baseline SBOMs. -/
  baseline : Bool

def bundlesOf (held : List Held) : List (List UInt8) :=
  (held.filter fun h => !h.baseline).map fun h => h.stored.bundleBytes

def baselinesOf (held : List Held) : List (List UInt8) :=
  (held.filter fun h => h.baseline).map fun h => h.stored.bundleBytes

section Judged

variable {lib : FetchLibrary} {digest : String} {v : BundleVerifier}

variable (lib digest v) in
/-- The attestations that verify among bundles. -/
def verifiedOf (datas : List (List UInt8)) : Set VerifiedAttestation :=
  {att | ∃ data ∈ datas, judge lib digest v data = .verified att}

variable (lib digest v) in
def summary (held : List Held) : Summary where
  rootUnavailable := ∃ h ∈ held, ∃ err, judge lib digest v h.stored.bundleBytes =
    .rootUnavailable err
  keyUnavailable := ∃ h ∈ held, ∃ err, judge lib digest v h.stored.bundleBytes =
    .keyUnavailable err
  rejected := ∃ h ∈ held, judge lib digest v h.stored.bundleBytes = .rejected
  bundles := verifiedOf lib digest v (bundlesOf held)
  baselines := {att ∈ verifiedOf lib digest v (baselinesOf held) |
    att.predicateType = predicateBaselineSBOM}
  misplaced := {att ∈ verifiedOf lib digest v (baselinesOf held) |
    att.predicateType ≠ predicateBaselineSBOM}

theorem summary_disjoint (held : List Held) :
    ∀ att ∈ (summary lib digest v held).baselines, att ∉ (summary lib digest v held).misplaced :=
  fun _ hbaseline hmisplaced => hmisplaced.2 hbaseline.2

/-- What is held is held as a bundle or as a baseline SBOM. -/
theorem exists_held_iff (held : List Held) (P : List UInt8 → Prop) :
    (∃ h ∈ held, P h.stored.bundleBytes) ↔
      (∃ data ∈ bundlesOf held, P data) ∨ ∃ data ∈ baselinesOf held, P data := by
  simp only [bundlesOf, baselinesOf, List.mem_map, List.mem_filter]
  constructor
  · rintro ⟨h, hmem, hP⟩
    cases hkind : h.baseline with
    | false => exact .inl ⟨_, ⟨h, ⟨hmem, by rw [hkind]; rfl⟩, rfl⟩, hP⟩
    | true => exact .inr ⟨_, ⟨h, ⟨hmem, hkind⟩, rfl⟩, hP⟩
  · rintro (⟨data, ⟨h, ⟨hmem, -⟩, rfl⟩, hP⟩ | ⟨data, ⟨h, ⟨hmem, -⟩, rfl⟩, hP⟩)
    · exact ⟨h, hmem, hP⟩
    · exact ⟨h, hmem, hP⟩

theorem mem_verified_summary {held : List Held} {att : VerifiedAttestation} :
    att ∈ (summary lib digest v held).verified ↔
      ∃ h ∈ held, judge lib digest v h.stored.bundleBytes = .verified att := by
  rw [exists_held_iff held fun data => judge lib digest v data = .verified att, Summary.verified,
    Set.union_assoc]
  apply or_congr Iff.rfl
  simp only [summary, Set.mem_union, Set.mem_ofPred_eq, ← and_or_left, verifiedOf]
  tauto

/-- The offline path follows its summary. -/
theorem treatment_stored {held : List Held} (hheld : ∀ h ∈ held, h.stored.Holds digest) :
    treatment (verifyStoredAttestations lib v.answers (held.map Held.stored)) =
      (summary lib digest v held).offline := by
  have hstored : ∀ s ∈ held.map Held.stored, s.Holds digest := by
    intro s hs
    obtain ⟨h, hmem, rfl⟩ := List.mem_map.mp hs
    exact hheld h hmem
  have hexists (P : List UInt8 → Prop) :
      (∃ s ∈ held.map Held.stored, P s.bundleBytes) ↔ ∃ h ∈ held, P h.stored.bundleBytes := by
    simp
  rw [verifyStoredAttestations]
  cases loopOutcome hstored 0 [] 0 none with
  | unavailable s hs err hroot hanswer =>
    have hunavailable : (summary lib digest v held).rootUnavailable :=
      (hexists fun data => ∃ err, judge lib digest v data = .rootUnavailable err).mp
        ⟨s, hs, err, hroot⟩
    rw [Summary.offline_of_root hunavailable, hanswer]
    exact treatment_of_plain rfl (judge_rootUnavailable hroot).2.2
  | decided verified failures keyErr hroot hanswer hverified hfailures hkey hnoKey =>
    have havailable : ¬(summary lib digest v held).rootUnavailable := by
      rintro ⟨h, hmem, err, hjudge⟩
      exact hroot _ (List.mem_map_of_mem hmem) err hjudge
    have hatts : {att | att ∈ verified} = (summary lib digest v held).verified := by
      ext att
      rw [mem_verified_summary, ← hexists fun data => judge lib digest v data = .verified att]
      exact hverified att
    rw [hanswer, List.nil_append]
    cases verified with
    | cons att rest =>
      have hnonempty : (summary lib digest v held).verified.Nonempty := by
        rw [← hatts]
        exact ⟨att, List.mem_cons_self⟩
      rw [Summary.offline_of_verified havailable hnonempty, ← hatts]
      exact treatment_of_none rfl
    | nil =>
      have hempty : (summary lib digest v held).verified = ∅ := by
        rw [← hatts]
        simp
      rw [Summary.offline, if_neg havailable, hempty, if_neg Set.not_nonempty_empty]
      cases keyErr with
      | some err =>
        obtain ⟨s, hs, hjudge⟩ := (hkey err rfl).resolve_left nofun
        have hunloaded : (summary lib digest v held).keyUnavailable :=
          (hexists fun data => ∃ err, judge lib digest v data = .keyUnavailable err).mp
            ⟨s, hs, err, hjudge⟩
        rw [if_pos hunloaded]
        exact treatment_of_plain rfl (judge_keyUnavailable hjudge).2
      | none =>
        have hloaded : ¬(summary lib digest v held).keyUnavailable := by
          rintro ⟨h, hmem, err, hjudge⟩
          exact (hnoKey rfl).2 _ (List.mem_map_of_mem hmem) err hjudge
        have hrejected : 0 < failures ↔ (summary lib digest v held).rejected := by
          rw [hfailures, hexists fun data => judge lib digest v data = .rejected]
          simp [summary]
        rw [if_neg hloaded]
        cases failures with
        | zero =>
          rw [if_neg fun h => absurd (hrejected.mpr h) (Nat.lt_irrefl 0)]
          exact (treatment_of_none rfl).trans (by simp [storedVerificationResult])
        | succ n =>
          rw [if_pos (hrejected.mp n.succ_pos)]
          refine (treatment_of_ignorable rfl ?_).trans (by simp [storedVerificationResult])
          simp [Ignorable, allFailedError]

end Judged

end NriSupplyChain.Bundle
