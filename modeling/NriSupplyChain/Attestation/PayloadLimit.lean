import NriSupplyChain.Attestation.Failures

/-!
The limit on the payload of the attestations of an image. Each collector of a pass, and
the cosign tag, keeps a total of its own and holds only that against the limit; nothing
looks at them together.
-/

namespace NriSupplyChain.Attestation

open NriSupplyChain.Types Lib

def payloadSize (atts : List VerifiedAttestation) : Nat :=
  (atts.map fun att => att.payload.length).sum

@[simp] theorem payloadSize_cons (att : VerifiedAttestation) (atts : List VerifiedAttestation) :
    payloadSize (att :: atts) = att.payload.length + payloadSize atts := by
  simp [payloadSize]

/-- The error of a fetch that was denied because its attestation set is incomplete. -/
def IncompleteSet (err : Option GoError) : Prop :=
  errorIs err .errVerificationFailed = true ∧ errorIs err .errIncompleteAttestationSet = true

section Collectors

theorem payloadSize_set_le (slots : List (Option VerifiedAttestation)) (i : Nat)
    (att : VerifiedAttestation) :
    payloadSize ((slots.set i (some att)).filterMap id) ≤
      payloadSize (slots.filterMap id) + att.payload.length := by
  induction slots generalizing i with
  | nil => simp
  | cons slot rest ih =>
    cases i with
    | zero =>
      cases slot with
      | none =>
        simp only [List.set_cons_zero, List.filterMap_cons, id_eq, payloadSize_cons]
        omega
      | some old =>
        simp only [List.set_cons_zero, List.filterMap_cons, id_eq, payloadSize_cons]
        omega
    | succ i =>
      have hrest := ih i
      cases slot with
      | none => simpa [List.set_cons_succ, List.filterMap_cons] using hrest
      | some old =>
        have hset : ((some old :: rest).set (i + 1) (some att)).filterMap id =
          old :: (rest.set i (some att)).filterMap id := rfl
        have hold : (some old :: rest).filterMap id = old :: rest.filterMap id := rfl
        rw [hset, hold, payloadSize_cons, payloadSize_cons]
        omega

theorem sum_zipWith_set {α β : Type} (f : α → β → Nat) {l : List α} {r : List β} {i : Nat}
    {old : α} {x : β} (hold : l[i]? = some old) (hx : r[i]? = some x) (new : α) :
    (List.zipWith f (l.set i new) r).sum + f old x =
      (List.zipWith f l r).sum + f new x := by
  induction l generalizing i r with
  | nil => cases hold
  | cons a rest ih =>
    cases r with
    | nil => cases hx
    | cons y r =>
      cases i with
      | zero =>
        cases hold
        cases hx
        simp only [List.set_cons_zero, List.zipWith_cons_cons, List.sum_cons]
        omega
      | succ i =>
        have hrest := ih hold hx
        simp only [List.set_cons_succ, List.zipWith_cons_cons, List.sum_cons]
        omega

/-- The payload that the registry serves for a collector, where a bundle that is served more
than once counts once. -/
def CollectInput.totalPayload (input : CollectInput) (kind : CollectorKind) : Nat :=
  match kind with
  | .notationSigs => ((input.candidates kind).map input.envelopeSize).sum
  | .bundles | .baselines => ∑ data ∈ ((input.candidates kind).filterMap fun cand =>
      cand.content input.lib input.cfg).toFinset, input.blobPayload kind data

/-- The total of a collector covers what it holds, a total above the limit is on record, and
the total comes from the payload of its candidates. -/
structure Collector.Sized (input : CollectInput) (kind : CollectorKind) (c : Collector) :
    Prop where
  held : payloadSize (c.slots.filterMap id) ≤ c.totalSize
  limited : maxTotalAttestationSize < c.totalSize → c.stats.limitErr ≠ none
  filled : c.slots.filterMap id = [] → c.totalSize = 0 ∨ c.stats.limitErr ≠ none
  aligned : c.slots.length = c.phases.length
  serves : ∀ (i : Nat) (phase : FetchPhase), c.phases[i]? = some phase →
    ∃ cand, (input.candidates kind)[i]? = some cand ∧ phase.Serves input kind cand
  within : c.totalSize + (List.zipWith (FetchPhase.outstanding input kind) c.phases
    (input.candidates kind)).sum ≤ c.accounted input kind
  seen : ∀ data ∈ c.seen, ∃ cand ∈ input.candidates kind,
    cand.content input.lib input.cfg = some data

theorem record_limitErr_ne_none {stats : CollectStats} (h : stats.limitErr ≠ none)
    (outcome : ReferrerOutcome) (err : Option GoError) :
    (stats.record outcome err).limitErr ≠ none := by
  cases outcome with
  | limitExceeded =>
    intro hnone
    exact h (Option.or_eq_none_iff.mp hnone).1
  | verified | unverified | skipped | verifyFailed | fetchFailed | keyUnavailable => exact h

namespace Collector

variable {input : CollectInput} {kind : CollectorKind} {used : Int} {c d : Collector}
  {op : CollectorOp} {w : Worked} {i : Nat} {old new : FetchPhase} {cand : Candidate}

/-- One candidate moves on, and what it leaves covers what the total grows by. -/
theorem Sized.set (h : c.Sized input kind) {grown : Nat} (hold : c.phases[i]? = some old)
    (hcand : (input.candidates kind)[i]? = some cand)
    (hadvance : c.Advance input kind d cand old new) (hphases : d.phases = c.phases.set i new)
    (htotal : d.totalSize = c.totalSize + grown)
    (hgrown : grown + new.outstanding input kind cand + c.accounted input kind ≤
      old.outstanding input kind cand + d.accounted input kind)
    (hlength : d.slots.length = c.slots.length)
    (hheld : payloadSize (d.slots.filterMap id) ≤ d.totalSize)
    (hlimited : maxTotalAttestationSize < d.totalSize → d.stats.limitErr ≠ none)
    (hfilled : d.slots.filterMap id = [] → d.totalSize = 0 ∨ d.stats.limitErr ≠ none) :
    d.Sized input kind := by
  have hlt : i < c.phases.length := (List.getElem?_eq_some_iff.mp hold).1
  refine ⟨hheld, hlimited, hfilled, ?_, ?_, ?_, ?_⟩
  · rw [hlength, hphases, List.length_set]
    exact h.aligned
  · intro m phase hphase
    rw [hphases] at hphase
    by_cases hm : i = m
    · subst hm
      rw [List.getElem?_set_self hlt] at hphase
      cases hphase
      exact ⟨cand, hcand, hadvance.serves⟩
    · rw [List.getElem?_set_ne hm] at hphase
      exact h.serves m phase hphase
  · have hwithin := h.within
    have hsum := sum_zipWith_set (FetchPhase.outstanding input kind) hold hcand new
    rw [hphases, htotal]
    omega
  · intro data hdata
    rcases hadvance.seen data hdata with hbefore | hcontent
    · exact h.seen data hbefore
    · exact ⟨cand, List.mem_of_getElem? hcand, hcontent⟩

/-- One candidate moves on without being recorded. -/
theorem Sized.move (h : c.Sized input kind) (hold : c.phases[i]? = some old)
    (hcand : (input.candidates kind)[i]? = some cand) {seen : List (List UInt8)}
    (hadvance : c.Advance input kind { c.move i new with seen := seen } cand old new) :
    ({ c.move i new with seen := seen } : Collector).Sized input kind := by
  refine h.set hold hcand hadvance rfl (Nat.add_zero _).symm ?_ rfl h.held h.limited h.filled
  rw [Nat.zero_add]
  exact hadvance.outstanding

theorem Sized.finish {f : Fetched} (h : c.Sized input kind)
    (hold : c.phases[i]? = some (.ended f)) : (c.finish i f).Sized input kind := by
  obtain ⟨cand, hcand, -⟩ := h.serves i _ hold
  have hheld := h.held
  have hadvance {d : Collector} (hseen : d.seen = c.seen) :
      c.Advance input kind d cand (.ended f) .recorded := .same hseen trivial (Nat.zero_le _)
  unfold Collector.finish
  dsimp only
  split
  · refine h.set hold hcand (hadvance rfl) rfl (Nat.add_zero _).symm ?_ rfl hheld ?_ ?_
    · exact Nat.add_le_add_right (Nat.zero_le _) _
    · exact fun hlimit => record_limitErr_ne_none (h.limited hlimit) _ _
    · exact fun hempty => (h.filled hempty).imp_right fun hlimit =>
        record_limitErr_ne_none hlimit _ _
  · next att hatt =>
    have hgrown : att.payload.length = (FetchPhase.ended f).outstanding input kind cand := by
      change _ = f.size
      rw [Fetched.size, hatt]
      rfl
    split
    · refine h.set hold hcand (hadvance rfl) rfl rfl ?_ rfl ?_ ?_ ?_
      · exact Nat.add_le_add_right hgrown.le _
      · exact le_trans hheld (Nat.le_add_right _ _)
      · intro _ hnone
        cases (Option.or_eq_none_iff.mp hnone).2
      · intro _
        right
        intro hnone
        cases (Option.or_eq_none_iff.mp hnone).2
    · next hfits =>
      have hlt : i < c.slots.length := by
        rw [h.aligned]
        exact (List.getElem?_eq_some_iff.mp hold).1
      refine h.set hold hcand (hadvance rfl) rfl rfl ?_ List.length_set ?_
        (fun hlimit => absurd hlimit hfits) ?_
      · exact Nat.add_le_add_right hgrown.le _
      · have hset := payloadSize_set_le c.slots i att
        change payloadSize ((c.slots.set i (some att)).filterMap id) ≤
          c.totalSize + att.payload.length
        omega
      · intro hempty
        have hmem : att ∈ (c.slots.set i (some att)).filterMap id :=
          List.mem_filterMap.mpr ⟨some att, List.mem_set hlt _, rfl⟩
        rw [show (c.slots.set i (some att)).filterMap id = [] from hempty] at hmem
        cases hmem

theorem Sized.step (h : c.Sized input kind) (hstep : c.step input kind used op = some w) :
    w.collector.Sized input kind := by
  cases step_transition hstep with
  | move i old new hold _ hmoved _ _ hadvance _ =>
    obtain ⟨seen, hmoved⟩ := hmoved
    obtain ⟨cand, hcand, hserves⟩ := h.serves i old hold
    have hnext := hadvance cand hcand hserves
    rw [hmoved] at hnext ⊢
    exact h.move hold hcand hnext
  | interrupt i e hold hmoved _ _ =>
    obtain ⟨cand, hcand, -⟩ := h.serves i _ hold
    rw [hmoved]
    have hadvance : c.Advance input kind { c.move i .recorded with seen := c.seen } cand .waiting
      .recorded := .same rfl trivial (Nat.zero_le _)
    have hmove := h.move hold hcand hadvance
    exact { hmove with }
  | finish i f hold hcollector _ _ =>
    rw [hcollector]
    exact h.finish hold

end Collector

namespace CollectState

variable {input : CollectInput} {s t : CollectState}

/-- The payload that the collectors have been given. -/
def collectedSize (s : CollectState) : Nat :=
  (s.collector .bundles).totalSize + (s.collector .notationSigs).totalSize +
    (s.collector .baselines).totalSize

end CollectState

end Collectors

section Tag

variable {req : FetchRequest}

/-- The payload that a layer of the tag has. -/
def layerPayload (req : FetchRequest) (keys : LegacyKeys) (layer : Layer)
    (desc : Option LayerDescriptor) (answers : LayerAnswers) : Nat :=
  match layer.content req.lib req.cfg with
  | none => 0
  | some data => (verifyCosignLayer req.lib req.digest keys
      ((desc.map fun d => d.annotations).getD []) answers data).size

def layersPayload (req : FetchRequest) (keys : LegacyKeys) (descriptors : List LayerDescriptor)
    (answers : Nat → LayerAnswers) : (idx : Nat) → List Layer → Nat
  | _, [] => 0
  | idx, layer :: rest => layerPayload req keys layer descriptors[idx]? (answers idx) +
      layersPayload req keys descriptors answers (idx + 1) rest

/-- The payload that the registry serves under the tag. -/
def tagPayload (req : FetchRequest) (answers : TagAnswers) : Nat :=
  match answers.image with
  | .error _ => 0
  | .ok img =>
    match img.manifest, img.layers with
    | .ok manifest, .ok layers => layersPayload req (loadLegacyKeys req.lib req.trustedKeys)
        ((manifest.map fun m => m.layers).getD []) answers.layer 0 layers
    | _, _ => 0

/-- What the loop over the layers has collected: its total covers its attestations, a total
above the limit is on record, and the total is at most `bound`. -/
structure TagState.Sized (st : TagState) (bound : Nat) : Prop where
  held : payloadSize st.attestations ≤ st.totalSize
  limited : maxTotalAttestationSize < st.totalSize → st.stats.limitErr ≠ none
  within : st.totalSize ≤ bound

theorem TagState.Sized.record {st : TagState} {bound : Nat} (h : st.Sized bound) (used : Int)
    (f : Fetched) : (st.record used f).Sized bound :=
  ⟨h.held, fun hlimit => record_limitErr_ne_none (h.limited hlimit) _ _, h.within⟩

/-- The payload that the tag has been read for. -/
def tagSize (req : FetchRequest) (answers : TagAnswers) (used : Int) : Nat :=
  match fetchCosignTagAttestations req answers used with
  | .ok st => st.totalSize
  | .error _ => 0

end Tag

section Pass

variable {req : FetchRequest} {pass : Pass} {s : CollectState} {err : GoError}

/-- Whether the cosign tag is read after the collection. -/
def Collected.readsTag (c : Collected) : Bool :=
  match c.err with
  | none => c.attestations.isEmpty && c.baselineSBOMs.isEmpty
  | some err => err.is .errVerificationFailed && !err.is .errIncompleteAttestationSet &&
      c.baselineSBOMs.isEmpty

/-- The payload collected by the end of a pass, from referrers of every kind and the tag. -/
def collectedSize (req : FetchRequest) (pass : Pass) (s : CollectState) : Nat :=
  s.collectedSize + if s.collectSelection.readsTag then tagSize req pass.tag s.used else 0

/-- The end of the collectors of a pass, if the listing got that far. -/
def collectEnd (req : FetchRequest) (pass : Pass) : Option CollectState :=
  match pass.listing with
  | .ok (.ok manifests) =>
    let selection := selectReferrers manifests
    if 0 < selection.dropped then none
    else
      let input := pass.input req selection
      (collectMachine input pass.listingBytes).exec (.new input pass.listingBytes) pass.schedule
  | _ => none

/-- The payload that counts of what a source serves: a source that exceeds the limit alone is
stopped there. -/
def capped (payload : Nat) : Nat := min payload maxTotalAttestationSize

/-- The payload that a registry serves for an image. The tag is an alternative to the
bundles. -/
def Pass.payload (pass : Pass) (req : FetchRequest) : Nat :=
  match pass.listing with
  | .ok (.ok manifests) =>
    let input := pass.input req (selectReferrers manifests)
    max (capped (input.totalPayload .bundles)) (capped (tagPayload req pass.tag)) +
      capped (input.totalPayload .notationSigs) + capped (input.totalPayload .baselines)
  | _ => 0

/-- The payload that a pass collected. -/
def PassRun.size (run : PassRun) : Nat :=
  match collectEnd run.req run.pass with
  | some s => collectedSize run.req run.pass s
  | none => 0

end Pass

section Fetch

/-- The payload that is returned keeps to the limit, and when more was collected the fetch
fails as an incomplete set. -/
def RetryResult.Bounded (r : RetryResult) : Prop :=
  payloadSize r.answer.attestations ≤ maxTotalAttestationSize ∧
    ∀ run, r.decided = some run → maxTotalAttestationSize < run.size →
      IncompleteSet run.result.answer.err ∧ IncompleteSet r.answer.err ∧
        r.answer.attestations = []

/-- An incomplete set stays one when the error of the mirror is added. -/
theorem IncompleteSet.fallback {err : Option GoError} (h : IncompleteSet err)
    (originalRef mirrorRef : String) (mirrorErr : GoError) :
    IncompleteSet (err.map fun fallbackErr =>
      fallbackError originalRef mirrorRef fallbackErr mirrorErr) := by
  cases err with
  | none => cases h.1
  | some err =>
    obtain ⟨hfailed, hincomplete⟩ := h
    rw [errorIs_some] at hfailed hincomplete
    exact ⟨by simp [fallbackError, hfailed], by simp [fallbackError, hincomplete]⟩

end Fetch

section Mixed

/-- A layer of unknown size that holds the given bytes. -/
def storedLayer (data : List UInt8) : Layer := ⟨.error (foreign "no size"), .ok ⟨data, none⟩⟩

variable {data : List UInt8} {used : Int}

variable {input : CollectInput} {kind : CollectorKind} {seen : List (List UInt8)}

def provenanceAttestation (payload bundle : List UInt8) : VerifiedAttestation :=
  ⟨predicateSLSAProvenanceV1, payload, "sha256:00", .sigstore, ⟨"", [], "", ""⟩, bundle, "", "", 0,
    ""⟩

variable {n : Nat}

end Mixed

end NriSupplyChain.Attestation
