import NriSupplyChain.Attestation.Referrers
import NriSupplyChain.Lib.Machine

/-!
The concurrent fetches of the selected referrers. Each of three collectors fetches
its candidates concurrently; they share the download budget and the context of the
pass. A run of the machine is one schedule of all their steps and of the moment when
the context ends.

In every run, what was left open shows in the statistics of the collectors. It is
recorded like a failed verification exactly when a verification began after the
context had ended, or a response ended early.
-/

namespace NriSupplyChain.Attestation

open NriSupplyChain.Types Lib

/-- Where the fetch of one candidate is. -/
inductive FetchPhase where
  | waiting
  | started
  | opened (layer : Opened)
  /-- Downloaded, not yet compared with the blobs seen before. -/
  | read (data : List UInt8)
  | fresh (data : List UInt8)
  | ended (f : Fetched)
  | recorded

def FetchPhase.unanswered : FetchPhase → List Unanswered
  | .ended f => f.unanswered
  | .waiting | .started | .opened _ | .read _ | .fresh _ | .recorded => []

structure Collector where
  phases : List FetchPhase
  /-- The blobs seen before. -/
  seen : List (List UInt8)
  stats : CollectStats
  totalSize : Nat
  slots : List (Option VerifiedAttestation)
  groupEnd : Option GroupEnd

/-- What a pass knows when it collects. -/
structure CollectInput where
  lib : FetchLibrary
  cfg : FetcherConfig
  digest : String
  candidates : CollectorKind → List Candidate

/-- The payload of a blob that is served as a bundle; only the first candidate with the blob
verifies it. -/
def CollectInput.blobPayload (input : CollectInput) (kind : CollectorKind) (data : List UInt8) :
    Nat :=
  ((input.candidates kind).map fun cand =>
    (verifyReferrer input.lib input.digest none cand data).size).foldr max 0

def CollectInput.envelopeSize (input : CollectInput) (cand : Candidate) : Nat :=
  ((cand.content input.lib input.cfg).map List.length).getD 0

/-- What a fetch has so far is what the registry serves for its candidate. -/
def FetchPhase.Serves (input : CollectInput) (kind : CollectorKind) (cand : Candidate) :
    FetchPhase → Prop
  | .waiting | .started | .ended _ | .recorded => True
  | .opened (.bundle layer) => kind ≠ .notationSigs ∧
      cand.content input.lib input.cfg = layer.content input.lib input.cfg
  | .opened (.notationSig _ layer) => kind = .notationSigs ∧
      cand.content input.lib input.cfg = layer.content input.lib input.cfg
  | .read data | .fresh data => kind ≠ .notationSigs ∧
      cand.content input.lib input.cfg = some data

/-- The payload that is accounted for, but not recorded yet. Bundles are accounted for when
they are found to be new. -/
def FetchPhase.outstanding (input : CollectInput) (kind : CollectorKind) (phase : FetchPhase)
    (cand : Candidate) : Nat :=
  match phase with
  | .recorded => 0
  | .ended f => f.size
  | .fresh data => input.blobPayload kind data
  | .waiting | .started | .opened _ | .read _ =>
    match kind with
    | .notationSigs => input.envelopeSize cand
    | .bundles | .baselines => 0

/-- One step of the fetch of candidate `i`. `manifestBytes` were charged to the
download budget for its manifest. -/
inductive CollectorOp where
  | start (i : Nat)
  | openReferrer (i : Nat) (manifestBytes : Nat)
  | download (i : Nat)
  | add (i : Nat)
  | verify (i : Nat)
  | finish (i : Nat)

/-- A collector after a step, with the download budget used and what was recorded
without an answer. -/
structure Worked where
  collector : Collector
  used : Int
  unanswered : List Unanswered

namespace Collector

def new (candidates : Nat) : Collector :=
  ⟨List.replicate candidates .waiting, [], .empty, 0, List.replicate candidates none, none⟩

def move (c : Collector) (i : Nat) (phase : FetchPhase) : Collector :=
  { c with phases := c.phases.set i phase }

/-- The end of the context of the pass reaches the context of the group. -/
def cancel (c : Collector) (e : CtxErr) : Collector :=
  { c with groupEnd := c.groupEnd.or (some (.parent e)) }

/-- The end of a fetch is recorded. An attestation, verified or not, takes its slot
unless the collection becomes too large. -/
def finish (c : Collector) (i : Nat) (f : Fetched) : Collector :=
  let c := { c.move i .recorded with stats := c.stats.record f.outcome f.err }
  match f.att with
  | none => c
  | some att =>
    let newTotal := c.totalSize + att.payload.length
    if maxTotalAttestationSize < newTotal then
      { c with
        totalSize := newTotal
        stats := c.stats.record .limitExceeded (some errAggregateSizeExceeded)
        groupEnd := c.groupEnd.or (some .aggregateSize) }
    else { c with totalSize := newTotal, slots := c.slots.set i (some att) }

/-- The goroutine of candidate `i` in `collectConcurrently`, cut where other
goroutines can come in between. -/
def step (input : CollectInput) (kind : CollectorKind) (used : Int) (c : Collector) :
    CollectorOp → Option Worked
  | .start i =>
    match c.phases[i]? with
    | some .waiting =>
      match c.groupEnd with
      | none => some ⟨c.move i .started, used, []⟩
      | some .aggregateSize => some ⟨c.move i .recorded, used, []⟩
      | some (.parent e) => some ⟨{ c.move i .recorded with
          stats := c.stats.record .fetchFailed (some e.error) }, used, [.interrupted]⟩
    | _ => none
  | .openReferrer i manifestBytes =>
    match c.phases[i]?, (input.candidates kind)[i]? with
    | some .started, some cand =>
      let used := used + manifestBytes
      match openReferrer input.cfg kind used cand with
      | .error f => some ⟨c.move i (.ended f), used, []⟩
      | .ok layer => some ⟨c.move i (.opened layer), used, []⟩
    | _, _ => none
  | .download i =>
    match c.phases[i]? with
    | some (.opened layer) =>
      match downloadReferrer input.lib input.cfg input.digest used layer with
      | (used, .error f) => some ⟨c.move i (.ended f), used, []⟩
      | (used, .ok data) => some ⟨c.move i (.read data), used, []⟩
    | _ => none
  | .add i =>
    match c.phases[i]? with
    | some (.read data) =>
      if data ∈ c.seen then some ⟨c.move i (.ended ⟨none, .skipped, none, []⟩), used, []⟩
      else some ⟨{ c.move i (.fresh data) with seen := data :: c.seen }, used, []⟩
    | _ => none
  | .verify i =>
    match c.phases[i]?, (input.candidates kind)[i]? with
    | some (.fresh data), some cand => some ⟨c.move i
        (.ended (verifyReferrer input.lib input.digest c.groupEnd cand data)), used, []⟩
    | _, _ => none
  | .finish i =>
    match c.phases[i]? with
    | some (.ended f) => some ⟨c.finish i f, used, f.unanswered⟩
    | _ => none

/-- What ended fetches left open that is not recorded yet. -/
def pending (c : Collector) : List Unanswered := c.phases.flatMap FetchPhase.unanswered

/-- The steps that leave nothing open that would be recorded like a failed
verification. -/
def Undisturbed (input : CollectInput) (kind : CollectorKind) (c : Collector) :
    CollectorOp → Prop
  | .openReferrer i _ => ∀ cand failure, (input.candidates kind)[i]? = some cand →
      cand.image = .error failure → failure.cutShort = false
  | .download i => ∀ opened, c.phases[i]? = some (.opened opened) →
      opened.layer.cutShort input.cfg = false
  | .verify _ => ∀ e, c.groupEnd ≠ some (.parent e)
  | .start _ | .add _ | .finish _ => True

/-- Every end of a fetch tells what it left open, and so far no error of a fetch is a
verification failure. -/
structure Honest (c : Collector) : Prop where
  ended : ∀ f, .ended f ∈ c.phases → f.Honest
  plain : c.stats.Plain

end Collector

theorem mem_flatMap_set_or {α β : Type} (f : α → List β) {l : List α} {i : Nat} {old : α}
    (h : l[i]? = some old) (new : α) (x : β) :
    (x ∈ (l.set i new).flatMap f ∨ x ∈ f old) ↔ (x ∈ l.flatMap f ∨ x ∈ f new) := by
  induction l generalizing i with
  | nil => cases h
  | cons a rest ih =>
    cases i with
    | zero =>
      cases h
      simp only [List.set_cons_zero, List.flatMap_cons, List.mem_append]
      tauto
    | succ i =>
      have := ih h
      simp only [List.set_cons_succ, List.flatMap_cons, List.mem_append]
      tauto

section Serves

variable {input : CollectInput} {kind : CollectorKind} {cand : Candidate} {used : Int}
  {f : Fetched} {opened : Opened} {data : List UInt8}

theorem openReferrer_size (h : openReferrer input.cfg kind used cand = .error f) :
    f.size = 0 := by
  rcases openReferrer_error h with ⟨_, _, rfl⟩ | ⟨-, rfl | ⟨_, _, rfl⟩⟩ <;> rfl

theorem openReferrer_serves (h : openReferrer input.cfg kind used cand = .ok opened) :
    (FetchPhase.opened opened).Serves input kind cand := by
  unfold openReferrer at h
  split at h
  · cases h
  · next img himage =>
    have hcontent {layer : Layer} (hfirst : firstLayer img = .ok layer) :
        cand.content input.lib input.cfg = layer.content input.lib input.cfg := by
      simp only [Candidate.content, himage, hfirst]
    cases kind with
    | bundles | baselines =>
      obtain ⟨layer, hfirst, rfl⟩ := map_openFirstLayer_ok h
      exact ⟨by simp, hcontent hfirst⟩
    | notationSigs =>
      dsimp only at h
      split at h
      · cases h
      · cases h
      · obtain ⟨layer, hfirst, rfl⟩ := map_openFirstLayer_ok h
        exact ⟨rfl, hcontent hfirst⟩

theorem downloadReferrer_size (hopened : (FetchPhase.opened opened).Serves input kind cand)
    (h : (downloadReferrer input.lib input.cfg input.digest used opened).2 = .error f) :
    f.size ≤ (FetchPhase.opened opened).outstanding input kind cand := by
  rcases downloadReferrer_error h with ⟨_, _, rfl⟩ | ⟨envelope, manifest, layer, rfl, hread, rfl⟩
  · exact Nat.zero_le _
  · obtain ⟨rfl, hcontent⟩ := hopened
    have hsize : input.envelopeSize cand = envelope.length := by
      rw [CollectInput.envelopeSize, hcontent.trans (Layer.content_of_ok hread)]
      rfl
    exact hsize.ge

theorem downloadReferrer_serves (hopened : (FetchPhase.opened opened).Serves input kind cand)
    (h : (downloadReferrer input.lib input.cfg input.digest used opened).2 = .ok data) :
    (FetchPhase.read data).Serves input kind cand := by
  obtain ⟨layer, rfl, hread⟩ := downloadReferrer_ok h
  exact ⟨hopened.1, hopened.2.trans (Layer.content_of_ok hread)⟩

/-- The end of the context takes an attestation away at most. -/
theorem verifyReferrer_size (hcand : cand ∈ input.candidates kind) (ended : Option GroupEnd) :
    (verifyReferrer input.lib input.digest ended cand data).size ≤
      input.blobPayload kind data := by
  cases ended with
  | none => exact List.le_max_of_le (List.mem_map_of_mem hcand) (le_refl _)
  | some e =>
    unfold verifyReferrer
    simp only [Option.map_some, verifyBundleCommon]
    split <;> exact Nat.zero_le _

end Serves

namespace Collector

/-- The payload that a collector has accounted for: every Notation envelope, and the bundles
seen so far. -/
def accounted (input : CollectInput) (kind : CollectorKind) (c : Collector) : Nat :=
  match kind with
  | .notationSigs => ((input.candidates kind).map input.envelopeSize).sum
  | .bundles | .baselines => ∑ data ∈ c.seen.toFinset, input.blobPayload kind data

/-- A candidate moves on with what the registry serves for it, and what is left to record of
it is accounted for. -/
structure Advance (input : CollectInput) (kind : CollectorKind) (c d : Collector)
    (cand : Candidate) (old new : FetchPhase) : Prop where
  serves : new.Serves input kind cand
  outstanding : new.outstanding input kind cand + c.accounted input kind ≤
    old.outstanding input kind cand + d.accounted input kind
  seen : ∀ data ∈ d.seen, data ∈ c.seen ∨ cand.content input.lib input.cfg = some data

theorem Advance.same {input : CollectInput} {kind : CollectorKind} {c d : Collector}
    {cand : Candidate} {old new : FetchPhase} (hseen : d.seen = c.seen)
    (hserves : new.Serves input kind cand)
    (hle : new.outstanding input kind cand ≤ old.outstanding input kind cand) :
    c.Advance input kind d cand old new := by
  have haccounted : d.accounted input kind = c.accounted input kind := by
    unfold accounted
    rw [hseen]
  refine ⟨hserves, ?_, fun data hdata => .inl (hseen ▸ hdata)⟩
  rw [haccounted]
  exact Nat.add_le_add_right hle _

/-- A new bundle is seen and accounted for. -/
theorem Advance.fresh {input : CollectInput} {kind : CollectorKind} {c : Collector}
    {cand : Candidate} {data : List UInt8} (hread : (FetchPhase.read data).Serves input kind cand)
    (hnew : data ∉ c.seen) (i : Nat) :
    c.Advance input kind { c.move i (.fresh data) with seen := data :: c.seen } cand
      (.read data) (.fresh data) := by
  refine ⟨hread, ?_, ?_⟩
  · cases kind with
    | notationSigs => exact absurd rfl hread.1
    | bundles | baselines =>
      simp only [accounted, FetchPhase.outstanding, List.toFinset_cons, Nat.zero_add]
      rw [Finset.sum_insert (by simpa using hnew)]
  · intro other hother
    rcases List.mem_cons.mp hother with rfl | hold
    · exact .inr hread.2
    · exact .inl hold

/-- What a step of a collector does: it moves one fetch on, finds its context ended,
or records the end of a fetch. -/
inductive Transition (input : CollectInput) (kind : CollectorKind) (c : Collector)
    (op : CollectorOp) (w : Worked) : Prop where
  | move (i : Nat) (old new : FetchPhase) (hold : c.phases[i]? = some old)
      (hquiet : old.unanswered = [])
      (hmoved : ∃ seen, w.collector = { c.move i new with seen := seen })
      (hlog : w.unanswered = []) (hhonest : ∀ f, new = .ended f → f.Honest)
      (hadvance : ∀ cand, (input.candidates kind)[i]? = some cand →
        old.Serves input kind cand → c.Advance input kind w.collector cand old new)
      (hexact : (∀ u ∈ new.unanswered, u.overlooked = false) ↔ c.Undisturbed input kind op)
  | interrupt (i : Nat) (e : CtxErr) (hold : c.phases[i]? = some .waiting)
      (hmoved : w.collector = { c.move i .recorded with
        stats := c.stats.record .fetchFailed (some e.error) })
      (hlog : w.unanswered = [.interrupted]) (hundisturbed : c.Undisturbed input kind op)
  | finish (i : Nat) (f : Fetched) (hold : c.phases[i]? = some (.ended f))
      (hcollector : w.collector = c.finish i f) (hlog : w.unanswered = f.unanswered)
      (hundisturbed : c.Undisturbed input kind op)

section Step

variable {input : CollectInput} {kind : CollectorKind} {used : Int} {c : Collector}
  {op : CollectorOp} {w : Worked}

variable {i : Nat}

theorem step_start (h : c.step input kind used (.start i) = some w) :
    c.Transition input kind (.start i) w := by
  simp only [step] at h
  split at h
  · next hold =>
    split at h
    · cases h
      exact .move i _ .started hold rfl ⟨_, rfl⟩ rfl (by rintro _ ⟨⟩)
        (fun _ _ _ => .same rfl trivial (le_refl _)) (by simp [FetchPhase.unanswered, Undisturbed])
    · cases h
      exact .move i _ .recorded hold rfl ⟨_, rfl⟩ rfl (by rintro _ ⟨⟩)
        (fun _ _ _ => .same rfl trivial (Nat.zero_le _))
        (by simp [FetchPhase.unanswered, Undisturbed])
    · next e _ =>
      cases h
      exact .interrupt i e hold rfl rfl trivial
  · cases h

theorem step_openReferrer {manifestBytes : Nat}
    (h : c.step input kind used (.openReferrer i manifestBytes) = some w) :
    c.Transition input kind (.openReferrer i manifestBytes) w := by
  simp only [step] at h
  split at h
  · next cand hold hcand =>
    have hundisturbed : c.Undisturbed input kind (.openReferrer i manifestBytes) ↔
        ∀ failure, cand.image = .error failure → failure.cutShort = false := by
      simp only [Undisturbed, hcand, Option.some.injEq]
      exact ⟨fun hall failure => hall cand failure rfl, by rintro hall _ failure rfl; exact hall _⟩
    split at h
    · next f hopen =>
      cases h
      refine .move i _ (.ended f) hold rfl ⟨_, rfl⟩ rfl ?_ ?_ ?_
      · rintro _ ⟨⟩
        exact openReferrer_honest hopen
      · intro _ _ _
        exact .same rfl trivial ((openReferrer_size hopen).trans_le (Nat.zero_le _))
      · exact (openReferrer_overlooked hopen).trans hundisturbed.symm
    · next layer hopen =>
      cases h
      refine .move i _ (.opened layer) hold rfl ⟨_, rfl⟩ rfl (by rintro _ ⟨⟩) ?_ ?_
      · intro other hother _
        cases hcand.symm.trans hother
        exact .same rfl (openReferrer_serves hopen) (le_refl _)
      · refine iff_of_true (by simp [FetchPhase.unanswered]) (hundisturbed.mpr ?_)
        intro failure hfailure
        simp [openReferrer, hfailure] at hopen
  · cases h

theorem step_download (h : c.step input kind used (.download i) = some w) :
    c.Transition input kind (.download i) w := by
  simp only [step] at h
  split at h
  · next opened hold =>
    have hundisturbed : c.Undisturbed input kind (.download i) ↔
        opened.layer.cutShort input.cfg = false := by
      simp [Undisturbed, hold]
    split at h
    · next f hdownload =>
      cases h
      have hended := congrArg Prod.snd hdownload
      refine .move i _ (.ended f) hold rfl ⟨_, rfl⟩ rfl ?_ ?_ ?_
      · rintro _ ⟨⟩
        exact downloadReferrer_honest hended
      · intro cand _ hopened
        exact .same rfl trivial (downloadReferrer_size hopened hended)
      · exact (downloadReferrer_overlooked hended).trans hundisturbed.symm
    · next data hdownload =>
      cases h
      have hread := congrArg Prod.snd hdownload
      refine .move i _ (.read data) hold rfl ⟨_, rfl⟩ rfl (by rintro _ ⟨⟩) ?_ ?_
      · intro cand _ hopened
        exact .same rfl (downloadReferrer_serves hopened hread) (le_refl _)
      · obtain ⟨layer, rfl, hlayer⟩ := downloadReferrer_ok hread
        exact iff_of_true (by simp [FetchPhase.unanswered])
          (hundisturbed.mpr (Layer.cutShort_of_ok hlayer))
  · cases h

theorem step_add (h : c.step input kind used (.add i) = some w) :
    c.Transition input kind (.add i) w := by
  simp only [step] at h
  split at h
  · next data hold =>
    split at h
    · cases h
      refine .move i _ (.ended ⟨none, .skipped, none, []⟩) hold rfl ⟨_, rfl⟩ rfl ?_
        (fun _ _ _ => .same rfl trivial (Nat.zero_le _))
        (by simp [FetchPhase.unanswered, Undisturbed])
      rintro _ ⟨⟩
      exact Fetched.honest_of_answered rfl rfl rfl
    · next hnew =>
      cases h
      exact .move i _ (.fresh data) hold rfl ⟨_, rfl⟩ rfl (by rintro _ ⟨⟩)
        (fun _ _ hread => .fresh hread hnew i) (by simp [FetchPhase.unanswered, Undisturbed])
  · cases h

theorem step_verify (h : c.step input kind used (.verify i) = some w) :
    c.Transition input kind (.verify i) w := by
  simp only [step] at h
  split at h
  · next data cand hold hcand =>
    cases h
    refine .move i _ (.ended (verifyReferrer input.lib input.digest c.groupEnd cand data)) hold
      rfl ⟨_, rfl⟩ rfl ?_ ?_ (verifyReferrer_overlooked _ _ _ _ _)
    · rintro _ ⟨⟩
      exact verifyReferrer_honest _ _ _ _ _
    · intro other hother hread
      cases hcand.symm.trans hother
      exact .same rfl trivial (verifyReferrer_size (List.mem_of_getElem? hcand) c.groupEnd)
  · cases h

theorem step_finish (h : c.step input kind used (.finish i) = some w) :
    c.Transition input kind (.finish i) w := by
  simp only [step] at h
  split at h
  · next f hold =>
    cases h
    exact .finish i f hold rfl rfl trivial
  · cases h

theorem step_transition (h : c.step input kind used op = some w) :
    c.Transition input kind op w := by
  cases op with
  | start i => exact step_start h
  | openReferrer i manifestBytes => exact step_openReferrer h
  | download i => exact step_download h
  | add i => exact step_add h
  | verify i => exact step_verify h
  | finish i => exact step_finish h

end Step

theorem finish_phases (c : Collector) (i : Nat) (f : Fetched) :
    (c.finish i f).phases = c.phases.set i .recorded := by
  unfold finish
  dsimp only
  split
  · rfl
  · split <;> rfl

variable {f : Fetched}

/-- Recording the end of a fetch keeps what the statistics showed, and shows what
the fetch left open. -/
theorem finish_shows (c : Collector) (i : Nat) (hf : f.Honest) {u : Unanswered}
    (h : u ∈ f.unanswered ∨ c.stats.Shows u) : (c.finish i f).stats.Shows u := by
  have hrecord : (c.stats.record f.outcome f.err).Shows u := by
    rcases h with hnew | hold
    · exact c.stats.record_shows (hf.reports u hnew)
    · exact hold.record _ _
  unfold finish
  dsimp only
  split
  · exact hrecord
  · split
    · exact hrecord.record _ _
    · exact hrecord

theorem finish_lacking (c : Collector) (i : Nat) (h : (c.finish i f).stats.lacking = true) :
    c.stats.lacking = true ∨ f.outcome.lacking = true := by
  unfold finish at h
  dsimp only at h
  split at h
  · exact CollectStats.lacking_of_record h
  · split at h
    · rcases CollectStats.lacking_of_record h with hrecord | hlimit
      · exact CollectStats.lacking_of_record hrecord
      · cases hlimit
    · exact CollectStats.lacking_of_record h

theorem finish_plain (c : Collector) (i : Nat) (hf : f.Honest) (h : c.stats.Plain) :
    (c.finish i f).stats.Plain := by
  have hrecord : (c.stats.record f.outcome f.err).Plain := h.record hf.plain
  unfold finish
  dsimp only
  split
  · exact hrecord
  · split
    · refine hrecord.record ?_
      rintro _ ⟨⟩
      rfl
    · exact hrecord

theorem Honest.of_set {c c' : Collector} (h : c.Honest) {i : Nat} {new : FetchPhase}
    (hphases : c'.phases = c.phases.set i new) (hnew : ∀ f, new = .ended f → f.Honest)
    (hplain : c'.stats.Plain) : c'.Honest := by
  refine ⟨?_, hplain⟩
  intro f hf
  rw [hphases] at hf
  rcases List.mem_or_eq_of_mem_set hf with hold | heq
  · exact h.ended f hold
  · exact hnew f heq.symm

namespace Transition

variable {input : CollectInput} {kind : CollectorKind} {c : Collector} {op : CollectorOp}
  {w : Worked}

theorem honest (h : c.Transition input kind op w) (hc : c.Honest) : w.collector.Honest := by
  cases h with
  | move i old new _ _ hmoved _ hhonest _ _ =>
    obtain ⟨seen, hmoved⟩ := hmoved
    rw [hmoved]
    exact hc.of_set rfl hhonest hc.plain
  | interrupt i e _ hmoved _ _ =>
    rw [hmoved]
    refine hc.of_set rfl (by rintro _ ⟨⟩) ?_
    refine hc.plain.record ?_
    rintro _ ⟨⟩
    exact e.notVerification
  | finish i f hold hcollector _ _ =>
    rw [hcollector]
    have hf : f.Honest := hc.ended f (List.mem_of_getElem? hold)
    exact hc.of_set (c.finish_phases i f) (by rintro _ ⟨⟩) (c.finish_plain i hf hc.plain)

/-- What a step leaves open, and what was left open before, shows afterwards. -/
theorem shows (h : c.Transition input kind op w) (hc : c.Honest) {u : Unanswered}
    (hu : u ∈ w.unanswered ∨ c.stats.Shows u) : w.collector.stats.Shows u := by
  cases h with
  | move i old new _ _ hmoved hlog _ _ _ =>
    obtain ⟨seen, hmoved⟩ := hmoved
    rw [hmoved]
    rcases hu with hnew | hold
    · rw [hlog] at hnew
      cases hnew
    · exact hold
  | interrupt i e _ hmoved hlog _ =>
    rw [hmoved]
    rcases hu with hnew | hold
    · rw [hlog] at hnew
      cases List.mem_singleton.mp hnew
      exact c.stats.record_shows (.inr (.inr ⟨rfl, .inl rfl, rfl⟩))
    · exact hold.record _ _
  | finish i f hold hcollector hlog _ =>
    rw [hcollector]
    rw [hlog] at hu
    exact c.finish_shows i (hc.ended f (List.mem_of_getElem? hold)) hu

/-- Nothing is lacking without a request that went unanswered. -/
theorem backed (h : c.Transition input kind op w) (hc : c.Honest)
    (hlacking : w.collector.stats.lacking = true) :
    c.stats.lacking = true ∨ w.unanswered ≠ [] := by
  cases h with
  | move i old new _ _ hmoved _ _ _ _ =>
    obtain ⟨seen, hmoved⟩ := hmoved
    rw [hmoved] at hlacking
    exact .inl hlacking
  | interrupt i e _ _ hlog _ => exact .inr (by simp [hlog])
  | finish i f hold hcollector hlog _ =>
    rw [hcollector] at hlacking
    refine (c.finish_lacking i hlacking).imp id ?_
    intro houtcome
    rw [hlog]
    exact (hc.ended f (List.mem_of_getElem? hold)).backed houtcome

/-- Only a disturbed step leaves something open that is recorded like a failed
verification. -/
theorem overlooked (h : c.Transition input kind op w) :
    (∀ u, u ∈ w.unanswered ∨ u ∈ w.collector.pending → u.overlooked = false) ↔
      (∀ u ∈ c.pending, u.overlooked = false) ∧ c.Undisturbed input kind op := by
  cases h with
  | move i old new hold hquiet hmoved hlog _ _ hexact =>
    obtain ⟨seen, hmoved⟩ := hmoved
    have hset (u : Unanswered) :
        u ∈ w.collector.pending ↔ u ∈ c.pending ∨ u ∈ new.unanswered := by
      have := mem_flatMap_set_or FetchPhase.unanswered hold new u
      simpa [pending, hmoved, Collector.move, hquiet] using this
    rw [← hexact]
    simp only [hlog, hset, List.not_mem_nil, false_or, or_imp, forall_and]
  | interrupt i e hold hmoved hlog hundisturbed =>
    have hset (u : Unanswered) : u ∈ w.collector.pending ↔ u ∈ c.pending := by
      have := mem_flatMap_set_or FetchPhase.unanswered hold .recorded u
      simpa [pending, hmoved, Collector.move, FetchPhase.unanswered] using this
    simp only [hlog, hset, List.mem_singleton, or_imp, forall_and, forall_eq, hundisturbed,
      and_true, and_iff_right_iff_imp]
    intro _
    rfl
  | finish i f hold hcollector hlog hundisturbed =>
    have hset (u : Unanswered) :
        (u ∈ f.unanswered ∨ u ∈ w.collector.pending) ↔ u ∈ c.pending := by
      have := mem_flatMap_set_or FetchPhase.unanswered hold .recorded u
      rw [or_comm]
      simpa [pending, hcollector, finish_phases, FetchPhase.unanswered] using this
    simp only [hlog, hset, hundisturbed, and_true]

end Transition

end Collector

structure CollectState where
  collector : CollectorKind → Collector
  ctx : Option CtxErr
  used : Int
  unanswered : List Unanswered

inductive CollectOp where
  /-- The context of the pass ends. -/
  | expire (e : CtxErr)
  /-- The end of the context reaches a collector. -/
  | cancel (kind : CollectorKind)
  | work (kind : CollectorKind) (op : CollectorOp)

namespace CollectState

/-- The collectors start when the listing has used up a part of the budget. -/
def new (input : CollectInput) (used : Int) : CollectState :=
  ⟨fun kind => .new (input.candidates kind).length, none, used, []⟩

def set (s : CollectState) (kind : CollectorKind) (c : Collector) : CollectState :=
  { s with collector := Function.update s.collector kind c }

def step (input : CollectInput) (s : CollectState) : CollectOp → Option CollectState
  | .expire e =>
    match s.ctx with
    | some _ => none
    | none => some { s with ctx := some e }
  | .cancel kind =>
    s.ctx.map fun e => s.set kind ((s.collector kind).cancel e)
  | .work kind op =>
    ((s.collector kind).step input kind s.used op).map fun w =>
      { s.set kind w.collector with used := w.used, unanswered := w.unanswered ++ s.unanswered }

/-- Every candidate of every collector was recorded. -/
def complete (s : CollectState) : Bool :=
  [CollectorKind.bundles, .notationSigs, .baselines].all fun kind =>
    (s.collector kind).phases.all fun phase =>
      match phase with
      | .recorded => true
      | _ => false

/-- The attestations of a collector in the order of the candidates. -/
def collected (s : CollectState) (kind : CollectorKind) : List VerifiedAttestation :=
  (s.collector kind).slots.filterMap id

def Undisturbed (input : CollectInput) (s : CollectState) : CollectOp → Prop
  | .work kind op => (s.collector kind).Undisturbed input kind op
  | .expire _ | .cancel _ => True

/-- What was left open shows in the statistics once it is recorded, and nothing is
lacking otherwise. -/
structure Shown (s : CollectState) : Prop where
  honest : ∀ kind, (s.collector kind).Honest
  logged : ∀ u ∈ s.unanswered, ∃ kind, (s.collector kind).stats.Shows u
  backed : ∀ kind, (s.collector kind).stats.lacking = true → s.unanswered ≠ []

/-- Nothing was left open that is recorded like a failed verification. -/
def Clear (s : CollectState) : Prop :=
  (∀ u ∈ s.unanswered, u.overlooked = false) ∧
    ∀ kind, ∀ u ∈ (s.collector kind).pending, u.overlooked = false

@[simp] theorem set_collector_self (s : CollectState) (kind : CollectorKind) (c : Collector) :
    (s.set kind c).collector kind = c :=
  Function.update_self _ _ _

variable {kind : CollectorKind}

theorem set_collector_of_ne (s : CollectState) {k : CollectorKind} (c : Collector) (h : k ≠ kind) :
    (s.set kind c).collector k = s.collector k :=
  Function.update_of_ne h _ _

theorem new_shown (input : CollectInput) (used : Int) : (new input used).Shown := by
  refine ⟨?_, ?_, by rintro _ ⟨⟩⟩
  · intro kind
    refine ⟨?_, ?_⟩
    · intro f hf
      cases (List.mem_replicate.mp hf).2
    · rintro _ (⟨⟨⟩⟩ | ⟨⟨⟩⟩)
  · intro u hu
    cases hu

theorem new_clear (input : CollectInput) (used : Int) : (new input used).Clear := by
  refine ⟨?_, ?_⟩
  · intro u hu
    cases hu
  · intro kind u hu
    obtain ⟨phase, hphase, hu⟩ := List.mem_flatMap.mp hu
    rw [(List.mem_replicate.mp hphase).2] at hu
    cases hu

theorem Shown.set {s : CollectState} (h : s.Shown) {c : Collector} (hc : c.Honest)
    {unanswered : List Unanswered} {used : Int}
    (hshows : ∀ u, u ∈ unanswered ∨ (s.collector kind).stats.Shows u → c.stats.Shows u)
    (hbacked : c.stats.lacking = true → (s.collector kind).stats.lacking = true ∨ unanswered ≠ []) :
    Shown { s.set kind c with unanswered := unanswered ++ s.unanswered, used := used } := by
  refine ⟨?_, ?_, ?_⟩
  · intro k
    change ((s.set kind c).collector k).Honest
    by_cases hk : k = kind
    · subst hk
      simpa using hc
    · rw [s.set_collector_of_ne c hk]
      exact h.honest k
  · intro u hu
    change ∃ k, ((s.set kind c).collector k).stats.Shows u
    rcases List.mem_append.mp hu with hnew | hold
    · exact ⟨kind, by simpa using hshows u (.inl hnew)⟩
    · obtain ⟨k, hk⟩ := h.logged u hold
      refine ⟨k, ?_⟩
      by_cases hkind : k = kind
      · subst hkind
        simpa using hshows u (.inr hk)
      · rw [s.set_collector_of_ne c hkind]
        exact hk
  · intro k hlacking
    change ((s.set kind c).collector k).stats.lacking = true at hlacking
    intro hnil
    obtain ⟨hnew, hold⟩ := List.append_eq_nil_iff.mp hnil
    by_cases hk : k = kind
    · subst hk
      rw [set_collector_self] at hlacking
      rcases hbacked hlacking with hbefore | hadded
      · exact h.backed k hbefore hold
      · exact hadded hnew
    · rw [s.set_collector_of_ne c hk] at hlacking
      exact h.backed k hlacking hold

theorem clear_set {s : CollectState} {c : Collector}
    {unanswered : List Unanswered} {used : Int} {allowed : Prop}
    (hc : (∀ u, u ∈ unanswered ∨ u ∈ c.pending → u.overlooked = false) ↔
      (∀ u ∈ (s.collector kind).pending, u.overlooked = false) ∧ allowed) :
    Clear { s.set kind c with unanswered := unanswered ++ s.unanswered, used := used } ↔
      s.Clear ∧ allowed := by
  constructor
  · rintro ⟨hlog, hpending⟩
    have hown : ∀ u ∈ c.pending, u.overlooked = false := by simpa using hpending kind
    have hkind := hc.mp (by
      rintro u (hu | hu)
      · exact hlog u (List.mem_append_left _ hu)
      · exact hown u hu)
    refine ⟨⟨fun u hu => hlog u (List.mem_append_right _ hu), ?_⟩, hkind.2⟩
    intro k
    by_cases hk : k = kind
    · subst hk
      exact hkind.1
    · have hother := hpending k
      change ∀ u ∈ ((s.set kind c).collector k).pending, u.overlooked = false at hother
      rwa [s.set_collector_of_ne c hk] at hother
  · rintro ⟨⟨hlog, hpending⟩, hallowed⟩
    have hkind := hc.mpr ⟨hpending kind, hallowed⟩
    refine ⟨?_, ?_⟩
    · intro u hu
      rcases List.mem_append.mp hu with hnew | hold
      · exact hkind u (.inl hnew)
      · exact hlog u hold
    · intro k
      change ∀ u ∈ ((s.set kind c).collector k).pending, u.overlooked = false
      by_cases hk : k = kind
      · subst hk
        simpa using fun u hu => hkind u (.inr hu)
      · rw [s.set_collector_of_ne c hk]
        exact hpending k

theorem step_shown (input : CollectInput) (s : CollectState) (op : CollectOp) (t : CollectState)
    (h : s.Shown) (hstep : s.step input op = some t) : t.Shown := by
  cases op with
  | expire e =>
    simp only [step] at hstep
    split at hstep
    · cases hstep
    · cases hstep
      exact ⟨h.honest, h.logged, h.backed⟩
  | cancel kind =>
    obtain ⟨e, _, rfl⟩ := Option.map_eq_some_iff.mp hstep
    have hset : Shown { s.set kind ((s.collector kind).cancel e) with
        unanswered := [] ++ s.unanswered, used := s.used } := by
      apply h.set
      · exact ⟨(h.honest kind).ended, (h.honest kind).plain⟩
      · rintro u (⟨⟨⟩⟩ | hu)
        exact hu
      · exact .inl
    exact hset
  | work kind op =>
    obtain ⟨w, hw, rfl⟩ := Option.map_eq_some_iff.mp hstep
    have htransition := Collector.step_transition hw
    exact h.set (htransition.honest (h.honest kind))
      (fun u hu => htransition.shows (h.honest kind) hu) (htransition.backed (h.honest kind))

theorem step_clear (input : CollectInput) (s : CollectState) (op : CollectOp) (t : CollectState)
    (hstep : s.step input op = some t) : t.Clear ↔ s.Clear ∧ s.Undisturbed input op := by
  cases op with
  | expire e =>
    simp only [step] at hstep
    split at hstep
    · cases hstep
    · cases hstep
      exact ⟨fun h => ⟨h, trivial⟩, And.left⟩
  | cancel kind =>
    obtain ⟨e, _, rfl⟩ := Option.map_eq_some_iff.mp hstep
    have hset : Clear { s.set kind ((s.collector kind).cancel e) with
        unanswered := [] ++ s.unanswered, used := s.used } ↔ s.Clear ∧ True := by
      apply clear_set
      simp [Collector.pending, Collector.cancel]
    exact hset
  | work kind op =>
    obtain ⟨w, hw, rfl⟩ := Option.map_eq_some_iff.mp hstep
    exact clear_set (Collector.step_transition hw).overlooked

end CollectState

def collectMachine (input : CollectInput) (used : Int) : Machine CollectState CollectOp where
  initial s := s = .new input used
  step := CollectState.step input

section Runs

variable {input : CollectInput} {used : Int} {schedule : List CollectOp} {s : CollectState}

/-- Whatever the order of the fetches, what was left open shows in the statistics. -/
theorem exec_shown (h : (collectMachine input used).exec (.new input used) schedule = some s) :
    s.Shown :=
  Machine.exec_preserves (CollectState.step_shown input) (CollectState.new_shown input used) h

/-- When all fetches are recorded, something is recorded like a failed verification
without having been answered exactly if a step of the run was disturbed. -/
theorem exec_clear_iff (h : (collectMachine input used).exec (.new input used) schedule = some s)
    (hcomplete : s.complete = true) :
    (∀ u ∈ s.unanswered, u.overlooked = false) ↔
      (collectMachine input used).AllAllowed (CollectState.Undisturbed input) (.new input used)
        schedule := by
  have hrecorded (kind : CollectorKind) : ∀ phase ∈ (s.collector kind).phases,
      phase.unanswered = [] := by
    intro phase hphase
    have hall : (s.collector kind).phases.all (fun phase =>
        match phase with
        | .recorded => true
        | _ => false) = true := by
      simp only [CollectState.complete, List.all_cons, List.all_nil, Bool.and_true,
        Bool.and_eq_true] at hcomplete
      cases kind with
      | bundles => exact hcomplete.1
      | notationSigs => exact hcomplete.2.1
      | baselines => exact hcomplete.2.2
    have := List.all_eq_true.mp hall phase hphase
    cases phase <;> first | rfl | cases this
  have hclear : s.Clear ↔ ∀ u ∈ s.unanswered, u.overlooked = false := by
    refine and_iff_left ?_
    intro kind u hu
    obtain ⟨phase, hphase, hmem⟩ := List.mem_flatMap.mp hu
    rw [hrecorded kind phase hphase] at hmem
    cases hmem
  rw [← hclear, Machine.exec_iff_allAllowed (CollectState.step_clear input) h]
  exact and_iff_right (CollectState.new_clear input used)

end Runs

/-- What `collectSelection` returns, and what the collection left open. -/
structure Collected where
  attestations : List VerifiedAttestation
  notationSigs : List VerifiedAttestation
  baselineSBOMs : List VerifiedAttestation
  err : Option GoError
  unanswered : List Unanswered

namespace CollectState

def baselineSBOMs (s : CollectState) : List VerifiedAttestation :=
  (s.collected .baselines).filter fun att => att.predicateType = predicateBaselineSBOM

/-- `collectBaselineSBOMs`: a bundle with another predicate counts as failed. -/
def baselineStats (s : CollectState) : CollectStats :=
  ((s.collected .baselines).filter fun att => att.predicateType ≠ predicateBaselineSBOM).foldl
    (fun stats _ => stats.record .verifyFailed none) (s.collector .baselines).stats

def stats (s : CollectState) : List CollectStats :=
  [(s.collector .bundles).stats, (s.collector .notationSigs).stats, s.baselineStats]

/-- `collectSelection` when its collectors ended in state `s`. -/
def collectSelection (s : CollectState) : Collected :=
  let err := evaluateCollection (s.collected .bundles).length s.stats
  if errorIs err .errVerificationFailed then
    if errorIs err .errIncompleteAttestationSet then ⟨[], [], [], err, s.unanswered⟩
    else ⟨[], s.collected .notationSigs, s.baselineSBOMs, err, s.unanswered⟩
  else
    match s.ctx with
    | some e =>
      ⟨[], [], [], some (wrapOne "attestation fetch interrupted" e.error),
        .interrupted :: s.unanswered⟩
    | none =>
      match err with
      | some err => ⟨[], [], [], some err, s.unanswered⟩
      | none => ⟨s.collected .bundles, s.collected .notationSigs, s.baselineSBOMs, none,
          s.unanswered⟩

variable {s : CollectState}

/-- A property of statistics that further verification failures keep. -/
theorem baselineStats_induction {P : CollectStats → Prop}
    (hstats : P (s.collector .baselines).stats)
    (hrecord : ∀ stats, P stats → P (stats.record .verifyFailed none)) : P s.baselineStats := by
  unfold baselineStats
  generalize (s.collected .baselines).filter _ = rejected
  generalize (s.collector .baselines).stats = stats at hstats ⊢
  induction rejected generalizing stats with
  | nil => exact hstats
  | cons att rest ih => exact ih _ (hrecord _ hstats)

theorem Shown.stats_plain (h : s.Shown) : ∀ st ∈ s.stats, st.Plain := by
  intro st hst
  simp only [stats, List.mem_cons, List.not_mem_nil, or_false] at hst
  rcases hst with rfl | rfl | rfl
  · exact (h.honest .bundles).plain
  · exact (h.honest .notationSigs).plain
  · refine baselineStats_induction (h.honest .baselines).plain ?_
    intro st hst
    refine hst.record ?_
    rintro _ ⟨⟩

theorem Shown.exists_stats (h : s.Shown) {u : Unanswered} (hu : u ∈ s.unanswered) :
    ∃ st ∈ s.stats, st.Shows u := by
  obtain ⟨kind, hkind⟩ := h.logged u hu
  cases kind with
  | bundles => exact ⟨_, by simp [stats], hkind⟩
  | notationSigs => exact ⟨_, by simp [stats], hkind⟩
  | baselines =>
    refine ⟨s.baselineStats, by simp [stats], ?_⟩
    exact baselineStats_induction (P := fun st => st.Shows u) hkind (fun _ hst => hst.record _ _)

theorem collectSelection_success (herr : s.collectSelection.err = none) :
    evaluateCollection (s.collected .bundles).length s.stats = none ∧
      s.collectSelection.attestations = s.collected .bundles ∧
      s.collectSelection.unanswered = s.unanswered := by
  cases heval : evaluateCollection (s.collected .bundles).length s.stats with
  | some e =>
    exfalso
    simp only [collectSelection, heval, errorIs_some] at herr
    split at herr
    · split at herr <;> cases herr
    · split at herr <;> cases herr
  | none =>
    cases hctx : s.ctx with
    | some e => simp [collectSelection, heval, hctx] at herr
    | none => simp [collectSelection, heval, hctx]

variable {err : GoError}

theorem collectSelection_failure (herr : s.collectSelection.err = some err) (hign : Ignorable err) :
    evaluateCollection (s.collected .bundles).length s.stats = some err ∧
      s.collectSelection.unanswered = s.unanswered := by
  cases heval : evaluateCollection (s.collected .bundles).length s.stats with
  | some e =>
    simp only [collectSelection, heval, errorIs_some] at herr ⊢
    split at herr
    · next hfailed =>
      rw [if_pos hfailed]
      split at herr
      · next hincomplete =>
        cases herr
        exact ⟨rfl, by rw [if_pos hincomplete]⟩
      · next hincomplete =>
        cases herr
        exact ⟨rfl, by rw [if_neg hincomplete]⟩
    · next hfailed =>
      exfalso
      split at herr
      · cases herr
        exact (CtxErr.notVerification _).wrapOne _ |>.not_ignorable hign
      · cases herr
        exact hfailed hign.1
  | none =>
    exfalso
    cases hctx : s.ctx with
    | some e =>
      simp only [collectSelection, heval, hctx, errorIs_none, Bool.false_eq_true, if_false,
        Option.some.injEq] at herr
      subst herr
      exact (CtxErr.notVerification _).wrapOne _ |>.not_ignorable hign
    | none => simp [collectSelection, heval, hctx] at herr

theorem Shown.lacking_stats (h : s.Shown) {st : CollectStats} (hst : st ∈ s.stats)
    (hlacking : st.lacking = true) : s.unanswered ≠ [] := by
  simp only [stats, List.mem_cons, List.not_mem_nil, or_false] at hst
  rcases hst with rfl | rfl | rfl
  · exact h.backed .bundles hlacking
  · exact h.backed .notationSigs hlacking
  · apply h.backed .baselines
    revert hlacking
    refine baselineStats_induction
      (P := fun st => st.lacking = true → (s.collector .baselines).stats.lacking = true) id ?_
    intro st hst hrecord
    rcases CollectStats.lacking_of_record hrecord with hbefore | hfailed
    · exact hst hbefore
    · cases hfailed

/-- An error of a collection that is no verification failure has its reason. -/
theorem collectSelection_backed (h : s.Shown) (herr : s.collectSelection.err = some err)
    (hplain : NotVerification err) : s.collectSelection.unanswered ≠ [] := by
  cases heval : evaluateCollection (s.collected .bundles).length s.stats with
  | some verdict =>
    simp only [collectSelection, heval, errorIs_some] at herr ⊢
    split at herr
    · next hfailed =>
      exfalso
      have hverdict : verdict = err := by
        split at herr <;> exact Option.some.inj herr
      rw [hverdict] at hfailed
      exact absurd (hfailed.symm.trans hplain) (by decide)
    · next hfailed =>
      obtain ⟨st, hst, hlacking⟩ :=
        evaluateCollection_lacking heval (by simpa using hfailed)
      have hlog := h.lacking_stats hst hlacking
      cases hctx : s.ctx <;> simp [hfailed, hlog]
  | none =>
    cases hctx : s.ctx with
    | some e => simp [collectSelection, heval, hctx]
    | none => simp [collectSelection, heval, hctx] at herr

/-- A collection that merely failed verification left nothing open but what it
recorded like failed verifications. -/
theorem collectSelection_ignorable (h : s.Shown) (herr : s.collectSelection.err = some err)
    (hign : Ignorable err) : ∀ u ∈ s.collectSelection.unanswered, u.overlooked = true := by
  obtain ⟨heval, hlog⟩ := collectSelection_failure herr hign
  intro u hu
  rw [hlog] at hu
  obtain ⟨st, hst, hshows⟩ := h.exists_stats hu
  exact (evaluateCollection_ignorable h.stats_plain heval hign).2 st hst u hshows

/-- A collection that found nothing and has no error left nothing open. -/
theorem collectSelection_empty (h : s.Shown) (herr : s.collectSelection.err = none)
    (hnone : s.collectSelection.attestations = []) : s.collectSelection.unanswered = [] := by
  obtain ⟨heval, hatts, hlog⟩ := collectSelection_success herr
  rw [← hatts, hnone] at heval
  rw [hlog]
  refine List.eq_nil_iff_forall_not_mem.mpr ?_
  intro u hu
  obtain ⟨st, hst, hshows⟩ := h.exists_stats hu
  exact evaluateCollection_none heval st hst u hshows

end CollectState

end NriSupplyChain.Attestation
