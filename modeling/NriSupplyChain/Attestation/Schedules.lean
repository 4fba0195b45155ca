import NriSupplyChain.Attestation.PayloadLimit
import NriSupplyChain.Lib.Selection

/-!
The candidates of one collection under every schedule of their fetches, when what each
fetch finds is fixed and nothing interrupts it from outside.

The goroutine of a candidate can only run while fewer than `maxConcurrentCollectFetch` of
those in front of it are unfinished. A run is a schedule of the steps of all goroutines:
when they start, when their response arrives, when they compare it with the blobs seen
before, when they verify it and when they record the outcome.
-/

namespace NriSupplyChain.Attestation

open NriSupplyChain.Types Lib

def maxConcurrentCollectFetch : Nat := 5

/-- What the response for one candidate leads to: the end of its fetch, or a bundle. -/
inductive Delivery where
  | ended (f : Fetched)
  | read (data : List UInt8)

/-- Candidates with fixed outcomes. What is verified depends on the content alone, and an
attestation holds the bundle it comes from. Where bundles are read and verified, nothing else
gives an attestation. -/
structure Workload where
  deliveries : List Delivery
  verdict : List UInt8 → Fetched
  verdict_bundle : ∀ data att, (verdict data).att = some att → att.bundle = data
  unmixed : ∀ f data, .ended f ∈ deliveries → .read data ∈ deliveries → f.att = none

inductive ScheduleOp where
  | start (i : Nat)
  | arrive (i : Nat)
  | add (i : Nat)
  | verify (i : Nat)
  | finish (i : Nat)
deriving Repr

def FetchPhase.unfinished : FetchPhase → Bool
  | .recorded => false
  | .waiting | .started | .opened _ | .read _ | .fresh _ | .ended _ => true

theorem FetchPhase.unfinished_eq_false {phase : FetchPhase} :
    phase.unfinished = false ↔ phase = .recorded := by
  cases phase <;> simp [FetchPhase.unfinished]

namespace Collector

/-- The unfinished candidates in front of candidate `i`. -/
def unfinishedBefore (c : Collector) (i : Nat) : Nat :=
  (c.phases.take i).countP FetchPhase.unfinished

def complete (c : Collector) : Prop := ∀ phase ∈ c.phases, phase.unfinished = false

instance (c : Collector) : Decidable c.complete :=
  inferInstanceAs (Decidable (∀ phase ∈ c.phases, phase.unfinished = false))

/-- `compactSlots`: the attestations in the order of the candidates. -/
def compactSlots (c : Collector) : List VerifiedAttestation := c.slots.filterMap id

end Collector

namespace Workload

/-- One step of the goroutine of candidate `i`. -/
def step (w : Workload) (c : Collector) : ScheduleOp → Option Collector
  | .start i =>
    match c.phases[i]? with
    | some .waiting =>
      if c.unfinishedBefore i < maxConcurrentCollectFetch then
        match c.groupEnd with
        | none => some (c.move i .started)
        | some _ => some (c.move i .recorded)
      else none
    | _ => none
  | .arrive i =>
    match c.phases[i]?, w.deliveries[i]? with
    | some .started, some (.ended f) => some (c.move i (.ended f))
    | some .started, some (.read data) => some (c.move i (.read data))
    | _, _ => none
  | .add i =>
    match c.phases[i]? with
    | some (.read data) =>
      if data ∈ c.seen then some (c.move i (.ended ⟨none, .skipped, none, []⟩))
      else some { c.move i (.fresh data) with seen := data :: c.seen }
    | _ => none
  | .verify i =>
    match c.phases[i]? with
    | some (.fresh data) =>
      match c.groupEnd with
      | none => some (c.move i (.ended (w.verdict data)))
      | some _ => some (c.move i (.ended .rejected))
    | _ => none
  | .finish i =>
    match c.phases[i]? with
    | some (.ended f) => some (c.finish i f)
    | _ => none

def machine (w : Workload) : Machine Collector ScheduleOp where
  initial c := c = .new w.deliveries.length
  step := w.step

end Workload

/-- A mark that an outcome leaves in the statistics. -/
inductive Mark where
  | limit
  | fetch
  | key
  | failed
deriving DecidableEq, Repr

def Fetched.marks (f : Fetched) : Mark → Bool
  | .limit => f.outcome = .limitExceeded && f.err.isSome
  | .fetch => f.outcome = .fetchFailed && f.err.isSome
  | .key => f.outcome = .keyUnavailable && f.err.isSome
  | .failed => f.outcome = .verifyFailed

def CollectStats.marked (s : CollectStats) : Mark → Bool
  | .limit => s.limitErr.isSome
  | .fetch => s.fetchErr.isSome
  | .key => s.keyErr.isSome
  | .failed => s.verifyFailures != 0

/-- The class of error of a collection. -/
inductive CollectionClass where
  | success
  | incompleteSet
  | fetchFailure
  | keyUnavailable
  | verificationFailure
deriving DecidableEq, Repr

def collectionClass (verified : Nat) (marked : Mark → Bool) : CollectionClass :=
  if marked .limit then .incompleteSet
  else if marked .fetch then .fetchFailure
  else if verified ≠ 0 then .success
  else if marked .key then .keyUnavailable
  else if marked .failed then .verificationFailure
  else .success

/-- The error of each class. -/
def CollectionClass.error (merged : CollectStats) : CollectionClass → Option GoError
  | .success => none
  | .incompleteSet => merged.limitErr.map fun limitErr =>
    wrapAll [errVerificationFailed, errReferrerLimitExceeded, limitErr]
  | .fetchFailure => merged.fetchErr.map (wrapOne "fetching referrer")
  | .keyUnavailable => merged.keyErr.map (wrapOne "verifying referrer")
  | .verificationFailure => some (GoError.errorf (errVerificationFailed.text ++ ": " ++
      errAllBundlesFailed.text ++ ": all " ++ toString merged.verifyFailures ++
      " referrers failed verification") [errVerificationFailed, errAllBundlesFailed])

theorem evaluateCollection_eq (verified : Nat) (stats : List CollectStats) :
    evaluateCollection verified stats =
      (collectionClass verified (stats.foldl CollectStats.merge .empty).marked).error
        (stats.foldl CollectStats.merge .empty) := by
  unfold evaluateCollection
  generalize stats.foldl CollectStats.merge .empty = merged
  obtain ⟨verifyFailures, fetchErr, limitErr, keyErr⟩ := merged
  cases limitErr with
  | some limitErr => rfl
  | none =>
    cases fetchErr with
    | some fetchErr => rfl
    | none =>
      cases verified with
      | succ n => rfl
      | zero =>
        cases keyErr with
        | some keyErr => rfl
        | none => cases verifyFailures <;> rfl

theorem CollectStats.marked_record (s : CollectStats) (f : Fetched) (mark : Mark) :
    (s.record f.outcome f.err).marked mark = (s.marked mark || f.marks mark) := by
  obtain ⟨att, outcome, err, unanswered⟩ := f
  cases outcome <;> cases mark <;>
    simp [CollectStats.record, CollectStats.marked, Fetched.marks]

/-- The class of error that `evaluateCollection` derives for a collector alone. -/
def Collector.errorClass (c : Collector) : CollectionClass :=
  collectionClass c.compactSlots.length ([c.stats].foldl CollectStats.merge .empty).marked

namespace Workload

variable (w : Workload)

/-- The class of error and, without an error, the list are the same for all schedules. -/
def ScheduleIndependent : Prop :=
  ∀ schedule schedule' c c', w.machine.exec (.new w.deliveries.length) schedule = some c →
    w.machine.exec (.new w.deliveries.length) schedule' = some c' → c.complete → c'.complete →
    c.errorClass = c'.errorClass ∧
      (c.errorClass = .success → c.compactSlots = c'.compactSlots)

/-- What a fetch stands for: a blob, or a candidate without one. -/
inductive Key where
  | blob (data : List UInt8)
  | sole (i : Nat)
deriving DecidableEq, Repr

def keyAt (i : Nat) : Delivery → Key
  | .ended _ => .sole i
  | .read data => .blob data

def keys : List Key := w.deliveries.mapIdx keyAt

/-- How the first fetch for a key ends. -/
def fetched : Key → Fetched
  | .blob data => w.verdict data
  | .sole i =>
    match w.deliveries[i]? with
    | some (.ended f) => f
    | _ => .rejected

def value (k : Key) : Option VerifiedAttestation := (w.fetched k).att

def size (k : Key) : Nat := ((w.value k).map fun att => att.payload.length).getD 0

/-- The payload of all candidates, with each blob counted once. -/
def total : Nat := ∑ k ∈ w.keys.toFinset, w.size k

def marked (mark : Mark) : Bool := w.keys.any fun k => (w.fetched k).marks mark

/-- The class of error that the outcomes of the candidates lead to. -/
def outcomeClass : CollectionClass :=
  if maxTotalAttestationSize < w.total then .incompleteSet
  else collectionClass (w.keys.countP fun k => (w.value k).isSome) w.marked

/-- Attested blobs lie in the listing in such a way that the fetch which comes first decides
about their order. Only as many copies count as can be fetched at the same time. -/
def OrderOpen : Prop :=
  Interleaved maxConcurrentCollectFetch (fun k => w.value k ≠ none) w.keys

variable {w} {c d : Collector}

theorem keys_getElem? (i : Nat) : w.keys[i]? = (w.deliveries[i]?).map (keyAt i) := by
  simp [keys]

variable {i : Nat}

theorem eq_of_keys_sole {m : Nat} (h : w.keys[m]? = some (.sole i)) : m = i := by
  rw [keys_getElem?] at h
  obtain ⟨delivery, -, hkey⟩ := Option.map_eq_some_iff.mp h
  cases delivery with
  | ended f => exact Key.sole.inj hkey
  | read data => cases hkey

theorem length_keys : w.keys.length = w.deliveries.length := by
  simp [keys]

/-- What a step does. -/
inductive Effect (w : Workload) (c : Collector) : Collector → Prop where
  | start (i : Nat) (hold : c.phases[i]? = some .waiting)
      (hturn : c.unfinishedBefore i < maxConcurrentCollectFetch) (hopen : c.groupEnd = none) :
      Effect w c (c.move i .started)
  | skip (i : Nat) (hold : c.phases[i]? = some .waiting) (hend : c.groupEnd ≠ none) :
      Effect w c (c.move i .recorded)
  | arriveEnded (i : Nat) (f : Fetched) (hold : c.phases[i]? = some .started)
      (hdelivery : w.deliveries[i]? = some (.ended f)) : Effect w c (c.move i (.ended f))
  | arriveRead (i : Nat) (data : List UInt8) (hold : c.phases[i]? = some .started)
      (hdelivery : w.deliveries[i]? = some (.read data)) : Effect w c (c.move i (.read data))
  | duplicate (i : Nat) (data : List UInt8) (hold : c.phases[i]? = some (.read data))
      (hseen : data ∈ c.seen) : Effect w c (c.move i (.ended ⟨none, .skipped, none, []⟩))
  | claim (i : Nat) (data : List UInt8) (hold : c.phases[i]? = some (.read data))
      (hnew : data ∉ c.seen) :
      Effect w c { c.move i (.fresh data) with seen := data :: c.seen }
  | verify (i : Nat) (data : List UInt8) (hold : c.phases[i]? = some (.fresh data))
      (hopen : c.groupEnd = none) : Effect w c (c.move i (.ended (w.verdict data)))
  | cancelled (i : Nat) (data : List UInt8) (hold : c.phases[i]? = some (.fresh data))
      (hend : c.groupEnd ≠ none) : Effect w c (c.move i (.ended .rejected))
  | finish (i : Nat) (f : Fetched) (hold : c.phases[i]? = some (.ended f)) :
      Effect w c (c.finish i f)

theorem effect_of_step {op : ScheduleOp} (h : w.step c op = some d) : Effect w c d := by
  cases op <;> grind [step, Effect]

/-- Where the fetch of candidate `i` for the key is, when candidate `owned` is the one that
fetches for it. -/
def Stage (w : Workload) (k : Key) (i : Nat) (owned : Option Nat) :
    FetchPhase → Option VerifiedAttestation → Prop
  | .waiting, slot | .started, slot => owned ≠ some i ∧ slot = none
  | .opened _, _ => False
  | .read data, slot => k = .blob data ∧ owned ≠ some i ∧ slot = none
  | .fresh data, slot => k = .blob data ∧ owned = some i ∧ slot = none
  | .ended f, slot => slot = none ∧ (owned = some i ∧ f = w.fetched k ∨
      owned ≠ some i ∧ owned ≠ none ∧ f = ⟨none, .skipped, none, []⟩)
  | .recorded, slot => owned ≠ none ∧ slot = if owned = some i then w.value k else none

/-- The state of a collection that has not been cut short: who fetches for each key, which
keys are settled, and what follows for every candidate. -/
structure Exact (w : Workload) (owner : Key → Option Nat) (settled : Finset Key)
    (c : Collector) : Prop where
  ongoing : c.groupEnd = none
  phases_length : c.phases.length = w.keys.length
  slots_length : c.slots.length = w.keys.length
  owned : ∀ k i, owner k = some i → w.keys[i]? = some k
  early : ∀ k i, owner k = some i → (w.keys.take i).count k < maxConcurrentCollectFetch
  seen : ∀ data, data ∈ c.seen ↔ owner (.blob data) ≠ none
  stage : ∀ i k phase slot, w.keys[i]? = some k → c.phases[i]? = some phase →
    c.slots[i]? = some slot → Stage w k i (owner k) phase slot
  turn : ∀ i phase, c.phases[i]? = some phase → phase ≠ .waiting →
    c.unfinishedBefore i < maxConcurrentCollectFetch
  settled_iff : ∀ k, k ∈ settled ↔ ∃ i, owner k = some i ∧ c.phases[i]? = some .recorded
  total : c.totalSize = ∑ k ∈ settled, w.size k
  fits : c.totalSize ≤ maxTotalAttestationSize
  marked : ∀ mark, c.stats.marked mark = true ↔ ∃ k ∈ settled, (w.fetched k).marks mark = true

variable {owner : Key → Option Nat} {settled : Finset Key}

variable {k : Key}

theorem Stage.slot_none {owned : Option Nat} {phase : FetchPhase}
    {slot : Option VerifiedAttestation} (h : Stage w k i owned phase slot)
    (hphase : phase.unfinished = true) : slot = none := by
  cases phase with
  | waiting | started => exact h.2
  | opened layer => exact h.elim
  | read data | fresh data => exact h.2.2
  | ended f => exact h.1
  | recorded => cases hphase

/-- Before anyone fetches for a key, its candidates have at most read their response; this
stays so when another of them fetches for it. -/
theorem Stage.of_free {j : Nat} {phase : FetchPhase} {slot : Option VerifiedAttestation}
    (h : Stage w k i none phase slot) (hne : j ≠ i) : Stage w k i (some j) phase slot := by
  have hother : some j ≠ some i := fun heq => hne (Option.some.inj heq)
  cases phase with
  | waiting | started => exact ⟨hother, h.2⟩
  | opened layer => exact h
  | read data => exact ⟨h.1, hother, h.2.2⟩
  | fresh data => cases h.2.1
  | ended f =>
    obtain ⟨-, ⟨howned, -⟩ | ⟨-, hsome, -⟩⟩ := h
    · cases howned
    · exact absurd rfl hsome
  | recorded => exact absurd rfl h.1

/-- A step does not raise the number of unfinished candidates in front of any other. -/
theorem unfinishedBefore_move_le {old new : FetchPhase} (hold : c.phases[i]? = some old)
    (hnew : new.unfinished = true → old.unfinished = true) (m : Nat) :
    (c.move i new).unfinishedBefore m ≤ c.unfinishedBefore m := by
  apply countP_take_le
  intro n _ phase hphase hunfinished
  change (c.phases.set i new)[n]? = some phase at hphase
  by_cases hi : i = n
  · subst hi
    have hlt := (List.getElem?_eq_some_iff.mp hold).1
    rw [List.getElem?_set_self hlt] at hphase
    cases hphase
    exact ⟨old, hold, hnew hunfinished⟩
  · rw [List.getElem?_set_ne hi] at hphase
    exact ⟨phase, hphase, hunfinished⟩

namespace Exact

variable {i : Nat}

theorem candidate (h : Exact w owner settled c) (hlt : i < w.keys.length) :
    ∃ k phase slot, w.keys[i]? = some k ∧ c.phases[i]? = some phase ∧ c.slots[i]? = some slot ∧
      Stage w k i (owner k) phase slot := by
  have hphase : i < c.phases.length := h.phases_length ▸ hlt
  have hslot : i < c.slots.length := h.slots_length ▸ hlt
  refine ⟨_, _, _, List.getElem?_eq_getElem hlt, List.getElem?_eq_getElem hphase,
    List.getElem?_eq_getElem hslot, ?_⟩
  exact h.stage i _ _ _ (List.getElem?_eq_getElem hlt) (List.getElem?_eq_getElem hphase)
    (List.getElem?_eq_getElem hslot)

theorem lt_of_phase (h : Exact w owner settled c) {phase : FetchPhase}
    (hphase : c.phases[i]? = some phase) : i < w.keys.length := by
  rw [← h.phases_length]
  exact (List.getElem?_eq_some_iff.mp hphase).1

theorem at_phase (h : Exact w owner settled c) {phase : FetchPhase}
    (hphase : c.phases[i]? = some phase) :
    ∃ k slot, w.keys[i]? = some k ∧ c.slots[i]? = some slot ∧
      Stage w k i (owner k) phase slot := by
  obtain ⟨k, phase', slot, hkey, hphase', hslot, hstage⟩ := h.candidate (h.lt_of_phase hphase)
  obtain rfl := Option.some.inj (hphase.symm.trans hphase')
  exact ⟨k, slot, hkey, hslot, hstage⟩

variable {k : Key}

/-- While no candidate fetches for a key, all its candidates are unfinished. So only as many
are in front of one that has started as run at the same time. -/
theorem count_lt_of_free (h : Exact w owner settled c) (hfree : owner k = none)
    (hturn : c.unfinishedBefore i < maxConcurrentCollectFetch) :
    (w.keys.take i).count k < maxConcurrentCollectFetch := by
  refine lt_of_le_of_lt ?_ hturn
  apply countP_take_le
  intro m _ e hkey heq
  obtain rfl := eq_of_beq heq
  obtain ⟨e', phase, slot, hkey', hphase, -, hstage⟩ :=
    h.candidate (List.getElem?_eq_some_iff.mp hkey).1
  obtain rfl := Option.some.inj (hkey.symm.trans hkey')
  refine ⟨phase, hphase, ?_⟩
  cases phase with
  | recorded => exact absurd hfree hstage.1
  | waiting | started | opened _ | read _ | fresh _ | ended _ => rfl

/-- A candidate whose turn it was moves on, and those in front of the others do not get
more. -/
theorem turn_move (h : Exact w owner settled c) {old : FetchPhase}
    (hold : c.phases[i]? = some old) (hunfinished : old.unfinished = true)
    (hturn : c.unfinishedBefore i < maxConcurrentCollectFetch) (new : FetchPhase) (m : Nat)
    (phase : FetchPhase) (hphase : (c.phases.set i new)[m]? = some phase)
    (hstarted : phase ≠ .waiting) :
    (c.move i new).unfinishedBefore m < maxConcurrentCollectFetch := by
  apply lt_of_le_of_lt (unfinishedBefore_move_le hold (fun _ => hunfinished) m)
  by_cases hm : i = m
  · subst hm
    exact hturn
  · rw [List.getElem?_set_ne hm] at hphase
    exact h.turn m phase hphase hstarted

/-- A candidate moves on without being recorded. It may become the one that fetches for its
key. -/
theorem advance (h : Exact w owner settled c) {old new : FetchPhase} {owned : Option Nat}
    {seen : List (List UInt8)} (hkey : w.keys[i]? = some k) (hold : c.phases[i]? = some old)
    (hunfinished : old.unfinished = true) (hnew : new.unfinished = true)
    (hturn : c.unfinishedBefore i < maxConcurrentCollectFetch)
    (howned : owned = owner k ∨ owner k = none ∧ owned = some i)
    (hseen : ∀ data, data ∈ seen ↔ Function.update owner k owned (.blob data) ≠ none)
    (hstage : Stage w k i owned new none) :
    Exact w (Function.update owner k owned) settled { c.move i new with seen := seen } := by
  have hlt : i < c.phases.length := (List.getElem?_eq_some_iff.mp hold).1
  have hself : (c.phases.set i new)[i]? = some new := List.getElem?_set_self hlt
  have hother {m : Nat} (hne : i ≠ m) : (c.phases.set i new)[m]? = c.phases[m]? :=
    List.getElem?_set_ne hne
  have hrecorded {m : Nat} : (c.phases.set i new)[m]? = some .recorded ↔
      c.phases[m]? = some .recorded := by
    by_cases hm : i = m
    · subst hm
      rw [hself, hold]
      constructor
      · intro heq
        rw [Option.some.inj heq] at hnew
        cases hnew
      · intro heq
        rw [Option.some.inj heq] at hunfinished
        cases hunfinished
    · rw [hother hm]
  -- who fetches for a key: those before, or the candidate for a key without one
  have howners {e : Key} {m : Nat} : Function.update owner k owned e = some m ↔
      owner e = some m ∨ e = k ∧ m = i ∧ owner k = none ∧ owned = some i := by
    by_cases he : e = k
    · subst he
      rw [Function.update_self]
      rcases howned with rfl | ⟨hfree, rfl⟩
      · simp +contextual
      · simp [hfree, eq_comm]
    · simp [he]
  refine ⟨h.ongoing, ?_, h.slots_length, ?_, ?_, hseen, ?_, ?_, ?_, h.total, h.fits, h.marked⟩
  · rw [← h.phases_length]
    exact List.length_set
  · intro e m howner
    rcases howners.mp howner with hbefore | ⟨rfl, rfl, -⟩
    · exact h.owned e m hbefore
    · exact hkey
  · intro e m howner
    rcases howners.mp howner with hbefore | ⟨rfl, rfl, hfree, -⟩
    · exact h.early e m hbefore
    · exact h.count_lt_of_free hfree hturn
  · intro m e phase slot hkey' hphase hslot
    change (c.phases.set i new)[m]? = some phase at hphase
    change c.slots[m]? = some slot at hslot
    by_cases hm : i = m
    · subst hm
      obtain rfl := Option.some.inj (hkey.symm.trans hkey')
      obtain rfl := Option.some.inj (hself.symm.trans hphase)
      rw [Function.update_self, (h.stage i k old slot hkey hold hslot).slot_none hunfinished]
      exact hstage
    · rw [hother hm] at hphase
      have hbefore := h.stage m e phase slot hkey' hphase hslot
      by_cases he : e = k
      · subst he
        rw [Function.update_self]
        rcases howned with hsame | ⟨hfree, hclaimed⟩
        · rw [hsame]
          exact hbefore
        · rw [hclaimed]
          rw [hfree] at hbefore
          exact hbefore.of_free hm
      · rw [Function.update_of_ne he]
        exact hbefore
  · exact h.turn_move hold hunfinished hturn new
  · intro e
    change _ ↔ ∃ m, _ ∧ (c.phases.set i new)[m]? = _
    rw [h.settled_iff]
    constructor
    · rintro ⟨m, howner, hphase⟩
      exact ⟨m, howners.mpr (.inl howner), hrecorded.mpr hphase⟩
    · rintro ⟨m, howner, hphase⟩
      rcases howners.mp howner with hbefore | ⟨-, rfl, -⟩
      · exact ⟨m, hbefore, hrecorded.mp hphase⟩
      · obtain rfl := Option.some.inj (hself.symm.trans hphase)
        cases hnew

variable {f : Fetched}

/-- The end of a fetch is recorded. If it was the fetch for its key, the key is settled. -/
theorem settle (h : Exact w owner settled c)
    {stats : CollectStats} {totalSize : Nat} {settled' : Finset Key}
    (hkey : w.keys[i]? = some k) (hold : c.phases[i]? = some (.ended f)) (howned : owner k ≠ none)
    (hsettled : ∀ e, e ∈ settled' ↔ e ∈ settled ∨ e = k ∧ owner k = some i)
    (htotal : totalSize = ∑ e ∈ settled', w.size e) (hfits : totalSize ≤ maxTotalAttestationSize)
    (hmarked : ∀ mark, stats.marked mark = true ↔
      ∃ e ∈ settled', (w.fetched e).marks mark = true) :
    Exact w owner settled' { c.move i .recorded with
      stats := stats
      totalSize := totalSize
      slots := c.slots.set i (if owner k = some i then w.value k else none) } := by
  have hlt : i < c.phases.length := (List.getElem?_eq_some_iff.mp hold).1
  have hltSlot : i < c.slots.length := by
    rw [h.slots_length]
    exact h.lt_of_phase hold
  have hself : (c.phases.set i .recorded)[i]? = some .recorded := List.getElem?_set_self hlt
  have hother {m : Nat} (hne : i ≠ m) : (c.phases.set i .recorded)[m]? = c.phases[m]? :=
    List.getElem?_set_ne hne
  refine ⟨h.ongoing, ?_, ?_, h.owned, h.early, h.seen, ?_, ?_, ?_, htotal, hfits, hmarked⟩
  · rw [← h.phases_length]
    exact List.length_set
  · rw [← h.slots_length]
    exact List.length_set
  · intro m e phase slot hkey' hphase hslot
    change (c.phases.set i .recorded)[m]? = some phase at hphase
    change (c.slots.set i _)[m]? = some slot at hslot
    by_cases hm : i = m
    · subst hm
      obtain rfl := Option.some.inj (hkey.symm.trans hkey')
      obtain rfl := Option.some.inj (hself.symm.trans hphase)
      rw [List.getElem?_set_self hltSlot] at hslot
      exact ⟨howned, (Option.some.inj hslot).symm⟩
    · rw [hother hm] at hphase
      rw [List.getElem?_set_ne hm] at hslot
      exact h.stage m e phase slot hkey' hphase hslot
  · exact h.turn_move hold rfl (h.turn i _ hold nofun) .recorded
  · intro e
    change _ ↔ ∃ m, _ ∧ (c.phases.set i .recorded)[m]? = _
    rw [hsettled, h.settled_iff]
    constructor
    · rintro (⟨m, howner, hphase⟩ | ⟨rfl, howner⟩)
      · refine ⟨m, howner, ?_⟩
        by_cases hm : i = m
        · subst hm
          exact hself
        · rw [hother hm]
          exact hphase
      · exact ⟨i, howner, hself⟩
    · rintro ⟨m, howner, hphase⟩
      by_cases hm : i = m
      · subst hm
        have hsame := Option.some.inj (hkey.symm.trans (h.owned e i howner))
        exact .inr ⟨hsame.symm, hsame ▸ howner⟩
      · rw [hother hm] at hphase
        exact .inl ⟨m, howner, hphase⟩

theorem slots_set_none (h : Exact w owner settled c) (hold : c.phases[i]? = some (.ended f)) :
    c.slots.set i none = c.slots := by
  obtain ⟨k, slot, -, hslot, hstage⟩ := h.at_phase hold
  apply set_eq_self
  rw [hslot, hstage.slot_none rfl]

theorem not_settled (h : Exact w owner settled c) (hold : c.phases[i]? = some (.ended f))
    (howner : owner k = some i) : k ∉ settled := by
  rw [h.settled_iff]
  rintro ⟨m, hm, hphase⟩
  obtain rfl := Option.some.inj (howner.symm.trans hm)
  cases hold.symm.trans hphase

/-- A duplicate is recorded without a trace. -/
theorem finish_duplicate (h : Exact w owner settled c) (hkey : w.keys[i]? = some k)
    (hold : c.phases[i]? = some (.ended ⟨none, .skipped, none, []⟩)) (howned : owner k ≠ none)
    (hother : owner k ≠ some i) :
    Exact w owner settled (c.finish i ⟨none, .skipped, none, []⟩) := by
  have hsame (e : Key) : e ∈ settled ↔ e ∈ settled ∨ e = k ∧ owner k = some i := by
    simp [hother]
  have hsettle := h.settle hkey hold howned hsame h.total h.fits h.marked
  rw [if_neg hother, h.slots_set_none hold] at hsettle
  exact hsettle

/-- The fetch for a key is recorded, and its attestation takes the slot. -/
theorem finish_owner (h : Exact w owner settled c) (hkey : w.keys[i]? = some k)
    (hold : c.phases[i]? = some (.ended (w.fetched k))) (howner : owner k = some i)
    (hfits : c.totalSize + w.size k ≤ maxTotalAttestationSize) :
    Exact w owner (insert k settled) (c.finish i (w.fetched k)) := by
  have hfresh := h.not_settled hold howner
  have htotal : c.totalSize + w.size k = ∑ e ∈ insert k settled, w.size e := by
    rw [Finset.sum_insert hfresh, h.total]
    omega
  have hmarked (mark : Mark) :
      (c.stats.record (w.fetched k).outcome (w.fetched k).err).marked mark = true ↔
        ∃ e ∈ insert k settled, (w.fetched e).marks mark = true := by
    rw [CollectStats.marked_record, Bool.or_eq_true, h.marked]
    simp only [Finset.mem_insert, exists_eq_or_imp]
    exact or_comm
  have hsettled (e : Key) : e ∈ insert k settled ↔ e ∈ settled ∨ e = k ∧ owner k = some i := by
    rw [Finset.mem_insert, or_comm]
    simp [howner]
  have howned : owner k ≠ none := by
    rw [howner]
    exact Option.some_ne_none i
  have hsettle := h.settle hkey hold howned hsettled htotal hfits hmarked
  rw [if_pos howner] at hsettle
  unfold Collector.finish
  cases hatt : (w.fetched k).att with
  | none =>
    have hvalue : w.value k = none := hatt
    have hsize : w.size k = 0 := by
      rw [size, hvalue]
      rfl
    rw [hvalue, h.slots_set_none hold, hsize] at hsettle
    exact hsettle
  | some att =>
    have hvalue : w.value k = some att := hatt
    have hsize : w.size k = att.payload.length := by
      rw [size, hvalue]
      rfl
    rw [hvalue, hsize] at hsettle
    rw [hsize] at hfits
    dsimp only
    have hroom : ¬maxTotalAttestationSize <
        (c.move i .recorded).totalSize + att.payload.length := Nat.not_lt_of_le hfits
    rw [if_neg hroom]
    exact hsettle

/-- A candidate moves on, and who fetches for its key stays the same. -/
theorem moved (h : Exact w owner settled c) {old new : FetchPhase} (hkey : w.keys[i]? = some k)
    (hold : c.phases[i]? = some old) (hunfinished : old.unfinished = true)
    (hnew : new.unfinished = true) (hturn : c.unfinishedBefore i < maxConcurrentCollectFetch)
    (hstage : Stage w k i (owner k) new none) : Exact w owner settled (c.move i new) := by
  have hseen (data : List UInt8) :
      data ∈ c.seen ↔ Function.update owner k (owner k) (.blob data) ≠ none := by
    rw [Function.update_eq_self]
    exact h.seen data
  have hmoved := h.advance hkey hold hunfinished hnew hturn (.inl rfl) hseen hstage
  rw [Function.update_eq_self] at hmoved
  exact hmoved

theorem settled_subset (h : Exact w owner settled c) : settled ⊆ w.keys.toFinset := by
  intro k hk
  obtain ⟨i, howner, -⟩ := (h.settled_iff k).mp hk
  exact List.mem_toFinset.mpr (List.mem_of_getElem? (h.owned k i howner))

end Exact

/-- The attestations were too large together. -/
structure CutShort (w : Workload) (c : Collector) : Prop where
  ended : c.groupEnd ≠ none
  marked : c.stats.marked .limit = true
  large : maxTotalAttestationSize < w.total

/-- The attestation that exceeds the limit cuts the collection short. -/
theorem Exact.finish_large (h : Exact w owner settled c) (hkey : w.keys[i]? = some k)
    (hold : c.phases[i]? = some (.ended (w.fetched k))) (howner : owner k = some i)
    (hlarge : maxTotalAttestationSize < c.totalSize + w.size k) :
    CutShort w (c.finish i (w.fetched k)) := by
  have hfresh := h.not_settled hold howner
  have htotal : c.totalSize + w.size k ≤ w.total := by
    rw [h.total, Nat.add_comm, ← Finset.sum_insert hfresh]
    apply Finset.sum_le_sum_of_subset
    apply Finset.insert_subset ?_ h.settled_subset
    exact List.mem_toFinset.mpr (List.mem_of_getElem? hkey)
  have hfits := h.fits
  cases hatt : w.value k with
  | none =>
    have hsize : w.size k = 0 := by
      rw [size, hatt]
      rfl
    omega
  | some att =>
    have hsize : w.size k = att.payload.length := by
      rw [size, hatt]
      rfl
    have hexceeds : maxTotalAttestationSize <
        (c.move i .recorded).totalSize + att.payload.length := by
      rw [← hsize]
      exact hlarge
    have hfetched : (w.fetched k).att = some att := hatt
    have hmarked := CollectStats.marked_record
      (c.stats.record (w.fetched k).outcome (w.fetched k).err)
      ⟨none, .limitExceeded, some errAggregateSizeExceeded, []⟩ .limit
    unfold Collector.finish
    rw [hfetched]
    dsimp only
    rw [if_pos hexceeds]
    refine ⟨?_, ?_, by omega⟩
    · cases (c.move i .recorded).groupEnd <;> simp
    · rw [hmarked]
      simp [Fetched.marks]

theorem Exact.step (h : Exact w owner settled c) (heffect : Effect w c d) :
    CutShort w d ∨ ∃ owner' settled', Exact w owner' settled' d := by
  cases heffect with
  | start i hold hturn hopen =>
    obtain ⟨k, slot, hkey, -, hstage⟩ := h.at_phase hold
    exact .inr ⟨_, _, h.moved hkey hold rfl rfl hturn ⟨hstage.1, rfl⟩⟩
  | skip i hold hend => exact absurd h.ongoing hend
  | arriveEnded i f hold hdelivery =>
    have hkey : w.keys[i]? = some (.sole i) := by
      rw [keys_getElem?, hdelivery]
      rfl
    have hfetched : w.fetched (.sole i) = f := by
      rw [fetched, hdelivery]
    obtain ⟨k, slot, hkey', -, hstage⟩ := h.at_phase hold
    obtain rfl := Option.some.inj (hkey.symm.trans hkey')
    have hfree : owner (.sole i) = none := by
      by_contra hsome
      obtain ⟨m, howner⟩ := Option.ne_none_iff_exists'.mp hsome
      rw [eq_of_keys_sole (h.owned _ m howner)] at howner
      exact hstage.1 howner
    have hseen (data : List UInt8) :
        data ∈ c.seen ↔ Function.update owner (.sole i) (some i) (.blob data) ≠ none := by
      have hne : Key.blob data ≠ .sole i := nofun
      rw [Function.update_of_ne hne]
      exact h.seen data
    have hturn := h.turn i _ hold nofun
    exact .inr ⟨_, _, h.advance hkey hold rfl rfl hturn (.inr ⟨hfree, rfl⟩) hseen
      ⟨rfl, .inl ⟨rfl, hfetched.symm⟩⟩⟩
  | arriveRead i data hold hdelivery =>
    have hkey : w.keys[i]? = some (.blob data) := by
      rw [keys_getElem?, hdelivery]
      rfl
    obtain ⟨k, slot, hkey', -, hstage⟩ := h.at_phase hold
    obtain rfl := Option.some.inj (hkey.symm.trans hkey')
    have hturn := h.turn i _ hold nofun
    exact .inr ⟨_, _, h.moved hkey hold rfl rfl hturn ⟨rfl, hstage.1, rfl⟩⟩
  | duplicate i data hold hseen =>
    obtain ⟨k, slot, hkey, -, hstage⟩ := h.at_phase hold
    obtain ⟨rfl, hother, -⟩ := hstage
    have hturn := h.turn i _ hold nofun
    exact .inr ⟨_, _, h.moved hkey hold rfl rfl hturn
      ⟨rfl, .inr ⟨hother, (h.seen data).mp hseen, rfl⟩⟩⟩
  | claim i data hold hnew =>
    obtain ⟨k, slot, hkey, -, hstage⟩ := h.at_phase hold
    obtain ⟨rfl, hother, -⟩ := hstage
    have hturn := h.turn i _ hold nofun
    have hfree : owner (.blob data) = none := by
      by_contra hsome
      exact hnew ((h.seen data).mpr hsome)
    have hseen (other : List UInt8) : other ∈ data :: c.seen ↔
        Function.update owner (.blob data) (some i) (.blob other) ≠ none := by
      by_cases heq : other = data
      · subst heq
        simp
      · have hne : Key.blob other ≠ .blob data := fun hkeys => heq (Key.blob.inj hkeys)
        rw [Function.update_of_ne hne, List.mem_cons, h.seen]
        simp [heq]
    exact .inr ⟨_, _, h.advance hkey hold rfl rfl hturn (.inr ⟨hfree, rfl⟩) hseen
      ⟨rfl, rfl, rfl⟩⟩
  | verify i data hold hopen =>
    obtain ⟨k, slot, hkey, -, hstage⟩ := h.at_phase hold
    obtain ⟨rfl, howner, -⟩ := hstage
    have hturn := h.turn i _ hold nofun
    exact .inr ⟨_, _, h.moved hkey hold rfl rfl hturn ⟨rfl, .inl ⟨howner, rfl⟩⟩⟩
  | cancelled i data hold hend => exact absurd h.ongoing hend
  | finish i f hold =>
    obtain ⟨k, slot, hkey, -, hstage⟩ := h.at_phase hold
    obtain ⟨-, ⟨howner, rfl⟩ | ⟨hother, howned, rfl⟩⟩ := hstage
    · by_cases hfits : c.totalSize + w.size k ≤ maxTotalAttestationSize
      · exact .inr ⟨_, _, h.finish_owner hkey hold howner hfits⟩
      · exact .inl (h.finish_large hkey hold howner (Nat.lt_of_not_le hfits))
    · exact .inr ⟨_, _, h.finish_duplicate hkey hold howned hother⟩

theorem CutShort.step (h : CutShort w c) (heffect : Effect w c d) : CutShort w d := by
  cases heffect with
  | start | skip | arriveEnded | arriveRead | duplicate | claim | verify | cancelled =>
    exact ⟨h.ended, h.marked, h.large⟩
  | finish i f hold =>
    have hmarked : (c.stats.record f.outcome f.err).marked .limit = true := by
      rw [CollectStats.marked_record, h.marked]
      rfl
    unfold Collector.finish
    cases f.att with
    | none => exact ⟨h.ended, hmarked, h.large⟩
    | some att =>
      dsimp only
      split
      · refine ⟨?_, ?_, h.large⟩
        · cases (c.move i .recorded).groupEnd <;> simp
        · have hrecord := CollectStats.marked_record (c.stats.record f.outcome f.err)
            ⟨none, .limitExceeded, some errAggregateSizeExceeded, []⟩ .limit
          rw [hmarked] at hrecord
          exact hrecord
      · exact ⟨h.ended, hmarked, h.large⟩

/-- A collection was cut short, or its state is exact. -/
def Sound (w : Workload) (c : Collector) : Prop :=
  CutShort w c ∨ ∃ owner settled, Exact w owner settled c

theorem exact_new (w : Workload) :
    Exact w (fun _ => none) ∅ (.new w.deliveries.length) := by
  have hwaiting {i : Nat} {phase : FetchPhase}
      (h : (Collector.new w.deliveries.length).phases[i]? = some phase) : phase = .waiting :=
    List.eq_of_mem_replicate (List.mem_of_getElem? h)
  refine ⟨rfl, ?_, ?_, nofun, nofun, ?_, ?_, ?_, ?_, rfl, Nat.zero_le _, ?_⟩
  · rw [length_keys]
    exact List.length_replicate
  · rw [length_keys]
    exact List.length_replicate
  · intro data
    exact iff_of_false List.not_mem_nil fun hsome => hsome rfl
  · intro i k phase slot hkey hphase hslot
    rw [hwaiting hphase]
    exact ⟨nofun, List.eq_of_mem_replicate (List.mem_of_getElem? hslot)⟩
  · intro i phase hphase hstarted
    exact absurd (hwaiting hphase) hstarted
  · intro k
    exact iff_of_false (Finset.notMem_empty k) fun ⟨i, howner, _⟩ => nomatch howner
  · intro mark
    refine iff_of_false ?_ ?_
    · cases mark <;> exact Bool.false_ne_true
    · rintro ⟨k, hk, -⟩
      exact Finset.notMem_empty k hk

theorem sound_step {op : ScheduleOp} (h : Sound w c) (hstep : w.step c op = some d) :
    Sound w d := by
  have heffect := effect_of_step hstep
  rcases h with hcut | ⟨owner, settled, hexact⟩
  · exact .inl (hcut.step heffect)
  · exact hexact.step heffect

theorem sound_of_exec {schedule : List ScheduleOp}
    (hrun : w.machine.exec (.new w.deliveries.length) schedule = some c) : Sound w c :=
  Machine.exec_preserves (I := Sound w) (fun _ _ _ h hstep => sound_step h hstep)
    (.inr ⟨_, _, exact_new w⟩) hrun

end Workload

end NriSupplyChain.Attestation
