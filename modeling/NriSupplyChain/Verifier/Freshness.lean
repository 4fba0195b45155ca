import NriSupplyChain.Verifier.Flights

/-!
A `Verify` that starts after an invalidation never returns a result of a run
that began before it. The argument follows the epochs: an invalidation advances
the epoch of its digest, a run stores its result only at the epoch it was
started with, and a caller joins only flights of the epoch it has read.
-/

namespace NriSupplyChain.Verifier

open Cache Lib

/-- The invalidation removes results stored under this key. -/
def Invalidation.Covers (i : Invalidation) (k : Key) : Prop :=
  k.digest = i.digest ∧ InNamespace k.nameSpace i.nameSpace

namespace FlightState

/-- The run's flight was created after step `n`. -/
def ComputedAfter (s : FlightState) (run n : Nat) : Prop :=
  ∃ f, s.flights[run]? = some f ∧ n < f.createdAt

/-- What is known of a caller in a given phase. An invalidation counts for the
caller if it took effect before the caller started. -/
def CallerOk (s : FlightState) : CallerPhase → Prop
  | .idle => True
  | .started req startedAt | .rechecking req startedAt | .missed req startedAt =>
    req.ZeroFree ∧ startedAt ≤ s.steps
  | .epochRead req startedAt epoch =>
    req.ZeroFree ∧ startedAt ≤ s.steps ∧ epoch ≤ s.cache.epoch req.digest ∧
      ∀ (n : Nat) f, s.flights[n]? = some f → f.req.digest = req.digest → f.epoch = epoch →
        ∀ i ∈ s.invalidations, i.digest = req.digest → i.at_ < startedAt → i.at_ < f.createdAt
  | .waiting req startedAt flight =>
    startedAt ≤ s.steps ∧ ∃ f, s.flights[flight]? = some f ∧ f.req.cacheKey = req.cacheKey ∧
      ∀ i ∈ s.invalidations, i.digest = req.digest → i.at_ < startedAt → i.at_ < f.createdAt
  | .returned req startedAt outcome =>
    startedAt ≤ s.steps ∧ ∀ run, outcome = some run → ∀ i ∈ s.invalidations,
      i.Covers req.cacheKey → i.at_ < startedAt → s.ComputedAfter run i.at_

/-- A flight with this outcome serves no run older than the invalidations its
creation followed. -/
def OutcomeOk (s : FlightState) (f : Flight) (phase : FlightPhase) : Prop :=
  ∀ run, phase.outcome? = some (some run) → ∀ i ∈ s.invalidations,
    i.Covers f.req.cacheKey → i.at_ < f.createdAt → s.ComputedAfter run i.at_

/-- An invalidation after the creation of a flight has left it behind an
epoch. -/
structure FlightOk (s : FlightState) (f : Flight) : Prop where
  zeroFree : f.req.ZeroFree
  created : f.createdAt ≤ s.steps
  epoch : f.epoch ≤ s.cache.epoch f.req.digest
  invalidated : ∀ i ∈ s.invalidations, i.digest = f.req.digest →
    i.at_ < f.createdAt ∨ f.epoch < s.cache.epoch f.req.digest
  outcome : s.OutcomeOk f f.phase

/-- An entry that was stored under `k` would be newer than every invalidation
of `k`. -/
def EntryOk (s : FlightState) (k : Key) (run : Nat) : Prop :=
  ∀ i ∈ s.invalidations, i.Covers k → s.ComputedAfter run i.at_

structure FreshInvariant (s : FlightState) : Prop where
  cache : s.cache.Consistent
  past : ∀ i ∈ s.invalidations, i.at_ < s.steps
  flights : ∀ (n : Nat) f, s.flights[n]? = some f → s.FlightOk f
  callers : ∀ v, s.CallerOk (s.callers v)
  entries : ∀ k e, s.cache.entries.lookup k = some e → s.EntryOk k e.result
  inflight : ∀ key n, s.inflight key = some n →
    ∃ f, s.flights[n]? = some f ∧ key = s.keyOf f.req f.epoch

/-- The two flights differ in their phase only. -/
def SameFlight (f g : Flight) : Prop :=
  g.req = f.req ∧ g.epoch = f.epoch ∧ g.createdAt = f.createdAt

/-- What every step respects: flights keep their identity, new ones carry the
number of the step, and a new invalidation advances its epoch. -/
structure Grows (s t : FlightState) : Prop where
  steps : s.steps ≤ t.steps
  epochs : ∀ d, s.cache.epoch d ≤ t.cache.epoch d
  kept : ∀ (n : Nat) f, s.flights[n]? = some f → ∃ g, t.flights[n]? = some g ∧ SameFlight f g
  origin : ∀ (n : Nat) g, t.flights[n]? = some g →
    (∃ f, s.flights[n]? = some f ∧ SameFlight f g) ∨ g.createdAt = s.steps
  invalidated : ∀ i ∈ t.invalidations, i ∈ s.invalidations ∨
    (i.at_ = s.steps ∧ s.cache.epoch i.digest < t.cache.epoch i.digest)

variable {n run : Nat} {s t : FlightState}

theorem Grows.computedAfter (h : Grows s t) (hrun : s.ComputedAfter run n) :
    t.ComputedAfter run n := by
  obtain ⟨f, hf, hlt⟩ := hrun
  obtain ⟨g, hg, _, _, hcreated⟩ := h.kept run f hf
  exact ⟨g, hg, by omega⟩

theorem Grows.callerOk (h : Grows s t) (hpast : ∀ i ∈ s.invalidations, i.at_ < s.steps)
    {phase : CallerPhase} (hphase : s.CallerOk phase) : t.CallerOk phase := by
  have hsteps := h.steps
  have hold {i : Invalidation} (hi : i ∈ t.invalidations) {startedAt : Nat}
      (hstarted : startedAt ≤ s.steps) (hlt : i.at_ < startedAt) : i ∈ s.invalidations := by
    rcases h.invalidated i hi with hmem | ⟨hat, _⟩
    · exact hmem
    · omega
  cases phase with
  | idle => trivial
  | started | rechecking | missed => exact ⟨hphase.1, Nat.le_trans hphase.2 hsteps⟩
  | epochRead req startedAt epoch =>
    obtain ⟨hzero, hstarted, hepochLe, hfresh⟩ := hphase
    refine ⟨hzero, Nat.le_trans hstarted hsteps, Nat.le_trans hepochLe (h.epochs _), ?_⟩
    intro n g hg hdigest hepoch i hi hid hlt
    have hi' := hold hi hstarted hlt
    rcases h.origin n g hg with ⟨f, hf, hreq, hfepoch, hcreated⟩ | hnew
    · rw [hcreated]
      exact hfresh n f hf (by rw [← hreq]; exact hdigest) (by omega) i hi' hid hlt
    · have hlt' := hpast i hi'
      omega
  | waiting req startedAt flight =>
    obtain ⟨hstarted, f, hf, hkey, hfresh⟩ := hphase
    obtain ⟨g, hg, hreq, _, hcreated⟩ := h.kept flight f hf
    refine ⟨Nat.le_trans hstarted hsteps, g, hg, by rw [hreq]; exact hkey, ?_⟩
    intro i hi hid hlt
    rw [hcreated]
    exact hfresh i (hold hi hstarted hlt) hid hlt
  | returned req startedAt outcome =>
    obtain ⟨hstarted, hfresh⟩ := hphase
    refine ⟨Nat.le_trans hstarted hsteps, ?_⟩
    intro run hrun i hi hcovers hlt
    exact h.computedAfter (hfresh run hrun i (hold hi hstarted hlt) hcovers hlt)

variable {f : Flight} {phase : FlightPhase}

theorem Grows.outcomeOk (h : Grows s t) {g : Flight} (hsame : SameFlight f g)
    (hcreated : f.createdAt ≤ s.steps) (hphase : s.OutcomeOk f phase) : t.OutcomeOk g phase := by
  obtain ⟨hreq, _, hat⟩ := hsame
  intro run hrun i hi hcovers hlt
  rw [hreq] at hcovers
  rcases h.invalidated i hi with hmem | ⟨hnew, _⟩
  · exact h.computedAfter (hphase run hrun i hmem hcovers (by omega))
  · omega

/-- An old flight, whose phase may have changed, is still in order. -/
theorem Grows.flightOk (h : Grows s t) {g : Flight} (hsame : SameFlight f g) (hf : s.FlightOk f)
    (hphase : s.OutcomeOk f g.phase) : t.FlightOk g := by
  obtain ⟨hreq, hepoch, hat⟩ := hsame
  have hsteps := h.steps
  have hcreated := hf.created
  have hbound := hf.epoch
  have hepochs := h.epochs f.req.digest
  refine ⟨by rw [hreq]; exact hf.zeroFree, by omega, by rw [hreq]; omega, ?_,
    h.outcomeOk ⟨hreq, hepoch, hat⟩ hf.created hphase⟩
  intro i hi hid
  rw [hreq] at hid ⊢
  rcases h.invalidated i hi with hmem | ⟨_, hbump⟩
  · rcases hf.invalidated i hmem hid with hlt | hlt
    · exact Or.inl (by omega)
    · exact Or.inr (by omega)
  · right
    rw [hid] at hbump
    omega

theorem setPhase_flights (s : FlightState) (n m : Nat) (phase : FlightPhase) :
    (s.setPhase n phase).flights[m]? =
      if n = m then (s.flights[m]?).map (fun f => { f with phase := phase })
      else s.flights[m]? := by
  simp only [setPhase, List.getElem?_modify]
  split <;> simp

/-- A step that leaves flights, invalidations and the group alone, and at most
shrinks the cache. -/
theorem FreshInvariant.quiet (h : s.FreshInvariant) (hflights : t.flights = s.flights)
    (hinvalidations : t.invalidations = s.invalidations) (hinflight : t.inflight = s.inflight)
    (hgeneration : t.generation = s.generation) (hsteps : t.steps = s.steps + 1)
    (hcache : t.cache.Consistent) (hshrinks : Shrinks s.cache t.cache)
    (hcallers : ∀ v, s.CallerOk (t.callers v)) : t.FreshInvariant := by
  have hepochs (d : GoString) : t.cache.epoch d = s.cache.epoch d := by
    simp only [epoch, hshrinks.epochs]
  have hgrows : Grows s t := by
    refine ⟨by omega, fun d => (hepochs d).ge, ?_, ?_, ?_⟩
    · intro n f hf
      exact ⟨f, by rw [hflights]; exact hf, rfl, rfl, rfl⟩
    · intro n g hg
      rw [hflights] at hg
      exact Or.inl ⟨g, hg, rfl, rfl, rfl⟩
    · intro i hi
      rw [hinvalidations] at hi
      exact Or.inl hi
  constructor
  · exact hcache
  · intro i hi
    rw [hinvalidations] at hi
    have hlt := h.past i hi
    omega
  · intro n f hf
    rw [hflights] at hf
    exact hgrows.flightOk ⟨rfl, rfl, rfl⟩ (h.flights n f hf) (h.flights n f hf).outcome
  · intro v
    exact hgrows.callerOk h.past (hcallers v)
  · intro k e he i hi hcovers
    rw [hinvalidations] at hi
    exact hgrows.computedAfter (h.entries k e (hshrinks.entries k e he) i hi hcovers)
  · intro key n hkey
    rw [hinflight] at hkey
    obtain ⟨f, hf, heq⟩ := h.inflight key n hkey
    refine ⟨f, by rw [hflights]; exact hf, ?_⟩
    rw [heq, keyOf, keyOf, hgeneration]

/-- A caller moves to a phase it is entitled to. -/
theorem FreshInvariant.moveCaller (h : s.FreshInvariant) {v : Nat} {phase : CallerPhase}
    {cache : Cache Nat} (hphase : s.CallerOk phase) (hcache : cache.Consistent)
    (hshrinks : Shrinks s.cache cache) : FreshInvariant { s.move v phase with cache := cache } := by
  refine h.quiet (t := { s.move v phase with cache := cache }) rfl rfl rfl rfl rfl hcache
    hshrinks ?_
  intro w
  by_cases hw : w = v
  · subst hw
    simpa [move] using hphase
  · simpa [move, Function.update_of_ne hw] using h.callers w

/-- A flight moves to a new phase: the group loses at most the flight, no epoch
moves, and every entry of the cache is an old one or as fresh as an entry has
to be. -/
theorem FreshInvariant.moveFlight (h : s.FreshInvariant)
    (hflights : t.flights = (s.setPhase n phase).flights)
    (hphase : ∀ f, s.flights[n]? = some f → s.OutcomeOk f phase)
    (hcallers : t.callers = s.callers) (hinvalidations : t.invalidations = s.invalidations)
    (hinflight : ∀ key m, t.inflight key = some m → s.inflight key = some m)
    (hgeneration : t.generation = s.generation) (hsteps : t.steps = s.steps + 1)
    (hcache : t.cache.Consistent) (hepochs : t.cache.epochs = s.cache.epochs)
    (hentries : ∀ k e, t.cache.entries.lookup k = some e →
      s.cache.entries.lookup k = some e ∨ s.EntryOk k e.result) : t.FreshInvariant := by
  have hflight (m : Nat) (g : Flight) (hg : t.flights[m]? = some g) :
      ∃ f, s.flights[m]? = some f ∧ SameFlight f g ∧ s.OutcomeOk f g.phase := by
    rw [hflights, setPhase_flights] at hg
    split at hg
    · next hnm =>
      subst hnm
      obtain ⟨f, hf, rfl⟩ := Option.map_eq_some_iff.mp hg
      exact ⟨f, hf, ⟨rfl, rfl, rfl⟩, hphase f hf⟩
    · exact ⟨g, hg, ⟨rfl, rfl, rfl⟩, (h.flights m g hg).outcome⟩
  have hkept (m : Nat) (f : Flight) (hf : s.flights[m]? = some f) :
      ∃ g, t.flights[m]? = some g ∧ SameFlight f g := by
    rw [hflights, setPhase_flights]
    split
    · rw [hf]
      exact ⟨_, rfl, rfl, rfl, rfl⟩
    · exact ⟨f, hf, rfl, rfl, rfl⟩
  have hepoch (d : GoString) : t.cache.epoch d = s.cache.epoch d := by
    simp only [epoch, hepochs]
  have hgrows : Grows s t := by
    refine ⟨by omega, fun d => (hepoch d).ge, hkept, ?_, ?_⟩
    · intro m g hg
      obtain ⟨f, hf, hsame, _⟩ := hflight m g hg
      exact Or.inl ⟨f, hf, hsame⟩
    · intro i hi
      rw [hinvalidations] at hi
      exact Or.inl hi
  constructor
  · exact hcache
  · intro i hi
    rw [hinvalidations] at hi
    have hlt := h.past i hi
    omega
  · intro m g hg
    obtain ⟨f, hf, hsame, houtcome⟩ := hflight m g hg
    exact hgrows.flightOk hsame (h.flights m f hf) houtcome
  · intro v
    rw [hcallers]
    exact hgrows.callerOk h.past (h.callers v)
  · intro k e he i hi hcovers
    rw [hinvalidations] at hi
    rcases hentries k e he with hold | hnew
    · exact hgrows.computedAfter (h.entries k e hold i hi hcovers)
    · exact hgrows.computedAfter (hnew i hi hcovers)
  · intro key m hkey
    obtain ⟨f, hf, heq⟩ := h.inflight key m (hinflight key m hkey)
    obtain ⟨g, hg, hreq, hgepoch, _⟩ := hkept m f hf
    refine ⟨g, hg, ?_⟩
    rw [heq, keyOf, keyOf, hgeneration, hreq, hgepoch]

variable {req : FlightRequest} {startedAt : Nat}

/-- A new flight follows every invalidation so far. -/
theorem FreshInvariant.newFlight (h : s.FreshInvariant) {v : Nat} {epoch : Nat}
    (hcaller : s.callers v = .epochRead req startedAt epoch) :
    FreshInvariant { s.move v (.waiting req startedAt s.flights.length) with
      flights := s.flights ++ [⟨req, epoch, s.steps, .pending⟩]
      inflight := Function.update s.inflight (s.keyOf req epoch) (some s.flights.length) } := by
  let new : Flight := ⟨req, epoch, s.steps, .pending⟩
  let t : FlightState := { s.move v (.waiting req startedAt s.flights.length) with
    flights := s.flights ++ [new]
    inflight := Function.update s.inflight (s.keyOf req epoch) (some s.flights.length) }
  change t.FreshInvariant
  have hok := h.callers v
  rw [hcaller] at hok
  obtain ⟨hzero, hstarted, hepoch, _⟩ := hok
  have hlast : t.flights[s.flights.length]? = some new := by simp [t]
  have hflight (n : Nat) (g : Flight) (hg : t.flights[n]? = some g) :
      s.flights[n]? = some g ∨ (n = s.flights.length ∧ g = new) := by
    simp only [t, List.getElem?_append] at hg
    split at hg
    · exact Or.inl hg
    · next hge =>
      obtain ⟨hlt, heq⟩ := List.getElem?_eq_some_iff.mp hg
      simp only [List.length_singleton] at hlt
      have hn : n = s.flights.length := by omega
      subst hn
      simp only [Nat.sub_self, List.getElem_cons_zero] at heq
      exact Or.inr ⟨rfl, heq.symm⟩
  have hkept (n : Nat) (f : Flight) (hf : s.flights[n]? = some f) : t.flights[n]? = some f := by
    have hlt : n < s.flights.length := (List.getElem?_eq_some_iff.mp hf).1
    simp only [t, List.getElem?_append_left hlt]
    exact hf
  have hgrows : Grows s t := by
    refine ⟨Nat.le_succ _, fun d => Nat.le_refl _, ?_, ?_, fun i hi => Or.inl hi⟩
    · intro n f hf
      exact ⟨f, hkept n f hf, rfl, rfl, rfl⟩
    · intro n g hg
      rcases hflight n g hg with hold | ⟨_, rfl⟩
      · exact Or.inl ⟨g, hold, rfl, rfl, rfl⟩
      · exact Or.inr rfl
  constructor
  · exact h.cache
  · intro i hi
    exact Nat.lt_succ_of_lt (h.past i hi)
  · intro n g hg
    rcases hflight n g hg with hold | ⟨_, rfl⟩
    · exact hgrows.flightOk ⟨rfl, rfl, rfl⟩ (h.flights n g hold) (h.flights n g hold).outcome
    · refine ⟨hzero, Nat.le_succ _, hepoch, ?_, ?_⟩
      · intro i hi _
        exact Or.inl (h.past i hi)
      · intro run hrun
        cases hrun
  · intro w
    by_cases hw : w = v
    · subst hw
      have hcall : t.callers w = .waiting req startedAt s.flights.length := by simp [t, move]
      rw [hcall]
      refine ⟨Nat.le_succ_of_le hstarted, new, hlast, rfl, ?_⟩
      intro i hi _ _
      exact h.past i hi
    · have hcall : t.callers w = s.callers w := by simp [t, move, Function.update_of_ne hw]
      rw [hcall]
      exact hgrows.callerOk h.past (h.callers w)
  · intro k e he i hi hcovers
    exact hgrows.computedAfter (h.entries k e he i hi hcovers)
  · intro key n hkey
    by_cases hk : key = s.keyOf req epoch
    · subst hk
      have hn : s.flights.length = n := by simpa [t] using hkey
      subst hn
      exact ⟨new, hlast, rfl⟩
    · have hold : s.inflight key = some n := by
        simpa [t, Function.update_of_ne hk] using hkey
      obtain ⟨f, hf, heq⟩ := h.inflight key n hold
      exact ⟨f, hkept n f hf, heq⟩

/-- `InvalidateCache` takes effect: no covered entry is left, and the flights of
the digest are behind its epoch. -/
theorem FreshInvariant.invalidate (h : s.FreshInvariant) {digest nameSpace : GoString}
    {order : List Key} (horder : s.cache.Enumerates digest order) :
    FreshInvariant { s with
      cache := (s.cache.deleteAll digest nameSpace order).1
      invalidations := ⟨digest, nameSpace, s.steps⟩ :: s.invalidations
      steps := s.steps + 1 } := by
  let t : FlightState := { s with
    cache := (s.cache.deleteAll digest nameSpace order).1
    invalidations := ⟨digest, nameSpace, s.steps⟩ :: s.invalidations
    steps := s.steps + 1 }
  change t.FreshInvariant
  obtain ⟨hcache, hentries, hepochs⟩ := deleteAll_spec h.cache digest nameSpace horder
  have hepoch (d : GoString) : t.cache.epoch d =
      if shardOf d = shardOf digest then s.cache.epoch d + 1 else s.cache.epoch d := by
    simp only [t, epoch, hepochs, Function.update_apply]
    split
    · next heq => rw [heq]
    · rfl
  have hgrows : Grows s t := by
    refine ⟨Nat.le_succ _, ?_, ?_, ?_, ?_⟩
    · intro d
      rw [hepoch d]
      split <;> omega
    · intro n f hf
      exact ⟨f, hf, rfl, rfl, rfl⟩
    · intro n g hg
      exact Or.inl ⟨g, hg, rfl, rfl, rfl⟩
    · intro i hi
      rcases List.mem_cons.mp hi with rfl | hold
      · refine Or.inr ⟨rfl, ?_⟩
        rw [hepoch, if_pos rfl]
        omega
      · exact Or.inl hold
  constructor
  · exact hcache
  · intro i hi
    rcases List.mem_cons.mp hi with rfl | hold
    · exact Nat.lt_succ_self _
    · exact Nat.lt_succ_of_lt (h.past i hold)
  · intro n f hf
    exact hgrows.flightOk ⟨rfl, rfl, rfl⟩ (h.flights n f hf) (h.flights n f hf).outcome
  · intro v
    exact hgrows.callerOk h.past (h.callers v)
  · intro k e he i hi hcovers
    rcases List.mem_cons.mp hi with rfl | hold
    · have hnone := (hentries k).1 hcovers
      rw [he] at hnone
      cases hnone
    · by_cases hmatch : k.digest = digest ∧ InNamespace k.nameSpace nameSpace
      · have hnone := (hentries k).1 hmatch
        rw [he] at hnone
        cases hnone
      · have hbefore := ((hentries k).2 hmatch).symm.trans he
        exact hgrows.computedAfter (h.entries k e hbefore i hold hcovers)
  · exact h.inflight

/-- A result found in the cache is newer than every invalidation of its key. -/
theorem getRead_fresh (h : s.FreshInvariant) {k : Key} {now : Int}
    (hfound : s.cache.getRead k now = .valid run) : s.EntryOk k run := by
  unfold getRead at hfound
  cases he : s.cache.entries.lookup k with
  | none =>
    rw [he] at hfound
    cases hfound
  | some e =>
    rw [he] at hfound
    dsimp only at hfound
    split at hfound
    · cases hfound
    · cases hfound
      exact h.entries k e he

theorem getLocked_fresh (h : s.FreshInvariant) {k : Key} {now : Int}
    (hfound : (s.cache.getLocked k now).2 = some run) : s.EntryOk k run := by
  obtain ⟨e, he, rfl⟩ := (getLocked_shrinks h.cache k now).2 run hfound
  exact h.entries k e he

theorem EntryOk.outcomeOk (h : s.EntryOk f.req.cacheKey run) :
    s.OutcomeOk f (.finished (some run)) := by
  rintro _ ⟨⟩ i hi hcovers _
  exact h i hi hcovers

theorem outcomeOk_none (h : ∀ run, phase.outcome? ≠ some (some run)) : s.OutcomeOk f phase :=
  fun run hrun => absurd hrun (h run)

/-- A caller takes a result out of the cache. -/
theorem EntryOk.callerOk (h : s.EntryOk req.cacheKey run) (hstarted : startedAt ≤ s.steps) :
    s.CallerOk (.returned req startedAt (some run)) := by
  refine ⟨hstarted, ?_⟩
  rintro _ ⟨⟩ i hi hcovers _
  exact h i hi hcovers

/-- A caller that returns without a result. -/
theorem callerOk_none (hstarted : startedAt ≤ s.steps) :
    s.CallerOk (.returned req startedAt none) :=
  ⟨hstarted, fun _ hrun => by cases hrun⟩

/-- The epoch a caller reads is ahead of every flight that an earlier
invalidation has left behind. -/
theorem FreshInvariant.readEpoch (h : s.FreshInvariant)
    (hmissed : s.CallerOk (.missed req startedAt)) :
    s.CallerOk (.epochRead req startedAt (s.cache.epoch req.digest)) := by
  refine ⟨hmissed.1, hmissed.2, Nat.le_refl _, ?_⟩
  intro n f hf hdigest hepoch i hi hid _
  rcases (h.flights n f hf).invalidated i hi (by rw [hdigest]; exact hid) with hlt | hbehind
  · exact hlt
  · rw [hdigest] at hbehind
    omega

/-- A caller joins a flight of the group: the keys agree, so the flight has the
epoch that the caller has read. -/
theorem FreshInvariant.join (h : s.FreshInvariant) {epoch : Nat}
    (hcaller : s.CallerOk (.epochRead req startedAt epoch))
    (hinflight : s.inflight (s.keyOf req epoch) = some n) :
    s.CallerOk (.waiting req startedAt n) := by
  obtain ⟨hzero, hstarted, _, hfresh⟩ := hcaller
  obtain ⟨f, hf, hkey⟩ := h.inflight _ n hinflight
  obtain ⟨_, hepoch, hdigest, hns⟩ := flightKey_injective hzero (h.flights n f hf).zeroFree hkey
  refine ⟨hstarted, f, hf, ?_, ?_⟩
  · simp only [FlightRequest.cacheKey, hdigest, hns]
  · intro i hi hid hlt
    exact hfresh n f hf hdigest.symm hepoch.symm i hi hid hlt

/-- A caller receives the outcome of the flight it waited for. -/
theorem FreshInvariant.received (h : s.FreshInvariant) {outcome : Outcome}
    (hcaller : s.CallerOk (.waiting req startedAt n)) (hf : s.flights[n]? = some f)
    (houtcome : f.phase = .delivered outcome) : s.CallerOk (.returned req startedAt outcome) := by
  obtain ⟨hstarted, g, hg, hkey, hfresh⟩ := hcaller
  obtain rfl : f = g := Option.some.inj (hf.symm.trans hg)
  refine ⟨hstarted, ?_⟩
  rintro run rfl i hi hcovers hlt
  refine (h.flights n f hf).outcome run (by rw [houtcome]; rfl) i hi ?_ ?_
  · rw [hkey]
    exact hcovers
  · exact hfresh i hi hcovers.1.symm hlt

/-- The entry a finished run stores, at the epoch it was started with, is newer
than every invalidation of its digest. -/
theorem FreshInvariant.stored (h : s.FreshInvariant) (hf : s.flights[n]? = some f)
    (hepoch : s.cache.epoch f.req.digest = f.epoch) : s.EntryOk f.req.cacheKey n := by
  intro i hi hcovers
  rcases (h.flights n f hf).invalidated i hi hcovers.1.symm with hlt | hbehind
  · exact ⟨f, hf, hlt⟩
  · omega

theorem step_fresh (s : FlightState) (op : FlightOp) (t : FlightState) (h : s.FreshInvariant)
    (hzero : op.ZeroFree) (hstep : s.step op = some t) : t.FreshInvariant := by
  have hmove {v : Nat} {phase : CallerPhase} (hphase : s.CallerOk phase) :
      (s.move v phase).FreshInvariant :=
    h.moveCaller hphase h.cache (Shrinks.refl _)
  have hflight {n : Nat} {phase : FlightPhase} {cache : Cache Nat}
      (hphase : ∀ f, s.flights[n]? = some f → s.OutcomeOk f phase) (hcache : cache.Consistent)
      (hshrinks : Shrinks s.cache cache) :
      FreshInvariant { s.setPhase n phase with cache := cache } :=
    h.moveFlight rfl hphase rfl rfl (fun _ _ hkey => hkey) rfl rfl hcache hshrinks.epochs
      (fun k e he => .inl (hshrinks.entries k e he))
  have hcaller {v : Nat} {phase : CallerPhase} (hv : s.callers v = phase) : s.CallerOk phase :=
    hv ▸ h.callers v
  cases Transition.of_step hstep with
  | verify hv => exact hmove ⟨hzero, Nat.le_refl _⟩
  | skip hv => exact hmove (callerOk_none (hcaller hv).2)
  | getMissing hv _ | getExpired hv _ => exact hmove ⟨(hcaller hv).1, (hcaller hv).2⟩
  | getValid hv hfound => exact hmove ((getRead_fresh h hfound).callerOk (hcaller hv).2)
  | getLockedMiss hv hfound =>
    exact h.moveCaller ⟨(hcaller hv).1, (hcaller hv).2⟩ (getLocked_consistent h.cache _ _)
      (getLocked_shrinks h.cache _ _).1
  | getLockedHit hv hfound =>
    exact h.moveCaller ((getLocked_fresh h hfound).callerOk (hcaller hv).2)
      (getLocked_consistent h.cache _ _) (getLocked_shrinks h.cache _ _).1
  | readEpoch hv => exact hmove (h.readEpoch (hcaller hv))
  | notJoinable hv => exact hmove (callerOk_none (hcaller hv).2.1)
  | join hv hinflight => exact hmove (h.join (hcaller hv) hinflight)
  | newFlight hv hinflight => exact h.newFlight hv
  | interrupted hv => exact hmove (callerOk_none (hcaller hv).1)
  | receive hv hf houtcome => exact hmove (h.received (hcaller hv) hf houtcome)
  | reject | flightMissing | flightExpired | runFailed =>
    exact hflight (fun _ _ => outcomeOk_none (by intro run hrun; cases hrun)) h.cache (.refl _)
  | flightValid hf hphase hfound =>
    refine hflight ?_ h.cache (.refl _)
    intro f' hf'
    cases hf.symm.trans hf'
    exact (getRead_fresh h hfound).outcomeOk
  | flightLockedMiss hf hphase hfound =>
    exact hflight (fun _ _ => outcomeOk_none (by intro run hrun; cases hrun))
      (getLocked_consistent h.cache _ _) (getLocked_shrinks h.cache _ _).1
  | flightLockedHit hf hphase hfound =>
    refine hflight ?_ (getLocked_consistent h.cache _ _) (getLocked_shrinks h.cache _ _).1
    intro f' hf'
    cases hf.symm.trans hf'
    exact (getLocked_fresh h hfound).outcomeOk
  | @runDone n ttl choices f hf hphase =>
    have hset := set_spec h.cache f.req.cacheKey n ttl f.epoch choices
    refine h.moveFlight rfl ?_ rfl rfl (fun _ _ hkey => hkey) rfl rfl
      (set_consistent h.cache f.req.cacheKey n ttl f.epoch choices) ?_ ?_
    · rintro f' hf' _ ⟨⟩ i hi _ hlt
      exact ⟨f', hf', hlt⟩
    · rcases hset with hsame | ⟨_, hepochs, _⟩
      · rw [hsame]
      · exact hepochs
    · intro k e he
      rcases hset with hsame | ⟨hepoch, _, hentries⟩
      · rw [hsame] at he
        exact Or.inl he
      · rcases hentries k e he with ⟨rfl, hresult⟩ | hold
        · right
          rw [hresult]
          exact h.stored hf hepoch
        · exact Or.inl hold
  | @deliver n f outcome hf hphase =>
    refine h.moveFlight rfl ?_ rfl rfl ?_ rfl rfl h.cache rfl (fun _ _ he => Or.inl he)
    · intro f' hf'
      cases hf.symm.trans hf'
      have houtcome := (h.flights n f hf).outcome
      rw [hphase] at houtcome
      exact houtcome
    · intro key m hkey
      dsimp only at hkey
      split at hkey
      · by_cases hk : key = s.keyOf f.req f.epoch
        · subst hk
          simp at hkey
        · rwa [Function.update_of_ne hk] at hkey
      · exact hkey
  | invalidateCache horder => exact h.invalidate horder
  | backgroundEvict =>
    exact h.quiet rfl rfl rfl rfl rfl (evictExpired_spec h.cache _).1.updateGauge
      ((evictExpired_shrinks h.cache _).trans (updateGauge_shrinks _)) h.callers
  | reload => exact h.quiet rfl rfl rfl rfl rfl h.cache (Shrinks.refl _) h.callers

theorem initial_fresh (h : flightMachine.initial s) : s.FreshInvariant := by
  obtain ⟨maxSize, generation, rfl⟩ := h
  constructor
  · exact new_consistent maxSize
  · intro i hi
    cases hi
  · intro n f hf
    simp at hf
  · intro v
    trivial
  · intro k e he
    simp [Cache.new] at he
  · intro key n hkey
    cases hkey

theorem reachable_fresh (h : flightMachine.ReachableVia (fun _ op => op.ZeroFree) s) :
    s.FreshInvariant :=
  Machine.ReachableVia.invariant (fun _ => initial_fresh) step_fresh h

end FlightState

/-- In every interleaving of callers, flights, invalidations, evictions and
reloads that keep the cache: a `Verify` that started after an invalidation of
its digest and namespace took effect returns no result of a run that began
before the invalidation. -/
theorem verify_never_stale {s : FlightState}
    (h : flightMachine.ReachableVia (fun _ op => op.ZeroFree) s) {v run : Nat}
    {req : FlightRequest} {startedAt : Nat}
    (hreturned : s.callers v = .returned req startedAt (some run)) {i : Invalidation}
    (hi : i ∈ s.invalidations) (hdigest : i.digest = req.digest)
    (hnameSpace : i.nameSpace = req.nameSpace) (hbefore : i.at_ < startedAt) :
    ∃ f, s.flights[run]? = some f ∧ i.at_ < f.createdAt := by
  have hcaller := (FlightState.reachable_fresh h).callers v
  rw [hreturned] at hcaller
  refine hcaller.2 run rfl i hi ⟨hdigest.symm, ?_⟩ hbefore
  rw [hnameSpace]
  exact cacheNamespaceKey_inNamespace req.nameSpace req.imageRef req.ruleIdx

/-- A request for digest `d` in namespace `n`. -/
def sampleRequest : FlightRequest := ⟨[100], [110], [105], -1⟩

/-- The second caller starts after an invalidation, while the flight of the first
caller is still running. -/
def invalidatedRun : List FlightOp :=
  [.verify 0 sampleRequest, .get 0 0, .readEpoch 0, .doChan 0, .flightGet 0 0,
    .invalidateCache [100] [110] [],
    .verify 1 sampleRequest, .get 1 0, .readEpoch 1, .doChan 1, .flightGet 1 0,
    .runDone 0 60 ⟨0, 0, 0⟩, .deliver 0, .runDone 1 60 ⟨0, 0, 0⟩, .deliver 1, .receive 1]

/-- In `invalidatedRun` the second caller does not join the running flight. -/
theorem second_caller_starts_own_flight :
    ∃ s, flightMachine.exec ⟨Cache.new 8, 0, fun _ => none, [], fun _ => .idle, [], 0⟩
        invalidatedRun = some s ∧
      s.callers 1 = .returned sampleRequest 6 (some 1) ∧
      ∃ f, s.flights[1]? = some f ∧ 5 < f.createdAt := by
  refine ⟨_, rfl, rfl, ?_⟩
  refine verify_never_stale ?_ (v := 1) (i := ⟨[100], [110], 5⟩) rfl ?_ rfl rfl (by decide)
  · refine Machine.ReachableVia.exec (.start ⟨8, 0, rfl⟩) (Machine.AllAllowed.of_forall ?_ _)
      (rfl : flightMachine.exec _ invalidatedRun = _)
    simp [invalidatedRun, FlightOp.ZeroFree, FlightRequest.ZeroFree, sampleRequest]
  · exact List.mem_singleton.mpr rfl

end NriSupplyChain.Verifier
