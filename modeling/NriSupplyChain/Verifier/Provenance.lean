import NriSupplyChain.Verifier.Freshness

/-!
Where results come from: a run that the cache holds, that a flight ended with or
that a caller was served has finished its checks, and it finishes them once.
-/

namespace NriSupplyChain.Verifier

open Cache Lib

namespace FlightState

/-- Every run that the cache, a flight or a caller names satisfies `K`. -/
structure RunsSatisfy (K : Nat → Prop) (s : FlightState) : Prop where
  consistent : s.cache.Consistent
  cached : ∀ k e, s.cache.entries.lookup k = some e → K e.result
  flown : ∀ (n : Nat) f run, s.flights[n]? = some f → f.phase.outcome? = some (some run) → K run
  served : ∀ v req startedAt run, s.callers v = .returned req startedAt (some run) → K run

variable {K : Nat → Prop} {s t : FlightState}

theorem RunsSatisfy.mono (h : s.RunsSatisfy K) {L : Nat → Prop} (hKL : ∀ run, K run → L run) :
    s.RunsSatisfy L where
  consistent := h.consistent
  cached k e he := hKL _ (h.cached k e he)
  flown n f run hf hrun := hKL _ (h.flown n f run hf hrun)
  served v req startedAt run hv := hKL _ (h.served v req startedAt run hv)

theorem RunsSatisfy.getRead (h : s.RunsSatisfy K) {k : Key} {now : Int} {run : Nat}
    (hfound : s.cache.getRead k now = .valid run) : K run := by
  unfold Cache.getRead at hfound
  cases he : s.cache.entries.lookup k with
  | none =>
    rw [he] at hfound
    cases hfound
  | some e =>
    rw [he] at hfound
    dsimp only at hfound
    split at hfound
    · cases hfound
    · cases hfound
      exact h.cached k e he

theorem RunsSatisfy.getLocked (h : s.RunsSatisfy K) {k : Key} {now : Int} {run : Nat}
    (hfound : (s.cache.getLocked k now).2 = some run) : K run := by
  obtain ⟨e, he, rfl⟩ := (getLocked_shrinks h.consistent k now).2 run hfound
  exact h.cached k e he

/-- A step keeps the cache consistent, and only a finished run adds an entry to it. -/
theorem step_entries {op : FlightOp} (h : s.cache.Consistent) (hstep : s.step op = some t) :
    t.cache.Consistent ∧ ∀ k e, t.cache.entries.lookup k = some e →
      s.cache.entries.lookup k = some e ∨ ∃ ttl choices, op = .runDone e.result ttl choices := by
  cases Transition.of_step hstep with
  | getLockedMiss | getLockedHit | flightLockedMiss | flightLockedHit =>
    exact ⟨getLocked_consistent h _ _,
      fun k e he => .inl ((getLocked_shrinks h _ _).1.entries k e he)⟩
  | @runDone n ttl choices f hf hphase =>
    refine ⟨set_consistent h f.req.cacheKey n ttl f.epoch choices, ?_⟩
    intro k e he
    rcases set_spec h f.req.cacheKey n ttl f.epoch choices with hsame | ⟨_, _, hentries⟩
    · rw [hsame] at he
      exact .inl he
    · rcases hentries k e he with ⟨_, hresult⟩ | hold
      · exact .inr ⟨ttl, choices, by rw [hresult]⟩
      · exact .inl hold
  | @invalidateCache digest nameSpace order horder =>
    obtain ⟨hcache, hentries, _⟩ := deleteAll_spec h digest nameSpace horder
    refine ⟨hcache, ?_⟩
    intro k e he
    by_cases hmatch : k.digest = digest ∧ InNamespace k.nameSpace nameSpace
    · have hnone := (hentries k).1 hmatch
      rw [he] at hnone
      cases hnone
    · exact .inl (((hentries k).2 hmatch).symm.trans he)
  | @backgroundEvict now =>
    have hshrinks := (evictExpired_shrinks h now).trans (updateGauge_shrinks _)
    exact ⟨(evictExpired_spec h _).1.updateGauge, fun k e he => .inl (hshrinks.entries k e he)⟩
  | _ => exact ⟨h, fun _ _ he => .inl he⟩

theorem move_callers (v w : Nat) (phase : CallerPhase) :
    (s.move v phase).callers w = if w = v then phase else s.callers w :=
  Function.update_apply ..

theorem setPhase_callers (n v : Nat) (phase : FlightPhase) :
    (s.setPhase n phase).callers v = s.callers v :=
  rfl

theorem RunsSatisfy.step {op : FlightOp} (h : s.RunsSatisfy K)
    (hdone : ∀ n ttl choices, op = .runDone n ttl choices → K n) (hstep : s.step op = some t) :
    t.RunsSatisfy K := by
  obtain ⟨hconsistent, hentries⟩ := step_entries h.consistent hstep
  have hread := @h.getRead
  have hlocked := @h.getLocked
  have hflown := h.flown
  have hserved := h.served
  refine ⟨hconsistent, ?_, ?_, ?_⟩
  · intro k e he
    rcases hentries k e he with hold | ⟨ttl, choices, hop⟩
    · exact h.cached k e hold
    · exact hdone _ ttl choices hop
  · cases Transition.of_step hstep <;> grind [move, setPhase, FlightPhase.outcome?]
  · cases Transition.of_step hstep <;> grind [move_callers, setPhase_callers, FlightPhase.outcome?]

theorem initial_runsSatisfy (K : Nat → Prop) (h : flightMachine.initial s) :
    s.RunsSatisfy K := by
  obtain ⟨maxEntries, generation, rfl⟩ := h
  refine ⟨new_consistent maxEntries, ?_, ?_, ?_⟩
  · rintro _ _ ⟨⟩
  · rintro _ _ _ ⟨⟩
  · rintro _ _ _ _ ⟨⟩

/-- Flights are never removed, and a step leaves a flight that it does not finish
unfinished. -/
theorem step_unfinished {op : FlightOp} (hstep : s.step op = some t) :
    s.flights.length ≤ t.flights.length ∧
      ∀ (n : Nat) f, n < s.flights.length → t.flights[n]? = some f → f.phase.outcome? = none →
        ∃ f', s.flights[n]? = some f' ∧ f'.phase.outcome? = none := by
  cases Transition.of_step hstep <;> grind [move, setPhase, FlightPhase.outcome?]

end FlightState

end NriSupplyChain.Verifier
