import NriSupplyChain.Verifier.IncompleteSets
import NriSupplyChain.Verifier.Admission
import NriSupplyChain.Verifier.Provenance

/-!
What every `Verify` call returns, in every interleaving of calls, runs,
invalidations and evictions. The objects of runs are never written after they
were allocated, so each call starts from a copy of what the checks computed and
only its own copy takes the mode.
-/

namespace NriSupplyChain.Verifier

open NriSupplyChain.Types Cache Lib

section Decisions

variable {lib : Library} {state : Snapshot} {req : VerifyRequest}

theorem skipped_of_decideRequest {mode : VerificationMode} {reason : String}
    (h : decideRequest lib state req = .skip mode reason) : Skipped lib state req := by
  unfold decideRequest at h
  dsimp only at h
  split at h
  · next hdisabled => exact .disabled (by simpa using hdisabled)
  · split at h
    · next hallow => exact .allowlisted hallow
    · split at h
      · cases h
      · next pol hpol =>
        split at h
        · next hinclude => exact .notIncluded hpol (by simpa using hinclude)
        · split at h
          · next hexclude => exact .excluded hpol hexclude
          · split at h
            · cases h
            · cases h

theorem effectiveMode_of_missingPolicy (h : decideRequest lib state req = .missingPolicy) :
    effectiveMode lib state req = state.config.verification := by
  unfold decideRequest at h
  dsimp only at h
  split at h
  · cases h
  · split at h
    · cases h
    · split at h
      · next hpol => simp [effectiveMode, resolvedPolicy, hpol]
      · split at h
        · cases h
        · split at h
          · cases h
          · split at h
            · cases h
            · cases h

theorem mode_of_check {args : RunArgs} {ruleIdx : Int}
    (h : decideRequest lib state req = .check args ruleIdx) :
    args.mode = effectiveMode lib state req := by
  unfold decideRequest at h
  dsimp only at h
  split at h
  · cases h
  · split at h
    · cases h
    · split at h
      · cases h
      · next pol hpol =>
        split at h
        · cases h
        · split at h
          · cases h
          · split at h
            · cases h
            · cases h
              simp [effectiveMode, resolvedPolicy, hpol]

theorem Call.mode_of_args {call : Call} {args : RunArgs} (h : call.args lib = some args) :
    args.mode = effectiveMode lib call.state call.req := by
  unfold Call.args at h
  split at h
  · next args' ruleIdx hdecide =>
    cases h
    exact mode_of_check hdecide
  · cases h

end Decisions

theorem verdict_skipResult (mode : VerificationMode) (reason : String) :
    Verdict (skipResult mode reason) :=
  ⟨fun _ => rfl, fun _ => rfl, fun _ => rfl⟩

theorem verdict_verifyErrorResult (mode : VerificationMode) (err : GoError) :
    Verdict (verifyErrorResult mode err) := by
  have hverified : (verifyErrorResult mode err).verified = false := rfl
  constructor
  · intro _
    rfl
  · intro _
    rfl
  · intro h
    rw [hverified] at h
    cases h

theorem sound_missingPolicyResult (nameSpace : String) : Sound (missingPolicyResult nameSpace) :=
  rfl

namespace VerifierState

section Heap

variable (s : VerifierState) {p q : Nat} {cell : Cell}

theorem alloc_new (owner : Owner) (value : Result) :
    (s.alloc owner value).cells[s.cells.length]? = some ⟨owner, value⟩ := by
  simp [alloc]

theorem alloc_old (owner : Owner) (value : Result) (h : s.cells[q]? = some cell) :
    (s.alloc owner value).cells[q]? = some cell := by
  have hlt : q < s.cells.length := (List.getElem?_eq_some_iff.mp h).1
  simp only [alloc, List.getElem?_append_left hlt]
  exact h

theorem write_same (value : Result) (h : s.cells[p]? = some cell) :
    (s.write p value).cells[p]? = some { cell with value := value } := by
  simp [write, h]

theorem write_other (value : Result) (h : q ≠ p) :
    (s.write p value).cells[q]? = s.cells[q]? := by
  simp [write, h.symm]

end Heap

/-- What a call may have returned. -/
structure ReturnOk (lib : Library) (s : VerifierState) (call : Call) (v : Nat)
    (ret : Returned) : Prop where
  verdict : ∀ p, ret.result = some p → ∃ r, s.cells[p]? = some ⟨.call v, r⟩ ∧ Verdict r
  enforced : effectiveMode lib call.state call.req = .enforce → ret.err = none →
    Skipped lib call.state call.req ∨
      ∃ p r, ret.result = some p ∧ s.cells[p]? = some ⟨.call v, r⟩ ∧ r.hasFailedCheck = false

variable {call : Call} {lib : Library} {s t : VerifierState} {v : Nat}

theorem ReturnOk.mono {ret : Returned} (h : s.ReturnOk lib call v ret)
    (hcells : ∀ (p : Nat) r, s.cells[p]? = some ⟨.call v, r⟩ →
      t.cells[p]? = some ⟨.call v, r⟩) : t.ReturnOk lib call v ret := by
  constructor
  · intro p hp
    obtain ⟨r, hr, hverdict⟩ := h.verdict p hp
    exact ⟨r, hcells p r hr, hverdict⟩
  · intro hmode herr
    rcases h.enforced hmode herr with hskip | ⟨p, r, hp, hr, hpassed⟩
    · exact .inl hskip
    · exact .inr ⟨p, r, hp, hcells p r hr, hpassed⟩

/-- The object at `p` is what the checks of run `f` computed. -/
def Computed (lib : Library) (s : VerifierState) (f p : Nat) (result : Result) : Prop :=
  s.cells[p]? = some ⟨.run f, result⟩ ∧
    ∃ args env ttl, s.closures f = some args ∧
      runChecks lib env args.state args.pol args.mode args.req = .ok (result, ttl)

structure Honest (lib : Library) (s : VerifierState) : Prop where
  runs : s.flights.RunsSatisfy (fun run => s.results run ≠ none)
  closed : ∀ f args, s.closures f = some args → f < s.flights.flights.length
  unfinished : ∀ (f : Nat) flight, s.flights.flights[f]? = some flight →
    flight.phase.outcome? = none → s.results f = none
  results : ∀ f p, s.results f = some p → ∃ result, s.Computed lib f p result
  copies : ∀ v p, s.working v = some p → ∃ f q result, s.results f = some q ∧
    s.Computed lib f q result ∧ s.cells[p]? = some ⟨.call v, result⟩
  returns : ∀ v ret, s.returned v = some ret →
    ∃ call, s.calls v = some call ∧ s.ReturnOk lib call v ret

/-- Call `v` returns; every object but its own is as before. -/
theorem Honest.returnsTo (h : s.Honest lib) {ret : Returned}
    (hothers : ∀ (q : Nat) cell, s.cells[q]? = some cell → cell.owner ≠ .call v →
      t.cells[q]? = some cell)
    (hflights : t.flights = s.flights) (hclosures : t.closures = s.closures)
    (hresults : t.results = s.results) (hcalls : t.calls = s.calls)
    (hworking : t.working = Function.update s.working v none)
    (hreturned : t.returned = Function.update s.returned v (some ret))
    (hcall : s.calls v = some call) (hok : t.ReturnOk lib call v ret) : t.Honest lib := by
  have hcomputed {f p : Nat} {result : Result} (hc : s.Computed lib f p result) :
      t.Computed lib f p result := by
    refine ⟨hothers p _ hc.1 (by simp), ?_⟩
    rw [hclosures]
    exact hc.2
  constructor
  · rw [hflights, hresults]
    exact h.runs
  · rw [hclosures, hflights]
    exact h.closed
  · rw [hflights, hresults]
    exact h.unfinished
  · intro f p hp
    rw [hresults] at hp
    obtain ⟨result, hc⟩ := h.results f p hp
    exact ⟨result, hcomputed hc⟩
  · intro w p hp
    rw [hworking] at hp
    by_cases hw : w = v
    · subst hw
      simp at hp
    · rw [Function.update_of_ne hw] at hp
      obtain ⟨f, q, result, hf, hc, hcell⟩ := h.copies w p hp
      refine ⟨f, q, result, by rw [hresults]; exact hf, hcomputed hc, hothers p _ hcell ?_⟩
      simpa using hw
  · intro w ret' hret
    rw [hreturned] at hret
    rw [hcalls]
    by_cases hw : w = v
    · subst hw
      rw [Function.update_self] at hret
      cases hret
      exact ⟨call, hcall, hok⟩
    · rw [Function.update_of_ne hw] at hret
      obtain ⟨call', hcall', hok'⟩ := h.returns w ret' hret
      exact ⟨call', hcall', hok'.mono (fun p r hr => hothers p _ hr (by simpa using hw))⟩

/-- Allocating an object nobody points to yet. -/
theorem Honest.alloc (h : s.Honest lib) (owner : Owner) (value : Result) :
    (s.alloc owner value).Honest lib := by
  have hcomputed {f p : Nat} {result : Result} (hc : s.Computed lib f p result) :
      (s.alloc owner value).Computed lib f p result :=
    ⟨s.alloc_old _ _ hc.1, hc.2⟩
  refine ⟨h.runs, h.closed, h.unfinished, ?_, ?_, ?_⟩
  · intro f p hp
    obtain ⟨result, hc⟩ := h.results f p hp
    exact ⟨result, hcomputed hc⟩
  · intro w p hp
    obtain ⟨f, q, result, hf, hc, hcell⟩ := h.copies w p hp
    exact ⟨f, q, result, hf, hcomputed hc, s.alloc_old _ _ hcell⟩
  · intro w ret hret
    obtain ⟨call, hcall, hok⟩ := h.returns w ret hret
    exact ⟨call, hcall, hok.mono (fun _ _ hr => s.alloc_old _ _ hr)⟩

variable {value : Result}

/-- A call returns a new object. -/
theorem Honest.returnsNew (h : s.Honest lib)
    (hcall : s.calls v = some call) (hverdict : Verdict value)
    (henforced : effectiveMode lib call.state call.req = .enforce →
      Skipped lib call.state call.req) :
    ((s.alloc (.call v) value).return_ v (some s.cells.length) none).Honest lib := by
  refine h.returnsTo (fun q cell hq _ => s.alloc_old _ _ hq) rfl rfl rfl rfl rfl rfl hcall ?_
  constructor
  · rintro _ ⟨⟩
    exact ⟨value, s.alloc_new _ _, hverdict⟩
  · intro hmode _
    exact .inl (henforced hmode)

/-- A call returns an error and no result. -/
theorem Honest.returnsError (h : s.Honest lib) (hcall : s.calls v = some call) (err : GoError) :
    (s.return_ v none (some err)).Honest lib := by
  refine h.returnsTo (fun q cell hq _ => hq) rfl rfl rfl rfl rfl rfl hcall ?_
  constructor
  · intro p hp
    cases hp
  · intro _ herr
    cases herr

variable {p : Nat}

/-- Applying the mode to the copy of a call. -/
theorem Honest.applyEnforcement (h : s.Honest lib) (hcall : s.calls v = some call)
    (hcell : s.cells[p]? = some ⟨.call v, value⟩) (hsound : Sound value) (imageRef : String) :
    (s.applyEnforcement v p value (effectiveMode lib call.state call.req) imageRef).Honest lib := by
  let outcome := recordOutcome (effectiveMode lib call.state call.req) value
  have hown : (s.write p outcome).cells[p]? = some ⟨.call v, outcome⟩ := s.write_same _ hcell
  have hothers (q : Nat) (cell : Cell) (hq : s.cells[q]? = some cell)
      (howner : cell.owner ≠ .call v) : (s.write p outcome).cells[q]? = some cell := by
    rw [s.write_other outcome]
    · exact hq
    · rintro rfl
      cases hcell.symm.trans hq
      exact howner rfl
  have hverdict := verdict_recordOutcome (effectiveMode lib call.state call.req) value
  unfold VerifierState.applyEnforcement
  dsimp only
  split
  · next hallowed =>
    refine h.returnsTo hothers rfl rfl rfl rfl rfl rfl hcall ⟨?_, ?_⟩
    · rintro _ ⟨⟩
      exact ⟨outcome, hown, hverdict⟩
    · intro _ _
      refine .inr ⟨p, outcome, rfl, hown, ?_⟩
      have hpassed : (!value.hasFailedCheck) = true := hsound.symm.trans hallowed
      change value.hasFailedCheck = false
      simpa using hpassed
  · next hdenied =>
    split
    · refine h.returnsTo hothers rfl rfl rfl rfl rfl rfl hcall ⟨?_, ?_⟩
      · rintro _ ⟨⟩
        exact ⟨outcome, hown, hverdict⟩
      · intro _ herr
        cases herr
    · next hmode =>
      refine h.returnsTo (fun q cell hq howner => alloc_old _ _ _ (hothers q cell hq howner))
        rfl rfl rfl rfl rfl rfl hcall ⟨?_, ?_⟩
      · rintro _ ⟨⟩
        exact ⟨_, alloc_new _ _ _, verdict_admitted (by simpa using hdenied)⟩
      · intro henforce _
        exact absurd henforce hmode

variable {flights : FlightState}

theorem Honest.noResult (h : s.Honest lib) {op : FlightOp}
    (hflights : s.flights.step op = some flights) {n : Nat} {f : Flight}
    (hf : flights.flights[n]? = some f) (hnone : f.phase.outcome? = none) : s.results n = none := by
  cases hresult : s.results n with
  | none => rfl
  | some p =>
    obtain ⟨result, _, args, env, ttl, hargs, _⟩ := h.results n p hresult
    obtain ⟨f', hf', hnone'⟩ :=
      (FlightState.step_unfinished hflights).2 n f (h.closed n args hargs) hf hnone
    rw [h.unfinished n f' hf' hnone'] at hresult
    cases hresult

/-- A step of the flights alone. -/
theorem Honest.moveFlights (h : s.Honest lib) {op : FlightOp}
    (hop : ∀ n ttl choices, op ≠ .runDone n ttl choices)
    (hflights : s.flights.step op = some flights) : Honest lib { s with flights := flights } := by
  refine ⟨h.runs.step (fun n ttl choices hdone => absurd hdone (hop n ttl choices)) hflights,
    ?_, fun n f => h.noResult hflights, h.results, h.copies, ?_⟩
  · intro f args hargs
    exact Nat.lt_of_lt_of_le (h.closed f args hargs) (FlightState.step_unfinished hflights).1
  · intro w ret hret
    obtain ⟨call, hcall, hok⟩ := h.returns w ret hret
    exact ⟨call, hcall, hok.mono (fun _ _ hr => hr)⟩

/-- A new flight captures the arguments of the call that started it. -/
theorem Honest.capture (h : s.Honest lib) (hflights : s.flights.step (.doChan v) = some flights)
    (hnew : flights.flights.length ≠ s.flights.flights.length) (args : RunArgs) :
    Honest lib { s with
      flights := flights
      closures := Function.update s.closures s.flights.flights.length (some args) } := by
  have hmoved := h.moveFlights (by rintro _ _ _ ⟨⟩) hflights
  have hlength := (FlightState.step_unfinished hflights).1
  have hcomputed {f p : Nat} {result : Result} (hc : s.Computed lib f p result) :
      Computed lib { s with
        flights := flights
        closures := Function.update s.closures s.flights.flights.length (some args) }
        f p result := by
    obtain ⟨hcell, args', env, ttl, hargs, hrun⟩ := hc
    refine ⟨hcell, args', env, ttl, ?_, hrun⟩
    have hf := h.closed f args' hargs
    change Function.update s.closures s.flights.flights.length (some args) f = some args'
    rw [Function.update_of_ne (by omega)]
    exact hargs
  refine ⟨hmoved.runs, ?_, hmoved.unfinished, ?_, ?_, ?_⟩
  · intro f args' hargs
    by_cases hf : f = s.flights.flights.length
    · subst hf
      change s.flights.flights.length < flights.flights.length
      omega
    · exact hmoved.closed f args' (by simpa [Function.update_of_ne hf] using hargs)
  · intro f p hp
    obtain ⟨result, hc⟩ := h.results f p hp
    exact ⟨result, hcomputed hc⟩
  · intro w p hp
    obtain ⟨f, q, result, hf, hc, hcell⟩ := h.copies w p hp
    exact ⟨f, q, result, hf, hcomputed hc, hcell⟩
  · intro w ret hret
    obtain ⟨call, hcall, hok⟩ := h.returns w ret hret
    exact ⟨call, hcall, hok.mono (fun _ _ hr => hr)⟩

theorem Honest.start (h : s.Honest lib) {state : Snapshot} {req : VerifyRequest}
    (hcall : s.calls v = some ⟨state, req⟩) (hstart : s.start lib v state req = some t) :
    t.Honest lib := by
  unfold VerifierState.start at hstart
  split at hstart
  · next mode reason hdecide =>
    cases hstart
    exact h.returnsNew hcall (verdict_skipResult mode reason)
      (fun _ => skipped_of_decideRequest hdecide)
  · next hdecide =>
    cases hstart
    rw [← effectiveMode_of_missingPolicy hdecide]
    have hold : (s.alloc (.call v) (missingPolicyResult req.nameSpace)).calls v =
        some ⟨state, req⟩ := hcall
    exact (h.alloc _ _).applyEnforcement hold (s.alloc_new _ _)
      (sound_missingPolicyResult _) _
  · cases hstart
    exact h.returnsError hcall _
  · next args ruleIdx hdecide =>
    obtain ⟨flights, hflights, rfl⟩ := Option.map_eq_some_iff.mp hstart
    exact h.moveFlights (by rintro _ _ _ ⟨⟩) hflights

theorem Honest.register (h : s.Honest lib) (hnone : s.calls v = none) (call : Call) :
    Honest lib { s with calls := Function.update s.calls v (some call) } := by
  refine ⟨h.runs, h.closed, h.unfinished, h.results, h.copies, ?_⟩
  intro w ret hret
  obtain ⟨call', hcall, hok⟩ := h.returns w ret hret
  refine ⟨call', ?_, hok.mono (fun _ _ hr => hr)⟩
  have hw : w ≠ v := by
    rintro rfl
    rw [hnone] at hcall
    cases hcall
  simpa [Function.update_of_ne hw] using hcall

variable {f : Nat}

/-- A run that finishes had no result before. -/
theorem Honest.ne_of_running (h : s.Honest lib) {g : Nat} {ttl : Int} {choices : SetChoices}
    (hflights : s.flights.step (.runDone f ttl choices) = some flights)
    (hg : s.results g = some p) : g ≠ f := by
  rintro rfl
  cases FlightState.Transition.of_step hflights with
  | runDone hf hrunning =>
    rw [h.unfinished g _ hf (by rw [hrunning]; rfl)] at hg
    cases hg

/-- A run that has finished its checks hands out the object with the result. -/
theorem Honest.finishRun (h : s.Honest lib) {args : RunArgs} {env : Environment} {result : Result}
    {ttl : Int} {choices : SetChoices} (hargs : s.closures f = some args)
    (hrun : runChecks lib env args.state args.pol args.mode args.req = .ok (result, ttl))
    (hflights : s.flights.step (.runDone f ttl choices) = some flights) :
    Honest lib { s.alloc (.run f) result with
      flights := flights
      results := Function.update s.results f (some s.cells.length) } := by
  have hold := h.alloc (.run f) result
  have hfresh {g p : Nat} (hg : s.results g = some p) :
      Function.update s.results f (some s.cells.length) g = some p := by
    rw [Function.update_of_ne (h.ne_of_running hflights hg)]
    exact hg
  refine ⟨?_, ?_, ?_, ?_, ?_, ?_⟩
  · refine (h.runs.mono ?_).step ?_ hflights
    · intro run hrun
      obtain ⟨p, hp⟩ := Option.ne_none_iff_exists'.mp hrun
      simp [hfresh hp]
    · rintro _ _ _ ⟨⟩
      simp
  · intro g args' hargs'
    exact Nat.lt_of_lt_of_le (h.closed g args' hargs') (FlightState.step_unfinished hflights).1
  · intro n g hg hnone
    have hnf : n ≠ f := by
      rintro rfl
      cases FlightState.Transition.of_step hflights with
      | runDone hf hrunning =>
        rw [FlightState.setPhase_flights, if_pos rfl, hf] at hg
        cases hg
        cases hnone
    change Function.update s.results f (some s.cells.length) n = none
    rw [Function.update_of_ne hnf]
    exact h.noResult hflights hg hnone
  · intro g p hp
    change Function.update s.results f (some s.cells.length) g = some p at hp
    by_cases hgf : g = f
    · subst hgf
      rw [Function.update_self] at hp
      cases hp
      exact ⟨result, s.alloc_new _ _, args, env, ttl, hargs, hrun⟩
    · rw [Function.update_of_ne hgf] at hp
      exact hold.results g p hp
  · intro w p hp
    obtain ⟨g, q, shared, hg, hc, hcell⟩ := hold.copies w p hp
    exact ⟨g, q, shared, hfresh hg, hc, hcell⟩
  · intro w ret hret
    obtain ⟨call, hcall, hok⟩ := hold.returns w ret hret
    exact ⟨call, hcall, hok.mono (fun _ _ hr => hr)⟩

/-- A call copies the result of a run. -/
theorem Honest.clone (h : s.Honest lib) {result : Result} (hresult : s.results f = some p)
    (hcomputed : s.Computed lib f p result) :
    Honest lib { s.alloc (.call v) result with
      working := Function.update s.working v (some s.cells.length) } := by
  have hold := h.alloc (.call v) result
  refine ⟨hold.runs, hold.closed, hold.unfinished, hold.results, ?_, ?_⟩
  · intro w q hq
    change Function.update s.working v (some s.cells.length) w = some q at hq
    by_cases hw : w = v
    · subst hw
      rw [Function.update_self] at hq
      cases hq
      exact ⟨f, p, result, hresult, ⟨s.alloc_old _ _ hcomputed.1, hcomputed.2⟩, s.alloc_new _ _⟩
    · rw [Function.update_of_ne hw] at hq
      exact hold.copies w q hq
  · intro w ret hret
    obtain ⟨call, hcall, hok⟩ := hold.returns w ret hret
    exact ⟨call, hcall, hok.mono (fun _ _ hr => hr)⟩

theorem Honest.handleVerifyError (h : s.Honest lib) (hcall : s.calls v = some call)
    (err : GoError) :
    (s.handleVerifyError v (effectiveMode lib call.state call.req) err).Honest lib := by
  unfold VerifierState.handleVerifyError
  split
  · next hmode =>
    exact h.returnsNew hcall (verdict_verifyErrorResult _ err) (fun henforce =>
      absurd henforce hmode)
  · exact h.returnsError hcall _

theorem value_eq_some {r : Result} (h : s.value p = some r) :
    ∃ owner, s.cells[p]? = some ⟨owner, r⟩ := by
  obtain ⟨⟨owner, _⟩, hcell, rfl⟩ := Option.map_eq_some_iff.mp h
  exact ⟨owner, hcell⟩

/-- The results of runs in `s` are still there in `t`, as they were. -/
def Keeps (s t : VerifierState) : Prop :=
  ∀ f p r, s.results f = some p → s.cells[p]? = some ⟨.run f, r⟩ →
    t.results f = some p ∧ t.cells[p]? = some ⟨.run f, r⟩

theorem keeps_of_cells (hresults : t.results = s.results)
    (hcells : ∀ (p : Nat) f r, s.cells[p]? = some ⟨.run f, r⟩ →
      t.cells[p]? = some ⟨.run f, r⟩) : s.Keeps t := by
  intro f p r hp hr
  rw [hresults]
  exact ⟨hp, hcells p f r hr⟩

theorem keeps_alloc {owner : Owner} (hresults : t.results = s.results)
    (hcells : t.cells = (s.alloc owner value).cells) : s.Keeps t := by
  apply keeps_of_cells hresults
  intro p f r hr
  rw [hcells]
  exact s.alloc_old owner value hr

/-- The mode is applied to an object of the call, never to one of a run. -/
theorem keeps_applyEnforcement (hcell : s.cells[p]? = some ⟨.call v, value⟩)
    (mode : VerificationMode) (imageRef : String) :
    s.Keeps (s.applyEnforcement v p value mode imageRef) := by
  have hwrite (q f : Nat) (r : Result) (hr : s.cells[q]? = some ⟨.run f, r⟩) :
      (s.write p (recordOutcome mode value)).cells[q]? = some ⟨.run f, r⟩ := by
    rw [s.write_other]
    · exact hr
    · rintro rfl
      cases hcell.symm.trans hr
  unfold VerifierState.applyEnforcement
  dsimp only
  split
  · exact keeps_of_cells rfl hwrite
  · split
    · exact keeps_of_cells rfl hwrite
    · exact keeps_of_cells rfl (fun q f r hr => alloc_old _ _ _ (hwrite q f r hr))

theorem keeps_start {state : Snapshot} {req : VerifyRequest}
    (hstart : s.start lib v state req = some t) : s.Keeps t := by
  unfold VerifierState.start at hstart
  split at hstart
  · cases hstart
    exact keeps_alloc rfl rfl
  · cases hstart
    intro f p r hp hr
    exact keeps_applyEnforcement (s.alloc_new _ _) _ _ f p r hp (s.alloc_old _ _ hr)
  · cases hstart
    exact keeps_of_cells rfl (fun _ _ _ hr => hr)
  · obtain ⟨flights, _, rfl⟩ := Option.map_eq_some_iff.mp hstart
    exact keeps_of_cells rfl (fun _ _ _ hr => hr)

/-- A step keeps the invariant, and it touches no result of a run that has finished. -/
theorem step_honest {op : VerifierOp} (h : s.Honest lib) (hstep : s.step lib op = some t) :
    t.Honest lib ∧ s.Keeps t := by
  have hsame {t : VerifierState} (hresults : t.results = s.results) (hcells : t.cells = s.cells) :
      s.Keeps t := keeps_of_cells hresults fun _ _ _ hr => hcells ▸ hr
  cases op with
  | verify v state req =>
    simp only [step] at hstep
    cases hv : s.calls v with
    | some call => simp [hv] at hstep
    | none =>
      simp only [hv] at hstep
      refine ⟨(h.register hv ⟨state, req⟩).start (by simp) hstep, ?_⟩
      intro f p r hp hr
      exact keeps_start hstep f p r hp hr
  | flight op =>
    simp only [step] at hstep
    split at hstep
    · next hop =>
      obtain ⟨flights, hflights, rfl⟩ := Option.map_eq_some_iff.mp hstep
      refine ⟨h.moveFlights ?_ hflights, hsame rfl rfl⟩
      rintro _ _ _ rfl
      cases hop
    · cases hstep
  | doChan v =>
    simp only [step] at hstep
    split at hstep
    · cases hstep
    · next args hargs =>
      obtain ⟨flights, hflights, rfl⟩ := Option.map_eq_some_iff.mp hstep
      refine ⟨?_, hsame rfl rfl⟩
      split
      · exact h.moveFlights (by rintro _ _ _ ⟨⟩) hflights
      · next hnew => exact h.capture hflights hnew args
  | run f env choices =>
    simp only [step] at hstep
    split at hstep
    · cases hstep
    · next args hargs =>
      split at hstep
      · obtain ⟨flights, hflights, rfl⟩ := Option.map_eq_some_iff.mp hstep
        exact ⟨h.moveFlights (by rintro _ _ _ ⟨⟩) hflights, hsame rfl rfl⟩
      · next result ttl hrun =>
        obtain ⟨flights, hflights, rfl⟩ := Option.map_eq_some_iff.mp hstep
        refine ⟨h.finishRun hargs hrun hflights, ?_⟩
        intro g p r hp hr
        refine ⟨?_, s.alloc_old _ _ hr⟩
        rw [← hp]
        exact Function.update_of_ne (h.ne_of_running hflights hp) _ _
  | clone v =>
    simp only [step] at hstep
    split at hstep
    · next run hv hworking hreturned =>
      obtain ⟨shared, hshared, rfl⟩ := Option.map_eq_some_iff.mp hstep
      obtain ⟨p, hp, hvalue⟩ := Option.bind_eq_some_iff.mp hshared
      obtain ⟨result, hcomputed⟩ := h.results run p hp
      obtain ⟨owner, hcell⟩ := value_eq_some hvalue
      cases hcomputed.1.symm.trans hcell
      exact ⟨h.clone hp hcomputed, keeps_alloc rfl rfl⟩
    · cases hstep
  | applyMode v =>
    simp only [step] at hstep
    split at hstep
    · next args p hargs hworking =>
      obtain ⟨value, hvalue, rfl⟩ := Option.map_eq_some_iff.mp hstep
      obtain ⟨call, hcall, hcallArgs⟩ := Option.bind_eq_some_iff.mp hargs
      obtain ⟨f, q, result, _, ⟨_, args', env, ttl, _, hrun⟩, hcell⟩ := h.copies v p hworking
      obtain ⟨owner, hcell'⟩ := value_eq_some hvalue
      cases hcell.symm.trans hcell'
      rw [Call.mode_of_args hcallArgs]
      exact ⟨h.applyEnforcement hcall hcell (sound_runChecks hrun) _,
        keeps_applyEnforcement hcell _ _⟩
    · cases hstep
  | fail v err =>
    simp only [step] at hstep
    split at hstep
    · next args hargs hv hreturned =>
      cases hstep
      obtain ⟨call, hcall, hcallArgs⟩ := Option.bind_eq_some_iff.mp hargs
      rw [Call.mode_of_args hcallArgs]
      refine ⟨h.handleVerifyError hcall err, ?_⟩
      unfold VerifierState.handleVerifyError
      split
      · exact keeps_alloc rfl rfl
      · exact hsame rfl rfl
    · cases hstep

theorem initial_honest (lib : Library) (h : (verifierMachine lib).initial s) : s.Honest lib := by
  obtain ⟨hflights, hs⟩ := h
  rw [hs]
  refine ⟨FlightState.initial_runsSatisfy _ hflights, ?_, ?_, ?_, ?_, ?_⟩
  · rintro _ _ ⟨⟩
  · intro _ _ _ _
    rfl
  · rintro _ _ ⟨⟩
  · rintro _ _ ⟨⟩
  · rintro _ _ ⟨⟩

theorem reachable_honest (h : (verifierMachine lib).Reachable s) : s.Honest lib :=
  h.invariant (fun _ => initial_honest lib) fun _ _ _ hs hstep => (step_honest hs hstep).1

/-- No continuation of a run touches a result once its run has finished. -/
theorem exec_keeps (h : s.Honest lib) {ops : List VerifierOp}
    (hrun : (verifierMachine lib).exec s ops = some t) : s.Keeps t := by
  intro f p r hp hr
  have hkept : t.Honest lib ∧ t.results f = some p ∧ t.cells[p]? = some ⟨.run f, r⟩ := by
    refine Machine.exec_preserves (I := fun u => u.Honest lib ∧ u.results f = some p ∧
      u.cells[p]? = some ⟨.run f, r⟩) ?_ ⟨h, hp, hr⟩ hrun
    rintro u op w ⟨hu, hp, hr⟩ hstep
    obtain ⟨hw, hkeeps⟩ := step_honest hu hstep
    exact ⟨hw, hkeeps f p r hp hr⟩
  exact hkept.2

theorem value_of_cell {owner : Owner} {r : Result} (h : s.cells[p]? = some ⟨owner, r⟩) :
    s.value p = some r := by
  rw [value, h]
  rfl

end VerifierState

/-- In every reachable state: a call that returned a nil error in enforce mode
was skipped or has a result without a failed check; a returned result is marked
verified only if it is allowed, complete and without failed checks; the result of
every finished run, which is what the cache holds, is what the checks computed,
and no later step changes it; and a call applies its mode to a copy of such a
result. -/
theorem verify_upholds_mode {lib : Library} {s : VerifierState}
    (h : (verifierMachine lib).Reachable s) :
    (∀ v ret, s.returned v = some ret → ∃ call, s.calls v = some call ∧
      (effectiveMode lib call.state call.req = .enforce → ret.err = none →
        Skipped lib call.state call.req ∨
          ∃ p r, ret.result = some p ∧ s.value p = some r ∧ r.hasFailedCheck = false) ∧
      ∀ p, ret.result = some p → ∃ r, s.value p = some r ∧
        (r.verified = true →
          r.allowed = true ∧ r.hasFailedCheck = false ∧ r.incomplete = false)) ∧
    (∀ k e, s.flights.cache.entries.lookup k = some e → ∃ p, s.results e.result = some p) ∧
    (∀ f p, s.results f = some p → ∃ r, s.value p = some r ∧
      (∃ args env ttl, s.closures f = some args ∧
        runChecks lib env args.state args.pol args.mode args.req = .ok (r, ttl)) ∧
      ∀ ops t, (verifierMachine lib).exec s ops = some t →
        t.results f = some p ∧ t.value p = some r) ∧
    ∀ v p, s.working v = some p → ∃ f q r, s.results f = some q ∧ s.value q = some r ∧
      s.value p = some r := by
  have hs := VerifierState.reachable_honest h
  refine ⟨?_, ?_, ?_, ?_⟩
  · intro v ret hret
    obtain ⟨call, hcall, hok⟩ := hs.returns v ret hret
    refine ⟨call, hcall, ?_, ?_⟩
    · intro hmode herr
      rcases hok.enforced hmode herr with hskip | ⟨p, r, hp, hr, hpassed⟩
      · exact .inl hskip
      · exact .inr ⟨p, r, hp, VerifierState.value_of_cell hr, hpassed⟩
    · intro p hp
      obtain ⟨r, hr, hverdict⟩ := hok.verdict p hp
      refine ⟨r, VerifierState.value_of_cell hr, ?_⟩
      intro hverified
      exact ⟨hverdict.allowed hverified, hverdict.passed hverified, hverdict.complete hverified⟩
  · intro k e he
    exact Option.ne_none_iff_exists'.mp (hs.runs.cached k e he)
  · intro f p hp
    obtain ⟨r, hr, hcomputed⟩ := hs.results f p hp
    refine ⟨r, VerifierState.value_of_cell hr, hcomputed, ?_⟩
    intro ops t hrun
    obtain ⟨hkept, hcell⟩ := VerifierState.exec_keeps hs hrun f p r hp hr
    exact ⟨hkept, VerifierState.value_of_cell hcell⟩
  · intro v p hp
    obtain ⟨f, q, r, hq, hcomputed, hcell⟩ := hs.copies v p hp
    exact ⟨f, q, r, hq, VerifierState.value_of_cell hcomputed.1, VerifierState.value_of_cell hcell⟩

/-- Verification in the given mode that denies images whose fetch failed. -/
def strictSnapshot (mode : VerificationMode) : Snapshot where
  config := ⟨mode, .deny, true, .warn, 30, 300, 60, 0⟩
  policies := [("", permissivePolicy)]
  allowlistDigests := []
  hasFetcher := true

/-- The registry cannot be reached: the first call runs the checks in enforce
mode and is denied, a later one in warn mode is served the same cached result. -/
def deniedRun : List VerifierOp :=
  [.verify 0 (strictSnapshot .enforce) multiArchRequest, .flight (.get 0 0), .flight (.readEpoch 0),
    .doChan 0, .flight (.flightGet 0 0),
    .run 0 (answeringEnvironment ⟨[], some unavailableError⟩ ⟨[], some unavailableError⟩) ⟨0, 0, 0⟩,
    .flight (.deliver 0), .flight (.receive 0), .clone 0, .applyMode 0,
    .verify 1 (strictSnapshot .warn) multiArchRequest, .flight (.get 1 0), .clone 1]

def emptyVerifier : VerifierState :=
  ⟨⟨Cache.new 8, 0, fun _ => none, [], fun _ => .idle, [], 0⟩, [], fun _ => none, fun _ => none,
    fun _ => none, fun _ => none, fun _ => none⟩

/-- In `deniedRun` the second call starts from the result of the run, not from
the one marked with the mode of the first call. -/
theorem later_mode_starts_unmodified :
    ∃ s, (verifierMachine plainLibrary).exec emptyVerifier deniedRun = some s ∧
      s.working 1 = some 2 ∧
      ∃ f q r, s.results f = some q ∧ s.value q = some r ∧ s.value 2 = some r := by
  refine ⟨_, rfl, rfl, ?_⟩
  have hreachable : (verifierMachine plainLibrary).Reachable _ :=
    Machine.Reachable.exec (.start ⟨⟨8, 0, rfl⟩, rfl⟩)
      (rfl : (verifierMachine plainLibrary).exec emptyVerifier deniedRun = _)
  exact (verify_upholds_mode hreachable).2.2.2 1 2 rfl

end NriSupplyChain.Verifier
