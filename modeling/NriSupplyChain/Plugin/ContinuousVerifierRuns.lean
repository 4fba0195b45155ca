import NriSupplyChain.Plugin.ContinuousVerifier

/-!
What the continuous verifier can do to the state of a container, in any
interleaving. Every change of the state is one of five kinds (`Change`); a throttle
on its way to the runtime keeps the container degraded (`Sound`), because nothing
but the cycle that sent it takes a degraded container out of that state.
-/

namespace NriSupplyChain.Plugin

open Lib

namespace ContainerState

/-- The states a re-verification with a result can lead to. -/
theorem applyStateTransition_state (p : Percents) (degraded permitted : Bool)
    (c : ContainerState) :
    let d := (c.applyStateTransition p degraded permitted).1
    d.state = c.state ∨
      ((c.state = .verified ∨ c.state = .skipped) ∧ d.state = .degraded) ∨
      ((c.state ≠ .throttled ∨ c.hasTrustedOriginals = false) ∧ d.state = .verified) := by
  unfold applyStateTransition
  split
  all_goals try split
  all_goals simp_all

theorem releaseThrottled_update {c : ContainerState} {u : PendingUpdate}
    (h : c.releaseThrottled = some u) :
    ∃ original, c.originalResources = some original ∧
      u = ⟨buildRollbackUpdate original, .degraded⟩ := by
  obtain ⟨_, hmap⟩ := Option.ite_none_right_eq_some.mp h
  obtain ⟨original, horiginal, rfl⟩ := Option.map_eq_some_iff.mp hmap
  exact ⟨original, horiginal, rfl⟩

theorem recordResourceUpdate_state (p : Percents) (current : Option LinuxResources)
    (c : ContainerState) :
    (c.recordResourceUpdate p current).state = c.state ∨
      (c.state = .throttled ∧ (c.recordResourceUpdate p current).state = .degraded) := by
  unfold recordResourceUpdate
  split
  · exact .inl rfl
  · split
    · exact .inl rfl
    · by_cases hthrottled : c.state = .throttled <;> simp [hthrottled]

end ContainerState

theorem TrackedContainer.handleReverifyError_record (c : TrackedContainer) :
    c.handleReverifyError.record = c.record ∨
      (c.record.state = .verified ∨ c.record.state = .skipped) ∧
        c.handleReverifyError.record = { c.record with state := .degraded } ∧
        consecutiveErrorThreshold ≤ c.handleReverifyError.consecutiveErrors := by
  unfold handleReverifyError
  by_cases hdegrades : c.consecutiveErrors + 1 ≥ consecutiveErrorThreshold ∧
      (c.record.state = .verified ∨ c.record.state = .skipped)
  · right
    simp only [if_pos hdegrades]
    exact ⟨hdegrades.2, trivial, hdegrades.1⟩
  · left
    simp only [if_neg hdegrades]

theorem TrackedContainer.recordPrewarmResult_state (remediate verified current : Bool)
    (triggerHash : List Char) (c : TrackedContainer) :
    let d := c.recordPrewarmResult remediate verified current triggerHash
    d.record.state = c.record.state ∨
      (c.record.state = .verified ∧ d.record.state = .degraded) := by
  unfold recordPrewarmResult
  split
  · exact .inl rfl
  · split
    · exact .inl rfl
    · next hdegrades =>
      right
      simp only [Bool.or_eq_true, decide_eq_true_eq, not_or, not_not] at hdegrades
      exact ⟨hdegrades.2, rfl⟩

namespace VerifierState

@[simp] theorem setPhase_phase (s : VerifierState) (w : Worker) (phase : WorkerPhase) :
    (s.setPhase w phase).phase = Function.update s.phase w phase := rfl

@[grind =] theorem phase_setPhase (s : VerifierState) (w v : Worker) (phase : WorkerPhase) :
    (s.setPhase w phase).phase v = if v = w then phase else s.phase v :=
  Function.update_apply s.phase w phase v

@[grind =] theorem phase_answer (s : VerifierState) (w v : Worker) (f : Flight) (accepted : Bool) :
    (s.answer w f accepted).phase v =
      if v = w then if accepted then .accepted f else .idle else s.phase v :=
  Function.update_apply s.phase w _ v

@[grind =] theorem answered_answer (s : VerifierState) (w v : Worker) (f : Flight)
    (accepted : Bool) : (s.answer w f accepted).answered v =
      if v = w then some (f, accepted) else s.answered v :=
  Function.update_apply s.answered w _ v

/-- The change of a container's state in a step. Only the cycle takes it to verified
without an answer of the runtime, and it has nothing on its way then. -/
inductive Change (s : VerifierState) (e : VerifierEvent) (c d : TrackedContainer) : Prop where
  | keeps (h : d.record.state = c.record.state)
  | degrades (hfrom : c.record.state = .verified ∨ c.record.state = .skipped)
      (hto : d.record.state = .degraded)
  | recovers (hphase : (s.phase .cycle).flight = none)
      (hfrom : c.record.state ≠ .throttled ∨ c.record.hasTrustedOriginals = false)
      (hto : d.record.state = .verified)
  | resized (hfrom : c.record.state = .throttled) (hto : d.record.state = .degraded)
  | commits (w : Worker) (now : Int) (f : Flight) (hevent : e = .commit w now)
      (hphase : s.phase w = .accepted f) (hto : d.record.state = f.update.commit)

variable {e : VerifierEvent} {s t : VerifierState}

/-- A container that is tracked after a step was tracked before, and its state
changed in one of the known ways. -/
theorem step_change {d : TrackedContainer} (h : s.step e = some t) (hd : t.container = some d) :
    ∃ c, s.container = some c ∧ s.Change e c d := by
  cases hc : s.container with
  | none => cases e <;> grind [VerifierState.step, setPhase, VerifierState.answer,
      reverified.eq_def, VerifierState.transition, updateState]
  | some c =>
    refine ⟨c, rfl, ?_⟩
    cases e with
    | reverified result err =>
      cases houtcome : reverifyOutcome result err <;> grind [VerifierState.step, setPhase,
        VerifierState.reverified, updateState, Change, TrackedContainer.handleReverifyError_record,
        TrackedContainer.recordIncompleteReverification, TrackedContainer.resetCounters]
    | _ => grind [VerifierState.step, setPhase, VerifierState.answer, VerifierState.transition,
        updateState, Change, WorkerPhase.flight, ContainerState.applyStateTransition_state,
        ContainerState.recordResourceUpdate_state, TrackedContainer.recordPrewarmResult_state,
        TrackedContainer.commit, TrackedContainer.recordResourceUpdate,
        TrackedContainer.applyStateTransition]

/-- What a worker has on its way after a step: what it had, or an update for the
container as it is recorded. -/
inductive FlightOrigin (s : VerifierState) (e : VerifierEvent) (t : VerifierState) (f : Flight) :
    Worker → Prop where
  | kept {w : Worker} (hflight : (s.phase w).flight = some f) (hevent : ∀ now, e ≠ .commit w now) :
      FlightOrigin s e t f w
  | throttle (c d : TrackedContainer) (original : LinuxResources) (hd : t.container = some d)
      (hrecord : d.record = c.record) (hstate : c.record.state = .degraded)
      (hbuilt : f.update = ⟨buildThrottleUpdate s.percents original, .throttled⟩) :
      FlightOrigin s e t f .cycle
  | rollback (original : LinuxResources)
      (hbuilt : f.update = ⟨buildRollbackUpdate original, .verified⟩) :
      FlightOrigin s e t f .cycle
  | release (original : LinuxResources)
      (hbuilt : f.update = ⟨buildRollbackUpdate original, .degraded⟩) :
      FlightOrigin s e t f .release

variable {f : Flight} {w : Worker}

theorem setPhase_flight {v : Worker} {phase : WorkerPhase}
    (h : ((s.setPhase w phase).phase v).flight = some f) :
    (v = w ∧ phase.flight = some f) ∨ (v ≠ w ∧ (s.phase v).flight = some f) := by
  by_cases hv : v = w
  · subst hv
    rw [setPhase_phase, Function.update_self] at h
    exact .inl ⟨rfl, h⟩
  · rw [setPhase_phase, Function.update_of_ne hv] at h
    exact .inr ⟨hv, h⟩

theorem ofUpdate_flight {triggerHash : List Char} {pending : Option PendingUpdate}
    (h : (WorkerPhase.ofUpdate triggerHash pending).flight = some f) : pending = some f.update := by
  cases pending with
  | none => cases h
  | some update =>
    cases h
    rfl

theorem ofUpdate_ne_accepted (triggerHash : List Char) (pending : Option PendingUpdate)
    (f : Flight) : WorkerPhase.ofUpdate triggerHash pending ≠ .accepted f := by
  cases pending with
  | none => exact WorkerPhase.noConfusion
  | some update => exact WorkerPhase.noConfusion

/-- The step of a worker that keeps what it has on its way. -/
theorem FlightOrigin.of_setPhase {v : Worker} {phase : WorkerPhase}
    (ht : t.phase = (s.setPhase w phase).phase)
    (hphase : ∀ f, phase.flight = some f → (s.phase w).flight = some f)
    (hevent : ∀ u now, e = .commit u now → u = w ∧ phase.flight = none)
    (hf : (t.phase v).flight = some f) : FlightOrigin s e t f v := by
  rw [ht] at hf
  rcases setPhase_flight hf with ⟨rfl, hnew⟩ | ⟨hne, hold⟩
  · refine .kept (hphase f hnew) ?_
    intro now he
    rw [(hevent _ _ he).2] at hnew
    cases hnew
  · refine .kept hold ?_
    intro now he
    exact hne (hevent _ _ he).1

theorem step_flight (h : s.step e = some t) (hf : (t.phase w).flight = some f) :
    FlightOrigin s e t f w := by
  cases e with
  | transition triggerHash now =>
    simp only [step] at h
    split at h
    · next mode trigger degraded hphase =>
      cases h
      unfold VerifierState.transition at hf ⊢
      cases hc : s.container with
      | none =>
        simp only [hc] at hf
        exact .of_setPhase rfl (fun _ hf => by cases hf) (fun _ _ he => by cases he) hf
      | some c =>
        simp only [hc] at hf
        rcases setPhase_flight hf with ⟨rfl, hnew⟩ | ⟨_, hold⟩
        · have hupdate := ofUpdate_flight hnew
          obtain ⟨hrecord, original, -, ⟨-, -, hbuilt⟩ | ⟨-, hstate, hbuilt⟩⟩ :=
            ContainerState.applyStateTransition_pending hupdate
          · exact .rollback original hbuilt
          · exact .throttle c _ original rfl hrecord hstate hbuilt
        · exact .kept hold (fun _ he => by cases he)
    · cases h
  | release =>
    simp only [step] at h
    split at h
    · next c _ hc =>
      cases h
      rcases setPhase_flight hf with ⟨rfl, hnew⟩ | ⟨_, hold⟩
      · obtain ⟨original, _, hbuilt⟩ :=
          ContainerState.releaseThrottled_update (ofUpdate_flight hnew)
        exact .release original hbuilt
      · exact .kept hold (fun _ he => by cases he)
    · cases h
  | _ => grind [VerifierState.step, setPhase, VerifierState.answer, reverified.eq_def, updateState,
      FlightOrigin, WorkerPhase.flight]

/-- What holds between the steps: releases are sent by the release only, a container
stays degraded while its throttle is on the way, and a worker records an update only
after the runtime accepted it. -/
structure Sound (s : VerifierState) : Prop where
  built : ∀ w f, (s.phase w).flight = some f →
    (w = .cycle ∧ ∃ p original, f.update = ⟨buildThrottleUpdate p original, .throttled⟩) ∨
    (w = .cycle ∧ ∃ original, f.update = ⟨buildRollbackUpdate original, .verified⟩) ∨
    (w = .release ∧ ∃ original, f.update = ⟨buildRollbackUpdate original, .degraded⟩)
  throttling : ∀ w f c, (s.phase w).flight = some f → f.update.commit = .throttled →
    s.container = some c → c.record.state = .degraded
  answered : ∀ w f, s.phase w = .accepted f → s.answered w = some (f, true)

theorem Sound.cycle_of_throttle (h : s.Sound) (hf : (s.phase w).flight = some f)
    (hcommit : f.update.commit = .throttled) : w = .cycle := by
  rcases h.built w f hf with ⟨hw, _⟩ | ⟨hw, _⟩ | ⟨_, original, hbuilt⟩
  · exact hw
  · exact hw
  · rw [hbuilt] at hcommit
    cases hcommit

/-- A release leaves the container degraded. -/
theorem Sound.release_commit (h : s.Sound) (hf : (s.phase .release).flight = some f) :
    f.update.commit = .degraded := by
  rcases h.built .release f hf with ⟨hw, _⟩ | ⟨hw, _⟩ | ⟨_, original, hbuilt⟩
  · cases hw
  · cases hw
  · rw [hbuilt]

theorem Sound.step_built (hs : s.Sound) (h : s.step e = some t) (w : Worker) (f : Flight)
    (hf : (t.phase w).flight = some f) :
    (w = .cycle ∧ ∃ p original, f.update = ⟨buildThrottleUpdate p original, .throttled⟩) ∨
    (w = .cycle ∧ ∃ original, f.update = ⟨buildRollbackUpdate original, .verified⟩) ∨
    (w = .release ∧ ∃ original, f.update = ⟨buildRollbackUpdate original, .degraded⟩) := by
  cases step_flight h hf with
  | kept hflight _ => exact hs.built w f hflight
  | throttle c d original _ _ _ hbuilt => exact .inl ⟨rfl, s.percents, original, hbuilt⟩
  | rollback original hbuilt => exact .inr (.inl ⟨rfl, original, hbuilt⟩)
  | release original hbuilt => exact .inr (.inr ⟨rfl, original, hbuilt⟩)

/-- No step of another party takes the container out of the degraded state. -/
theorem Sound.step_throttling (hs : s.Sound) (h : s.step e = some t) (w : Worker) (f : Flight)
    (d : TrackedContainer) (hf : (t.phase w).flight = some f)
    (hcommit : f.update.commit = .throttled) (hd : t.container = some d) :
    d.record.state = .degraded := by
  cases step_flight h hf with
  | throttle c d' original hd' hrecord hstate _ =>
    cases hd.symm.trans hd'
    rw [hrecord, hstate]
  | rollback original hbuilt =>
    rw [hbuilt] at hcommit
    cases hcommit
  | release original hbuilt =>
    rw [hbuilt] at hcommit
    cases hcommit
  | kept hflight hevent =>
    obtain ⟨c, hc, hchange⟩ := step_change h hd
    have hdegraded := hs.throttling w f c hflight hcommit hc
    have hw := hs.cycle_of_throttle hflight hcommit
    cases hchange with
    | keeps hsame => rw [hsame, hdegraded]
    | degrades _ hto => exact hto
    | resized _ hto => exact hto
    | recovers hphase _ _ =>
      rw [hw, hphase] at hflight
      cases hflight
    | commits v now g he hphase hto =>
      -- the other worker is the release, which leaves it degraded
      cases v with
      | cycle => exact absurd (hw ▸ he) (hevent now)
      | release =>
        rw [hto]
        apply hs.release_commit
        rw [hphase]
        rfl

theorem Sound.step_answered (hs : s.Sound) (h : s.step e = some t) (w : Worker) (f : Flight)
    (hphase : t.phase w = .accepted f) : t.answered w = some (f, true) := by
  have hanswered := hs.answered w f
  cases e <;> grind [VerifierState.step, setPhase, VerifierState.answer, reverified.eq_def,
    VerifierState.transition, updateState, ofUpdate_ne_accepted]

theorem Sound.step (hs : s.Sound) (h : s.step e = some t) : t.Sound :=
  ⟨hs.step_built h, hs.step_throttling h, hs.step_answered h⟩

theorem sound_of_initial (h : verifierMachine.initial s) : s.Sound := by
  obtain ⟨mode, cfg, c, live, _, rfl⟩ := h
  constructor
  · intro w f hf
    cases hf
  · intro w f c' hf
    cases hf
  · intro w f hphase
    cases hphase

theorem sound_of_run {events : List VerifierEvent} (hinit : verifierMachine.initial s)
    (hrun : verifierMachine.exec s events = some t) : t.Sound :=
  Machine.exec_preserves (fun _ _ _ hs h => hs.step h) (sound_of_initial hinit) hrun

end VerifierState

/-- The re-verifications that erred since the last one with a complete result, when
there were `n` before; incomplete ones do not count. -/
def errorsSinceResult (n : Nat) : List VerifierEvent → Nat
  | [] => n
  | .reverified result err :: rest =>
    match reverifyOutcome result err with
    | .error => errorsSinceResult (n + 1) rest
    | .incomplete => errorsSinceResult n rest
    | .complete _ => errorsSinceResult 0 rest
  | _ :: rest => errorsSinceResult n rest

namespace VerifierState

variable {d : TrackedContainer} {s t : VerifierState}

/-- The error counter counts one event like the history does. -/
theorem step_consecutiveErrors {e : VerifierEvent} {c : TrackedContainer} (h : s.step e = some t)
    (hc : s.container = some c) (hd : t.container = some d) :
    d.consecutiveErrors = errorsSinceResult c.consecutiveErrors [e] := by
  cases e <;> grind [VerifierState.step, setPhase, VerifierState.answer, reverified.eq_def,
    VerifierState.transition, updateState, errorsSinceResult, TrackedContainer.handleReverifyError,
    TrackedContainer.recordIncompleteReverification, TrackedContainer.resetCounters,
    TrackedContainer.recordPrewarmResult, TrackedContainer.recordResourceUpdate,
    TrackedContainer.commit, TrackedContainer.applyStateTransition]

variable {events : List VerifierEvent}

/-- A container that was removed does not come back. -/
theorem exec_tracked (h : verifierMachine.exec s events = some t) (hd : t.container = some d) :
    ∃ c, s.container = some c := by
  induction events generalizing s with
  | nil =>
    cases h
    exact ⟨d, hd⟩
  | cons e rest ih =>
    obtain ⟨u, hu, hrest⟩ := Option.bind_eq_some_iff.mp h
    obtain ⟨x, hx⟩ := ih hrest
    obtain ⟨c, hc, _⟩ := step_change hu hx
    exact ⟨c, hc⟩

theorem errorsSinceResult_cons (n : Nat) (e : VerifierEvent) (rest : List VerifierEvent) :
    errorsSinceResult n (e :: rest) = errorsSinceResult (errorsSinceResult n [e]) rest := by
  cases e with
  | reverified result err =>
    simp only [errorsSinceResult]
    cases reverifyOutcome result err <;> rfl
  | _ => rfl

theorem exec_consecutiveErrors {c : TrackedContainer} (h : verifierMachine.exec s events = some t)
    (hc : s.container = some c) (hd : t.container = some d) :
    d.consecutiveErrors = errorsSinceResult c.consecutiveErrors events := by
  induction events generalizing s c with
  | nil =>
    cases h
    cases hc.symm.trans hd
    rfl
  | cons e rest ih =>
    obtain ⟨u, hu, hrest⟩ := Option.bind_eq_some_iff.mp h
    obtain ⟨x, hx⟩ := exec_tracked hrest hd
    rw [ih hrest hx, step_consecutiveErrors hu hc hx, ← errorsSinceResult_cons]

theorem run_consecutiveErrors (hinit : verifierMachine.initial s)
    (h : verifierMachine.exec s events = some t) (hd : t.container = some d) :
    d.consecutiveErrors = errorsSinceResult 0 events := by
  obtain ⟨mode, cfg, c, live, hc, rfl⟩ := hinit
  have hcount : d.consecutiveErrors = errorsSinceResult c.consecutiveErrors events :=
    exec_consecutiveErrors h rfl hd
  cases hc <;> exact hcount

end VerifierState

/-- What a step after the history `events` may do to a tracked container: `c` before
it and `d` after it. -/
structure StepSafe (events : List VerifierEvent) (s : VerifierState) (e : VerifierEvent)
    (t : VerifierState) (c d : TrackedContainer) : Prop where
  enters : c.record.state ≠ .throttled → d.record.state = .throttled →
    c.record.state = .degraded ∧ ∃ w now f p original, e = .commit w now ∧
      s.answered w = some (f, true) ∧
      f.update = ⟨buildThrottleUpdate p original, .throttled⟩
  leaves : c.record.state = .throttled → d.record.state = .verified →
    c.record.hasTrustedOriginals = false ∨ ∃ w now f original, e = .commit w now ∧
      s.answered w = some (f, true) ∧
      f.update = ⟨buildRollbackUpdate original, .verified⟩
  rejected : ∀ w, e = .answer w false → d = c ∧ t.live = s.live
  incomplete : ∀ result err, e = .reverified result err →
    reverifyOutcome result err = .incomplete →
    d.record = c.record ∧ t.live = s.live ∧ (t.phase .cycle).flight = none
  erroring : ∀ result err, e = .reverified result err → reverifyOutcome result err = .error →
    (d.record = c.record ∨
      (c.record.state = .verified ∨ c.record.state = .skipped) ∧
        d.record = { c.record with state := .degraded } ∧
        consecutiveErrorThreshold ≤ errorsSinceResult 0 (events ++ [e])) ∧
    t.live = s.live ∧ (t.phase .cycle).flight = none

namespace VerifierState

theorem step_reverified {s t : VerifierState} {result : Option ReverifyResult}
    {err : Option VerifyError} (h : s.step (.reverified result err) = some t) :
    ∃ mode trigger, t = s.reverified mode trigger (reverifyOutcome result err) := by
  simp only [step] at h
  split at h
  · next mode trigger _ =>
    cases h
    exact ⟨mode, trigger, rfl⟩
  · cases h

theorem step_rejected {s t : VerifierState} {w : Worker} {c d : TrackedContainer}
    (h : s.step (.answer w false) = some t) (hc : s.container = some c)
    (hd : t.container = some d) : d = c ∧ t.live = s.live := by
  simp only [step] at h
  split at h
  · cases h
    exact ⟨(Option.some.inj (hc.symm.trans hd)).symm, rfl⟩
  · cases h

end VerifierState

/-- In every run the continuous verifier throttles a degraded container only, once the
runtime has accepted the throttle; it takes a throttled one back to verified once
the runtime has accepted the rollback or when there is nothing trusted to roll back
to; a rejected update and an incomplete re-verification change nothing; and an error
at most degrades the container, at the third one without a complete result in
between. -/
theorem remediation_steps_safe {s₀ s t : VerifierState} {events : List VerifierEvent}
    {e : VerifierEvent} {c d : TrackedContainer} (hinit : verifierMachine.initial s₀)
    (hrun : verifierMachine.exec s₀ events = some s) (hstep : s.step e = some t)
    (hc : s.container = some c) (hd : t.container = some d) : StepSafe events s e t c d := by
  have hsound := VerifierState.sound_of_run hinit hrun
  obtain ⟨c', hc', hchange⟩ := VerifierState.step_change hstep hd
  cases hc.symm.trans hc'
  constructor
  · intro hne hthrottled
    cases hchange with
    | keeps hsame => exact absurd (hsame ▸ hthrottled) hne
    | degrades _ hto | recovers _ _ hto | resized _ hto => cases hto.symm.trans hthrottled
    | commits w now f he hphase hto =>
      have hflight : (s.phase w).flight = some f := by rw [hphase]; rfl
      have hcommit : f.update.commit = .throttled := hto.symm.trans hthrottled
      refine ⟨hsound.throttling w f c hflight hcommit hc, w, now, f, ?_⟩
      rcases hsound.built w f hflight with ⟨_, p, original, hbuilt⟩ | ⟨_, original, hbuilt⟩ |
        ⟨_, original, hbuilt⟩
      · exact ⟨p, original, he, hsound.answered w f hphase, hbuilt⟩
      · rw [hbuilt] at hcommit
        cases hcommit
      · rw [hbuilt] at hcommit
        cases hcommit
  · intro hthrottled hverified
    cases hchange with
    | keeps hsame => cases (hsame.trans hthrottled).symm.trans hverified
    | degrades _ hto | resized _ hto => cases hto.symm.trans hverified
    | recovers _ hfrom _ =>
      left
      exact hfrom.resolve_left (not_not.mpr hthrottled)
    | commits w now f he hphase hto =>
      right
      have hflight : (s.phase w).flight = some f := by rw [hphase]; rfl
      have hcommit : f.update.commit = .verified := hto.symm.trans hverified
      refine ⟨w, now, f, ?_⟩
      rcases hsound.built w f hflight with ⟨_, p, original, hbuilt⟩ | ⟨_, original, hbuilt⟩ |
        ⟨_, original, hbuilt⟩
      · rw [hbuilt] at hcommit
        cases hcommit
      · exact ⟨original, he, hsound.answered w f hphase, hbuilt⟩
      · rw [hbuilt] at hcommit
        cases hcommit
  · rintro w rfl
    exact VerifierState.step_rejected hstep hc hd
  · rintro result err rfl houtcome
    obtain ⟨mode, trigger, rfl⟩ := VerifierState.step_reverified hstep
    rw [houtcome] at hd ⊢
    obtain ⟨_, hc'', rfl⟩ := Option.map_eq_some_iff.mp hd
    cases hc.symm.trans hc''
    exact ⟨rfl, rfl, rfl⟩
  · rintro result err rfl houtcome
    have hrun' : verifierMachine.exec s₀ (events ++ [.reverified result err]) = some t :=
      Machine.exec_concat hrun hstep
    rw [← VerifierState.run_consecutiveErrors hinit hrun' hd]
    obtain ⟨mode, trigger, rfl⟩ := VerifierState.step_reverified hstep
    rw [houtcome] at hd ⊢
    obtain ⟨_, hc'', rfl⟩ := Option.map_eq_some_iff.mp hd
    cases hc.symm.trans hc''
    exact ⟨c.handleReverifyError_record, rfl, rfl⟩

/-- A container that was verified at admission, in throttle mode. -/
def watched : VerifierState :=
  ⟨.throttle, none, some ⟨⟨.verified, some (limited 100000 1024 536870912), false⟩,
    none, [], false, 0, 0⟩, (limited 100000 1024 536870912).limits, fun _ => .idle,
    fun _ => none⟩

/-- One cycle that ends without an update. -/
def cycle (result : Option ReverifyResult) (err : Option VerifyError) : List VerifierEvent :=
  [.startCycle .timer, .reverified result err]

/-- Two failing verifications; the runtime accepts the throttle of the second. -/
def throttleAccepted : List VerifierEvent :=
  cycle (some ⟨false, false⟩) (some .verificationFailed) ++ [.transition [] 0] ++
    cycle (some ⟨false, false⟩) (some .verificationFailed) ++ [.transition [] 0] ++
    [.send .cycle, .answer .cycle true]

theorem remediation_steps_safe_throttle :
    ∃ s t c d, verifierMachine.exec watched throttleAccepted = some s ∧
      s.step (.commit .cycle 0) = some t ∧ s.container = some c ∧ t.container = some d ∧
      c.record.state = .degraded ∧ d.record.state = .throttled ∧
      StepSafe throttleAccepted s (.commit .cycle 0) t c d := by
  have hinit : verifierMachine.initial watched := ⟨_, _, _, _, .verified _, rfl⟩
  exact ⟨_, _, _, _, rfl, rfl, rfl, rfl, rfl, rfl,
    remediation_steps_safe hinit rfl rfl rfl rfl⟩

/-- Errors need not be in a row: an incomplete re-verification between them is passed
over, and the third error degrades the container. -/
theorem interrupted_errors_degrade :
    ∃ s t c d, verifierMachine.exec watched
        (cycle none (some .other) ++ cycle none (some .other) ++
          cycle (some ⟨true, false⟩) none ++ [.startCycle .timer]) = some s ∧
      s.step (.reverified none (some .other)) = some t ∧
      s.container = some c ∧ t.container = some d ∧
      c.record.state = .verified ∧ d.record.state = .degraded := by
  exact ⟨_, _, _, _, rfl, rfl, rfl, rfl, rfl, rfl⟩

end NriSupplyChain.Plugin
