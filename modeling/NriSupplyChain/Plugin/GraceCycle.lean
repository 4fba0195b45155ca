import NriSupplyChain.Plugin.ContinuousVerifierRuns

/-!
The grace cycle: a container should be degraded for a whole cycle before it is throttled.

A cycle reads the state of the container again when it applies its result. What was degraded
then was degraded when the cycle started, or was degraded in between by a pre-warm result, a
reported resource update or a release.
-/

namespace NriSupplyChain.Plugin

open Lib

/-- A failing pre-warm result takes the container from verified to degraded. -/
def TrackedContainer.degradedByPrewarm (remediate verified current : Bool)
    (c : TrackedContainer) : Bool :=
  current && c.awaitingFirstResult && remediate && !verified && decide (c.record.state = .verified)

/-- A reported update that is not the throttle takes the container from throttled to degraded. -/
def ContainerState.degradedByUpdate (p : Percents) (current : Option LinuxResources)
    (c : ContainerState) : Bool :=
  decide (c.state = .throttled) && current.any fun current =>
    !(decide (some current = c.originalResources) ||
      c.originalResources.any fun original => looksThrottled p current original)

theorem TrackedContainer.recordPrewarmResult_degraded (remediate verified current : Bool)
    (triggerHash : List Char) (c : TrackedContainer) :
    (c.recordPrewarmResult remediate verified current triggerHash).record.state = .degraded ↔
      c.record.state = .degraded ∨ c.degradedByPrewarm remediate verified current = true := by
  unfold recordPrewarmResult degradedByPrewarm
  cases current with
  | false => simp
  | true =>
    cases c.awaitingFirstResult with
    | false => simp
    | true =>
      cases hstate : c.record.state <;> cases remediate <;> cases verified <;> simp [hstate]

theorem ContainerState.recordResourceUpdate_degraded (p : Percents)
    (current : Option LinuxResources) (c : ContainerState) :
    (c.recordResourceUpdate p current).state = .degraded ↔
      c.state = .degraded ∨ c.degradedByUpdate p current = true := by
  cases current with
  | none => simp [recordResourceUpdate, degradedByUpdate]
  | some current =>
    unfold recordResourceUpdate degradedByUpdate
    dsimp only
    split
    · next hkept =>
      rcases hkept with hsame | hlooks
      · simp [← hsame]
      · simp [hlooks]
    · next hnew =>
      obtain ⟨hother, hlooks⟩ := not_or.mp hnew
      simp only [Bool.not_eq_true] at hlooks
      cases hstate : c.state <;> simp [hother, hlooks]

/-- What is remembered of the cycle that started last. -/
structure CycleHistory where
  startedDegraded : Bool
  /-- Someone else degraded the container before the cycle applied its result. -/
  disturbed : Bool
deriving DecidableEq, Repr

namespace VerifierState

/-- The cycle has started and has not applied its result. -/
def midCycle (s : VerifierState) : Bool :=
  match s.phase .cycle with
  | .verifying _ _ | .decided _ _ _ => true
  | .idle | .ready _ | .sent _ | .accepted _ => false

/-- The events outside the cycle that degrade the container. -/
def degradedByOther (s : VerifierState) : VerifierEvent → Bool
  | .prewarmed remediate verified current _ =>
    s.container.any fun c => c.degradedByPrewarm remediate verified current
  | .postUpdateContainer reported =>
    s.container.any fun c => c.record.degradedByUpdate s.percents reported
  | .commit .release _ => s.container.any fun c => decide (c.record.state ≠ .degraded)
  | _ => false

def note (s : VerifierState) (e : VerifierEvent) (h : CycleHistory) : CycleHistory :=
  match e with
  | .startCycle _ => ⟨s.container.any fun c => decide (c.record.state = .degraded), false⟩
  | e => { h with disturbed := h.disturbed || (s.midCycle && s.degradedByOther e) }

/-- The runtime applies the throttle that the cycle decided. -/
def Throttles (s : VerifierState) (e : VerifierEvent) : Prop :=
  e = .answer .cycle true ∧ ∃ f, s.phase .cycle = .sent f ∧ f.update.commit = .throttled

end VerifierState

/-- The continuous verifier with the history of its cycles. -/
def observedVerifier : Machine (VerifierState × CycleHistory) VerifierEvent :=
  verifierMachine.observed VerifierState.note ⟨false, false⟩

namespace VerifierState

variable {s t : VerifierState} {e : VerifierEvent} {h : CycleHistory}

theorem note_eq (hstart : ∀ trigger, e ≠ .startCycle trigger) :
    s.note e h = { h with disturbed := h.disturbed || (s.midCycle && s.degradedByOther e) } := by
  cases e with
  | startCycle trigger => exact absurd rfl (hstart trigger)
  | _ => rfl

/-- The container is degraded in the middle of the cycle because it was when the cycle started
or because someone else degraded it, and never for both reasons. A throttle on its way was
decided for one of them. -/
structure Explained (s : VerifierState) (h : CycleHistory) : Prop where
  exclusive : ¬(h.startedDegraded = true ∧ h.disturbed = true)
  degraded : s.midCycle = true → ∀ c, s.container = some c →
    (c.record.state = .degraded ↔ h.startedDegraded = true ∨ h.disturbed = true)
  throttling : ∀ f, (s.phase .cycle).flight = some f → f.update.commit = .throttled →
    h.startedDegraded = true ∨ h.disturbed = true

/-- What someone else degrades was not degraded. -/
theorem degradedByOther_ne (hother : s.degradedByOther e = true) :
    ∃ c, s.container = some c ∧ c.record.state ≠ .degraded := by
  unfold degradedByOther at hother
  cases hc : s.container with
  | none =>
    rw [hc] at hother
    split at hother <;> cases hother
  | some c =>
    refine ⟨c, rfl, ?_⟩
    intro hdegraded
    rw [hc] at hother
    split at hother
    · simp [TrackedContainer.degradedByPrewarm, hdegraded] at hother
    · simp [ContainerState.degradedByUpdate, hdegraded] at hother
    · simp [hdegraded] at hother
    · cases hother

/-- A step outside the cycle: it degrades the container or leaves it as it is. -/
theorem Explained.of_other (hs : s.Explained h) (hstart : ∀ trigger, e ≠ .startCycle trigger)
    (hphase : t.phase .cycle = s.phase .cycle)
    (hstate : ∀ d, t.container = some d → ∃ c, s.container = some c ∧
      (d.record.state = .degraded ↔
        c.record.state = .degraded ∨ s.degradedByOther e = true)) :
    t.Explained (s.note e h) := by
  have hmid : t.midCycle = s.midCycle := by rw [midCycle, midCycle, hphase]
  rw [note_eq hstart]
  refine ⟨?_, ?_, ?_⟩
  · simp only [Bool.or_eq_true, Bool.and_eq_true]
    rintro ⟨hstarted, hdisturbed | ⟨hrunning, hother⟩⟩
    · exact hs.exclusive ⟨hstarted, hdisturbed⟩
    · obtain ⟨c, hc, hne⟩ := degradedByOther_ne hother
      exact hne ((hs.degraded hrunning c hc).mpr (.inl hstarted))
  · intro hrunning d hd
    rw [hmid] at hrunning
    obtain ⟨c, hc, hiff⟩ := hstate d hd
    rw [hiff, hs.degraded hrunning c hc, hrunning, Bool.true_and, Bool.or_eq_true, or_assoc]
  · intro f hf hcommit
    rw [hphase] at hf
    rcases hs.throttling f hf hcommit with hstarted | hdisturbed
    · exact .inl hstarted
    · right
      rw [hdisturbed, Bool.true_or]

/-- A step of the cycle that neither starts it nor decides a throttle. -/
theorem Explained.of_cycle (hs : s.Explained h) (hstart : ∀ trigger, e ≠ .startCycle trigger)
    (hother : s.degradedByOther e = false)
    (hdegraded : t.midCycle = true → s.midCycle = true ∧ ∀ d, t.container = some d →
      ∃ c, s.container = some c ∧ d.record.state = c.record.state)
    (hflight : ∀ f, (t.phase .cycle).flight = some f → f.update.commit = .throttled →
      h.startedDegraded = true ∨ h.disturbed = true) : t.Explained (s.note e h) := by
  have hnote : s.note e h = h := by
    rw [note_eq hstart, hother, Bool.and_false, Bool.or_false]
  rw [hnote]
  refine ⟨hs.exclusive, ?_, hflight⟩
  intro hmid d hd
  obtain ⟨hrunning, hkept⟩ := hdegraded hmid
  obtain ⟨c, hc, hsame⟩ := hkept d hd
  rw [hsame]
  exact hs.degraded hrunning c hc

/-- A throttle is decided for a container that is degraded when the cycle applies its result. -/
theorem transition_throttle {mode : RemediationMode} {trigger : Trigger} {degraded : Bool}
    {triggerHash : List Char} {now : Int} {f : Flight}
    (hf : ((s.transition mode trigger degraded triggerHash now).phase .cycle).flight = some f)
    (hcommit : f.update.commit = .throttled) :
    ∃ c, s.container = some c ∧ c.record.state = .degraded := by
  unfold transition at hf
  cases hc : s.container with
  | none =>
    simp only [hc, setPhase_phase, Function.update_self] at hf
    cases hf
  | some c =>
    simp only [hc, setPhase_phase, Function.update_self] at hf
    obtain ⟨-, original, -, ⟨-, -, hbuilt⟩ | ⟨-, hstate, -⟩⟩ :=
      ContainerState.applyStateTransition_pending (ofUpdate_flight hf)
    · rw [hbuilt] at hcommit
      cases hcommit
    · exact ⟨c, rfl, hstate⟩

theorem ofUpdate_not_midCycle (triggerHash : List Char) (pending : Option PendingUpdate) :
    (s.setPhase .cycle (.ofUpdate triggerHash pending)).midCycle = false := by
  cases pending <;> simp [midCycle, WorkerPhase.ofUpdate]

theorem Explained.step (hsound : s.Sound) (hs : s.Explained h) (hstep : s.step e = some t) :
    t.Explained (s.note e h) := by
  have kept (hcontainer : t.container = s.container) (d : TrackedContainer)
      (hd : t.container = some d) : ∃ c, s.container = some c ∧
        (d.record.state = .degraded ↔ c.record.state = .degraded ∨ false = true) :=
    ⟨d, hcontainer ▸ hd, by simp⟩
  cases e with
  | setRemediation _ _ | resize _ =>
    cases hstep
    exact hs.of_other (by simp) rfl (kept rfl)
  | reverified result err =>
    simp only [VerifierState.step] at hstep
    split at hstep
    · next mode trigger hphase =>
      cases hstep
      refine hs.of_cycle (by simp) rfl ?_ ?_
      · cases reverifyOutcome result err with
        | error | incomplete =>
          intro hmid
          simp [VerifierState.reverified, midCycle] at hmid
        | complete verified =>
          intro _
          refine ⟨by rw [midCycle, hphase], ?_⟩
          intro d hd
          obtain ⟨c, hc, rfl⟩ := Option.map_eq_some_iff.mp hd
          exact ⟨c, hc, rfl⟩
      · intro f hf
        cases houtcome : reverifyOutcome result err <;> rw [houtcome] at hf <;>
          simp [VerifierState.reverified, WorkerPhase.flight] at hf
    · cases hstep
  | transition triggerHash now =>
    simp only [VerifierState.step] at hstep
    split at hstep
    · next mode trigger degraded hphase =>
      cases hstep
      have hrunning : s.midCycle = true := by rw [midCycle, hphase]
      refine hs.of_cycle (by simp) rfl ?_ ?_
      · intro hmid
        exfalso
        unfold VerifierState.transition at hmid
        cases hc : s.container with
        | none =>
          rw [hc] at hmid
          simp [midCycle] at hmid
        | some c =>
          rw [hc] at hmid
          exact absurd hmid (Bool.eq_false_iff.mp (ofUpdate_not_midCycle _ _))
      · intro f hf hcommit
        obtain ⟨c, hc, hstate⟩ := transition_throttle hf hcommit
        exact (hs.degraded hrunning c hc).mp hstate
    · cases hstep
  | commit w now =>
    simp only [VerifierState.step] at hstep
    split at hstep
    · next f hphase =>
      cases hstep
      cases w with
      | cycle =>
        refine hs.of_cycle (by simp) rfl ?_ ?_
        · intro hmid
          simp [midCycle] at hmid
        · intro g hg
          simp [WorkerPhase.flight] at hg
      | release =>
        have hdegraded : f.update.commit = .degraded := by
          apply hsound.release_commit
          rw [hphase]
          rfl
        refine hs.of_other (by simp) rfl ?_
        intro d hd
        obtain ⟨c, hc, rfl⟩ := Option.map_eq_some_iff.mp hd
        refine ⟨c, hc, iff_of_true hdegraded ?_⟩
        rw [degradedByOther, hc]
        simpa using em (c.record.state = .degraded)
    · cases hstep
  | postUpdateContainer reported =>
    cases hstep
    refine hs.of_other (by simp) rfl ?_
    intro d hd
    obtain ⟨c, hc, rfl⟩ := Option.map_eq_some_iff.mp hd
    refine ⟨c, hc, ?_⟩
    rw [degradedByOther, hc]
    exact c.record.recordResourceUpdate_degraded s.percents reported
  | prewarmed remediate verified current triggerHash =>
    cases hstep
    refine hs.of_other (by simp) rfl ?_
    intro d hd
    obtain ⟨c, hc, rfl⟩ := Option.map_eq_some_iff.mp hd
    refine ⟨c, hc, ?_⟩
    rw [degradedByOther, hc]
    exact c.recordPrewarmResult_degraded remediate verified current triggerHash
  | _ =>
    constructor <;> grind [Explained, note, VerifierState.step, setPhase, VerifierState.answer,
      midCycle, degradedByOther, WorkerPhase.flight]

end VerifierState

namespace VerifierState

/-- A run in which a cycle throttles only what was degraded when it started. -/
def GraceKept (s : VerifierState) (events : List VerifierEvent) : Prop :=
  observedVerifier.AllAllowed (fun x e => x.1.Throttles e → x.2.startedDegraded = true)
    (s, ⟨false, false⟩) events

/-- A run in which nobody else degrades the container during a cycle that throttles it. -/
def Undisturbed (s : VerifierState) (events : List VerifierEvent) : Prop :=
  observedVerifier.AllAllowed (fun x e => x.1.Throttles e → x.2.disturbed = false)
    (s, ⟨false, false⟩) events

variable {s₀ t : VerifierState} {events : List VerifierEvent}

theorem observed_step {x y : VerifierState × CycleHistory} {e : VerifierEvent}
    (h : observedVerifier.step x e = some y) :
    x.1.step e = some y.1 ∧ y.2 = x.1.note e x.2 := by
  obtain ⟨t, ht, rfl⟩ := Option.map_eq_some_iff.mp h
  exact ⟨ht, rfl⟩

theorem explained_of_initial (hinit : verifierMachine.initial s₀) :
    s₀.Explained ⟨false, false⟩ := by
  obtain ⟨mode, cfg, c, live, -, rfl⟩ := hinit
  refine ⟨by simp, ?_, ?_⟩
  · intro hmid
    cases hmid
  · intro f hf
    cases hf

/-- A run whose cycles nobody else interferes with. -/
theorem undisturbed_of_quiet {x : VerifierState × CycleHistory} (hx : x.2.disturbed = false)
    (hquiet : observedVerifier.AllAllowed
      (fun x e => x.1.midCycle = true → x.1.degradedByOther e = false) x events) :
    observedVerifier.AllAllowed (fun x e => x.1.Throttles e → x.2.disturbed = false) x events := by
  induction events generalizing x with
  | nil => trivial
  | cons e rest ih =>
    refine ⟨fun _ => hx, ?_⟩
    intro y hy
    refine ih ?_ (hquiet.2 y hy)
    obtain ⟨-, hnote⟩ := observed_step hy
    have hallowed := hquiet.1
    rw [hnote]
    cases e with
    | startCycle trigger => rfl
    | _ =>
      simp only [note, hx, Bool.false_or]
      cases hmid : x.1.midCycle with
      | false => rfl
      | true => exact hallowed hmid

/-- The grace cycle is kept exactly if nobody else degrades the container between the start of
a cycle and the moment it applies the result it throttles for. -/
theorem graceKept_iff_undisturbed (hinit : verifierMachine.initial s₀)
    (hrun : verifierMachine.exec s₀ events = some t) :
    s₀.GraceKept events ↔ s₀.Undisturbed events := by
  obtain ⟨h, hobserved⟩ := Machine.exec_observed note ⟨false, false⟩ hrun ⟨false, false⟩
  refine Machine.allAllowed_congr (I := fun x => x.1.Sound ∧ x.1.Explained x.2) ?_ ?_
    ⟨sound_of_initial hinit, explained_of_initial hinit⟩ hobserved
  · rintro x e y ⟨hsound, hexplained⟩ hstep
    obtain ⟨hnext, hnote⟩ := observed_step hstep
    rw [hnote]
    exact ⟨hsound.step hnext, hexplained.step hsound hnext⟩
  · rintro x e y ⟨-, hexplained⟩ -
    refine imp_congr_right ?_
    rintro ⟨-, f, hphase, hcommit⟩
    have hreason := hexplained.throttling f (by rw [hphase]; rfl) hcommit
    have hexclusive := hexplained.exclusive
    constructor
    · intro hstarted
      exact Bool.eq_false_of_not_eq_true fun hdisturbed => hexclusive ⟨hstarted, hdisturbed⟩
    · intro hquiet
      refine hreason.resolve_right ?_
      rw [hquiet]
      exact Bool.false_ne_true

end VerifierState

/-- A failing verification degrades the container and the next one throttles it. -/
theorem graceKept_iff_undisturbed_throttle :
    (∃ s, verifierMachine.exec watched throttleAccepted = some s) ∧
      watched.GraceKept throttleAccepted := by
  have hinit : verifierMachine.initial watched := ⟨_, _, _, _, .verified _, rfl⟩
  refine ⟨⟨_, rfl⟩, (VerifierState.graceKept_iff_undisturbed hinit rfl).mpr ?_⟩
  refine VerifierState.undisturbed_of_quiet rfl (Machine.AllAllowed.of_forall ?_ _)
  intro e he x _
  simp only [throttleAccepted, cycle, List.cons_append, List.nil_append, List.mem_cons,
    List.not_mem_nil, or_false] at he
  rcases he with rfl | rfl | rfl | rfl | rfl | rfl | rfl | rfl <;> rfl

/-- A container that a restarted plugin has found, before its first result. -/
def synchronized : VerifierState :=
  ⟨.throttle, none, some ⟨recoverContainerState (throttlePercents none)
      (some (.record ⟨some 100000, some 1024, some 536870912⟩))
      (some (limited 100000 1024 536870912)), none, [], true, 0, 0⟩,
    (limited 100000 1024 536870912).limits, fun _ => .idle, fun _ => none⟩

/-- A failing pre-warm result arrives while the first cycle verifies the container. -/
def prewarmedDuringCycle : List VerifierEvent :=
  [.startCycle .timer, .prewarmed true false true [],
    .reverified (some ⟨false, false⟩) (some .verificationFailed), .transition [] 0,
    .send .cycle, .answer .cycle true]

/-- The first cycle throttles a container that was verified when it started. -/
theorem prewarm_skips_grace_cycle :
    verifierMachine.initial synchronized ∧
      (∃ c, synchronized.container = some c ∧ c.record.state = .verified) ∧
      (∃ s c f, verifierMachine.exec synchronized prewarmedDuringCycle = some s ∧
        s.container = some c ∧ c.record.state = .degraded ∧ s.phase .cycle = .accepted f ∧
        f.update.commit = .throttled) ∧
      ¬synchronized.GraceKept prewarmedDuringCycle := by
  refine ⟨⟨_, _, _, _, .synchronized _ _ _, rfl⟩, ⟨_, rfl, rfl⟩, ⟨_, _, _, rfl, rfl, rfl, rfl, rfl⟩,
    ?_⟩
  intro hkept
  have hlast := ((((hkept.2 _ rfl).2 _ rfl).2 _ rfl).2 _ rfl).2 _ rfl
  cases hlast.1 ⟨rfl, _, rfl, rfl⟩

end NriSupplyChain.Plugin
