import NriSupplyChain.Plugin.RuntimeConfig

/-!
What holds over every run of the configurations that the runtime passes. The pending
configuration is the newest one and is being worked on, configurations are applied in
the order in which they were received, and none is lost as long as the record that an
arriving one is compared with is that of the running one. A configuration that arrives
right after another one was applied can be compared with an older record.
-/

namespace NriSupplyChain.Plugin

open Lib

variable {Raw : Type}

namespace RuntimeConfigState

section invariant

def rawOf (s : RuntimeConfigState Raw) (id : Nat) : Option Raw :=
  (s.configs[id]?).map PendingRuntimeConfig.raw

/-- The goroutine of a configuration works on it. -/
def Working (s : RuntimeConfigState Raw) (id : Nat) : Prop :=
  s.phase id = .starting ∨ s.phase id = .applying ∨ s.phase id = .applied ∨ s.phase id = .waiting

/-- What every step preserves. -/
structure Wf (s : RuntimeConfigState Raw) : Prop where
  known : ∀ id, s.phase id ≠ .done → id < s.configs.length
  newest : ∀ id, s.pending = some id → id + 1 = s.configs.length ∧ s.latest = s.rawOf id
  working : ∀ id, s.pending = some id → s.closed = false → s.Working id
  locked : ∀ id, (s.phase id).holdsLock = true ↔ s.mu = some id
  slot : ∀ id, s.phase id = .applying ∨ s.phase id = .applied → s.pending ≠ none
  older : ∀ id ∈ s.superseded, id + 1 < s.configs.length
  order : s.applied.Pairwise (· > ·)
  appliedKnown : ∀ id ∈ s.applied, id < s.configs.length
  applying : ∀ id, s.phase id = .applying → ∀ other ∈ s.applied, other < id
  head : ∀ id, s.phase id = .applied ∨ s.phase id = .released → s.applied.head? = some id
  unapplied : ∀ id, s.pending = some id → s.phase id ≠ .applied → id ∉ s.applied

theorem wf_initial : (initial : RuntimeConfigState Raw).Wf := by
  constructor <;> simp [initial, Phase.holdsLock]

/-- A change of the phase of one goroutine. -/
@[grind =]
theorem setPhase_phase (s : RuntimeConfigState Raw) (id other : Nat) (phase : Phase) :
    (s.setPhase id phase).phase other = if other = id then phase else s.phase other :=
  Function.update_apply s.phase id phase other

variable {s t : RuntimeConfigState Raw} {id : Nat}

theorem Wf.attempt (h : s.Wf) (ht : s.attempt id = some t) : t.Wf := by
  obtain ⟨⟨hphase, hmu⟩, hnext⟩ := Option.ite_none_right_eq_some.mp ht
  split at hnext
  · next hpending =>
    have hnewer : ∀ other ∈ s.applied, other < id := by
      intro other hother
      have hbound := h.appliedKnown other hother
      have hnewest := (h.newest id hpending).1
      have hne : id ∉ s.applied := by
        apply h.unapplied id hpending
        rw [hphase]
        exact Phase.noConfusion
      grind
    cases hnext
    constructor <;> grind [Wf, setPhase, Working, rawOf, Phase.holdsLock]
  · cases hnext
    constructor <;> grind [Wf, setPhase, Working, rawOf, Phase.holdsLock]

theorem Wf.succeed (h : s.Wf) (ht : s.succeed id = some t) : t.Wf := by
  obtain ⟨hphase, hnext⟩ := Option.ite_none_right_eq_some.mp ht
  have horder : (id :: s.applied).Pairwise (· > ·) :=
    List.pairwise_cons.mpr ⟨h.applying id hphase, h.order⟩
  cases hnext
  constructor <;> grind [Wf, setPhase, Working, rawOf, Phase.holdsLock]

theorem Wf.fail (h : s.Wf) {reason : String} (ht : s.fail id reason = some t) : t.Wf := by
  obtain ⟨hphase, hnext⟩ := Option.ite_none_right_eq_some.mp ht
  cases hnext
  constructor <;> grind [Wf, setPhase, Working, rawOf, Phase.holdsLock]

theorem Wf.cancel (h : s.Wf) {reason : String} (ht : s.cancel id reason = some t) : t.Wf := by
  obtain ⟨⟨hphase, hclosed⟩, hnext⟩ := Option.ite_none_right_eq_some.mp ht
  cases hnext
  constructor <;> grind [Wf, setPhase, Working, rawOf, Phase.holdsLock]

theorem Wf.release (h : s.Wf) (ht : s.release id = some t) : t.Wf := by
  obtain ⟨hphase, hnext⟩ := Option.ite_none_right_eq_some.mp ht
  split at hnext <;> cases hnext <;> constructor <;>
    grind [Wf, setPhase, Working, rawOf, Phase.holdsLock]

/-- The slot of a configuration that was applied is free or taken by another one. -/
theorem Wf.pending_ne_of_released (h : s.Wf) (hphase : s.phase id = .released) :
    s.pending ≠ some id := by
  intro hpending
  have hhead := h.head id (.inr hphase)
  refine h.unapplied id hpending ?_ (List.mem_of_mem_head? hhead)
  rw [hphase]
  exact Phase.noConfusion

theorem Wf.record (h : s.Wf) (ht : s.record id = some t) : t.Wf := by
  obtain ⟨hphase, hnext⟩ := Option.ite_none_right_eq_some.mp ht
  have hpending := h.pending_ne_of_released hphase
  cases hnext
  constructor <;> grind [Wf, setPhase, Working, rawOf, Phase.holdsLock]

theorem Wf.endWait (h : s.Wf) {ready : Bool} {next : Phase} (hnext : next.holdsLock = false)
    (hworking : ready = true → s.pending = some id → s.closed = false →
      next = .starting ∨ next = .waiting)
    (ht : s.endWait id ready next = some t) : t.Wf := by
  obtain ⟨⟨hphase, hready⟩, hnext⟩ := Option.ite_none_right_eq_some.mp ht
  cases hnext
  constructor <;> grind [Wf, setPhase, Working, rawOf, Phase.holdsLock]

/-- What a new configuration changes. -/
structure Replaced (s t : RuntimeConfigState Raw) (config : PendingRuntimeConfig Raw) : Prop where
  configs : t.configs = s.configs ++ [config]
  pending : t.pending = some s.configs.length
  superseded : t.superseded = s.pending.toList ++ s.superseded
  applied : t.applied = s.applied
  latest : t.latest = some config.raw
  phase : ∀ id, t.phase id = if id = s.configs.length then .starting else s.phase id
  mu : t.mu = s.mu

theorem replaced_of_replace (ht : s.replace = some t) : ∃ config, s.Replaced t config := by
  unfold RuntimeConfigState.replace at ht
  split at ht
  · next raw cfg _ =>
    cases ht
    exact ⟨⟨raw, newRuntimeEnforcement cfg⟩, rfl, rfl, rfl, rfl, rfl,
      Function.update_apply s.phase s.configs.length .starting, rfl⟩
  · cases ht

theorem Wf.replaced (h : s.Wf) {config : PendingRuntimeConfig Raw} (r : s.Replaced t config) :
    t.Wf := by
  have hfresh : s.phase s.configs.length = .done := by
    by_contra hbusy
    exact absurd (h.known _ hbusy) (lt_irrefl _)
  constructor <;> grind [Wf, Replaced, Working, rawOf, Phase.holdsLock]

theorem Wf.readLastApplied (h : s.Wf) (ht : s.readLastApplied = some t) : t.Wf := by
  unfold RuntimeConfigState.readLastApplied at ht
  split at ht
  · cases ht
    exact { h with }
  · cases ht

theorem pendingConfig_raw (hpending : s.pending = some id) :
    s.pendingConfig.map PendingRuntimeConfig.raw = s.rawOf id := by
  unfold pendingConfig
  rw [hpending]
  rfl

end invariant

section runs

variable [DecidableEq Raw] {s t : RuntimeConfigState Raw}

theorem Wf.receive (h : s.Wf) {raw : Raw} {cfg : PassedConfig}
    (ht : s.receive raw cfg = some t) : t.Wf := by
  unfold RuntimeConfigState.receive at ht
  split at ht
  · split at ht
    · next hsame =>
      cases ht
      exact { h with
        newest := by
          intro id hid
          have hraw : s.pendingConfig.map PendingRuntimeConfig.raw = s.rawOf id :=
            pendingConfig_raw hid
          exact ⟨(h.newest id hid).1, hsame.symm.trans hraw⟩ }
    · cases ht
      exact { h with }
  · cases ht

theorem Wf.compare (h : s.Wf) (ht : s.compare = some t) : t.Wf := by
  unfold RuntimeConfigState.compare at ht
  split at ht
  · split at ht
    · next hkept =>
      cases ht
      exact { h with
        newest := by
          intro id hid
          exact absurd (hkept.1.symm.trans hid) (Option.some_ne_none id).symm }
    · cases ht
      exact { h with }
  · cases ht

variable {e : RuntimeConfigEvent Raw}

theorem Wf.step (h : s.Wf) (ht : s.step e = some t) : t.Wf := by
  cases e with
  | receive raw cfg => exact h.receive ht
  | readLastApplied => exact h.readLastApplied ht
  | compare => exact h.compare ht
  | replace =>
    obtain ⟨config, hreplaced⟩ := replaced_of_replace ht
    exact h.replaced hreplaced
  | attempt id => exact h.attempt ht
  | succeed id => exact h.succeed ht
  | fail id reason => exact h.fail ht
  | cancel id reason => exact h.cancel ht
  | release id => exact h.release ht
  | record id => exact h.record ht
  | retry id => exact h.endWait rfl (fun _ _ _ => .inl rfl) ht
  | giveUp id =>
    refine h.endWait rfl ?_ ht
    intro hsuperseded hpending
    have holder := h.older id (of_decide_eq_true hsuperseded)
    have hnewest := (h.newest id hpending).1
    omega
  | stop id =>
    refine h.endWait rfl ?_ ht
    intro hclosed _ hopen
    rw [hclosed] at hopen
    cases hopen
  | close =>
    cases ht
    exact { h with
      working := by
        intro id _ hopen
        cases hopen }
  | createContainer nameSpace =>
    cases ht
    exact h

/-- Without a pending configuration, the verifier runs the one that was received last. -/
def Current (s : RuntimeConfigState Raw) : Prop :=
  s.pending = none → s.running = s.latest

omit [DecidableEq Raw] in
/-- The record of the last applied configuration is not read between the release of a slot and
the record, and no slot is released between that read and the second look at the slot. -/
def Undivided (s : RuntimeConfigState Raw) : RuntimeConfigEvent Raw → Prop
  | .readLastApplied => ∀ id, s.phase id ≠ .released
  | .release _ => ∀ raw cfg last, s.receiver ≠ .comparing raw cfg last
  | _ => True

/-- Without a pending configuration, the verifier runs the one that was received last. Once
it is written the record names that one, and so does the record that a call has read. -/
structure Recorded (s : RuntimeConfigState Raw) : Prop where
  wf : s.Wf
  current : s.Current
  recorded : s.pending = none → (∀ id, s.phase id ≠ .released) → s.lastApplied = s.running
  read : ∀ raw cfg last, s.receiver = .comparing raw cfg last → s.pending = none →
    last = s.running

variable {id : Nat}

omit [DecidableEq Raw] in
theorem Wf.recorded_of_pending (h : s.Wf) (hpending : s.pending ≠ none) : s.Recorded := by
  refine ⟨h, ?_, ?_, ?_⟩
  · exact fun hnone => absurd hnone hpending
  · exact fun hnone => absurd hnone hpending
  · exact fun _ _ _ _ hnone => absurd hnone hpending

namespace Recorded

omit [DecidableEq Raw] in
/-- A goroutine that has not released the slot moves on. -/
theorem setPhase (h : s.Recorded) {phase : Phase} {mu : Option Nat} {failure : Option String}
    (hid : s.phase id ≠ .released)
    (hwf : ({ s.setPhase id phase with mu := mu, failure := failure } :
      RuntimeConfigState Raw).Wf) :
    ({ s.setPhase id phase with mu := mu, failure := failure } :
      RuntimeConfigState Raw).Recorded := by
  refine ⟨hwf, h.current, ?_, h.read⟩
  intro hpending hreleased
  apply h.recorded hpending
  intro other hother
  apply hreleased other
  change (s.setPhase id phase).phase other = .released
  rw [setPhase_phase, if_neg, hother]
  rintro rfl
  exact hid hother

theorem receive (h : s.Recorded) {raw : Raw} {cfg : PassedConfig}
    (ht : s.receive raw cfg = some t) : t.Recorded := by
  have hwf := h.wf.receive ht
  unfold RuntimeConfigState.receive at ht
  split at ht
  · split at ht
    · next hsame =>
      cases ht
      apply hwf.recorded_of_pending
      intro hnone
      rw [pendingConfig, show s.pending = none from hnone] at hsame
      cases hsame
    · cases ht
      exact ⟨hwf, h.current, h.recorded, by simp⟩
  · cases ht

omit [DecidableEq Raw] in
theorem readLastApplied (h : s.Recorded) (hfree : ∀ id, s.phase id ≠ .released)
    (ht : s.readLastApplied = some t) : t.Recorded := by
  have hwf := h.wf.readLastApplied ht
  unfold RuntimeConfigState.readLastApplied at ht
  split at ht
  · cases ht
    refine ⟨hwf, h.current, h.recorded, ?_⟩
    rintro _ _ _ ⟨⟩ hpending
    exact h.recorded hpending hfree
  · cases ht

/-- What is kept as unchanged is the running configuration. -/
theorem compare (h : s.Recorded) (ht : s.compare = some t) : t.Recorded := by
  have hwf := h.wf.compare ht
  unfold RuntimeConfigState.compare at ht
  split at ht
  · next raw cfg last hreceiver =>
    split at ht
    · next hkept =>
      cases ht
      refine ⟨hwf, ?_, h.recorded, by simp⟩
      intro hpending
      exact (h.read raw cfg last hreceiver hpending).symm.trans hkept.2
    · cases ht
      exact ⟨hwf, h.current, h.recorded, by simp⟩
  · cases ht

omit [DecidableEq Raw] in
theorem attempt (h : s.Recorded) (ht : s.attempt id = some t) : t.Recorded := by
  have hwf := h.wf.attempt ht
  unfold RuntimeConfigState.attempt at ht
  split at ht
  · next hstarting =>
    have hid : s.phase id ≠ .released := by
      rw [hstarting.1]
      decide
    split at ht
    · cases ht
      exact h.setPhase hid hwf
    · cases ht
      exact h.setPhase hid hwf
  · cases ht

omit [DecidableEq Raw] in
theorem release (h : s.Recorded) (hreads : ∀ raw cfg last, s.receiver ≠ .comparing raw cfg last)
    (ht : s.release id = some t) : t.Recorded := by
  have hwf := h.wf.release ht
  unfold RuntimeConfigState.release at ht
  split at ht
  · next hphase =>
    split at ht
    · next hpending =>
      cases ht
      refine ⟨hwf, ?_, ?_, fun raw cfg last hreceiver => absurd hreceiver (hreads raw cfg last)⟩
      · intro _
        have hlatest := (h.wf.newest id hpending).2
        have hhead := h.wf.head id (.inl hphase)
        change (s.applied.head?.bind fun id => s.configs[id]?).map PendingRuntimeConfig.raw =
          s.latest
        rw [hlatest, hhead]
        rfl
      · intro _ hreleased
        exact absurd (Function.update_self id Phase.released s.phase :) (hreleased id)
    · cases ht
      exact hwf.recorded_of_pending (h.wf.slot id (.inr hphase))
  · cases ht

omit [DecidableEq Raw] in
theorem record (h : s.Recorded) (ht : s.record id = some t) : t.Recorded := by
  have hwf := h.wf.record ht
  obtain ⟨hphase, hnext⟩ := Option.ite_none_right_eq_some.mp ht
  cases hnext
  refine ⟨hwf, h.current, ?_, h.read⟩
  intro _ _
  change (s.configs[id]?).map PendingRuntimeConfig.raw =
    (s.applied.head?.bind fun id => s.configs[id]?).map PendingRuntimeConfig.raw
  rw [h.wf.head id (.inr hphase)]
  rfl

omit [DecidableEq Raw] in
theorem endWait (h : s.Recorded) {ready : Bool} {next : Phase} (hwf : t.Wf)
    (ht : s.endWait id ready next = some t) : t.Recorded := by
  obtain ⟨hready, hnext⟩ := Option.ite_none_right_eq_some.mp ht
  cases hnext
  refine h.setPhase ?_ hwf
  rw [hready.1]
  decide

theorem step (h : s.Recorded) (hundivided : s.Undivided e) (ht : s.step e = some t) :
    t.Recorded := by
  have hwf := h.wf.step ht
  have happlying {id : Nat} (hid : s.phase id = .applying) : s.phase id ≠ .released := by
    rw [hid]
    decide
  cases e with
  | receive raw cfg => exact h.receive ht
  | readLastApplied => exact h.readLastApplied hundivided ht
  | compare => exact h.compare ht
  | replace =>
    obtain ⟨config, hreplaced⟩ := replaced_of_replace ht
    apply hwf.recorded_of_pending
    rw [hreplaced.pending]
    exact Option.some_ne_none _
  | attempt id => exact h.attempt ht
  | succeed id =>
    obtain ⟨hphase, hnext⟩ := Option.ite_none_right_eq_some.mp ht
    cases hnext
    exact hwf.recorded_of_pending (h.wf.slot id (.inl hphase))
  | fail id reason =>
    obtain ⟨hphase, hnext⟩ := Option.ite_none_right_eq_some.mp ht
    cases hnext
    exact h.setPhase (happlying hphase) hwf
  | cancel id reason =>
    obtain ⟨hphase, hnext⟩ := Option.ite_none_right_eq_some.mp ht
    cases hnext
    exact h.setPhase (happlying hphase.1) hwf
  | release id => exact h.release hundivided ht
  | record id => exact h.record ht
  | retry id => exact h.endWait hwf ht
  | giveUp id => exact h.endWait hwf ht
  | stop id => exact h.endWait hwf ht
  | close =>
    cases ht
    exact ⟨hwf, h.current, h.recorded, h.read⟩
  | createContainer nameSpace =>
    cases ht
    exact h

end Recorded

omit [DecidableEq Raw] in
theorem rejected_of_enforcing {config : PendingRuntimeConfig Raw} {nameSpace : String}
    (hpending : s.pendingConfig = some config)
    (henforces : config.enforcement.enforces nameSpace = true) :
    s.checkRuntimeConfigApplied nameSpace =
      .error ("supply chain verification: " ++ errRuntimeConfigPending) := by
  unfold checkRuntimeConfigApplied
  rw [hpending]
  exact if_pos henforces

/-- What is promised in every state: without a pending configuration the last one
received is applied, a pending one is worked on until the plugin is closed,
configurations are applied in the order they were received in, and admissions wait for a
pending configuration that enforces their namespace. -/
structure Promised (s : RuntimeConfigState Raw) : Prop where
  current : s.Current
  working : ∀ id, s.pending = some id → s.closed = false → s.Working id
  order : s.applied.Pairwise (· > ·)
  rejected : ∀ config nameSpace, s.pendingConfig = some config →
    config.enforcement.enforces nameSpace = true →
      s.checkRuntimeConfigApplied nameSpace =
        .error ("supply chain verification: " ++ errRuntimeConfigPending)

omit [DecidableEq Raw] in
theorem Recorded.promised (h : s.Recorded) : s.Promised :=
  ⟨h.current, h.wf.working, h.wf.order, fun _ _ => rejected_of_enforcing⟩

/-- Only the pending configuration starts to be applied, and only one that is being applied
ends up applied. -/
theorem step_applying (id : Nat) (ht : s.step e = some t) : s.configs.length ≤ t.configs.length ∧
    (t.phase id = .applying → s.phase id = .applying ∨ s.pending = some id) ∧
    (id ∈ t.applied → id ∈ s.applied ∨ s.phase id = .applying) := by
  have hupdate := fun other phase => Function.update_apply s.phase other phase id
  cases e <;> simp only [step, receive, readLastApplied, compare, replace, attempt, succeed, fail,
    cancel, release, record, endWait, setPhase] at ht <;> (repeat' split at ht) <;> cases ht
  all_goals grind

/-- A newer configuration was received before this one was applied. -/
structure Outdated (id : Nat) (s : RuntimeConfigState Raw) : Prop where
  wf : s.Wf
  newer : id + 1 < s.configs.length
  idle : s.phase id ≠ .applying
  unapplied : id ∉ s.applied

theorem Outdated.step (h : s.Outdated id) (ht : s.step e = some t) : t.Outdated id := by
  obtain ⟨hconfigs, happlying, happlied⟩ := step_applying id ht
  have hnewer := h.newer
  refine ⟨h.wf.step ht, by omega, ?_, fun hid => (happlied hid).elim h.unapplied h.idle⟩
  intro hphase
  have hnewest := (h.wf.newest id ((happlying hphase).resolve_left h.idle)).1
  omega

end runs

end RuntimeConfigState

/-- The promises hold in every state of a run in which no release of a slot comes between the
reads of a call, and no such read between a release and its record. -/
theorem runtime_config_promised (Raw : Type) [DecidableEq Raw] {s : RuntimeConfigState Raw}
    (h : (runtimeConfigMachine Raw).ReachableVia RuntimeConfigState.Undivided s) :
    s.Promised := by
  have hrecorded : s.Recorded := by
    refine Machine.ReachableVia.invariant ?_ (fun s e t h hundivided ht => h.step hundivided ht) h
    rintro _ rfl
    exact ⟨RuntimeConfigState.wf_initial, fun _ => rfl, fun _ _ => rfl,
      by simp [RuntimeConfigState.initial]⟩
  exact hrecorded.promised

/-- A configuration that verifies in warn mode, without policies of its own. -/
def warnConfig : PassedConfig :=
  ⟨.warn, false, some []⟩

/-- A configuration is applied and recorded, received again and kept as unchanged. -/
theorem runtime_config_promised_kept :
    ∃ s, (runtimeConfigMachine String).exec .initial [.receive "verification: warn" warnConfig,
        .readLastApplied, .compare, .replace, .attempt 0, .succeed 0, .release 0, .record 0,
        .receive "verification: warn" warnConfig, .readLastApplied, .compare] = some s ∧
      s.pending = none ∧ s.running = some "verification: warn" ∧ s.Promised := by
  have hallowed : (runtimeConfigMachine String).AllAllowed RuntimeConfigState.Undivided .initial
      [.receive "verification: warn" warnConfig, .readLastApplied, .compare, .replace, .attempt 0,
        .succeed 0, .release 0, .record 0, .receive "verification: warn" warnConfig,
        .readLastApplied, .compare] := by
    refine .cons rfl trivial (.cons rfl ?_ (.cons rfl trivial (.cons rfl trivial (.cons rfl trivial
      (.cons rfl trivial (.cons rfl ?_ (.cons rfl trivial (.cons rfl trivial (.cons rfl ?_
        (.cons rfl trivial trivial))))))))))
    · rintro id ⟨⟩
    · rintro raw cfg last ⟨⟩
    · rintro (_ | id) ⟨⟩
  exact ⟨_, rfl, rfl, rfl, runtime_config_promised String (.exec (.start rfl) hallowed rfl)⟩

/-- A run that receives two configurations, and the first one again right after the slot
of the second one was released. -/
def reconnectRun : List (RuntimeConfigEvent String) :=
  [.receive "verification: enforce" ⟨.enforce, false, none⟩, .readLastApplied, .compare, .replace,
    .attempt 0, .succeed 0, .release 0, .record 0,
    .receive "verification: warn" warnConfig, .readLastApplied, .compare, .replace,
    .attempt 1, .succeed 1, .release 1,
    .receive "verification: enforce" ⟨.enforce, false, none⟩, .readLastApplied, .compare, .record 1]

/-- The enforcing configuration is taken for the running one and lost. -/
theorem reconnect_loses_configuration :
    ∃ final, (runtimeConfigMachine String).exec .initial reconnectRun = some final ∧
      final.pending = none ∧ final.latest = some "verification: enforce" ∧
        final.running = some "verification: warn" ∧ ¬ final.Promised := by
  refine ⟨_, rfl, rfl, rfl, rfl, ?_⟩
  intro hpromised
  have hcurrent := hpromised.current rfl
  revert hcurrent
  decide

/-- A configuration that is not being applied when a newer one takes the slot is never
applied afterwards, in whatever order the goroutines go on. -/
theorem outdated_never_applied {Raw : Type} [DecidableEq Raw] {s t : RuntimeConfigState Raw}
    {id : Nat} {before : List (RuntimeConfigEvent Raw)} (after : List (RuntimeConfigEvent Raw))
    (hbefore : (runtimeConfigMachine Raw).exec .initial before = some s)
    (hnewer : id + 1 < s.configs.length) (hidle : s.phase id ≠ .applying) (hid : id ∉ s.applied)
    (hafter : (runtimeConfigMachine Raw).exec s after = some t) : id ∉ t.applied := by
  have hwf : s.Wf :=
    Machine.exec_preserves (fun _ _ _ h ht => h.step ht) RuntimeConfigState.wf_initial hbefore
  have houtdated : t.Outdated id :=
    Machine.exec_preserves (fun _ _ _ h ht => h.step ht) ⟨hwf, hnewer, hidle, hid⟩ hafter
  exact houtdated.unapplied

theorem outdated_never_applied_first : ∃ s t, (runtimeConfigMachine String).Reachable s ∧
    (runtimeConfigMachine String).exec s [.attempt 0, .attempt 1, .succeed 1] = some t ∧
      0 ∉ t.applied := by
  have hbefore : (runtimeConfigMachine String).exec .initial [.receive "" warnConfig,
      .readLastApplied, .compare, .replace, .receive "v" warnConfig, .readLastApplied, .compare,
      .replace] = some _ := rfl
  refine ⟨_, _, .exec (.start rfl) hbefore, rfl, ?_⟩
  exact outdated_never_applied [.attempt 0, .attempt 1, .succeed 1] hbefore (by decide) (by decide)
    (by decide) rfl

end NriSupplyChain.Plugin
