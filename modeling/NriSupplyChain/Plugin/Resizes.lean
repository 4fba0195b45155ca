import NriSupplyChain.Lib.Machine
import NriSupplyChain.Plugin.Throttle

/-!
One container, its plugin updates and the updates the runtime makes itself. The
runtime reports the container after every update it applied; the plugin learns
nothing else about who made it.

Plugin updates are built from the recorded resources and applied later, so
anything may happen in between. `runtimeSet` is what the runtime itself last set
each limit to; no modelled function reads it.
-/

namespace NriSupplyChain.Plugin

open Lib

structure RemediationState where
  cfg : Option ThrottleConfig
  /-- The entry of the container registry. -/
  container : Option ContainerState
  live : Limits
  pending : List PendingUpdate
  /-- States to record for updates that were applied. -/
  applied : List VerificationState
  runtimeSet : Limits

inductive RemediationOp where
  /-- The container is created with `resources`; a container admitted without a
  digest is tracked without them. -/
  | create (resources : Option LinuxResources) (verified : Bool)
  | setRemediationConfig (cfg : Option ThrottleConfig)
  | reverify (degraded permitted : Bool)
  | release
  /-- The runtime applies a pending update and reports the container. -/
  | applyUpdate (i : Nat) (reported : LinuxResources)
  | updateFailed (i : Nat)
  | commit (i : Nat)
  /-- The runtime updates the container itself and reports it. -/
  | resize (update reported : LinuxResources)

namespace RemediationState

def percents (s : RemediationState) : Percents := throttlePercents s.cfg

def update (s : RemediationState) (c : ContainerState) (pending : Option PendingUpdate) :
    RemediationState :=
  { s with container := some c, pending := s.pending ++ pending.toList }

/-- `PostUpdateContainer` for a container that has the limits `live`. -/
def postUpdateContainer (s : RemediationState) (c : ContainerState) (live : Limits)
    (reported : LinuxResources) : RemediationState :=
  { s with
    container := some (c.recordResourceUpdate s.percents (some reported))
    live := live }

def step (s : RemediationState) : RemediationOp → Option RemediationState
  | .create resources verified =>
    match s.container with
    | some _ => none
    | none =>
      let limits := (resources.map LinuxResources.limits).getD Limits.unset
      some { s with
        container := some (if verified then ⟨.verified, resources, false⟩
          else ⟨.skipped, none, false⟩)
        live := limits
        runtimeSet := limits }
  | .setRemediationConfig cfg => some { s with cfg := cfg }
  | .reverify degraded permitted =>
    s.container.map fun c =>
      let (c, pending) := c.applyStateTransition s.percents degraded permitted
      s.update c pending
  | .release => s.container.map fun c => s.update c c.releaseThrottled
  | .applyUpdate i reported =>
    match s.container, s.pending[i]? with
    | some c, some u =>
      let live := u.resources.limits.overlay s.live
      if reported.limits = live then
        some { s.postUpdateContainer c live reported with
          pending := s.pending.eraseIdx i
          applied := s.applied ++ [u.commit] }
      else none
    | _, _ => none
  | .updateFailed i => some { s with pending := s.pending.eraseIdx i }
  | .commit i =>
    match s.container, s.applied[i]? with
    | some c, some state => some { s with
        container := some { c with state := state }
        applied := s.applied.eraseIdx i }
    | _, _ => none
  | .resize update reported =>
    s.container.bind fun c =>
      let live := update.limits.overlay s.live
      if reported.limits = live then
        some { s.postUpdateContainer c live reported with
          runtimeSet := update.limits.overlay s.runtimeSet }
      else none

/-- Recorded resources have the limits the runtime set. -/
def RecordsRuntime (s : RemediationState) : Prop :=
  ∀ c original, s.container = some c → c.originalResources = some original →
    original.limits = s.runtimeSet

/-- A plugin update is applied while it still is the throttle or the rollback of
what the runtime set. -/
def UpdateCurrent (s : RemediationState) (u : PendingUpdate) : Prop :=
  let live := u.resources.limits.overlay s.live
  live = s.runtimeSet ∨ s.runtimeSet.ShowsThrottle s.percents live

/-- An update of the runtime sets every limit that differs from what the runtime
had set; one that leaves the container with the limits of a throttle changes
nothing the runtime had set. -/
def ResizeVisible (s : RemediationState) (update : LinuxResources) : Prop :=
  let live := update.limits.overlay s.live
  (s.runtimeSet.ShowsThrottle s.percents live →
    update.limits.overlay s.runtimeSet = s.runtimeSet) ∧
  (¬s.runtimeSet.ShowsThrottle s.percents live →
    ∀ k, update.limits k = none → s.live k = s.runtimeSet k)

/-- The condition on a step; updates of a container that has nothing recorded are
always seen. -/
def Seen (s : RemediationState) : RemediationOp → Prop
  | .applyUpdate i _ => ∀ u, s.pending[i]? = some u → s.UpdateCurrent u
  | .resize update _ => ∀ c, s.container = some c → c.originalResources ≠ none →
      s.ResizeVisible update
  | _ => True

/-- What holds in every run: updates are pending only for recorded resources, and
until resources are recorded the container has what the runtime set. -/
structure Grounded (s : RemediationState) : Prop where
  absent : s.container = none → s.pending = []
  unrecorded : ∀ c, s.container = some c → c.originalResources = none →
    s.live = s.runtimeSet ∧ s.pending = []

variable {c : ContainerState} {s : RemediationState}

theorem Grounded.recorded (h : s.Grounded) (hc : s.container = some c) {i : Nat} {u : PendingUpdate}
    (hu : s.pending[i]? = some u) : ∃ original, c.originalResources = some original := by
  cases horiginal : c.originalResources with
  | some original => exact ⟨original, rfl⟩
  | none =>
    rw [(h.unrecorded c hc horiginal).2] at hu
    cases hu

/-- The resources that are recorded stay, and so does everything they are compared
with. -/
theorem Grounded.update (h : s.Grounded) {c' : ContainerState} {pending : Option PendingUpdate}
    (hc : s.container = some c) (horiginal : c'.originalResources = c.originalResources)
    (hpending : ∀ u, pending = some u → c.originalResources ≠ none) :
    (s.update c' pending).Grounded := by
  constructor
  · intro habsent
    cases habsent
  · rintro _ ⟨⟩ hnone
    rw [horiginal] at hnone
    obtain ⟨hlive, hempty⟩ := h.unrecorded c hc hnone
    refine ⟨hlive, ?_⟩
    cases hp : pending with
    | none => simp [RemediationState.update, hempty]
    | some u => exact absurd hnone (hpending u hp)

theorem RecordsRuntime.update (h : s.RecordsRuntime) {c' : ContainerState}
    (pending : Option PendingUpdate) (hc : s.container = some c)
    (horiginal : c'.originalResources = c.originalResources) :
    (s.update c' pending).RecordsRuntime := by
  rintro _ original ⟨⟩ hrecorded
  exact h c original hc (horiginal ▸ hrecorded)

/-- The container was reported, so its resources are recorded. -/
theorem grounded_of_recorded (hc : s.container = some c) (horiginal : c.originalResources ≠ none) :
    s.Grounded := by
  constructor
  · intro habsent
    rw [hc] at habsent
    cases habsent
  · intro c' hc' hnone
    cases hc.symm.trans hc'
    exact absurd hnone horiginal

end RemediationState

namespace ContainerState

theorem recordResourceUpdate_ne_none (p : Percents) (current : LinuxResources)
    (c : ContainerState) : (c.recordResourceUpdate p (some current)).originalResources ≠ none := by
  cases h : c.originalResources with
  | none => simp [recordResourceUpdate_unrecorded h]
  | some original =>
    obtain ⟨recorded, hrecorded, _⟩ := recordResourceUpdate_limits h p current
    simp [hrecorded]

end ContainerState

namespace RemediationState

theorem step_grounded (s : RemediationState) (op : RemediationOp) (t : RemediationState)
    (h : s.Grounded) (hstep : s.step op = some t) : t.Grounded := by
  cases op with
  | create | setRemediationConfig | updateFailed | commit =>
    constructor <;> grind [step, Grounded]
  | reverify degraded permitted =>
    obtain ⟨c, hc, rfl⟩ := Option.map_eq_some_iff.mp hstep
    refine h.update hc (ContainerState.applyStateTransition_original _ _ _ _) ?_
    intro u hu
    obtain ⟨-, original, horiginal, -⟩ := ContainerState.applyStateTransition_pending hu
    simp [horiginal]
  | release =>
    obtain ⟨c, hc, rfl⟩ := Option.map_eq_some_iff.mp hstep
    refine h.update hc rfl ?_
    intro u hu
    obtain ⟨original, horiginal, _⟩ := ContainerState.releaseThrottled_pending hu
    simp [horiginal]
  | applyUpdate i reported =>
    simp only [step] at hstep
    split at hstep
    · split at hstep
      · cases hstep
        exact grounded_of_recorded rfl (ContainerState.recordResourceUpdate_ne_none _ _ _)
      · cases hstep
    · cases hstep
  | resize update reported =>
    obtain ⟨c, hc, hresize⟩ := Option.bind_eq_some_iff.mp hstep
    dsimp only at hresize
    split at hresize
    · cases hresize
      exact grounded_of_recorded rfl (ContainerState.recordResourceUpdate_ne_none _ _ _)
    · cases hresize

/-- What a report leaves recorded, compared with what the runtime has set by
then. -/
theorem reported_recordsRuntime_iff {s t : RemediationState} (h : s.RecordsRuntime)
    {c : ContainerState} (hc : s.container = some c) {original reported : LinuxResources}
    (horiginal : c.originalResources = some original)
    (ht : t.container = some (c.recordResourceUpdate s.percents (some reported))) :
    t.RecordsRuntime ↔
      (s.runtimeSet.ShowsThrottle s.percents reported.limits → t.runtimeSet = s.runtimeSet) ∧
      (¬s.runtimeSet.ShowsThrottle s.percents reported.limits →
        reported.limits = t.runtimeSet) := by
  obtain ⟨recorded, hrecorded, hthrottle, hother⟩ :=
    ContainerState.recordResourceUpdate_limits horiginal s.percents reported
  rw [h c original hc horiginal] at hthrottle hother
  have hrecords : t.RecordsRuntime ↔ recorded.limits = t.runtimeSet := by
    constructor
    · intro ht'
      exact ht' _ recorded ht hrecorded
    · intro hlimits c' original' hc' horiginal'
      cases ht.symm.trans hc'
      cases hrecorded.symm.trans horiginal'
      exact hlimits
  rw [hrecords]
  by_cases hshows : s.runtimeSet.ShowsThrottle s.percents reported.limits
  · simp only [hthrottle hshows, hshows, forall_const, not_true_eq_false, false_imp_iff, and_true]
    exact eq_comm
  · simp [hother hshows, hshows]

/-- A step keeps the recorded limits right exactly when its update is seen for what
it is. -/
theorem step_recordsRuntime_iff (s : RemediationState) (op : RemediationOp)
    (t : RemediationState) (hs : s.Grounded) (h : s.RecordsRuntime) (hstep : s.step op = some t) :
    t.RecordsRuntime ↔ s.Seen op := by
  cases op with
  | create resources verified =>
    refine iff_of_true ?_ trivial
    simp only [step] at hstep
    split at hstep
    · cases hstep
    · cases hstep
      rintro _ original ⟨⟩ hrecorded
      cases verified with
      | false => cases hrecorded
      | true =>
        have hresources : resources = some original := hrecorded
        simp [hresources]
  | setRemediationConfig cfg =>
    cases hstep
    exact iff_of_true h trivial
  | reverify degraded permitted =>
    obtain ⟨c, hc, rfl⟩ := Option.map_eq_some_iff.mp hstep
    exact iff_of_true
      (h.update _ hc (ContainerState.applyStateTransition_original _ _ _ _)) trivial
  | release =>
    obtain ⟨c, hc, rfl⟩ := Option.map_eq_some_iff.mp hstep
    exact iff_of_true (h.update _ hc rfl) trivial
  | applyUpdate i reported =>
    simp only [step] at hstep
    split at hstep
    · next c u hc hu =>
      split at hstep
      · next hreported =>
        cases hstep
        obtain ⟨original, horiginal⟩ := hs.recorded hc hu
        rw [reported_recordsRuntime_iff h hc horiginal rfl, hreported]
        simp only [Seen, hu, Option.some.injEq, forall_eq', UpdateCurrent]
        change (_ → s.runtimeSet = s.runtimeSet) ∧ (_ → _ = s.runtimeSet) ↔ _
        tauto
      · cases hstep
    · cases hstep
  | updateFailed i =>
    cases hstep
    exact iff_of_true h trivial
  | commit i =>
    simp only [step] at hstep
    split at hstep
    · next c state hc _ =>
      cases hstep
      refine iff_of_true ?_ trivial
      rintro _ original ⟨⟩ hrecorded
      exact h c original hc hrecorded
    · cases hstep
  | resize update reported =>
    obtain ⟨c, hc, hresize⟩ := Option.bind_eq_some_iff.mp hstep
    dsimp only at hresize
    split at hresize
    · next hreported =>
      cases hresize
      cases horiginal : c.originalResources with
      | none =>
        have hlive := (hs.unrecorded c hc horiginal).1
        refine iff_of_true ?_ ?_
        · rintro _ original ⟨⟩ hrecorded
          rw [ContainerState.recordResourceUpdate_unrecorded horiginal] at hrecorded
          cases hrecorded
          rw [hreported, hlive]
        · intro c' hc' hne
          cases hc.symm.trans hc'
          exact absurd horiginal hne
      | some original =>
        rw [reported_recordsRuntime_iff h hc horiginal rfl, hreported]
        have hseen : s.Seen (.resize update reported) ↔ s.ResizeVisible update := by
          simp [Seen, hc, horiginal]
        rw [hseen, ResizeVisible, ← Limits.overlay_eq_overlay_iff]
    · cases hresize

end RemediationState

def remediationMachine : Machine RemediationState RemediationOp where
  initial s := ∃ cfg, s = ⟨cfg, none, Limits.unset, [], [], Limits.unset⟩
  step := RemediationState.step

/-- In every run the recorded limits are in every state those the runtime set,
exactly when every plugin update is applied while it is current and every update
of the runtime is visible as such. -/
theorem recorded_limits_follow_runtime_iff {s t : RemediationState} {ops : List RemediationOp}
    (hinit : remediationMachine.initial s) (hrun : remediationMachine.exec s ops = some t) :
    remediationMachine.Always RemediationState.RecordsRuntime s ops ↔
      remediationMachine.AllAllowed RemediationState.Seen s ops := by
  obtain ⟨cfg, rfl⟩ := hinit
  refine Machine.always_iff_allAllowed RemediationState.step_grounded
    RemediationState.step_recordsRuntime_iff ⟨fun _ => rfl, ?_⟩ ?_ hrun
  · intro c hc
    cases hc
  · intro c original hc
    cases hc

/-- A container with all three limits and no other settings. -/
def limited (quota : Int64) (shares : UInt64) (memory : Int64) : LinuxResources :=
  ⟨some ⟨some quota, some shares, 0⟩, some ⟨some memory, 0⟩, 0⟩

/-- The plugin throttles CPU to one half and leaves memory alone. -/
def untracked : RemediationState :=
  ⟨some ⟨50, 100⟩, none, Limits.unset, [], [], Limits.unset⟩

/-- A container is created, degrades and is throttled. -/
def throttledRun : List RemediationOp :=
  [.create (some (limited 100000 1024 536870912)) true, .reverify true true, .reverify true true,
    .applyUpdate 0 (limited 50000 512 536870912), .commit 0]

/-- The runtime then resizes all limits. -/
def resizedRun : List RemediationOp :=
  throttledRun ++ [.resize (limited 400000 4096 1073741824) (limited 400000 4096 1073741824)]

theorem resizedRun_seen :
    remediationMachine.AllAllowed RemediationState.Seen untracked resizedRun := by
  refine .cons rfl trivial (.cons rfl trivial (.cons rfl trivial (.cons rfl ?_ (.cons rfl trivial
    (.cons rfl ?_ trivial)))))
  · rintro _ ⟨⟩
    right
    decide
  · rintro _ ⟨⟩ _
    refine ⟨fun hshows => absurd hshows (by decide), ?_⟩
    intro _ k hk
    cases k <;> cases hk

/-- A resize of all limits of the throttled container is recorded. -/
theorem full_resize_recorded :
    remediationMachine.Always RemediationState.RecordsRuntime untracked
      (throttledRun ++ [.resize (limited 400000 4096 1073741824)
        (limited 400000 4096 1073741824)]) :=
  (recorded_limits_follow_runtime_iff ⟨_, rfl⟩ rfl).mpr resizedRun_seen

/-- The runtime doubles the memory limit of the throttled container. The result
still looks like the throttle, so the resize is not recorded, and the rollback
after a passing verification undoes it. -/
theorem memory_resize_undone :
    ∃ s, remediationMachine.exec untracked (throttledRun ++
        [.resize ⟨none, some ⟨some 1073741824, 0⟩, 0⟩ (limited 50000 512 1073741824)]) = some s ∧
      ¬s.RecordsRuntime ∧
      ∃ t, remediationMachine.exec s
          [.reverify false false, .applyUpdate 0 (limited 100000 1024 536870912)] = some t ∧
        t.runtimeSet .memory = some (1073741824 : Int64) ∧
        t.live .memory = some (536870912 : Int64) := by
  refine ⟨_, rfl, ?_, _, rfl, rfl, rfl⟩
  intro h
  have hmemory := congrFun (h _ _ rfl rfl) .memory
  exact absurd hmemory (by decide)

/-- While every step is seen, the update after a passing verification is a rollback to exactly
the limits the runtime set, and the one after a failing verification is the throttle of them. -/
theorem built_updates_follow_runtime {s t : RemediationState} (degraded permitted : Bool)
    {u : PendingUpdate} (hs : remediationMachine.ReachableVia RemediationState.Seen s)
    (hstep : s.step (.reverify degraded permitted) = some t) (hu : t.pending = s.pending ++ [u]) :
    degraded = false ∧ u.commit = .verified ∧ u.resources.limits = s.runtimeSet ∨
      degraded = true ∧ u.commit = .throttled ∧
        u.resources.limits = s.runtimeSet.throttle s.percents := by
  have h : s.Grounded ∧ s.RecordsRuntime := by
    refine hs.invariant (I := fun s => s.Grounded ∧ s.RecordsRuntime) ?_ ?_
    · rintro _ ⟨cfg, rfl⟩
      exact ⟨⟨fun _ => rfl, by simp⟩, by simp [RemediationState.RecordsRuntime]⟩
    · intro s e t h hseen ht
      exact ⟨RemediationState.step_grounded s e t h.1 ht,
        (RemediationState.step_recordsRuntime_iff s e t h.1 h.2 ht).mpr hseen⟩
  obtain ⟨c, hc, rfl⟩ := Option.map_eq_some_iff.mp hstep
  have hbuilt : (c.applyStateTransition s.percents degraded permitted).2 = some u :=
    Option.toList_eq_singleton_iff.mp (List.append_cancel_left hu)
  obtain ⟨-, original, horiginal, hupdate⟩ := ContainerState.applyStateTransition_pending hbuilt
  rw [← h.2 c original hc horiginal]
  rcases hupdate with ⟨hpassed, -, rfl⟩ | ⟨hfailed, -, rfl⟩
  · exact .inl ⟨hpassed, rfl, buildRollbackUpdate_limits original⟩
  · exact .inr ⟨hfailed, rfl, buildThrottleUpdate_limits s.percents original⟩

/-- After a throttle that was applied and a resize, the next throttle is that of the new limits. -/
theorem built_updates_follow_runtime_resized : ∃ s t : RemediationState, ∃ u : PendingUpdate,
    remediationMachine.exec untracked resizedRun = some s ∧
      s.step (.reverify true true) = some t ∧ t.pending = s.pending ++ [u] ∧
      u.commit = .throttled ∧ u.resources.limits = s.runtimeSet.throttle s.percents := by
  have hs : remediationMachine.ReachableVia RemediationState.Seen _ :=
    .exec (.start ⟨_, rfl⟩) resizedRun_seen rfl
  refine ⟨_, _, _, rfl, rfl, rfl, ?_⟩
  rcases built_updates_follow_runtime true true hs rfl rfl with ⟨hpassed, -⟩ | ⟨-, hthrottle⟩
  · cases hpassed
  · exact hthrottle

end NriSupplyChain.Plugin
