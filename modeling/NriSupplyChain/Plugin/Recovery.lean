import NriSupplyChain.Plugin.Resizes

/-!
What a restarted plugin knows about a container. The registry is gone; the limits
the container was admitted with are in one of its annotations, and the runtime
reports its current ones. The annotation is written at creation only, so the
record is right exactly as long as the runtime's own limits are still those.

JSON is not modelled: an annotation is the record it decodes to, or invalid.
-/

namespace NriSupplyChain.Plugin

open Lib

structure OriginalResourcesRecord where
  cpuQuota : Option Int64
  cpuShares : Option UInt64
  memoryLimit : Option Int64
deriving DecidableEq

/-- A value of `AnnotationOriginalResources`. -/
inductive AnnotationValue where
  | record (r : OriginalResourcesRecord)
  | invalid

/-- The limits of resources that may be nil. -/
def limitsOf (res : Option LinuxResources) : Limits :=
  (res.map LinuxResources.limits).getD Limits.unset

def originalResourcesAnnotation (res : Option LinuxResources) : Option AnnotationValue :=
  let record : OriginalResourcesRecord :=
    ⟨limitsOf res .quota, limitsOf res .shares, limitsOf res .memory⟩
  if record.cpuQuota = none ∧ record.cpuShares = none ∧ record.memoryLimit = none then none
  else some (.record record)

def decodeOriginalResources : AnnotationValue → Option LinuxResources
  | .invalid => none
  | .record record => some
      { cpu :=
          if record.cpuQuota.isSome || record.cpuShares.isSome then
            some ⟨record.cpuQuota, record.cpuShares, 0⟩
          else none
        memory := record.memoryLimit.map fun limit => ⟨some limit, 0⟩
        settings := 0 }

/-- The original resources and whether they are trusted. -/
def recoveredOriginalResources (value : Option AnnotationValue)
    (current : Option LinuxResources) : Option LinuxResources × Bool :=
  match value.bind decodeOriginalResources with
  | none => (current, false)
  | some decoded => (some decoded, true)

/-- `recoverContainerState` of a container that is not tracked. -/
def recoverContainerState (p : Percents) (value : Option AnnotationValue)
    (current : Option LinuxResources) : ContainerState :=
  let (original, trusted) := recoveredOriginalResources value current
  let throttled := trusted &&
    current.any fun current => original.any fun original => looksThrottled p current original
  { state := if throttled then .throttled else .verified
    originalResources := original
    recoveredOnRestart := !trusted }

def OriginalResourcesRecord.limits (r : OriginalResourcesRecord) : Limits
  | .quota => r.cpuQuota
  | .shares => r.cpuShares
  | .memory => r.memoryLimit

/-- Decoding gives resources with exactly the limits of the record. -/
theorem decodeOriginalResources_limits (r : OriginalResourcesRecord) :
    ∃ decoded, decodeOriginalResources (.record r) = some decoded ∧ decoded.limits = r.limits := by
  refine ⟨_, rfl, ?_⟩
  obtain ⟨quota, shares, memory⟩ := r
  funext k
  cases k with
  | quota => cases quota <;> cases shares <;> rfl
  | shares => cases quota <;> cases shares <;> rfl
  | memory => cases memory <;> rfl

theorem originalResourcesAnnotation_of_unset {res : Option LinuxResources}
    (h : limitsOf res = Limits.unset) : originalResourcesAnnotation res = none := by
  apply if_pos
  rw [h]
  exact ⟨rfl, rfl, rfl⟩

/-- Resources with some limit are annotated with their limits. -/
theorem originalResourcesAnnotation_of_set {res : Option LinuxResources}
    (h : limitsOf res ≠ Limits.unset) :
    ∃ r, originalResourcesAnnotation res = some (.record r) ∧ r.limits = limitsOf res := by
  refine ⟨⟨limitsOf res .quota, limitsOf res .shares, limitsOf res .memory⟩, ?_, ?_⟩
  · refine if_neg ?_
    rintro ⟨hquota, hshares, hmemory⟩
    apply h
    funext k
    cases k with
    | quota => exact hquota
    | shares => exact hshares
    | memory => exact hmemory
  · funext k
    cases k <;> rfl

/-- A request to create a container. -/
structure Creation where
  resources : Option LinuxResources
  /-- Whether the container is admitted verified; one without a digest is tracked
  without its resources. -/
  verified : Bool
  /-- The annotation the container already comes with. -/
  preset : Option AnnotationValue

namespace Creation

def originalResources (r : Creation) : Option LinuxResources :=
  if r.verified then r.resources else none

/-- `admittedAdjustment` adds the annotation over one that is there. -/
def annotatedValue (r : Creation) : Option AnnotationValue :=
  match originalResourcesAnnotation r.originalResources with
  | some value => some value
  | none => r.preset

/-- The limits the container is annotated with: those it was admitted with, or else
those of a record it came with. -/
def namedLimits (r : Creation) : Option Limits :=
  if limitsOf r.originalResources ≠ Limits.unset then some (limitsOf r.originalResources)
  else
    match r.preset with
    | some (.record record) => some record.limits
    | _ => none

/-- The annotation decodes to the named limits, if there are any. -/
theorem annotatedValue_decodes (r : Creation) :
    (r.annotatedValue.bind decodeOriginalResources).map LinuxResources.limits = r.namedLimits := by
  unfold annotatedValue namedLimits
  by_cases hset : limitsOf r.originalResources ≠ Limits.unset
  · obtain ⟨record, hvalue, hlimits⟩ := originalResourcesAnnotation_of_set hset
    obtain ⟨decoded, hdecoded, hdecodedLimits⟩ := decodeOriginalResources_limits record
    rw [if_pos hset, hvalue]
    simp only [Option.bind_some, hdecoded, Option.map_some]
    rw [hdecodedLimits, hlimits]
  · rw [if_neg hset, originalResourcesAnnotation_of_unset (not_not.mp hset)]
    match r.preset with
    | none => rfl
    | some .invalid => rfl
    | some (.record record) =>
      obtain ⟨decoded, hdecoded, hdecodedLimits⟩ := decodeOriginalResources_limits record
      simp only [Option.bind_some, hdecoded, Option.map_some, hdecodedLimits]

end Creation

/-- A container without a valid annotation is recovered with its current
resources. -/
theorem recover_unannotated {value : Option AnnotationValue} (p : Percents)
    (current : Option LinuxResources)
    (h : (value.bind decodeOriginalResources).map LinuxResources.limits = none) :
    recoverContainerState p value current = ⟨.verified, current, true⟩ := by
  have hnone : value.bind decodeOriginalResources = none := Option.map_eq_none_iff.mp h
  simp [recoverContainerState, recoveredOriginalResources, hnone]

/-- A container with a valid annotation is recovered with the annotated limits, and
as throttled exactly when its current limits show a throttle of them. -/
theorem recover_annotated {value : Option AnnotationValue} {limits : Limits} (p : Percents)
    (current : Option LinuxResources)
    (h : (value.bind decodeOriginalResources).map LinuxResources.limits = some limits) :
    limitsOf (recoverContainerState p value current).originalResources = limits ∧
      ((recoverContainerState p value current).state = .throttled ↔
        limits.ShowsThrottle p (limitsOf current)) := by
  obtain ⟨decoded, hdecoded, rfl⟩ := Option.map_eq_some_iff.mp h
  have hrecovered : recoverContainerState p value current =
      { state :=
          if current.any fun current => looksThrottled p current decoded then .throttled
          else .verified
        originalResources := some decoded
        recoveredOnRestart := false } := by
    simp [recoverContainerState, recoveredOriginalResources, hdecoded]
  rw [hrecovered]
  refine ⟨rfl, ?_⟩
  cases current with
  | none =>
    refine iff_of_false (by simp) ?_
    rintro ⟨hmatches, k, v, hv, _⟩
    cases hmatches k v hv
  | some current =>
    rw [show limitsOf (some current) = current.limits from rfl, ← looksThrottled_iff]
    by_cases hlooks : looksThrottled p current decoded = true <;> simp [hlooks]

/-- What the runtime itself has set after a history, starting from `limits`. -/
def lastSet (limits : Limits) : List RemediationOp → Limits
  | [] => limits
  | .create resources _ :: rest => lastSet (limitsOf resources) rest
  | .resize update _ :: rest => lastSet (update.limits.overlay limits) rest
  | _ :: rest => lastSet limits rest

namespace RemediationState

theorem step_runtimeSet {s t : RemediationState} {op : RemediationOp}
    (h : s.step op = some t) : t.runtimeSet = lastSet s.runtimeSet [op] := by
  cases op with
  | create resources verified =>
    simp only [step] at h
    split at h
    · cases h
    · cases h
      rfl
  | setRemediationConfig cfg =>
    cases h
    rfl
  | reverify degraded permitted =>
    obtain ⟨c, _, rfl⟩ := Option.map_eq_some_iff.mp h
    rfl
  | release =>
    obtain ⟨c, _, rfl⟩ := Option.map_eq_some_iff.mp h
    rfl
  | applyUpdate i reported =>
    simp only [step] at h
    split at h
    · obtain ⟨_, hnext⟩ := Option.ite_none_right_eq_some.mp h
      cases hnext
      rfl
    · cases h
  | updateFailed i =>
    cases h
    rfl
  | commit i =>
    simp only [step] at h
    split at h
    · cases h
      rfl
    · cases h
  | resize update reported =>
    obtain ⟨c, _, hresize⟩ := Option.bind_eq_some_iff.mp h
    obtain ⟨_, hnext⟩ := Option.ite_none_right_eq_some.mp hresize
    cases hnext
    rfl

/-- `runtimeSet` is the trace of the creation and the resizes of a run. -/
theorem exec_runtimeSet {s t : RemediationState} {ops : List RemediationOp}
    (h : remediationMachine.exec s ops = some t) : t.runtimeSet = lastSet s.runtimeSet ops := by
  induction ops generalizing s with
  | nil =>
    cases h
    rfl
  | cons op rest ih =>
    obtain ⟨u, hu, hrest⟩ := Option.bind_eq_some_iff.mp h
    have hstep : u.runtimeSet = lastSet s.runtimeSet [op] := step_runtimeSet hu
    rw [ih hrest, hstep]
    cases op <;> rfl

end RemediationState

/-- The history of a container from its creation to the restart of the plugin. -/
def RunsTo (cfg : Option ThrottleConfig) (creation : Creation) (ops : List RemediationOp)
    (s : RemediationState) : Prop :=
  remediationMachine.exec ⟨cfg, none, Limits.unset, [], [], Limits.unset⟩
    (.create creation.resources creation.verified :: ops) = some s

theorem RunsTo.runtimeSet {cfg : Option ThrottleConfig} {creation : Creation}
    {ops : List RemediationOp} {s : RemediationState} (h : RunsTo cfg creation ops s) :
    s.runtimeSet = lastSet (limitsOf creation.resources) ops :=
  RemediationState.exec_runtimeSet h

def RemediationState.Throttled (s : RemediationState) : Prop :=
  ∃ c, s.container = some c ∧ c.state = .throttled

/-- A container is recovered with the limits the runtime last set, and as throttled
if it was. -/
def RemediationState.RecoveredAs (s : RemediationState) (recovered : ContainerState) : Prop :=
  limitsOf recovered.originalResources = s.runtimeSet ∧
    (s.Throttled → recovered.state = .throttled)

/-- The recovery of a container after any history. It is right exactly when the
annotated limits (without an annotation, the current ones) are those the runtime
last set, and a throttled container has the limits of a throttle of the annotated
ones. -/
theorem restart_recovers_iff {cfg : Option ThrottleConfig} {creation : Creation}
    {ops : List RemediationOp} {s : RemediationState} {reported : Option LinuxResources}
    (hrun : RunsTo cfg creation ops s) (hreported : limitsOf reported = s.live) :
    s.RecoveredAs (recoverContainerState s.percents creation.annotatedValue reported) ↔
      creation.namedLimits.getD s.live = lastSet (limitsOf creation.resources) ops ∧
        (s.Throttled → ∃ limits, creation.namedLimits = some limits ∧
          limits.ShowsThrottle s.percents s.live) := by
  rw [RemediationState.RecoveredAs, hrun.runtimeSet]
  have hdecodes := creation.annotatedValue_decodes
  cases hnamed : creation.namedLimits with
  | none =>
    rw [hnamed] at hdecodes
    rw [recover_unannotated _ _ hdecodes]
    simp [hreported]
  | some limits =>
    rw [hnamed] at hdecodes
    obtain ⟨hlimits, hstate⟩ := recover_annotated s.percents reported hdecodes
    rw [hlimits, hstate, hreported]
    simp

/-- A container that is throttled to half of its CPU. -/
def halved : Option ThrottleConfig := some ⟨50, 100⟩

def admitted : Creation := ⟨some (limited 100000 1024 536870912), true, none⟩

/-- The container degrades and is throttled to `limits`. -/
def throttledTo (limits : LinuxResources) : List RemediationOp :=
  [.reverify true true, .reverify true true, .applyUpdate 0 limits, .commit 0]

/-- A throttled container that was never resized is recovered as it was. -/
theorem restart_recovers_throttled :
    ∃ s, RunsTo halved admitted (throttledTo (limited 50000 512 536870912)) s ∧ s.Throttled ∧
      s.RecoveredAs (recoverContainerState s.percents admitted.annotatedValue
        (some (limited 50000 512 536870912))) := by
  refine ⟨_, rfl, ⟨_, rfl, rfl⟩, (restart_recovers_iff (show RunsTo halved admitted
    (throttledTo (limited 50000 512 536870912)) _ from rfl) ?_).mpr ⟨?_, ?_⟩⟩
  · decide
  · decide
  · intro _
    exact ⟨_, rfl, by decide⟩

/-- A container that was resized before it was throttled is recovered as verified, with
the limits it was created with. -/
theorem restart_forgets_resize :
    ∃ s, RunsTo halved admitted
        (.resize (limited 300000 3072 536870912) (limited 300000 3072 536870912) ::
          throttledTo (limited 150000 1536 536870912)) s ∧
      s.Throttled ∧ s.runtimeSet .quota = some (300000 : Int64) ∧
      recoverContainerState s.percents admitted.annotatedValue
          (some (limited 150000 1536 536870912)) =
        ⟨.verified, some (limited 100000 1024 536870912), false⟩ := by
  exact ⟨_, rfl, ⟨_, rfl, rfl⟩, rfl, rfl⟩

end NriSupplyChain.Plugin
