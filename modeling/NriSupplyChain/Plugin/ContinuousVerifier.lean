import NriSupplyChain.Plugin.Recovery

/-!
The continuous verifier and one container. A cycle re-verifies the container,
decides on an update under the lock of the registry, sends it to the runtime and
records the new state once the runtime has answered; stopping the verifier does the
same for the rollback of a throttled container. Between any two of these steps the
runtime may update or remove the container, a pre-warm result may arrive and the
remediation settings may change.

Cycles run one after the other. A release is not ordered with them, which allows
more interleavings than the source does.
-/

namespace NriSupplyChain.Plugin

open Lib

inductive RemediationMode where
  | disabled
  | warn
  | throttle
  | evict
deriving DecidableEq, Repr

def RemediationMode.severity : RemediationMode → Int
  | .disabled => -1
  | .warn => 0
  | .throttle => 1
  | .evict => 2

inductive Trigger where
  | timer
  | feed
  | policyChange
deriving DecidableEq, Repr

/-- The remediation settings the verifier reads besides the mode. -/
structure RemediationConfig where
  throttle : ThrottleConfig
  /-- In nanoseconds. -/
  cooldown : Int

def defaultRemediationCooldown : Int := 300000000000

def consecutiveErrorThreshold : Nat := 3

/-- The fields of `containerState` the verifier reads or writes. -/
structure TrackedContainer where
  record : ContainerState
  lastRemediation : Option Int
  lastTriggerHash : List Char
  awaitingFirstResult : Bool
  consecutiveErrors : Nat
  consecutiveIncomplete : Nat

/-- An error of a verification; a failed one comes with its result. -/
inductive VerifyError where
  | verificationFailed
  | other

structure ReverifyResult where
  incomplete : Bool
  verified : Bool

inductive Outcome where
  | error
  | incomplete
  | complete (verified : Bool)
deriving DecidableEq, Repr

/-- How `reverifyContainer` reads what the verifier returned. -/
def reverifyOutcome : Option ReverifyResult → Option VerifyError → Outcome
  | none, _ => .error
  | some _, some .other => .error
  | some result, _ => if result.incomplete then .incomplete else .complete result.verified

/-- An update on its way to the runtime, with the trigger it was decided for. -/
structure Flight where
  update : PendingUpdate
  triggerHash : List Char

namespace TrackedContainer

def recordIncompleteReverification (c : TrackedContainer) : TrackedContainer :=
  { c with consecutiveIncomplete := c.consecutiveIncomplete + 1 }

def handleReverifyError (c : TrackedContainer) : TrackedContainer :=
  let consecutiveErrors := c.consecutiveErrors + 1
  let degrades := consecutiveErrors ≥ consecutiveErrorThreshold ∧
    (c.record.state = .verified ∨ c.record.state = .skipped)
  { c with
    consecutiveErrors
    record := { c.record with state := if degrades then .degraded else c.record.state } }

def resetCounters (c : TrackedContainer) : TrackedContainer :=
  { c with consecutiveErrors := 0, consecutiveIncomplete := 0 }

def cooldownElapsed (cfg : Option RemediationConfig) (now : Int) (c : TrackedContainer) : Bool :=
  match c.lastRemediation with
  | none => true
  | some last =>
    let cooldown := match cfg with
      | some cfg => if cfg.cooldown > 0 then cfg.cooldown else defaultRemediationCooldown
      | none => defaultRemediationCooldown
    decide (now - last > cooldown)

/-- What `shouldThrottle` asks besides trusted original resources. -/
def permitsThrottle (cfg : Option RemediationConfig) (mode : RemediationMode) (trigger : Trigger)
    (triggerHash : List Char) (now : Int) (c : TrackedContainer) : Bool :=
  decide (RemediationMode.throttle.severity ≤ mode.severity) && c.cooldownElapsed cfg now &&
    (decide (trigger = .timer) || decide (c.lastTriggerHash ≠ triggerHash))

def applyStateTransition (p : Percents) (degraded permitted : Bool) (triggerHash : List Char)
    (c : TrackedContainer) : TrackedContainer × Option PendingUpdate :=
  let (record, pending) := c.record.applyStateTransition p degraded permitted
  let degrades := degraded ∧ (c.record.state = .verified ∨ c.record.state = .skipped)
  ({ c with
      record
      awaitingFirstResult := false
      lastTriggerHash := if degrades then triggerHash else c.lastTriggerHash }, pending)

def recordResourceUpdate (p : Percents) (current : Option LinuxResources) (c : TrackedContainer) :
    TrackedContainer :=
  { c with record := c.record.recordResourceUpdate p current }

/-- `recordPrewarmResult` for a complete result; `current` says that the run was not
cancelled and verified the image of the container. -/
def recordPrewarmResult (remediate verified current : Bool) (triggerHash : List Char)
    (c : TrackedContainer) : TrackedContainer :=
  if !current || !c.awaitingFirstResult then c
  else if !remediate || verified || c.record.state ≠ .verified then
    { c with awaitingFirstResult := false }
  else
    { c with
      awaitingFirstResult := false
      record := { c.record with state := .degraded }
      lastTriggerHash := triggerHash }

/-- The commit of an update the runtime has applied. -/
def commit (f : Flight) (now : Int) (c : TrackedContainer) : TrackedContainer :=
  let throttles := f.update.commit = .throttled
  { c with
    record := { c.record with state := f.update.commit }
    lastRemediation := if throttles then some now else c.lastRemediation
    lastTriggerHash := if throttles then f.triggerHash else c.lastTriggerHash }

end TrackedContainer

/-- The two places updates are sent from. -/
inductive Worker where
  | cycle
  | release
deriving DecidableEq, Repr

inductive WorkerPhase where
  | idle
  | verifying (mode : RemediationMode) (trigger : Trigger)
  | decided (mode : RemediationMode) (trigger : Trigger) (degraded : Bool)
  | ready (f : Flight)
  | sent (f : Flight)
  | accepted (f : Flight)

def WorkerPhase.ofUpdate (triggerHash : List Char) : Option PendingUpdate → WorkerPhase
  | none => .idle
  | some update => .ready ⟨update, triggerHash⟩

/-- The update a worker is about to send or record. -/
def WorkerPhase.flight : WorkerPhase → Option Flight
  | .ready f | .sent f | .accepted f => some f
  | _ => none

structure VerifierState where
  mode : RemediationMode
  cfg : Option RemediationConfig
  /-- The entry of the container registry. -/
  container : Option TrackedContainer
  /-- The limits the container runs with. -/
  live : Limits
  phase : Worker → WorkerPhase
  /-- The last answer of the runtime to each worker; no modelled function reads
  it. -/
  answered : Worker → Option (Flight × Bool)

inductive VerifierEvent where
  | setRemediation (mode : RemediationMode) (cfg : Option RemediationConfig)
  | startCycle (trigger : Trigger)
  /-- The container is not re-verified: filtered, without a digest, or the verifier
  was stopped. -/
  | skipTarget
  | reverified (result : Option ReverifyResult) (err : Option VerifyError)
  | transition (triggerHash : List Char) (now : Int)
  | release
  /-- The verifier is stopped, or there is no connection to send the update on. -/
  | drop (w : Worker)
  | send (w : Worker)
  | answer (w : Worker) (accepted : Bool)
  | commit (w : Worker) (now : Int)
  /-- The runtime updates the container itself. -/
  | resize (update : Limits)
  | postUpdateContainer (reported : Option LinuxResources)
  | prewarmed (remediate verified current : Bool) (triggerHash : List Char)
  | remove

namespace VerifierState

def percents (s : VerifierState) : Percents :=
  throttlePercents (s.cfg.map fun cfg => cfg.throttle)

/-- `UpdateState`: a container that was removed is left alone. -/
def updateState (s : VerifierState) (updateFn : TrackedContainer → TrackedContainer) :
    VerifierState :=
  { s with container := s.container.map updateFn }

def setPhase (s : VerifierState) (w : Worker) (phase : WorkerPhase) : VerifierState :=
  { s with phase := Function.update s.phase w phase }

/-- What the runtime answered; an accepted update is in effect. -/
def answer (s : VerifierState) (w : Worker) (f : Flight) (accepted : Bool) : VerifierState :=
  { s with
    live := if accepted then f.update.resources.limits.overlay s.live else s.live
    phase := Function.update s.phase w (if accepted then .accepted f else .idle)
    answered := Function.update s.answered w (some (f, accepted)) }

/-- The step of `reverifyContainer` after the verification. -/
def reverified (s : VerifierState) (mode : RemediationMode) (trigger : Trigger) :
    Outcome → VerifierState
  | .error => (s.updateState TrackedContainer.handleReverifyError).setPhase .cycle .idle
  | .incomplete =>
    (s.updateState TrackedContainer.recordIncompleteReverification).setPhase .cycle .idle
  | .complete verified =>
    (s.updateState TrackedContainer.resetCounters).setPhase .cycle
      (.decided mode trigger (!verified))

def transition (s : VerifierState) (mode : RemediationMode) (trigger : Trigger) (degraded : Bool)
    (triggerHash : List Char) (now : Int) : VerifierState :=
  match s.container with
  | none => s.setPhase .cycle .idle
  | some c =>
    let permitted := c.permitsThrottle s.cfg mode trigger triggerHash now
    let (c, pending) := c.applyStateTransition s.percents degraded permitted triggerHash
    { s with container := some c }.setPhase .cycle (.ofUpdate triggerHash pending)

def step (s : VerifierState) : VerifierEvent → Option VerifierState
  | .setRemediation mode cfg => some { s with mode, cfg }
  | .startCycle trigger =>
    match s.phase .cycle, s.container with
    | .idle, some _ => some (s.setPhase .cycle (.verifying s.mode trigger))
    | _, _ => none
  | .skipTarget =>
    match s.phase .cycle with
    | .verifying _ _ => some (s.setPhase .cycle .idle)
    | _ => none
  | .reverified result err =>
    match s.phase .cycle with
    | .verifying mode trigger => some (s.reverified mode trigger (reverifyOutcome result err))
    | _ => none
  | .transition triggerHash now =>
    match s.phase .cycle with
    | .decided mode trigger degraded =>
      some (s.transition mode trigger degraded triggerHash now)
    | _ => none
  | .release =>
    match s.phase .release, s.container with
    | .idle, some c =>
      some (s.setPhase .release (.ofUpdate [] c.record.releaseThrottled))
    | _, _ => none
  | .drop w =>
    match s.phase w with
    | .ready _ => some (s.setPhase w .idle)
    | _ => none
  | .send w =>
    match s.phase w with
    | .ready f => some (s.setPhase w (.sent f))
    | _ => none
  | .answer w accepted =>
    match s.phase w with
    | .sent f => some (s.answer w f accepted)
    | _ => none
  | .commit w now =>
    match s.phase w with
    | .accepted f => some ((s.updateState (·.commit f now)).setPhase w .idle)
    | _ => none
  | .resize update => some { s with live := update.overlay s.live }
  | .postUpdateContainer reported =>
    some (s.updateState (·.recordResourceUpdate s.percents reported))
  | .prewarmed remediate verified current triggerHash =>
    some (s.updateState (·.recordPrewarmResult remediate verified current triggerHash))
  | .remove => some { s with container := none }

end VerifierState

/-- Containers as admission and the synchronization with the runtime track them. -/
inductive Registered : TrackedContainer → Prop where
  | verified (resources : Option LinuxResources) :
      Registered ⟨⟨.verified, resources, false⟩, none, [], false, 0, 0⟩
  | withoutDigest : Registered ⟨⟨.skipped, none, false⟩, none, [], false, 0, 0⟩
  | synchronized (p : Percents) (value : Option AnnotationValue)
      (current : Option LinuxResources) :
      Registered ⟨recoverContainerState p value current, none, [], true, 0, 0⟩

def verifierMachine : Machine VerifierState VerifierEvent where
  initial s := ∃ mode cfg c live, Registered c ∧
    s = ⟨mode, cfg, some c, live, fun _ => .idle, fun _ => none⟩
  step := VerifierState.step

end NriSupplyChain.Plugin
