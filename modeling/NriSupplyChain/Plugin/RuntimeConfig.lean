import NriSupplyChain.Lib.Machine
import NriSupplyChain.Policy.Settings

/-!
Configurations that the runtime passes to the plugin, and how they are applied in the
background. A received configuration takes the pending slot, and a goroutine of its own
applies it until that succeeds or a newer one has taken the slot. Attempts exclude each
other, but a new configuration can arrive at any point of one: the slot and the record
of the last applied configuration are read and written in separate steps.
-/

namespace NriSupplyChain.Plugin

section enforcement

/-- What decides the enforcement of a configuration. `loaded` is what `policy.LoadAll`
returns, if it succeeds. -/
structure PassedConfig where
  verification : VerificationMode
  ociPolicies : Bool
  loaded : Option (List (String × Policy))

structure RuntimeEnforcement where
  all : Bool
  global : VerificationMode
  policies : List (String × Policy)

def RuntimeEnforcement.enforces (e : RuntimeEnforcement) (nameSpace : String) : Bool :=
  e.all || ((e.policies.lookup nameSpace).or (e.policies.lookup "")).any fun pol =>
    pol.effectiveMode e.global = .enforce

def newRuntimeEnforcement (cfg : PassedConfig) : RuntimeEnforcement :=
  match cfg.verification with
  | .disabled => ⟨false, .disabled, []⟩
  | .enforce => ⟨true, .enforce, []⟩
  | mode =>
    if cfg.ociPolicies then ⟨true, mode, []⟩
    else
      match cfg.loaded with
      | none => ⟨true, mode, []⟩
      | some policies => ⟨false, mode, policies⟩

end enforcement

section model

variable {Raw : Type} [DecidableEq Raw]

/-- A configuration as it was passed, and what it enforces. -/
structure PendingRuntimeConfig (Raw : Type) where
  raw : Raw
  enforcement : RuntimeEnforcement

/-- Where the goroutine of a configuration is. It holds the lock from the start of an
attempt until the attempt has returned. -/
inductive Phase where
  /-- About to make an attempt. -/
  | starting
  | applying
  /-- The configuration is applied, the slot is not released yet. -/
  | applied
  /-- The slot is released, the configuration is not recorded yet. -/
  | released
  /-- Waiting for the next attempt. -/
  | waiting
  | done
deriving DecidableEq

def Phase.holdsLock : Phase → Bool
  | .applying | .applied | .released => true
  | _ => false

/-- Where the call that passes a configuration is. -/
inductive Receiver (Raw : Type) where
  | idle
  | received (raw : Raw) (cfg : PassedConfig)
  /-- With the record of the last applied configuration that was read. -/
  | comparing (raw : Raw) (cfg : PassedConfig) (last : Option Raw)
  | replacing (raw : Raw) (cfg : PassedConfig)

/-- Configurations are numbered in the order in which they took the slot. -/
structure RuntimeConfigState (Raw : Type) where
  configs : List (PendingRuntimeConfig Raw)
  pending : Option Nat
  lastApplied : Option Raw
  failure : Option String
  superseded : List Nat
  phase : Nat → Phase
  mu : Option Nat
  receiver : Receiver Raw
  closed : Bool
  /-- The configurations that were applied, the last one first. -/
  applied : List Nat
  /-- The configuration that was received last. -/
  latest : Option Raw

inductive RuntimeConfigEvent (Raw : Type) where
  /-- The runtime passes a configuration, and the pending one is looked at. -/
  | receive (raw : Raw) (cfg : PassedConfig)
  | readLastApplied
  | compare
  | replace
  | attempt (id : Nat)
  | succeed (id : Nat)
  | fail (id : Nat) (reason : String)
  /-- The apply reports the cancellation of its context. -/
  | cancel (id : Nat) (reason : String)
  | release (id : Nat)
  | record (id : Nat)
  | retry (id : Nat)
  /-- The wait ends because the configuration is superseded. -/
  | giveUp (id : Nat)
  /-- The wait ends because the context is done. -/
  | stop (id : Nat)
  | close
  | createContainer (nameSpace : String)

namespace RuntimeConfigState

def initial : RuntimeConfigState Raw where
  configs := []
  pending := none
  lastApplied := none
  failure := none
  superseded := []
  phase _ := .done
  mu := none
  receiver := .idle
  closed := false
  applied := []
  latest := none

def pendingConfig (s : RuntimeConfigState Raw) : Option (PendingRuntimeConfig Raw) :=
  s.pending.bind fun id => s.configs[id]?

/-- The configuration that the verifier runs, of those that the runtime passed. -/
def running (s : RuntimeConfigState Raw) : Option Raw :=
  (s.applied.head?.bind fun id => s.configs[id]?).map PendingRuntimeConfig.raw

def setPhase (s : RuntimeConfigState Raw) (id : Nat) (phase : Phase) : RuntimeConfigState Raw :=
  { s with phase := Function.update s.phase id phase }

/-- `applyRuntimeConfig` up to the first look at the pending slot. -/
def receive (s : RuntimeConfigState Raw) (raw : Raw) (cfg : PassedConfig) :
    Option (RuntimeConfigState Raw) :=
  match s.receiver with
  | .idle =>
    if (s.pendingConfig.map PendingRuntimeConfig.raw) = some raw then some { s with latest := raw }
    else some { s with receiver := .received raw cfg }
  | _ => none

def readLastApplied (s : RuntimeConfigState Raw) : Option (RuntimeConfigState Raw) :=
  match s.receiver with
  | .received raw cfg => some { s with receiver := .comparing raw cfg s.lastApplied }
  | _ => none

/-- An unchanged configuration is kept. -/
def compare (s : RuntimeConfigState Raw) : Option (RuntimeConfigState Raw) :=
  match s.receiver with
  | .comparing raw cfg last =>
    if s.pending = none ∧ last = some raw then some { s with receiver := .idle, latest := raw }
    else some { s with receiver := .replacing raw cfg }
  | _ => none

/-- The configuration takes the slot, and its goroutine is started. -/
def replace (s : RuntimeConfigState Raw) : Option (RuntimeConfigState Raw) :=
  match s.receiver with
  | .replacing raw cfg =>
    some { s with
      configs := s.configs ++ [⟨raw, newRuntimeEnforcement cfg⟩]
      pending := some s.configs.length
      superseded := s.pending.toList ++ s.superseded
      failure := none
      phase := Function.update s.phase s.configs.length .starting
      receiver := .idle
      latest := raw }
  | _ => none

/-- `attemptRuntimeConfig` up to the call of `applyConfig`. -/
def attempt (s : RuntimeConfigState Raw) (id : Nat) : Option (RuntimeConfigState Raw) :=
  if s.phase id = .starting ∧ s.mu = none then
    if s.pending = some id then some { s.setPhase id .applying with mu := some id }
    else some (s.setPhase id .done)
  else none

def succeed (s : RuntimeConfigState Raw) (id : Nat) : Option (RuntimeConfigState Raw) :=
  if s.phase id = .applying then some { s.setPhase id .applied with applied := id :: s.applied }
  else none

def fail (s : RuntimeConfigState Raw) (id : Nat) (reason : String) :
    Option (RuntimeConfigState Raw) :=
  if s.phase id = .applying then
    some { s.setPhase id .waiting with mu := none, failure := some reason }
  else none

/-- An apply reports cancellation only when its context was cancelled, which `Close` does. -/
def cancel (s : RuntimeConfigState Raw) (id : Nat) (reason : String) :
    Option (RuntimeConfigState Raw) :=
  if s.phase id = .applying ∧ s.closed then
    some { s.setPhase id .done with mu := none, failure := some reason }
  else none

/-- The slot is only released if the configuration still holds it. -/
def release (s : RuntimeConfigState Raw) (id : Nat) : Option (RuntimeConfigState Raw) :=
  if s.phase id = .applied then
    if s.pending = some id then some { s.setPhase id .released with pending := none }
    else some { s.setPhase id .done with mu := none }
  else none

def record (s : RuntimeConfigState Raw) (id : Nat) : Option (RuntimeConfigState Raw) :=
  if s.phase id = .released then
    some { s.setPhase id .done with
      mu := none
      failure := none
      lastApplied := (s.configs[id]?).map PendingRuntimeConfig.raw }
  else none

def endWait (s : RuntimeConfigState Raw) (id : Nat) (ready : Bool) (next : Phase) :
    Option (RuntimeConfigState Raw) :=
  if s.phase id = .waiting ∧ ready then some (s.setPhase id next) else none

def errRuntimeConfigPending : String :=
  "the enforcing configuration passed by the runtime is not applied"

/-- The first check of an admission. -/
def checkRuntimeConfigApplied (s : RuntimeConfigState Raw) (nameSpace : String) :
    Except String Unit :=
  if s.pendingConfig.any fun config => config.enforcement.enforces nameSpace then
    .error ("supply chain verification: " ++ errRuntimeConfigPending)
  else .ok ()

def step (s : RuntimeConfigState Raw) :
    RuntimeConfigEvent Raw → Option (RuntimeConfigState Raw)
  | .receive raw cfg => s.receive raw cfg
  | .readLastApplied => s.readLastApplied
  | .compare => s.compare
  | .replace => s.replace
  | .attempt id => s.attempt id
  | .succeed id => s.succeed id
  | .fail id reason => s.fail id reason
  | .cancel id reason => s.cancel id reason
  | .release id => s.release id
  | .record id => s.record id
  | .retry id => s.endWait id true .starting
  | .giveUp id => s.endWait id (id ∈ s.superseded) .done
  | .stop id => s.endWait id s.closed .done
  | .close => some { s with closed := true }
  | .createContainer _ => some s

end RuntimeConfigState

def runtimeConfigMachine (Raw : Type) [DecidableEq Raw] :
    Lib.Machine (RuntimeConfigState Raw) (RuntimeConfigEvent Raw) where
  initial s := s = .initial
  step := RuntimeConfigState.step

end model

end NriSupplyChain.Plugin
