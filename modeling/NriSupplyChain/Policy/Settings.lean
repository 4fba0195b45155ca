import NriSupplyChain.Types.Result

/-!
The operational settings and the policy documents, as far as a verification
reads them. Sections that only an individual check reads are represented by an
identifier of their content, so a check can still depend on them.
-/

namespace NriSupplyChain

open NriSupplyChain.Types

/-- A verification mode. The type of the source is a string; an unset policy
mode is the empty one. -/
inductive VerificationMode where
  | disabled
  | warn
  | enforce
  | other (value : String)
deriving DecidableEq, Repr

def VerificationMode.text : VerificationMode → String
  | .disabled => "disabled"
  | .warn => "warn"
  | .enforce => "enforce"
  | .other value => value

/-- The fields of `config.Config` that a verification reads. Durations are in
nanoseconds. -/
structure Config where
  verification : VerificationMode
  fetchFailurePolicy : Action
  fetchFailurePolicyExplicit : Bool
  guacFallbackPolicy : Action
  fetchTimeout : Int
  cacheTTL : Int
  cacheFailureTTL : Int
  circuitBreakerCooldown : Int
deriving DecidableEq, Repr

namespace Config

def enabled (c : Config) : Bool := c.verification ≠ .disabled

def effectiveFetchFailurePolicy (c : Config) (mode : VerificationMode) : Action :=
  if mode ≠ .enforce ∨ c.verification = .enforce then c.fetchFailurePolicy
  else
    match c.fetchFailurePolicy with
    | .warn => if c.fetchFailurePolicyExplicit then .warn else .deny
    | _ => .deny

end Config

namespace Policy

structure TrustedIdentity where
  issuer : String
  sanPattern : String
deriving DecidableEq, Repr

structure TrustedBuilder where
  id : String
  keys : List String
  identities : List TrustedIdentity
deriving DecidableEq, Repr

/-- A trusted verifier; an unset bound of the validity window is `none`. -/
structure TrustedVerifier where
  id : String
  keys : List String
  identities : List TrustedIdentity
  notBeforeTime : Option Int
  notAfterTime : Option Int
deriving DecidableEq, Repr

structure TrustPolicy where
  builders : List TrustedBuilder
  verifiers : List TrustedVerifier
  issuers : List String
  sanPatterns : List String
deriving DecidableEq, Repr

structure ImageRule where
  images : List String
  /-- The sections of the rule. -/
  content : Nat
deriving DecidableEq, Repr

structure CompiledRule where
  matchProgram : Option Nat
  requireProgram : Nat
  message : String
deriving DecidableEq, Repr

end Policy

open Policy in
structure Policy where
  mode : VerificationMode
  include_ : List String
  exclude : List String
  rules : List ImageRule
  trust : Option TrustPolicy
  /-- `requireTransparencyLog` of the signatures section. -/
  signatures : Option Bool
  /-- The `missingPolicy` of the section of an attestation type, if the section
  is set. -/
  sections : CheckType → Option Action
  compiledCEL : Option (List CompiledRule)
  /-- Whatever else the sections hold. -/
  content : Nat

namespace Policy

def effectiveMode (p : Policy) (global : VerificationMode) : VerificationMode :=
  if p.mode ≠ .other "" then p.mode else global

def missingPolicyFor (p : Policy) (checkType : CheckType) : Action :=
  if checkType ∈ attestationCheckTypes then
    match p.sections checkType with
    | none | some (.unrecognized "") => .allow
    | some action => action
  else .allow

end Policy

end NriSupplyChain
