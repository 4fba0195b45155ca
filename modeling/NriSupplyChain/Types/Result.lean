import NriSupplyChain.Types.Errors

/-!
Check results and verification results of `internal/types`.
-/

namespace NriSupplyChain.Types

inductive CheckStatus where
  | pass
  | warn
  | fail
deriving DecidableEq, Repr

inductive CheckType where
  | slsa
  | vex
  | vsa
  | fetch
  | attestation
  | policy
  | notationSig
  | cel
  | sbom
  | scai
  | source
  | buildEnv
  | vulnScan
  | testResult
  | release
  | runtimeTrace
  | guac
  | scorecard
  | internal
  | baselineSBOM
deriving DecidableEq, Repr

def CheckType.text : CheckType → String
  | .slsa => "slsa"
  | .vex => "vex"
  | .vsa => "vsa"
  | .fetch => "fetch"
  | .attestation => "attestation"
  | .policy => "policy"
  | .notationSig => "notation"
  | .cel => "cel"
  | .sbom => "sbom"
  | .scai => "scai"
  | .source => "source"
  | .buildEnv => "buildenv"
  | .vulnScan => "vulnscan"
  | .testResult => "testresult"
  | .release => "release"
  | .runtimeTrace => "runtimetrace"
  | .guac => "guac"
  | .scorecard => "scorecard"
  | .internal => "internal"
  | .baselineSBOM => "baseline-sbom"

/-- The check types of the attestation sections of a policy, in the order of
the registry `AttestationCheckTypes`. -/
def attestationCheckTypes : List CheckType :=
  [.slsa, .vex, .vsa, .notationSig, .sbom, .scai, .source, .buildEnv, .vulnScan,
    .testResult, .release, .runtimeTrace, .scorecard]

/-- A policy action. The type of the source is a string, and a value outside
the three constants (an empty one included) reaches the default branches. -/
inductive Action where
  | allow
  | warn
  | deny
  | unrecognized (value : String)
deriving DecidableEq, Repr

/-- A value of a metadata map (`any` in the source). A float is the rational
it denotes: nothing modelled computes with it. -/
inductive MetaValue where
  | bool (value : Bool)
  | int (value : Int)
  | double (value : Rat)
  | str (value : String)
  | list (values : List MetaValue)
  | map (entries : List (String × MetaValue))
deriving Repr

abbrev Metadata := List (String × MetaValue)

structure CheckResult where
  type : CheckType
  passed : Bool
  status : CheckStatus
  detail : String
  err : Option GoError
  metadata : Option Metadata
  missing : Bool
deriving Repr

structure Result where
  allowed : Bool
  verified : Bool
  mode : String
  reason : String
  checkResults : List CheckResult
deriving Repr

def passResult (checkType : CheckType) (detail : String) : CheckResult :=
  ⟨checkType, true, .pass, detail, none, none, false⟩

def warnResult (checkType : CheckType) (detail : String) : CheckResult :=
  ⟨checkType, true, .warn, detail, none, none, false⟩

def failResult (checkType : CheckType) (detail : String) (err : Option GoError) :
    CheckResult :=
  ⟨checkType, false, .fail, detail, err, none, false⟩

/-- Not passed, but only a warning: inconclusive checks. -/
def softFailResult (checkType : CheckType) (detail : String) (err : Option GoError) :
    CheckResult :=
  ⟨checkType, false, .warn, detail, err, none, false⟩

/-- An internal error interrupted the verification, or the attestations could
not be fetched. -/
def Result.incomplete (r : Result) : Bool :=
  r.checkResults.any fun check => check.type = .internal || check.type = .fetch

/-- Some check of the result did not pass. -/
def Result.hasFailedCheck (r : Result) : Bool :=
  r.checkResults.any fun check => !check.passed

end NriSupplyChain.Types
