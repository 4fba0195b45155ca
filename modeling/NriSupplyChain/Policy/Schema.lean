import NriSupplyChain.Lib.GoValues

/-!
The sections of a policy (`internal/policy`): their names, the fields of each of
them with their types, and the registry of the sections with a maximum age. Of a
trusted verifier the two parsed times are left out; they stand inside of a list,
which merging replaces as a whole.
-/

namespace NriSupplyChain.PolicyFile

open Lib

inductive SectionName where
  | trust
  | slsa
  | vex
  | vsa
  | signatures
  | notation_
  | cel
  | sbom
  | scai
  | source
  | buildEnv
  | vulnScan
  | testResult
  | release
  | runtimeTrace
  | scorecard
deriving DecidableEq, Repr

namespace SectionName

/-- The name of a section in JSON. -/
def text : SectionName → Text
  | trust => "trust".toList
  | slsa => "slsa".toList
  | vex => "vex".toList
  | vsa => "vsa".toList
  | signatures => "signatures".toList
  | notation_ => "notation".toList
  | cel => "cel".toList
  | sbom => "sbom".toList
  | scai => "scai".toList
  | source => "source".toList
  | buildEnv => "buildEnv".toList
  | vulnScan => "vulnScan".toList
  | testResult => "testResult".toList
  | release => "release".toList
  | runtimeTrace => "runtimeTrace".toList
  | scorecard => "scorecard".toList

/-- The registry, in its order. -/
def registry : List SectionName :=
  [trust, slsa, vex, vsa, signatures, notation_, cel, sbom, scai, source, buildEnv, vulnScan,
    testResult, release, runtimeTrace, scorecard]

/-- The sections with an error for a maximum age that is not positive. -/
def hasMaxAge : SectionName → Bool
  | slsa | vsa | source | vulnScan | testResult | runtimeTrace => true
  | _ => false

theorem mem_registry (name : SectionName) : name ∈ registry := by
  cases name <;> decide

theorem registry_nodup : registry.Nodup := by
  decide

end SectionName

section fields

/-- A field whose names in Go and in JSON are given. -/
def field (goName jsonName : String) (type : GoType) (rest : Fields) : Fields :=
  .cons goName.toList jsonName.toList type rest

def texts : GoType :=
  .slice .string

def missingPolicy (rest : Fields) : Fields :=
  field "MissingPolicy" "missingPolicy" .string rest

/-- The two fields of a maximum age. -/
def maxAge (rest : Fields) : Fields :=
  field "MaxAge" "maxAge" .string (field "MaxAgeDuration" "-" .duration rest)

def trustedIdentity : GoType :=
  .struct (field "Issuer" "issuer" .string (field "SANPattern" "sanPattern" .string .nil))

def trustedBuilder : GoType :=
  .struct
    (field "ID" "id" .string
    (field "MaxLevel" "maxLevel" .int
    (field "Keys" "keys" texts
    (field "Identities" "identities" (.slice trustedIdentity) .nil))))

def trustedVerifier : GoType :=
  .struct
    (field "ID" "id" .string
    (field "Keys" "keys" texts
    (field "NotBefore" "notBefore" .string
    (field "NotAfter" "notAfter" .string
    (field "Identities" "identities" (.slice trustedIdentity) .nil)))))

def trustPolicy : Fields :=
  field "Builders" "builders" (.slice trustedBuilder)
  (field "Verifiers" "verifiers" (.slice trustedVerifier)
  (field "Issuers" "issuers" texts
  (field "SANPatterns" "sanPatterns" texts
  (field "Sources" "sources" texts
  (field "BuildTypes" "buildTypes" texts .nil)))))

def slsaPolicy : Fields :=
  missingPolicy
  (field "RejectUnknownParameters" "rejectUnknownParameters" .bool
  (field "KnownParameters" "knownParameters" texts
  (maxAge .nil)))

def vexPolicy : Fields :=
  missingPolicy (field "UnderInvestigationPolicy" "underInvestigationPolicy" .string .nil)

def vsaPolicy : Fields :=
  missingPolicy
  (field "MinimumLevel" "minimumLevel" .int
  (maxAge
  (field "Policy" "policy" .string .nil)))

def signaturesPolicy : Fields :=
  field "RequireTransparencyLog" "requireTransparencyLog" .bool .nil

def notationTrustStore : GoType :=
  .struct
    (field "Name" "name" .string
    (field "Type" "type" .string
    (field "Certificates" "certificates" texts .nil)))

def notationTrustPolicyRule : GoType :=
  .struct
    (field "Name" "name" .string
    (field "RegistryScopes" "registryScopes" texts
    (field "TrustStores" "trustStores" texts
    (field "TrustedIdentities" "trustedIdentities" texts .nil))))

def notationPolicy : Fields :=
  missingPolicy
  (field "TrustStores" "trustStores" (.slice notationTrustStore)
  (field "TrustPolicy" "trustPolicy" (.slice notationTrustPolicyRule)
  (field "VerificationLevel" "verificationLevel" .string
  (field "RevocationMode" "revocationMode" .string .nil))))

def celRule : GoType :=
  .struct
    (field "Match" "match" .string
    (field "Require" "require" .string
    (field "Message" "message" .string .nil)))

def celPolicy : Fields :=
  field "Rules" "rules" (.slice celRule) .nil

def allowDenyPolicy : GoType :=
  .struct (field "Deny" "deny" texts (field "Allow" "allow" texts .nil))

def sbomCVSSPolicy : GoType :=
  .struct
    (field "MaxScore" "maxScore" (.pointer .float)
    (field "MinSeverity" "minSeverity" .string
    (field "IgnoreCVEs" "ignoreCVEs" texts .nil)))

def sbomDriftPolicy : GoType :=
  .struct
    (field "MaxAdded" "maxAdded" (.pointer .int)
    (field "MaxRemoved" "maxRemoved" (.pointer .int)
    (field "MaxModified" "maxModified" (.pointer .int)
    (field "MaxScore" "maxScore" (.pointer .float) .nil))))

def sbomPolicy : Fields :=
  missingPolicy
  (field "Formats" "formats" texts
  (field "License" "license" (.pointer allowDenyPolicy)
  (field "Component" "component" (.pointer allowDenyPolicy)
  (field "CVSS" "cvss" (.pointer sbomCVSSPolicy)
  (field "Drift" "drift" (.pointer sbomDriftPolicy) .nil)))))

def scaiPolicy : Fields :=
  missingPolicy
  (field "RequiredAttributes" "requiredAttributes" texts
  (field "ForbiddenAttributes" "forbiddenAttributes" texts
  (field "RequireEvidence" "requireEvidence" .bool .nil)))

def sourcePolicy : Fields :=
  missingPolicy
  (field "MinimumLevel" "minimumLevel" .int
  (maxAge .nil))

def buildEnvPolicy : Fields :=
  missingPolicy
  (field "RequiredProperties" "requiredProperties" texts
  (field "ForbiddenProperties" "forbiddenProperties" texts .nil))

def vulnScanPolicy : Fields :=
  missingPolicy
  (field "MaxScore" "maxScore" (.pointer .float)
  (field "MinSeverity" "minSeverity" .string
  (field "IgnoreCVEs" "ignoreCVEs" texts
  (maxAge .nil))))

def testResultPolicy : Fields :=
  missingPolicy
  (field "RequiredSuites" "requiredSuites" texts
  (maxAge .nil))

def releasePolicy : Fields :=
  missingPolicy
  (field "TrustedRegistries" "trustedRegistries" texts
  (field "RequirePackageID" "requirePackageId" .bool .nil))

def runtimeTracePolicy : Fields :=
  missingPolicy
  (field "TrustedMonitors" "trustedMonitors" texts
  (field "ForbiddenFilePatterns" "forbiddenFilePatterns" texts
  (maxAge .nil)))

def scorecardPolicy : Fields :=
  missingPolicy
  (field "MinScore" "minScore" (.pointer .float)
  (field "Checks" "checks" (.map .int) .nil))

/-- The fields of a section. -/
def sectionFields : SectionName → Fields
  | .trust => trustPolicy
  | .slsa => slsaPolicy
  | .vex => vexPolicy
  | .vsa => vsaPolicy
  | .signatures => signaturesPolicy
  | .notation_ => notationPolicy
  | .cel => celPolicy
  | .sbom => sbomPolicy
  | .scai => scaiPolicy
  | .source => sourcePolicy
  | .buildEnv => buildEnvPolicy
  | .vulnScan => vulnScanPolicy
  | .testResult => testResultPolicy
  | .release => releasePolicy
  | .runtimeTrace => runtimeTracePolicy
  | .scorecard => scorecardPolicy

/-- The type of a section: a pointer, so that it may be missing. -/
def sectionType (name : SectionName) : GoType :=
  .pointer (.struct (sectionFields name))

end fields

end NriSupplyChain.PolicyFile
