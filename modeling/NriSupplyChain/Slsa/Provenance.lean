import NriSupplyChain.Attestation.Types
import NriSupplyChain.Policy.Settings
import NriSupplyChain.Types.Evidence

/-!
Verifying SLSA provenance against the trusted builders of a policy. The entries of the
builder that the provenance names are handed to a hook, which binds them to the
attestation. The checks behind the one of the builder are given by what they report.
-/

namespace NriSupplyChain.Slsa

open NriSupplyChain.Lib NriSupplyChain.Types Policy

inductive ProvenanceVersion where
  | v1
  | v02
deriving DecidableEq, Repr

def ProvenanceVersion.predicateType : ProvenanceVersion → String
  | .v1 => Attestation.predicateSLSAProvenanceV1
  | .v02 => Attestation.predicateSLSAProvenanceV02

/-- What the checks of a provenance statement read, as far as they are modelled. -/
structure Provenance where
  predicateType : String
  subject : List (AList fun _ : Text => Text)
  builderID : String

structure Library where
  /-- The predicate type of a statement. -/
  unmarshalHeader : List UInt8 → Except String String
  unmarshal : ProvenanceVersion → List UInt8 → Except String Provenance
  /-- Whether the resolved dependencies can be read. -/
  unmarshalDependencies : List UInt8 → Except String Unit
  /-- The checks of the build type, the source, the resolved dependencies, the parameters
  and the start of the build, in this order. -/
  laterChecks : ProvenanceVersion → List UInt8 → Policy → Except String Unit
  /-- Whether sources or build types are trusted. -/
  sourcesTrusted : Policy → Bool
  /-- The build type and the source of a provenance. -/
  sourceMetadata : ProvenanceVersion → List UInt8 → Metadata
  /-- How `%q` prints a text. -/
  quote : String → String

def builders (pol : Policy) : List TrustedBuilder :=
  (pol.trust.map TrustPolicy.builders).getD []

/-- Binds a matched builder to the attestation that is verified. -/
abbrev BuilderBinder := List TrustedBuilder → Except String Unit

section verify

variable (lib : Library)

def verifySubjectDigest (subjects : List (AList fun _ : Text => Text)) (imageDigest : String) :
    Except String Unit :=
  if subjects.any (matchDigestInMap imageDigest.toList) then .ok ()
  else .error ("subject digest mismatch: none of the subjects match " ++ lib.quote imageDigest)

/-- The builder must be trusted, if any is. -/
def verifyBuilder (builderID : String) (pol : Policy) (bind : Option BuilderBinder) :
    Except String Unit :=
  let matched := (builders pol).filter fun trusted => trusted.id = builderID
  if builders pol = [] then .ok ()
  else if matched = [] then .error ("untrusted builder: " ++ lib.quote builderID)
  else
    match bind with
    | none => .ok ()
    | some bind =>
      match bind matched with
      | .error err => .error ("untrusted builder: " ++ lib.quote builderID ++ ": " ++ err)
      | .ok () => .ok ()

def emptyTrustDetail : String :=
  "SLSA provenance verified, but no trusted builders, sources, or build types are configured"

def trustConfigured (pol : Policy) : Bool :=
  builders pol ≠ [] || lib.sourcesTrusted pol

def passResult (pol : Policy) (metadata : Metadata) : CheckResult :=
  let constrained := trustConfigured lib pol
  let result := if constrained then Types.passResult .slsa "SLSA provenance verified"
    else warnResult .slsa emptyTrustDetail
  { result with metadata := some (metadata ++ [("trustConfigured", .bool constrained)]) }

/-- The checks in their order, of which the first one that fails is reported. -/
def runChecks (version : ProvenanceVersion) (att : List UInt8) (stmt : Provenance) (pol : Policy)
    (imageDigest : String) (bind : Option BuilderBinder) : Except String Unit := do
  verifySubjectDigest lib stmt.subject imageDigest
  verifyBuilder lib stmt.builderID pol bind
  lib.laterChecks version att pol

def verifyDecoded (version : ProvenanceVersion) (att : List UInt8) (stmt : Provenance)
    (pol : Policy) (imageDigest : String) (bind : Option BuilderBinder) : CheckResult :=
  match runChecks lib version att stmt pol imageDigest bind with
  | .error err => failResult .slsa err none
  | .ok () =>
    passResult lib pol (("builderID", .str stmt.builderID) :: lib.sourceMetadata version att)

def invalidProvenance (err : String) : GoError :=
  .errorf ("invalid provenance attestation: " ++ err) []

def verifyV1 (att : List UInt8) (pol : Policy) (imageDigest : String)
    (bind : Option BuilderBinder) : Except GoError CheckResult :=
  match lib.unmarshal .v1 att with
  | .error err => .error (invalidProvenance err)
  | .ok stmt =>
    if stmt.predicateType ≠ ProvenanceVersion.v1.predicateType then
      .error (invalidProvenance ("unexpected predicate type " ++ lib.quote stmt.predicateType))
    else
      match lib.unmarshalDependencies att with
      | .error err => .error (invalidProvenance err)
      | .ok () => .ok (verifyDecoded lib .v1 att stmt pol imageDigest bind)

def verifyV02 (att : List UInt8) (pol : Policy) (imageDigest : String)
    (bind : Option BuilderBinder) : Except GoError CheckResult :=
  match lib.unmarshal .v02 att with
  | .error err => .error (invalidProvenance err)
  | .ok stmt => .ok (verifyDecoded lib .v02 att stmt pol imageDigest bind)

def verify (ctxErr : Option GoError) (att : List UInt8) (pol : Policy) (imageDigest : String)
    (bind : Option BuilderBinder) : Except GoError CheckResult :=
  match ctxErr with
  | some err => .error (.errorf ("verification cancelled: " ++ err.text) [err])
  | none =>
    match lib.unmarshalHeader att with
    | .error err => .error (invalidProvenance err)
    | .ok predicateType =>
      if predicateType = ProvenanceVersion.v02.predicateType then
        verifyV02 lib att pol imageDigest bind
      else verifyV1 lib att pol imageDigest bind

/-- A provenance names a builder in the version that its header tells. -/
def NamesBuilder (att : List UInt8) (builderID : String) : Prop :=
  ∃ predicateType stmt, lib.unmarshalHeader att = .ok predicateType ∧
    lib.unmarshal (if predicateType = ProvenanceVersion.v02.predicateType then .v02 else .v1) att =
      .ok stmt ∧ stmt.builderID = builderID

end verify

section accepted

variable {lib : Library} {pol : Policy} {imageDigest : String} {bind : BuilderBinder}

variable {att : List UInt8}

theorem NamesBuilder.unique {first second : String} (h : NamesBuilder lib att first)
    (h' : NamesBuilder lib att second) : first = second := by
  obtain ⟨predicateType, stmt, hheader, hstmt, rfl⟩ := h
  obtain ⟨_, _, hheader', hstmt', rfl⟩ := h'
  rw [hheader] at hheader'
  cases hheader'
  rw [hstmt] at hstmt'
  cases hstmt'
  rfl

theorem verifyDecoded_passed {version : ProvenanceVersion} {stmt : Provenance}
    {binder : Option BuilderBinder}
    (h : (verifyDecoded lib version att stmt pol imageDigest binder).passed = true) :
    verifyBuilder lib stmt.builderID pol binder = .ok () := by
  unfold verifyDecoded runChecks at h
  cases hsubject : verifySubjectDigest lib stmt.subject imageDigest with
  | error err =>
    rw [hsubject] at h
    cases h
  | ok _ =>
    rw [hsubject] at h
    cases hbuilder : verifyBuilder lib stmt.builderID pol binder with
    | error err =>
      rw [hbuilder] at h
      cases h
    | ok _ => rfl

/-- Accepted provenance names a builder that the hook was asked for. -/
theorem verify_passed {ctxErr : Option GoError} {binder : Option BuilderBinder}
    {result : CheckResult} (h : verify lib ctxErr att pol imageDigest binder = .ok result)
    (hpassed : result.passed = true) :
    ∃ builderID, NamesBuilder lib att builderID ∧
      verifyBuilder lib builderID pol binder = .ok () := by
  unfold verify at h
  cases ctxErr with
  | some err => cases h
  | none =>
    dsimp only at h
    cases hheader : lib.unmarshalHeader att with
    | error err =>
      rw [hheader] at h
      cases h
    | ok predicateType =>
      rw [hheader] at h
      dsimp only at h
      split at h
      · next hv02 =>
        unfold verifyV02 at h
        cases hstmt : lib.unmarshal .v02 att with
        | error err =>
          rw [hstmt] at h
          cases h
        | ok stmt =>
          rw [hstmt] at h
          cases h
          refine ⟨stmt.builderID, ⟨predicateType, stmt, hheader, ?_, rfl⟩,
            verifyDecoded_passed hpassed⟩
          rw [if_pos hv02, hstmt]
      · next hv1 =>
        unfold verifyV1 at h
        cases hstmt : lib.unmarshal .v1 att with
        | error err =>
          rw [hstmt] at h
          cases h
        | ok stmt =>
          rw [hstmt] at h
          dsimp only at h
          split at h
          · cases h
          · cases hdeps : lib.unmarshalDependencies att with
            | error err =>
              rw [hdeps] at h
              cases h
            | ok _ =>
              rw [hdeps] at h
              cases h
              refine ⟨stmt.builderID, ⟨predicateType, stmt, hheader, ?_, rfl⟩,
                verifyDecoded_passed hpassed⟩
              rw [if_neg hv1, hstmt]

/-- The hook decides as soon as an entry of the builder is trusted. -/
theorem bind_of_verifyBuilder {builderID : String}
    (h : verifyBuilder lib builderID pol (some bind) = .ok ())
    (htrusted : ∃ trusted ∈ builders pol, trusted.id = builderID) :
    bind ((builders pol).filter fun trusted => trusted.id = builderID) = .ok () := by
  obtain ⟨trusted, hmem, hid⟩ := htrusted
  have hfound : trusted ∈ (builders pol).filter fun trusted => trusted.id = builderID :=
    List.mem_filter.mpr ⟨hmem, decide_eq_true hid⟩
  unfold verifyBuilder at h
  dsimp only at h
  rw [if_neg (List.ne_nil_of_mem hmem), if_neg (List.ne_nil_of_mem hfound)] at h
  split at h
  · cases h
  · next hbind => exact hbind

end accepted

end NriSupplyChain.Slsa
