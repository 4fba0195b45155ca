import NriSupplyChain.Types.Errors

/-!
Verified attestations and the options and answers of a fetcher.
-/

namespace NriSupplyChain.Attestation

open NriSupplyChain.Types

instance lawfulBEqBytes : LawfulBEq (List UInt8) := List.instLawfulBEq

def predicateSLSAProvenanceV1 : String := "https://slsa.dev/provenance/v1"
def predicateSLSAProvenanceV02 : String := "https://slsa.dev/provenance/v0.2"
def predicateBaselineSBOM : String := "https://nri-supply-chain.dev/baseline-sbom/v1"

/-- A parsed `name.Reference`: registry, repository and the name of its
context. -/
structure ParsedRef where
  registryStr : String
  repositoryStr : String
  name : String
deriving DecidableEq, Repr

/-- A trusted key file; an unset bound of the validity window is `none`. -/
structure TrustedKeyRef where
  path : String
  notBefore : Option Int
  notAfter : Option Int
deriving DecidableEq, Repr

structure FetchOptions where
  trustedIssuers : List String
  trustedKeys : List TrustedKeyRef
  sanPatterns : List String
  requireTransparencyLog : Bool
  timeout : Int
  digest : String
  parsedRef : Option ParsedRef
deriving DecidableEq, Repr

inductive SignatureType where
  | sigstore
  | notationSig
  /-- Baseline SBOMs carry no signature type. -/
  | unset
deriving DecidableEq, Repr

structure SignerIdentity where
  keyPath : String
  keyPaths : List String
  issuer : String
  san : String
deriving DecidableEq, Repr

/-- `MatchesAny`: keyless signers are matched once with an empty key path. -/
def SignerIdentity.matchesAny (s : SignerIdentity) (accepts : String → String → String → Bool) :
    Bool :=
  if s.keyPaths = [] then accepts s.keyPath s.issuer s.san
  else s.keyPaths.any (fun keyPath => accepts keyPath s.issuer s.san)

structure VerifiedAttestation where
  predicateType : String
  payload : List UInt8
  digest : String
  signatureType : SignatureType
  signer : SignerIdentity
  bundle : List UInt8
  notationMediaType : String
  notationSubjectDigest : String
  notationSubjectSize : Int
  notationSubjectMediaType : String
deriving DecidableEq, Repr

/-- What `Fetch` returns. With a verification failure that is not an incomplete
set, the attestations are the material that does not depend on it. -/
structure FetchAnswer where
  attestations : List VerifiedAttestation
  err : Option GoError
deriving DecidableEq, Repr

/-- `registry.IsConnectionError`. -/
def isConnectionError (err : GoError) : Bool :=
  match err.asTransport with
  | some (statusCode, _) => decide (500 ≤ statusCode)
  | none =>
    err.isNetworkOrTLSError || err.asNetError == some true ||
      err.is .ioEOF || err.is .ioErrUnexpectedEOF

end NriSupplyChain.Attestation
