import NriSupplyChain.Verifier.Checks
import NriSupplyChain.Verifier.Keys

/-!
What `Verify` decides about a request before it looks for a result: whether an
explicit rule skips the image, which policy and mode apply, and under which key
a result is shared.
-/

namespace NriSupplyChain.Verifier

open NriSupplyChain.Types Policy

def policyForNamespace (policies : List (String × Policy)) (nameSpace : String) :
    Option Policy :=
  (policies.lookup nameSpace).or (policies.lookup "")

/-- The first rule that matches is applied; its index is part of the cache key. -/
def resolveImagePolicy (lib : Library) (pol : Policy) (imageRef : String) : Policy × Int :=
  match pol.rules.zipIdx.find? (fun rule => lib.matchesImageRule rule.1.images imageRef) with
  | none => (pol, -1)
  | some (rule, idx) => (lib.applyRule pol rule, idx)

def allowlisted (state : Snapshot) (req : VerifyRequest) : Bool :=
  [req.digest, req.indexDigest].any fun digest =>
    state.allowlistDigests.contains digest && digest ≠ ""

/-- The policy of a request and the index of the rule that matched. -/
def resolvedPolicy (lib : Library) (state : Snapshot) (req : VerifyRequest) :
    Option (Policy × Int) :=
  (policyForNamespace state.policies req.nameSpace).map fun pol =>
    resolveImagePolicy lib pol req.imageRef

/-- The mode that decides about a request; without a policy the global one. -/
def effectiveMode (lib : Library) (state : Snapshot) (req : VerifyRequest) : VerificationMode :=
  match resolvedPolicy lib state req with
  | none => state.config.verification
  | some (pol, _) => pol.effectiveMode state.config.verification

/-- The key of the result cache and, up to generation and epoch, of the flight
that serves a request. -/
def sharedKey (req : VerifyRequest) (ruleIdx : Int) : Cache.Key :=
  ⟨bytes req.digest, cacheNamespaceKey (bytes req.nameSpace) (bytes req.imageRef) ruleIdx⟩

theorem bytes_injective : Function.Injective bytes := by
  intro s t h
  have hdata : s.toUTF8.data = t.toUTF8.data := Array.toList_inj.mp h
  exact String.toByteArray_inj.mp (ByteArray.ext hdata)

end NriSupplyChain.Verifier
