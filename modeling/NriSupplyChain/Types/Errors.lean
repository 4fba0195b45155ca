import Mathlib.Tactic

/-!
Go errors. `errors.Is` and `errors.As` walk an error and everything it wraps in
depth-first order, so an error is its text and the list of nodes in that order.
Nodes that no caller asks for (the wrappers made by `fmt.Errorf` and
`errors.Join`) are left out of the list.
-/

namespace NriSupplyChain.Types

/-- The sentinel errors that modelled code compares with. -/
inductive Sentinel where
  | errVerificationFailed
  | errIncompleteAttestationSet
  | errTrustMaterialUnavailable
  | errTrustedKeyUnavailable
  | errEmptyAttestation
  | errInvalidReferrer
  | errAttestationTooLarge
  | errDownloadLimitExceeded
  | errAggregateSizeExceeded
  | errTruncatedResponse
  | errNoLegacyVerificationMaterial
  | errSupplyChainVerificationFailed
  | errDigestRequired
  | errEmptyDigest
  | errCircuitBreakerOpen
  | errVerifierStopped
  | errVerificationInProgress
  | errVerificationPanic
  | errNotApplicable
  | errNotationNotConfigured
  | errGUACAuthError
  | errGUACPanic
  | errGUACBreakerOpen
  | errGUACPartialFailure
  | contextCanceled
  | contextDeadlineExceeded
  | ioEOF
  | ioErrUnexpectedEOF
deriving DecidableEq, Repr

/-- One node of an error tree that `errors.Is` or `errors.As` can stop at.
`network` is an error with the `net.Error` methods; `dial` marks the concrete
types `*net.OpError` and `*net.DNSError`. `tls` stands for the TLS and
certificate errors a mirror fallback asks for. -/
inductive ErrorNode where
  | sentinel (target : Sentinel)
  | transport (statusCode : Nat) (temporary : Bool)
  | network (timeout : Bool) (dial : Bool)
  | tls
deriving DecidableEq, Repr

structure GoError where
  text : String
  nodes : List ErrorNode
deriving DecidableEq, Repr

namespace GoError

/-- `errors.New` for a sentinel. -/
def new (target : Sentinel) (text : String) : GoError :=
  ⟨text, [.sentinel target]⟩

/-- `fmt.Errorf` with one `%w` verb per element of `wrapped`. -/
def errorf (text : String) (wrapped : List GoError) : GoError :=
  ⟨text, wrapped.flatMap GoError.nodes⟩

/-- `errors.Join` of a list without nil entries. -/
def join : List GoError → Option GoError
  | [] => none
  | errs => some ⟨"\n".intercalate (errs.map GoError.text), errs.flatMap GoError.nodes⟩

/-- `errors.Is`. -/
def is (err : GoError) (target : Sentinel) : Bool :=
  err.nodes.contains (.sentinel target)

/-- `errors.AsType[*transport.Error]`: status code and `Temporary()`. -/
def asTransport (err : GoError) : Option (Nat × Bool) :=
  err.nodes.findSome? fun node =>
    match node with
    | .transport statusCode temporary => some (statusCode, temporary)
    | _ => none

/-- `errors.AsType[net.Error]` and its `Timeout()`. A deadline error of the
context package has the methods of `net.Error` as well. -/
def asNetError (err : GoError) : Option Bool :=
  err.nodes.findSome? fun node =>
    match node with
    | .network timeout _ => some timeout
    | .sentinel .contextDeadlineExceeded => some true
    | _ => none

/-- The concrete network and TLS error types of `isNetworkOrTLSError`. -/
def isNetworkOrTLSError (err : GoError) : Bool :=
  err.nodes.any fun node =>
    match node with
    | .network _ dial => dial
    | .tls => true
    | _ => false

@[simp] theorem is_new (target other : Sentinel) (text : String) :
    (new target text).is other = decide (other = target) := by
  by_cases h : other = target <;> simp [new, is, h]

@[simp] theorem is_errorf (text : String) (wrapped : List GoError) (target : Sentinel) :
    (errorf text wrapped).is target = wrapped.any (fun err => err.is target) := by
  induction wrapped with
  | nil => rfl
  | cons err rest ih =>
    simp only [is, errorf, List.flatMap_cons, List.any_cons] at ih ⊢
    rw [← ih]
    simp [List.contains_eq_mem]

end GoError

/-- `errors.Is` on a possibly nil error. -/
def errorIs (err : Option GoError) (target : Sentinel) : Bool :=
  err.any (fun e => e.is target)

@[simp] theorem errorIs_none (target : Sentinel) : errorIs none target = false := rfl

@[simp] theorem errorIs_some (err : GoError) (target : Sentinel) :
    errorIs (some err) target = err.is target := rfl

theorem errorIs_join (errs : List GoError) (target : Sentinel) :
    errorIs (GoError.join errs) target = errs.any (fun err => err.is target) := by
  cases errs with
  | nil => rfl
  | cons err rest => exact GoError.is_errorf "" (err :: rest) target

end NriSupplyChain.Types
