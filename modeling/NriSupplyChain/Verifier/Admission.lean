import NriSupplyChain.Verifier.Flights
import NriSupplyChain.Verifier.Requests
import NriSupplyChain.Verifier.Soundness

/-!
`Verify` as a whole, for any number of concurrent calls. The machine extends the
one of the flights with the `Result` objects that pointers lead to: a run
allocates the object its flight returns and the cache keeps, a call copies it
and applies the mode to its copy in place.

Every object is labelled with the run or the call that allocated it; the
modelled code does not read the label.
-/

namespace NriSupplyChain.Verifier

open NriSupplyChain.Types Cache Lib

/-- The image was skipped by an explicit rule. -/
inductive Skipped (lib : Library) (state : Snapshot) (req : VerifyRequest) : Prop where
  | disabled : state.config.enabled = false → Skipped lib state req
  | allowlisted : allowlisted state req = true → Skipped lib state req
  | notIncluded {pol : Policy} : policyForNamespace state.policies req.nameSpace = some pol →
      lib.isIncluded pol.include_ req.imageRef = false → Skipped lib state req
  | excluded {pol : Policy} : policyForNamespace state.policies req.nameSpace = some pol →
      lib.isExcluded pol.exclude req.imageRef = true → Skipped lib state req

/-- What the function of a flight captures. -/
structure RunArgs where
  state : Snapshot
  pol : Policy
  mode : VerificationMode
  req : VerifyRequest

inductive Decision where
  | skip (mode : VerificationMode) (reason : String)
  | missingPolicy
  | digestRequired
  | check (args : RunArgs) (ruleIdx : Int)

/-- `Verify` up to the cache lookup. -/
def decideRequest (lib : Library) (state : Snapshot) (req : VerifyRequest) : Decision :=
  let globalMode := state.config.verification
  if !state.config.enabled then .skip globalMode "verification disabled"
  else if allowlisted state req then .skip globalMode "image digest is allowlisted"
  else
    match policyForNamespace state.policies req.nameSpace with
    | none => .missingPolicy
    | some pol =>
      let namespaceMode := pol.effectiveMode globalMode
      if !lib.isIncluded pol.include_ req.imageRef then
        .skip namespaceMode "image is not included"
      else if lib.isExcluded pol.exclude req.imageRef then
        .skip namespaceMode "image is excluded"
      else if req.digest = "" then .digestRequired
      else
        let (resolved, ruleIdx) := resolveImagePolicy lib pol req.imageRef
        .check ⟨state, resolved, resolved.effectiveMode globalMode, req⟩ ruleIdx

inductive Owner where
  | run (flight : Nat)
  | call (caller : Nat)
deriving DecidableEq, Repr

/-- A `Result` object. -/
structure Cell where
  owner : Owner
  value : Result

/-- What a call returns: a pointer to a result, or nil, and an error. -/
structure Returned where
  result : Option Nat
  err : Option GoError

/-- A `Verify` call: the snapshot it loaded and its request. -/
structure Call where
  state : Snapshot
  req : VerifyRequest

structure VerifierState where
  flights : FlightState
  cells : List Cell
  calls : Nat → Option Call
  /-- The arguments each flight's function captured. -/
  closures : Nat → Option RunArgs
  /-- The object a run returned. -/
  results : Nat → Option Nat
  /-- The copy a call works on. -/
  working : Nat → Option Nat
  returned : Nat → Option Returned

inductive VerifierOp where
  | verify (v : Nat) (state : Snapshot) (req : VerifyRequest)
  /-- Everything about the cache and the flights that touches no result. -/
  | flight (op : FlightOp)
  | doChan (v : Nat)
  /-- The function of flight `f` runs the checks, with the answers of `env`. -/
  | run (f : Nat) (env : Environment) (choices : SetChoices)
  | clone (v : Nat)
  | applyMode (v : Nat)
  /-- `verifyOnce` failed with `err`. -/
  | fail (v : Nat) (err : GoError)

/-- The flight steps that neither start a call nor run the checks. -/
def FlightOp.touchesNoResult : FlightOp → Bool
  | .verify _ _ | .skip _ | .doChan _ | .runDone _ _ _ => false
  | _ => true

def flightRequest (req : VerifyRequest) (ruleIdx : Int) : FlightRequest :=
  ⟨bytes req.digest, bytes req.nameSpace, bytes req.imageRef, ruleIdx⟩

/-- The arguments of the checks of a call that needs them. -/
def Call.args (lib : Library) (call : Call) : Option RunArgs :=
  match decideRequest lib call.state call.req with
  | .check args _ => some args
  | _ => none

def missingPolicyResult (nameSpace : String) : Result :=
  ⟨false, false, "", "no policy found for namespace \"" ++ nameSpace ++
    "\" and no default policy configured",
    [failResult .policy "no matching policy found" none]⟩

def skipResult (mode : VerificationMode) (reason : String) : Result :=
  { allowResult reason with mode := mode.text }

def verifyErrorResult (mode : VerificationMode) (err : GoError) : Result :=
  { allowResult ("verification error: " ++ err.text) with
    verified := false
    mode := mode.text
    checkResults := [warnResult .internal ("verification error (allowed in " ++ mode.text ++
      " mode): " ++ err.text)] }

namespace VerifierState

def alloc (s : VerifierState) (owner : Owner) (value : Result) : VerifierState :=
  { s with cells := s.cells ++ [⟨owner, value⟩] }

def write (s : VerifierState) (p : Nat) (value : Result) : VerifierState :=
  { s with cells := s.cells.modify p (fun cell => { cell with value := value }) }

def return_ (s : VerifierState) (v : Nat) (result : Option Nat) (err : Option GoError) :
    VerifierState :=
  { s with
    working := Function.update s.working v none
    returned := Function.update s.returned v (some ⟨result, err⟩) }

/-- `applyEnforcement` of the object at `p`: it is written in place, and a
result that is admitted anyway is a copy. -/
def applyEnforcement (s : VerifierState) (v p : Nat) (value : Result) (mode : VerificationMode)
    (imageRef : String) : VerifierState :=
  let outcome := recordOutcome mode value
  let s := s.write p outcome
  if outcome.allowed then s.return_ v (some p) none
  else if mode = .enforce then
    s.return_ v (some p) (some (verificationFailed imageRef outcome.reason))
  else
    (s.alloc (.call v) { outcome with allowed := true }).return_ v (some s.cells.length) none

/-- `handleVerifyError`. -/
def handleVerifyError (s : VerifierState) (v : Nat) (mode : VerificationMode) (err : GoError) :
    VerifierState :=
  if mode ≠ .enforce then
    (s.alloc (.call v) (verifyErrorResult mode err)).return_ v (some s.cells.length) none
  else s.return_ v none (some (GoError.errorf ("verification: " ++ err.text) [err]))

/-- The early returns of `Verify`, and the start of a call that needs the
checks. -/
def start (lib : Library) (s : VerifierState) (v : Nat) (state : Snapshot) (req : VerifyRequest) :
    Option VerifierState :=
  match decideRequest lib state req with
  | .skip mode reason =>
    some ((s.alloc (.call v) (skipResult mode reason)).return_ v (some s.cells.length) none)
  | .missingPolicy =>
    let missing := missingPolicyResult req.nameSpace
    some ((s.alloc (.call v) missing).applyEnforcement v s.cells.length missing
      state.config.verification req.imageRef)
  | .digestRequired =>
    some (s.return_ v none (some (GoError.errorf
      ("image digest required for verification: " ++ req.imageRef)
      [GoError.new .errDigestRequired "image digest required for verification"])))
  | .check _ ruleIdx =>
    (s.flights.step (.verify v (flightRequest req ruleIdx))).map fun flights =>
      { s with flights := flights }

/-- The value of the object at a pointer. -/
def value (s : VerifierState) (p : Nat) : Option Result :=
  (s.cells[p]?).map (fun cell => cell.value)

def step (lib : Library) (s : VerifierState) : VerifierOp → Option VerifierState
  | .verify v state req =>
    match s.calls v with
    | some _ => none
    | none => { s with calls := Function.update s.calls v (some ⟨state, req⟩) }.start lib v
        state req
  | .flight op =>
    if op.touchesNoResult then
      (s.flights.step op).map fun flights => { s with flights := flights }
    else none
  | .doChan v =>
    match (s.calls v).bind (Call.args lib) with
    | none => none
    | some args =>
      (s.flights.step (.doChan v)).map fun flights =>
        let next := s.flights.flights.length
        { s with
          flights := flights
          closures := if flights.flights.length = next then s.closures
            else Function.update s.closures next (some args) }
  | .run f env choices =>
    match s.closures f with
    | none => none
    | some args =>
      match runChecks lib env args.state args.pol args.mode args.req with
      | .error _ => (s.flights.step (.runFailed f)).map fun flights =>
        { s with flights := flights }
      | .ok (result, ttl) => (s.flights.step (.runDone f ttl choices)).map fun flights =>
        { s.alloc (.run f) result with
          flights := flights
          results := Function.update s.results f (some s.cells.length) }
  | .clone v =>
    match s.flights.callers v, s.working v, s.returned v with
    | .returned _ _ (some run), none, none =>
      ((s.results run).bind s.value).map fun shared =>
        { s.alloc (.call v) shared with
          working := Function.update s.working v (some s.cells.length) }
    | _, _, _ => none
  | .applyMode v =>
    match (s.calls v).bind (Call.args lib), s.working v with
    | some args, some p => (s.value p).map fun value =>
      s.applyEnforcement v p value args.mode args.req.imageRef
    | _, _ => none
  | .fail v err =>
    match (s.calls v).bind (Call.args lib), s.flights.callers v, s.returned v with
    | some args, .returned _ _ none, none => some (s.handleVerifyError v args.mode err)
    | _, _, _ => none

end VerifierState

def verifierMachine (lib : Library) : Machine VerifierState VerifierOp where
  initial s := flightMachine.initial s.flights ∧
    s = ⟨s.flights, [], fun _ => none, fun _ => none, fun _ => none, fun _ => none, fun _ => none⟩
  step := VerifierState.step lib

end NriSupplyChain.Verifier
