import Mathlib.Data.List.AList
import NriSupplyChain.Lib.Cuts
import NriSupplyChain.Lib.Unicode
import NriSupplyChain.Types.Result

/-!
What binds a statement to an image and to a time: the digests of its subjects, and the
age of its timestamps. Times and durations are in nanoseconds. Of several statements,
the first one that passes decides.
-/

namespace NriSupplyChain.Types

open NriSupplyChain.Lib

section digests

def expectedHexLen : List (Text × Nat) :=
  [("sha256".toList, 64), ("sha384".toList, 96), ("sha512".toList, 128), ("sha3-256".toList, 64),
    ("sha3-384".toList, 96), ("sha3-512".toList, 128), ("sha512-256".toList, 64)]

def isHex (s : Text) : Bool :=
  s.all fun c => ('0' ≤ c && c ≤ '9') || ('a' ≤ c && c ≤ 'f')

/-- The algorithm and the hash of a digest. -/
def parseDigest (digest : Text) : Option (Text × Text) := do
  let (algo, hash) ← cut ':' digest
  let expected ← expectedHexLen.lookup algo
  guard (hash.length = expected ∧ isHex hash)
  return (algo, hash)

def matchDigestInMap (imageDigest : Text) (subjectDigests : AList fun _ : Text => Text) : Bool :=
  match parseDigest imageDigest with
  | none => false
  | some (algo, hash) => (subjectDigests.lookup algo).getD [] = hash

end digests

section freshness

def clockSkewTolerance : Int :=
  60 * 10 ^ 9

def maxReasonableAge : Int :=
  200 * 365 * 24 * 3600 * 10 ^ 9

/-- The difference of two times, as far as a duration of 64 bits can hold it. -/
def durationBetween (first second : Int) : Int :=
  max (-2 ^ 63) (min (2 ^ 63 - 1) (second - first))

inductive FreshnessError where
  | future
  | unreasonablyOld
  | stale (age : Int)
deriving DecidableEq

def verifyFreshness (now timestamp : Int) (maxAge : Option Int) : Except FreshnessError Unit :=
  let age := durationBetween timestamp now
  if age < -clockSkewTolerance then .error .future
  else
    let age := max age 0
    if maxReasonableAge < age then .error .unreasonablyOld
    else if maxAge.any (· < age) then .error (.stale age)
    else .ok ()

end freshness

section firstPass

/-- The result for items of which none has passed. -/
def noPassResult (checkType : CheckType) (label : String) (failReasons parseErrors : List String) :
    CheckResult :=
  if failReasons ≠ [] then
    let detail := "; ".intercalate failReasons
    if parseErrors ≠ [] then
      failResult checkType
        (detail ++ " (also failed to parse: " ++ "; ".intercalate parseErrors ++ ")") none
    else failResult checkType detail none
  else if parseErrors ≠ [] then
    failResult checkType
      ("no valid " ++ label ++ " attestation: " ++ "; ".intercalate parseErrors) none
  else failResult checkType ("no valid " ++ label ++ " attestation found") none

/-- Verify items until one passes. -/
def firstPassFrom {T : Type*} (ctxErr : Option GoError) (checkType : CheckType) (label : String)
    (verifyOne : T → Except GoError CheckResult) :
    List T → List String → List String → Except GoError CheckResult
  | [], failReasons, parseErrors => .ok (noPassResult checkType label failReasons parseErrors)
  | item :: items, failReasons, parseErrors =>
    match ctxErr with
    | some err => .error (.errorf ("verification cancelled: " ++ err.text) [err])
    | none =>
      match verifyOne item with
      | .error err =>
        firstPassFrom ctxErr checkType label verifyOne items failReasons (parseErrors ++ [err.text])
      | .ok result =>
        if result.passed then .ok result
        else
          firstPassFrom ctxErr checkType label verifyOne items (failReasons ++ [result.detail])
            parseErrors

def verifyMultipleFirstPassOf {T : Type*} (ctxErr : Option GoError) (checkType : CheckType)
    (label : String) (items : List T) (verifyOne : T → Except GoError CheckResult) :
    Except GoError CheckResult :=
  firstPassFrom ctxErr checkType label verifyOne items [] []

theorem noPassResult_passed (checkType : CheckType) (label : String)
    (failReasons parseErrors : List String) :
    (noPassResult checkType label failReasons parseErrors).passed = false := by
  unfold noPassResult
  split
  · dsimp only
    split <;> rfl
  · split <;> rfl

/-- A result that passes is the one of an item. -/
theorem exists_of_firstPassFrom {T : Type*} {ctxErr : Option GoError} {checkType : CheckType}
    {label : String} {verifyOne : T → Except GoError CheckResult} {items : List T}
    {failReasons parseErrors : List String} {result : CheckResult}
    (h : firstPassFrom ctxErr checkType label verifyOne items failReasons parseErrors = .ok result)
    (hpassed : result.passed = true) : ∃ item ∈ items, verifyOne item = .ok result := by
  induction items generalizing failReasons parseErrors with
  | nil =>
    cases h
    rw [noPassResult_passed] at hpassed
    cases hpassed
  | cons item items ih =>
    unfold firstPassFrom at h
    cases ctxErr with
    | some err => cases h
    | none =>
      dsimp only at h
      cases hverify : verifyOne item with
      | error err =>
        rw [hverify] at h
        obtain ⟨other, hmem, hother⟩ := ih h
        exact ⟨other, List.mem_cons_of_mem item hmem, hother⟩
      | ok found =>
        rw [hverify] at h
        dsimp only at h
        split at h
        · cases h
          exact ⟨item, List.mem_cons_self, hverify⟩
        · obtain ⟨other, hmem, hother⟩ := ih h
          exact ⟨other, List.mem_cons_of_mem item hmem, hother⟩

end firstPass

end NriSupplyChain.Types
