import NriSupplyChain.Circuit.Breaker
import NriSupplyChain.Types.Result

/-!
One GUAC query. The configured checks of `guac.Query` run concurrently, and
each records its data or its error under a lock; the order in which they take
the lock is part of the answers. `fetchGUACData` then settles the breaker and
applies the fallback policy.
-/

namespace NriSupplyChain.Guac

open NriSupplyChain.Types Circuit

inductive GuacCheck where
  | certifyVuln
  | certifyScorecard
  | isDependency
deriving DecidableEq, Repr

structure Vulnerability where
  id : String
  package : String
deriving DecidableEq, Repr

structure ScorecardResult where
  aggregate : Rat
  checks : List (String × Rat)
  source : String
  truncated : Bool
deriving DecidableEq, Repr

structure DependencyInfo where
  dependencies : List String
  dependencyCount : Int
deriving DecidableEq, Repr

/-- What the server answers to the three queries, and the order in which the
goroutines take the lock. -/
structure Answers where
  vulnerabilities : Except GoError (List Vulnerability × List Vulnerability)
  scorecard : Except GoError ScorecardResult
  dependencies : Except GoError DependencyInfo
  order : List GuacCheck
  order_complete : order.Perm [.certifyVuln, .certifyScorecard, .isDependency]

/-- The error of one check, if it failed. -/
def Answers.failure (answers : Answers) : GuacCheck → Option GoError
  | .certifyVuln =>
    match answers.vulnerabilities with
    | .error err => some err
    | .ok _ => none
  | .certifyScorecard =>
    match answers.scorecard with
    | .error err => some err
    | .ok _ => none
  | .isDependency =>
    match answers.dependencies with
    | .error err => some err
    | .ok _ => none

theorem Answers.mem_order (answers : Answers) (check : GuacCheck) : check ∈ answers.order := by
  rw [answers.order_complete.mem_iff]
  cases check <;> simp

structure QueryResult where
  available : Bool
  vulnerabilities : Option (List Vulnerability × List Vulnerability)
  scorecard : Option ScorecardResult
  dependencyInfo : Option DependencyInfo
  err : Option GoError
deriving Repr

namespace QueryResult

def recordFailure (result : QueryResult) (err : GoError) : QueryResult :=
  { result with available := false, err := GoError.join (result.err.toList ++ [err]) }

/-- The lock-protected update of one check. -/
def record (answers : Answers) (result : QueryResult) : GuacCheck → QueryResult
  | .certifyVuln =>
    match answers.vulnerabilities with
    | .error err => result.recordFailure err
    | .ok vulns => { result with vulnerabilities := some vulns }
  | .certifyScorecard =>
    match answers.scorecard with
    | .error err => result.recordFailure err
    | .ok scorecard => { result with scorecard := some scorecard }
  | .isDependency =>
    match answers.dependencies with
    | .error err => result.recordFailure err
    | .ok info => { result with dependencyInfo := some info }

theorem errorIs_recordFailure (result : QueryResult) (err : GoError) (target : Sentinel) :
    errorIs (result.recordFailure err).err target =
      (errorIs result.err target || err.is target) := by
  simp only [recordFailure, errorIs_join, List.any_append, List.any_cons, List.any_nil,
    Bool.or_false]
  cases result.err <;> simp

/-- One check adds its error and nothing else to the errors of the query. -/
theorem record_spec (answers : Answers) (result : QueryResult) (check : GuacCheck)
    (target : Sentinel) :
    (result.record answers check).available =
        (result.available && (answers.failure check).isNone) ∧
      errorIs (result.record answers check).err target =
        (errorIs result.err target || errorIs (answers.failure check) target) := by
  have hfailure (err : GoError) : (result.recordFailure err).available = false := rfl
  cases check with
  | certifyVuln =>
    cases h : answers.vulnerabilities <;>
      simp [record, Answers.failure, h, hfailure, errorIs_recordFailure]
  | certifyScorecard =>
    cases h : answers.scorecard <;>
      simp [record, Answers.failure, h, hfailure, errorIs_recordFailure]
  | isDependency =>
    cases h : answers.dependencies <;>
      simp [record, Answers.failure, h, hfailure, errorIs_recordFailure]

/-- Recording a list of checks, in whatever order they finished. -/
theorem foldl_record_spec (answers : Answers) (checks : List GuacCheck)
    (result : QueryResult) (target : Sentinel) :
    (checks.foldl (record answers) result).available =
        (result.available && checks.all (fun check => (answers.failure check).isNone)) ∧
      errorIs (checks.foldl (record answers) result).err target =
        (errorIs result.err target ||
          checks.any (fun check => errorIs (answers.failure check) target)) := by
  induction checks generalizing result with
  | nil => simp
  | cons check rest ih =>
    obtain ⟨havailable, herr⟩ := ih (record answers result check)
    obtain ⟨hstep, hstepErr⟩ := record_spec answers result check target
    constructor
    · rw [List.foldl_cons, havailable, hstep, List.all_cons, Bool.and_assoc]
    · rw [List.foldl_cons, herr, hstepErr, List.any_cons, Bool.or_assoc]

end QueryResult

def vulnsToSlice (vulns : List Vulnerability) : MetaValue :=
  .list (vulns.map fun v => .map [("id", .str v.id), ("package", .str v.package)])

def scorecardToMap (scorecard : ScorecardResult) : MetaValue :=
  .map [("aggregate", .double scorecard.aggregate),
    ("checks", .map (scorecard.checks.map fun c => (c.1, .double c.2))),
    ("source", .str scorecard.source),
    ("truncated", .bool scorecard.truncated)]

/-- Checks that did not succeed contribute only their availability flag. -/
def buildMetadata (result : QueryResult) : Metadata :=
  [("available", .bool result.available),
    ("vulnerabilities_available", .bool result.vulnerabilities.isSome),
    ("scorecard_available", .bool result.scorecard.isSome),
    ("dependencies_available", .bool result.dependencyInfo.isSome)] ++
  (match result.vulnerabilities with
    | some (direct, transitive) =>
      [("vulnerabilities", vulnsToSlice direct),
        ("transitive_vulns", vulnsToSlice transitive)]
    | none => []) ++
  (match result.scorecard with
    | some scorecard => [("scorecard", scorecardToMap scorecard)]
    | none => []) ++
  (match result.dependencyInfo with
    | some info =>
      [("dependencies", .list (info.dependencies.map .str)),
        ("dependency_count", .int info.dependencyCount)]
    | none => [])

def partialFailure : GoError :=
  GoError.new .errGUACPartialFailure "one or more GUAC queries failed"

def buildCheckResult (result : QueryResult) : CheckResult :=
  if !result.available then
    let err := match result.err with
      | none => partialFailure
      | some err => GoError.errorf (partialFailure.text ++ ": " ++ err.text) [partialFailure, err]
    { softFailResult .guac "GUAC queries partially failed" (some err) with
      metadata := some (buildMetadata result) }
  else
    let direct := (result.vulnerabilities.map (fun v => v.1.length)).getD 0
    let transitive := (result.vulnerabilities.map (fun v => v.2.length)).getD 0
    { passResult .guac ("GUAC: " ++ toString direct ++ " direct vulns, " ++
        toString transitive ++ " transitive vulns") with
      metadata := some (buildMetadata result) }

theorem buildCheckResult_spec (result : QueryResult) {target : Sentinel}
    (htarget : target ≠ .errGUACPartialFailure) :
    (buildCheckResult result).passed = result.available ∧
      (result.available = false →
        errorIs (buildCheckResult result).err target = errorIs result.err target) ∧
      (result.available = true → (buildCheckResult result).err = none) := by
  cases h : result.available <;> cases herr : result.err <;>
    simp [buildCheckResult, h, herr, softFailResult, passResult, partialFailure, htarget]

def query (checks : List GuacCheck) (answers : Answers) : CheckResult :=
  buildCheckResult ((answers.order.filter (fun check => checks.contains check)).foldl
    (QueryResult.record answers) ⟨true, none, none, none, none⟩)

/-- The verdict of a query and the errors in it, read off the answers: the
order of the goroutines does not matter. -/
theorem query_spec (checks : List GuacCheck) (answers : Answers) (target : Sentinel)
    (htarget : target ≠ .errGUACPartialFailure) :
    (query checks answers).passed =
        checks.all (fun check => (answers.failure check).isNone) ∧
      errorIs (query checks answers).err target =
        checks.any (fun check => errorIs (answers.failure check) target) := by
  let asked := answers.order.filter (fun check => checks.contains check)
  have hasked (check : GuacCheck) : check ∈ asked ↔ check ∈ checks := by
    simp [asked, answers.mem_order]
  have hall : asked.all (fun check => (answers.failure check).isNone) =
      checks.all (fun check => (answers.failure check).isNone) := by
    rw [Bool.eq_iff_iff]
    simp [hasked]
  have hany : asked.any (fun check => errorIs (answers.failure check) target) =
      checks.any (fun check => errorIs (answers.failure check) target) := by
    rw [Bool.eq_iff_iff]
    simp [hasked]
  obtain ⟨havailable, herr⟩ := QueryResult.foldl_record_spec answers asked
    ⟨true, none, none, none, none⟩ target
  rw [Bool.true_and, hall] at havailable
  rw [errorIs_none, Bool.false_or, hany] at herr
  obtain ⟨hpassed, hfailed, hok⟩ := buildCheckResult_spec
    (asked.foldl (QueryResult.record answers) ⟨true, none, none, none, none⟩) htarget
  refine ⟨hpassed.trans havailable, ?_⟩
  cases hcase : checks.all (fun check => (answers.failure check).isNone) with
  | false => exact (hfailed (havailable.trans hcase)).trans herr
  | true =>
    rw [query, hok (havailable.trans hcase), errorIs_none]
    symm
    rw [List.any_eq_false]
    intro check hcheck
    have hnone := List.all_eq_true.mp hcase check hcheck
    rw [Option.isNone_iff_eq_none.mp hnone]
    simp

def applyGUACFallback (fallbackPolicy : Action) (imageRef : String) (err : GoError) :
    Option CheckResult :=
  let detail := "GUAC query failed for " ++ imageRef ++ ": " ++ err.text
  match fallbackPolicy with
  | .allow => none
  | .deny => some (failResult .guac detail (some err))
  | _ => some (warnResult .guac detail)

/-- What the breaker hears of a query that returned: a failure caused by the
local authentication token is not reported at all. -/
def settleBreaker (cb : Breaker) (result : CheckResult) (now : Int) : Breaker :=
  if !result.passed then
    if errorIs result.err .errGUACAuthError then cb else (cb.recordFailure now).1
  else cb.recordSuccess

/-- The check result of a query that returned. With an allow fallback a
failure is ignored, but partial data is still exposed. -/
def guacCheckResult (fallbackPolicy : Action) (imageRef : String) (result : CheckResult) :
    Option CheckResult :=
  if !result.passed then
    let err := result.err.getD partialFailure
    let fallback := applyGUACFallback fallbackPolicy imageRef err
    match result.metadata with
    | none => fallback
    | some metadata =>
      let kept := fallback.getD (passResult .guac
        ("GUAC query failed for " ++ imageRef ++ ", allowed by fallback policy"))
      some { kept with metadata := some metadata }
  else some result

/-- How a query that passed the breaker ends. -/
inductive Ending where
  | answered (checks : List GuacCheck) (answers : Answers)
  | panicked (value : String)

/-- The breaker after a query ended. A panic is recovered in `startGUACQuery`,
above the code that settles the breaker. -/
def Ending.settle (ending : Ending) (cb : Breaker) (now : Int) : Breaker :=
  match ending with
  | .answered checks answers => settleBreaker cb (query checks answers) now
  | .panicked _ => cb

/-- The ending is one the breaker hears nothing of: a panic, or a query one of
whose configured checks could not read the authentication token. -/
def Ending.unrecorded : Ending → Bool
  | .answered checks answers =>
    checks.any (fun check => errorIs (answers.failure check) .errGUACAuthError)
  | .panicked _ => true

/-- What became of the GUAC query of one verification. -/
inductive GuacOutcome where
  | notConfigured
  | breakerOpen
  | ended (ending : Ending)

/-- The value `startGUACQuery` sends on its channel. -/
def startGUACQuery (fallbackPolicy : Action) (imageRef : String) :
    GuacOutcome → Option CheckResult
  | .notConfigured => none
  | .breakerOpen =>
    applyGUACFallback fallbackPolicy imageRef
      (GoError.new .errGUACBreakerOpen "GUAC circuit breaker open")
  | .ended (.answered checks answers) =>
    guacCheckResult fallbackPolicy imageRef (query checks answers)
  | .ended (.panicked value) =>
    applyGUACFallback fallbackPolicy imageRef
      (GoError.errorf ("GUAC query panicked: " ++ value)
        [GoError.new .errGUACPanic "GUAC query panicked"])

/-- Whether the query of an ending counts for the breaker. -/
theorem query_auth_error {checks : List GuacCheck} {answers : Answers} :
    (Ending.answered checks answers).unrecorded =
      errorIs (query checks answers).err .errGUACAuthError := by
  exact (query_spec checks answers .errGUACAuthError (by simp)).2.symm

theorem settle_unrecorded {ending : Ending} (h : ending.unrecorded = true)
    (cb : Breaker) (now : Int) : ending.settle cb now = cb := by
  cases ending with
  | panicked value => rfl
  | answered checks answers =>
    have hpassed : (query checks answers).passed = false := by
      obtain ⟨check, hcheck, herr⟩ := List.any_eq_true.mp h
      rw [(query_spec checks answers .errGUACAuthError (by simp)).1, List.all_eq_false]
      refine ⟨check, hcheck, ?_⟩
      cases hfailure : answers.failure check with
      | none => simp [hfailure] at herr
      | some err => simp
    rw [query_auth_error] at h
    simp [Ending.settle, settleBreaker, hpassed, h]

/-- A recorded ending never leaves the breaker half-open. -/
theorem settle_recorded {ending : Ending} (h : ending.unrecorded = false)
    {cb : Breaker} (htripped : cb.Tripped) (now : Int) :
    (ending.settle cb now).state ≠ .circuitHalfOpen := by
  cases ending with
  | panicked value => cases h
  | answered checks answers =>
    rw [query_auth_error] at h
    simp only [Ending.settle, settleBreaker, h]
    cases hpassed : (query checks answers).passed with
    | true => simp [Breaker.recordSuccess]
    | false =>
      simp only [Bool.not_false, if_true, Bool.false_eq_true, if_false]
      exact Breaker.recordFailureLocked_not_halfOpen htripped now

theorem settle_tripped (ending : Ending) {cb : Breaker} (h : cb.Tripped) (now : Int) :
    (ending.settle cb now).Tripped := by
  cases ending with
  | panicked value => exact h
  | answered checks answers =>
    simp only [Ending.settle, settleBreaker]
    split
    · split
      · exact h
      · exact Breaker.recordFailureLocked_tripped h now
    · exact Breaker.recordSuccessLocked_tripped cb

end NriSupplyChain.Guac
