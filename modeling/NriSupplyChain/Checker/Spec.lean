import NriSupplyChain.Types.Evidence

/-!
The generic verifier of in-toto predicates, for checks of which every document must pass.
Documents that supersede each other are dropped by their age before the others are verified,
and the ages are checked again with each document. The clock is read once.
-/

namespace NriSupplyChain.Checker

open Lib NriSupplyChain.Types

abbrev Meta (V : Type*) := AList fun _ : String => V

structure CheckResult (V : Type*) where
  passed : Bool
  status : CheckStatus
  detail : String
  metadata : Option (Meta V)

/-- Times are in nanoseconds since the zero time. -/
structure Freshness (P Policy : Type*) where
  timestamp : P → Option Int
  maxAge : Option (Policy → Option Int)
  label : String
  errStale : String
  errFuture : String
  superseding : Bool

structure Spec (P Policy V : Type*) where
  label : String
  errInvalid : String
  validate : Option (P → Option String)
  predicateMeta : Option (P → Meta V)
  freshness : Option (Freshness P Policy)
  rules : List (P → Policy → String)
  merge : AList fun _ : String => V → V → Option V

structure Library (P : Type*) where
  verifySubjectAndExtractPredicate : Text → String → Except String Text
  trimSpace : Text → Text
  unmarshal : Text → Except String P
  formatTime : Int → String
  formatDuration : Int → String

section aggregate

variable {V : Type*}

structure MergeAggregate (V : Type*) where
  failDetails : List String
  softDetails : List String
  verifyErrors : List String
  mergedMeta : Option (Meta V)

def invalidDocumentsDetail (label : String) (total : Nat) (errs : List String) : String :=
  if errs.length = total then
    "all " ++ label ++ " documents failed verification: " ++ "; ".intercalate errs
  else toString errs.length ++ " of " ++ toString total ++ " " ++ label ++
    " documents failed verification: " ++ "; ".intercalate errs

namespace MergeAggregate

def add (mergeMeta : Meta V → Meta V → Meta V) (agg : MergeAggregate V) :
    Except String (CheckResult V) → MergeAggregate V
  | .error err => { agg with verifyErrors := agg.verifyErrors ++ [err] }
  | .ok result =>
    if result.passed then
      match result.metadata with
      | none => agg
      | some metadata =>
        { agg with mergedMeta := some (mergeMeta (agg.mergedMeta.getD ∅) metadata) }
    else if result.status = .fail then
      { agg with failDetails := agg.failDetails ++ [result.detail] }
    else { agg with softDetails := agg.softDetails ++ [result.detail] }

def result (agg : MergeAggregate V) (label passDetail : String) (total : Nat) : CheckResult V :=
  let failDetails := agg.failDetails ++
    if agg.verifyErrors = [] then []
    else [invalidDocumentsDetail label total agg.verifyErrors]
  if failDetails ≠ [] then ⟨false, .fail, "; ".intercalate failDetails, none⟩
  else if agg.softDetails ≠ [] then ⟨false, .warn, "; ".intercalate agg.softDetails, none⟩
  else ⟨true, .pass, passDetail, agg.mergedMeta⟩

/-- Nothing speaks against what was added. -/
def Clean (agg : MergeAggregate V) : Prop :=
  agg.failDetails = [] ∧ agg.softDetails = [] ∧ agg.verifyErrors = []

end MergeAggregate

def verifyMultipleWithMerge (ctxErr : Option String) (label passDetail : String)
    (atts : List Text) (verifyOne : Text → Except String (CheckResult V))
    (mergeMeta : Meta V → Meta V → Meta V) : Except String (CheckResult V) :=
  if atts = [] then .ok ⟨false, .fail, "no valid " ++ label ++ " attestation found", none⟩
  else
    match ctxErr with
    | some err => .error ("verification cancelled: " ++ err)
    | none =>
      let agg := atts.foldl (fun agg att => MergeAggregate.add mergeMeta agg (verifyOne att))
        ⟨[], [], [], none⟩
      .ok (agg.result label passDetail atts.length)

/-- The document was verified and has passed. -/
def Passes (outcome : Except String (CheckResult V)) : Prop :=
  ∃ result, outcome = .ok result ∧ result.passed = true

theorem MergeAggregate.clean_add {mergeMeta : Meta V → Meta V → Meta V} {agg : MergeAggregate V}
    {outcome : Except String (CheckResult V)} :
    (agg.add mergeMeta outcome).Clean ↔ agg.Clean ∧ Passes outcome := by
  unfold add Clean Passes
  cases outcome with
  | error err => simp
  | ok result =>
    cases hpassed : result.passed with
    | true => cases hmeta : result.metadata <;> simp [hpassed, hmeta]
    | false => by_cases hstatus : result.status = .fail <;> simp [hpassed, hstatus]

theorem MergeAggregate.clean_foldl {mergeMeta : Meta V → Meta V → Meta V}
    {verifyOne : Text → Except String (CheckResult V)} {atts : List Text} {agg : MergeAggregate V} :
    (atts.foldl (fun agg att => add mergeMeta agg (verifyOne att)) agg).Clean ↔
      agg.Clean ∧ ∀ att ∈ atts, Passes (verifyOne att) := by
  induction atts generalizing agg with
  | nil => simp
  | cons att atts ih => rw [List.foldl_cons, ih, clean_add, List.forall_mem_cons, and_assoc]

theorem MergeAggregate.result_of_clean {agg : MergeAggregate V} (h : agg.Clean)
    (label passDetail : String) (total : Nat) :
    agg.result label passDetail total = ⟨true, .pass, passDetail, agg.mergedMeta⟩ := by
  simp [result, h.1, h.2.1, h.2.2]

theorem MergeAggregate.result_passed {agg : MergeAggregate V} {label passDetail : String}
    {total : Nat} : (agg.result label passDetail total).passed = true ↔ agg.Clean := by
  refine ⟨?_, fun h => by rw [result_of_clean h]⟩
  cases hfail : agg.failDetails <;> cases hsoft : agg.softDetails <;>
    cases herr : agg.verifyErrors <;> simp [result, Clean, hfail, hsoft, herr]

/-- The aggregate passes when there is a document and each one passes. -/
theorem passes_verifyMultipleWithMerge {ctxErr : Option String} {label passDetail : String}
    {atts : List Text} {verifyOne : Text → Except String (CheckResult V)}
    {mergeMeta : Meta V → Meta V → Meta V}
    (hctx : ∀ err, ctxErr = some err → ∀ att, ¬ Passes (verifyOne att)) :
    Passes (verifyMultipleWithMerge ctxErr label passDetail atts verifyOne mergeMeta) ↔
      atts ≠ [] ∧ ∀ att ∈ atts, Passes (verifyOne att) := by
  unfold verifyMultipleWithMerge
  cases atts with
  | nil => simp [Passes]
  | cons att atts =>
    rw [if_neg (List.cons_ne_nil _ _), and_iff_right (List.cons_ne_nil _ _)]
    cases ctxErr with
    | some err =>
      refine iff_of_false (by simp [Passes]) fun hall => hctx err rfl att ?_
      exact hall att List.mem_cons_self
    | none =>
      simp only [Passes, Except.ok.injEq, exists_eq_left', MergeAggregate.result_passed]
      exact MergeAggregate.clean_foldl.trans (and_iff_right ⟨rfl, rfl, rfl⟩)

end aggregate

variable {P Policy V : Type*} (lib : Library P)

/-- The texts of the errors of `VerifyFreshness`. -/
def Freshness.errorText (f : Freshness P Policy) (timestamp : Int) (maxAge : Option Int) :
    FreshnessError → String
  | .future => f.errFuture ++ ": " ++ lib.formatTime timestamp
  | .unreasonablyOld =>
    f.errStale ++ ": timestamp " ++ lib.formatTime timestamp ++ " is unreasonably old"
  | .stale age => f.errStale ++ ": " ++ f.label ++ " " ++
    lib.formatDuration (age - age.tmod (10 ^ 9)) ++ " ago, max " ++
    lib.formatDuration (maxAge.getD 0)

/-- The timestamp of a predicate, unless it is the zero time. -/
def Freshness.dated (f : Freshness P Policy) (pred : P) : Option Int :=
  (f.timestamp pred).filter (· ≠ 0)

def Freshness.check (f : Freshness P Policy) (now : Int) (pred : P) (pol : Policy) :
    Option String :=
  let maxAge := f.maxAge.bind (· pol)
  match f.dated pred with
  | none =>
    if maxAge.isSome then some (f.errStale ++ ": no " ++ f.label ++ " timestamp in attestation")
    else none
  | some timestamp =>
    match verifyFreshness now timestamp maxAge with
    | .error err => some (f.errorText lib timestamp maxAge err)
    | .ok () => none

theorem Freshness.check_eq_none {lib : Library P} {f : Freshness P Policy} {now maxAge : Int}
    {pred : P} {pol : Policy} (hmax : f.maxAge.bind (· pol) = some maxAge)
    (h : f.check lib now pred pol = none) :
    ∃ timestamp, f.dated pred = some timestamp ∧
      -clockSkewTolerance ≤ durationBetween timestamp now ∧
      durationBetween timestamp now ≤ maxAge := by
  unfold check at h
  rw [hmax] at h
  dsimp only at h
  split at h
  · cases h
  · next timestamp hdated =>
    refine ⟨timestamp, hdated, ?_⟩
    split at h
    · cases h
    · next hfresh =>
      simp only [verifyFreshness, Option.any_some, decide_eq_true_eq] at hfresh
      split at hfresh
      · cases hfresh
      · split at hfresh
        · cases hfresh
        · split at hfresh
          · cases hfresh
          · omega

namespace Spec

variable (spec : Spec P Policy V) (now : Int)

def parse (predicate : Text) : Except String P :=
  let trimmed := lib.trimSpace predicate
  if trimmed.head? ≠ some '\x7b' then
    .error (spec.errInvalid ++ ": predicate must be a JSON object")
  else
    match lib.unmarshal trimmed with
    | .error err => .error (spec.errInvalid ++ ": " ++ err)
    | .ok pred =>
      match spec.validate with
      | none => .error (spec.errInvalid ++ ": predicate validator not configured")
      | some validate =>
        match validate pred with
        | some err => .error (spec.errInvalid ++ ": " ++ err)
        | none => .ok pred

/-- Bind a statement to the image and parse its predicate. -/
def document (att : Text) (imageDigest : String) : Except String P :=
  match lib.verifySubjectAndExtractPredicate att imageDigest with
  | .error err => .error (spec.errInvalid ++ ": " ++ err)
  | .ok predicate => spec.parse lib predicate

def evaluate (pred : P) (pol : Policy) : CheckResult V :=
  let metadata := spec.predicateMeta.map (· pred)
  match (spec.rules.map fun rule => rule pred pol).find? (· ≠ "") with
  | some violation => ⟨false, .fail, violation, metadata⟩
  | none =>
    match spec.freshness.bind fun f => f.check lib now pred pol with
    | some err => ⟨false, .fail, err, metadata⟩
    | none => ⟨true, .pass, spec.label ++ " verification passed", metadata⟩

def verify (ctxErr : Option String) (att : Text) (pol : Policy) (imageDigest : String) :
    Except String (CheckResult V) :=
  match ctxErr with
  | some err => .error ("verification cancelled: " ++ err)
  | none =>
    match spec.document lib att imageDigest with
    | .error err => .error err
    | .ok pred => .ok (spec.evaluate lib now pred pol)

/-- Whether the document is older than `maxAge`, and whether it has a usable timestamp. -/
def stale (f : Freshness P Policy) (att : Text) (maxAge : Int) (imageDigest : String) :
    Bool × Bool :=
  match spec.document lib att imageDigest with
  | .error _ => (false, false)
  | .ok pred =>
    match f.dated pred with
    | none => (false, false)
    | some timestamp =>
      let age := durationBetween timestamp now
      if age < -clockSkewTolerance then (false, false) else (maxAge < age, true)

def dropSuperseded (atts : List Text) (pol : Policy) (imageDigest : String) : List Text :=
  match spec.freshness with
  | none => atts
  | some f =>
    match f.maxAge with
    | none => atts
    | some maxAgeOf =>
      if !f.superseding then atts
      else
        match maxAgeOf pol with
        | none => atts
        | some maxAge =>
          let current := atts.filter fun att => !(spec.stale lib now f att maxAge imageDigest).1
          if current.any fun att => (spec.stale lib now f att maxAge imageDigest).2 then current
          else atts

def mergeEntry (dst : Meta V) (key : String) (val : V) : Meta V :=
  match dst.lookup key with
  | none => dst.insert key val
  | some existing =>
    match (spec.merge.lookup key).bind fun merge => merge existing val with
    | none => dst
    | some merged => dst.insert key merged

def mergeMeta (dst src : Meta V) : Meta V :=
  src.entries.foldl (fun dst entry => spec.mergeEntry dst entry.1 entry.2) dst

def verifyMultiple (ctxErr : Option String) (atts : List Text) (pol : Policy)
    (imageDigest : String) : Except String (CheckResult V) :=
  verifyMultipleWithMerge ctxErr spec.label (spec.label ++ " verification passed")
    (spec.dropSuperseded lib now atts pol imageDigest)
    (fun att => spec.verify lib now ctxErr att pol imageDigest) spec.mergeMeta

/-- The age of a document that parses and has a usable timestamp. -/
def age (f : Freshness P Policy) (att : Text) (imageDigest : String) : Option Int :=
  ((spec.document lib att imageDigest).toOption.bind f.dated).map fun timestamp =>
    durationBetween timestamp now

variable {lib spec now} {f : Freshness P Policy} {att : Text} {pol : Policy} {imageDigest : String}
  {maxAge : Int} {ctxErr : Option String}

theorem stale_eq : spec.stale lib now f att maxAge imageDigest =
    match spec.age lib now f att imageDigest with
    | none => (false, false)
    | some age => if age < -clockSkewTolerance then (false, false) else (maxAge < age, true) := by
  unfold stale age
  cases spec.document lib att imageDigest with
  | error err => rfl
  | ok pred => cases hdated : f.dated pred <;> simp [Except.toOption, hdated]

theorem stale_fst : (spec.stale lib now f att maxAge imageDigest).1 = true ↔
    ∃ age, spec.age lib now f att imageDigest = some age ∧ -clockSkewTolerance ≤ age ∧
      maxAge < age := by
  rw [stale_eq]
  cases hage : spec.age lib now f att imageDigest with
  | none => simp
  | some age =>
    by_cases hskew : age < -clockSkewTolerance
    · simp [hskew]
    · simp [hskew, not_lt.mp hskew]

theorem check_of_passed {pred : P} (hf : spec.freshness = some f)
    (h : (spec.evaluate lib now pred pol).passed = true) : f.check lib now pred pol = none := by
  unfold evaluate at h
  rw [hf] at h
  dsimp only at h
  split at h
  · cases h
  · split at h
    · cases h
    · assumption

/-- A document that passes on its own has an age within the limit. -/
theorem age_of_passes (hf : spec.freshness = some f) (hmax : f.maxAge.bind (· pol) = some maxAge)
    (hpasses : Passes (spec.verify lib now ctxErr att pol imageDigest)) :
    ∃ age, spec.age lib now f att imageDigest = some age ∧ -clockSkewTolerance ≤ age ∧
      age ≤ maxAge := by
  obtain ⟨result, hverify, hpassed⟩ := hpasses
  unfold verify at hverify
  split at hverify
  · cases hverify
  · split at hverify
    · cases hverify
    · next pred hdoc =>
      cases hverify
      obtain ⟨timestamp, hdated, hfresh⟩ := Freshness.check_eq_none hmax
        (check_of_passed hf hpassed)
      refine ⟨_, ?_, hfresh⟩
      simp only [age, hdoc, Except.toOption, Option.bind_some, hdated, Option.map_some]

/-- The documents supersede each other, with a maximum age. -/
def Supersedes (spec : Spec P Policy V) (f : Freshness P Policy) (pol : Policy) (maxAge : Int) :
    Prop :=
  spec.freshness = some f ∧ f.superseding = true ∧ f.maxAge.bind (· pol) = some maxAge ∧ 0 ≤ maxAge

theorem dropSuperseded_eq (h : spec.Supersedes f pol maxAge) (atts : List Text) :
    spec.dropSuperseded lib now atts pol imageDigest =
      let current := atts.filter fun att => !(spec.stale lib now f att maxAge imageDigest).1
      if current.any fun att => (spec.stale lib now f att maxAge imageDigest).2 then current
      else atts := by
  obtain ⟨hf, hsuperseding, hmax, -⟩ := h
  obtain ⟨maxAgeOf, hof, hmax⟩ := Option.bind_eq_some_iff.mp hmax
  simp only [dropSuperseded, hf, hof, hmax, hsuperseding, Bool.not_true, Bool.false_eq_true,
    if_false]

/-- The document is dated within the maximum age, or less than the tolerance in the future. -/
def Current (lib : Library P) (spec : Spec P Policy V) (now : Int) (f : Freshness P Policy)
    (maxAge : Int) (imageDigest : String) (att : Text) : Prop :=
  ∃ age, spec.age lib now f att imageDigest = some age ∧ -clockSkewTolerance ≤ age ∧ age ≤ maxAge

theorem any_fresh_iff (atts : List Text) :
    ((atts.filter fun att => !(spec.stale lib now f att maxAge imageDigest).1).any fun att =>
      (spec.stale lib now f att maxAge imageDigest).2) = true ↔
      ∃ att ∈ atts, Current lib spec now f maxAge imageDigest att := by
  rw [List.any_eq_true]
  simp only [List.mem_filter, and_assoc]
  refine exists_congr fun att => and_congr_right fun _ => ?_
  unfold Current
  rw [stale_eq]
  cases hage : spec.age lib now f att imageDigest with
  | none => simp
  | some age =>
    by_cases hskew : age < -clockSkewTolerance
    · simp [hskew]
    · simp [hskew, not_lt.mp hskew]

theorem passes_iff (h : spec.Supersedes f pol maxAge) (atts : List Text) :
    Passes (spec.verifyMultiple lib now ctxErr atts pol imageDigest) ↔
      (∃ att ∈ atts, Current lib spec now f maxAge imageDigest att) ∧
      ∀ att ∈ atts, (∀ age, spec.age lib now f att imageDigest = some age → age ≤ maxAge) →
        Passes (spec.verify lib now ctxErr att pol imageDigest) := by
  have hkept (att : Text) : (spec.stale lib now f att maxAge imageDigest).1 = false ↔
      ∀ age, spec.age lib now f att imageDigest = some age → age ≤ maxAge := by
    have htolerance : (0 : Int) ≤ clockSkewTolerance := by decide
    have hzero := h.2.2.2
    rw [← Bool.not_eq_true, stale_fst]
    constructor
    · intro hnot age hsome
      by_contra hold
      exact hnot ⟨age, hsome, by omega, by omega⟩
    · rintro hall ⟨age, hsome, -, hold⟩
      have hle := hall age hsome
      omega
  have hown {att : Text} (hpasses : Passes (spec.verify lib now ctxErr att pol imageDigest)) :
      Current lib spec now f maxAge imageDigest att := age_of_passes h.1 h.2.2.1 hpasses
  unfold verifyMultiple
  rw [dropSuperseded_eq h, passes_verifyMultipleWithMerge ?_]
  · dsimp only
    split
    · next hfresh =>
      rw [and_iff_right, and_iff_right ((any_fresh_iff atts).mp hfresh)]
      · simp only [List.mem_filter, Bool.not_eq_true', hkept, and_imp]
      · intro hnil
        rw [hnil] at hfresh
        cases hfresh
    · next hnone =>
      rw [any_fresh_iff] at hnone
      refine iff_of_false ?_ fun hboth => hnone hboth.1
      rintro ⟨hne, hall⟩
      obtain ⟨att, hmem⟩ := List.exists_mem_of_ne_nil atts hne
      exact hnone ⟨att, hmem, hown (hall att hmem)⟩
  · rintro err rfl att ⟨result, hverify, -⟩
    cases hverify

/-- The aggregate over documents that supersede each other passes exactly when one of them is
current and all pass on their own but those older than the maximum age. So a document without an
age, or with one in the future, fails it, and the order of the documents does not matter. -/
theorem passes_verifyMultiple (h : spec.Supersedes f pol maxAge) (atts : List Text) :
    (Passes (spec.verifyMultiple lib now ctxErr atts pol imageDigest) ↔
      (∃ att ∈ atts, Current lib spec now f maxAge imageDigest att) ∧
      ∀ att ∈ atts, (∀ age, spec.age lib now f att imageDigest = some age → age ≤ maxAge) →
        Passes (spec.verify lib now ctxErr att pol imageDigest)) ∧
    (∀ att ∈ atts, (∀ age, spec.age lib now f att imageDigest = some age →
        age < -clockSkewTolerance) →
      ¬ Passes (spec.verifyMultiple lib now ctxErr atts pol imageDigest)) ∧
    ∀ atts', atts.Perm atts' →
      (Passes (spec.verifyMultiple lib now ctxErr atts pol imageDigest) ↔
        Passes (spec.verifyMultiple lib now ctxErr atts' pol imageDigest)) := by
  refine ⟨passes_iff h atts, ?_, ?_⟩
  · intro att hmem hage hpasses
    have htolerance : (0 : Int) ≤ clockSkewTolerance := by decide
    have hzero := h.2.2.2
    have hown : Passes (spec.verify lib now ctxErr att pol imageDigest) := by
      apply ((passes_iff h atts).mp hpasses).2 att hmem
      intro age hsome
      have hfuture := hage age hsome
      omega
    obtain ⟨age, hsome, hskew, -⟩ := age_of_passes h.1 h.2.2.1 hown
    have hfuture := hage age hsome
    omega
  · intro atts' hperm
    rw [passes_iff h, passes_iff h]
    simp only [hperm.mem_iff]

end Spec

section scans

/-- A document is the time of a scan in braces. -/
def scanLibrary : Library Int where
  verifySubjectAndExtractPredicate att _ := .ok att
  trimSpace := Lib.trimSpace
  unmarshal text := ((atoi (text.drop 1).dropLast).map Except.ok).getD (.error "not a number")
  formatTime := toString
  formatDuration := toString

def scanFreshness : Freshness Int (Option Int) :=
  ⟨some, some id, "scanned", "stale scan", "scan from the future", true⟩

def scanSpec : Spec Int (Option Int) Unit :=
  ⟨"scan", "invalid scan", some fun _ => none, none, some scanFreshness, [], ∅⟩

/-- An old scan is ignored next to a current one. -/
theorem passes_verifyMultiple_rescan :
    Passes (scanSpec.verifyMultiple scanLibrary 100 none ["\x7b10\x7d".toList, "\x7b90\x7d".toList]
      (some 50) "") := by
  have h : scanSpec.Supersedes scanFreshness (some 50) 50 := ⟨rfl, rfl, rfl, by decide⟩
  refine (Spec.passes_verifyMultiple h _).1.mpr
    ⟨⟨"\x7b90\x7d".toList, by simp, 10, rfl, by decide, by decide⟩, ?_⟩
  intro att hmem hage
  rcases List.mem_cons.mp hmem with rfl | hmem
  · exact absurd (hage 90 rfl) (by decide)
  · obtain rfl := List.mem_singleton.mp hmem
    exact ⟨_, rfl, rfl⟩

end scans

end NriSupplyChain.Checker
