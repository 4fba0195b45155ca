import NriSupplyChain.Policy.Enforce
import NriSupplyChain.Verifier.ImageForms
import NriSupplyChain.Verifier.Requests

/-!
The policy that is chosen for an image (`ResolveImagePolicy`): the policy of the
namespace, or the default policy, with the first rule applied whose patterns
cover the image. Rules can relax a policy, so they are matched with the spellings
of the image that hold no tag if there is a digest. What a verification reads of a
policy are its `settings`.
-/

namespace NriSupplyChain.PolicyFile

open Lib Imageref Verifier

variable {Program : Type}

section model

variable (checkRegistry : Text → Bool) (table : CaseTable) (parseDuration : Text → Option Int)

def policyForNamespace (policies : Policies Program) (namespace_ : Text) :
    Option (Policy Program) :=
  match lookup namespace_ policies with
  | some pol => some pol
  | none => lookup [] policies

def matchesImageRule (patterns : List Text) (imageRef : Text) : Bool :=
  patterns.any (matchesAnyForm · (imageMatchForms checkRegistry table imageRef true))

/-- The loop over the rules, from an index on. -/
def resolveRules (pol : Policy Program) (imageRef : Text) : Int → List (ImageRule Program) →
    Memory → Draft Program × Int
  | _, [], m => ((pol, m), -1)
  | idx, rule :: rules, m =>
    if matchesImageRule checkRegistry table (texts.texts rule.images) imageRef then
      (applyRule parseDuration pol rule m, idx)
    else resolveRules pol imageRef (idx + 1) rules m

def resolveImagePolicy (pol : Policy Program) (imageRef : Text) (m : Memory) :
    Draft Program × Int :=
  resolveRules checkRegistry table parseDuration pol imageRef 0 (pol.rules.elim [] (·.2)) m

end model

section enforced

variable (checkRegistry : Text → Bool) (table : CaseTable) {parseDuration : Text → Option Int}
  {compile : Json → Option Program}

theorem lookup_mem {namespace_ : Text} : ∀ {policies : Policies Program} {pol : Policy Program},
    lookup namespace_ policies = some pol → ∃ entry ∈ policies, entry.2 = pol
  | [], _, h => by cases h
  | first :: policies, pol, h => by
    unfold lookup at h
    split at h
    · cases h
      exact ⟨first, List.mem_cons_self, rfl⟩
    · obtain ⟨entry, hmem, hpol⟩ := lookup_mem h
      exact ⟨entry, List.mem_cons_of_mem _ hmem, hpol⟩

theorem policyForNamespace_mem {policies : Policies Program} {namespace_ : Text}
    {pol : Policy Program} (h : policyForNamespace policies namespace_ = some pol) :
    ∃ entry ∈ policies, entry.2 = pol := by
  unfold policyForNamespace at h
  split at h
  · next found hfound =>
    cases h
    exact lookup_mem hfound
  · exact lookup_mem h

/-- The policy that is chosen is the given one, or one that a rule produces. -/
theorem resolveRules_cases (pol : Policy Program) (imageRef : Text) :
    ∀ (idx : Int) (rules : List (ImageRule Program)) (m : Memory),
      (resolveRules checkRegistry table parseDuration pol imageRef idx rules m).1 = (pol, m) ∨
        ∃ rule ∈ rules,
          (resolveRules checkRegistry table parseDuration pol imageRef idx rules m).1 =
          applyRule parseDuration pol rule m
  | _, [], _ => .inl rfl
  | idx, first :: rules, m => by
    unfold resolveRules
    split
    · exact .inr ⟨first, List.mem_cons_self, rfl⟩
    · rcases resolveRules_cases pol imageRef (idx + 1) rules m with hsame | ⟨rule, hmem, happly⟩
      · exact .inl hsame
      · exact .inr ⟨rule, List.mem_cons_of_mem _ hmem, happly⟩

/-- Every policy that is in effect for an image of an enforcing namespace is safe. -/
theorem resolveImagePolicy_safe {mode : Text} {docs : List (Text × Json)} {m m₁ : Memory}
    {policies : Policies Program}
    (haccept : acceptPolicies parseDuration compile mode docs m = some (policies, m₁))
    {namespace_ : Text} {pol : Policy Program}
    (hpol : policyForNamespace policies namespace_ = some pol)
    (hmode : effectiveMode pol mode = modeEnforce) (imageRef : Text) (m₂ : Memory) :
    SafeToEnforce
      (resolveImagePolicy checkRegistry table parseDuration pol imageRef m₂).1.1.sections := by
  obtain ⟨⟨loaded, m'⟩, -, hcheck⟩ := Option.bind_eq_some_iff.mp haccept
  dsimp only at hcheck
  split at hcheck
  · next haccepted =>
    cases hcheck
    obtain ⟨entry, hmem, rfl⟩ := policyForNamespace_mem hpol
    obtain ⟨m'', hvalid⟩ := validatePoliciesModes_enforced haccepted entry hmem hmode
    obtain ⟨hbase, hrules⟩ := validateEnforce_none hvalid
    rw [← enforceError_eq_none_iff]
    rcases resolveRules_cases checkRegistry table entry.2 imageRef 0
        (entry.2.rules.elim [] (·.2)) m₂ with hsame | ⟨rule, hmem, happly⟩
    · unfold resolveImagePolicy
      rw [hsame]
      exact hbase
    · unfold resolveImagePolicy
      rw [happly]
      exact hrules rule hmem m₂
  · cases hcheck

section samples

/-- A default policy with a trusted issuer, whose subjects a rule narrows. -/
def sampleEnforced : Json :=
  objectOf [
    ("mode", .string "enforce".toList),
    ("trust", objectOf [
      ("issuers", .array [.string "https://accounts.example.com".toList]),
      ("sanPatterns", .array [.string "*@example.com".toList])]),
    ("notation", objectOf [("verificationLevel", .string "strict".toList)]),
    ("rules", .array [objectOf [
      ("images", .array [.string "docker.io/library/*".toList]),
      ("trust", objectOf [("sanPatterns", .array [.string "release@example.com".toList])])]])]

/-- A namespace that takes all of this over. -/
def sampleInheriting : Json :=
  objectOf [("inherits", .bool true)]

def sampleDocuments : List (Text × Json) :=
  [([], sampleEnforced), ("prod".toList, sampleInheriting)]

end samples

theorem resolveImagePolicy_safe_sample : ∃ (policies : Policies Json) (m : Memory)
    (pol : Policy Json),
    acceptPolicies sampleDurations samplePrograms "warn".toList sampleDocuments ⟨0, []⟩ =
        some (policies, m) ∧
      policyForNamespace policies "prod".toList = some pol ∧
      effectiveMode pol "warn".toList = modeEnforce ∧
      SafeToEnforce (resolveImagePolicy (fun _ => true) CaseTable.ascii sampleDurations pol
        "docker.io/library/nginx".toList m).1.1.sections := by
  have hmodes : (acceptPolicies sampleDurations samplePrograms "warn".toList sampleDocuments
      ⟨0, []⟩).map (fun accepted => (policyForNamespace accepted.1 "prod".toList).map
        (effectiveMode · "warn".toList)) = some (some modeEnforce) := by decide
  obtain ⟨⟨policies, m⟩, haccept, hpolicies⟩ := Option.map_eq_some_iff.mp hmodes
  obtain ⟨pol, hpol, hmode⟩ := Option.map_eq_some_iff.mp hpolicies
  exact ⟨policies, m, pol, haccept, hpol, hmode,
    resolveImagePolicy_safe _ _ haccept hpol hmode _ _⟩

end enforced

section pinned

variable (checkRegistry : Text → Bool) (table : CaseTable) (parseDuration : Text → Option Int)

theorem isExcluded_of_forms {excludedImages : List Text} {imageRef imageRef' : Text}
    (h : imageMatchForms checkRegistry table imageRef true =
      imageMatchForms checkRegistry table imageRef' true) :
    isExcluded checkRegistry table excludedImages imageRef =
      isExcluded checkRegistry table excludedImages imageRef' := by
  unfold isExcluded
  rw [h]

theorem resolveRules_of_forms (pol : Policy Program) {imageRef imageRef' : Text}
    (h : imageMatchForms checkRegistry table imageRef true =
      imageMatchForms checkRegistry table imageRef' true) :
    ∀ (idx : Int) (rules : List (ImageRule Program)) (m : Memory),
      resolveRules checkRegistry table parseDuration pol imageRef idx rules m =
        resolveRules checkRegistry table parseDuration pol imageRef' idx rules m
  | _, [], _ => rfl
  | idx, first :: rules, m => by
    have ih := resolveRules_of_forms pol h (idx + 1) rules m
    have hrule : matchesImageRule checkRegistry table (texts.texts first.images) imageRef =
        matchesImageRule checkRegistry table (texts.texts first.images) imageRef' := by
      unfold matchesImageRule
      rw [h]
    unfold resolveRules
    rw [hrule, ih]

/-- A tag next to a digest changes neither whether an image is excluded nor the policy
that is chosen for it. -/
theorem tag_next_to_digest_ignored {repo tag₁ tag₂ digest : Text} (hat : '@' ∉ repo)
    (hplain : explicitTag repo = false) (htag₁ : checkTag tag₁ = true)
    (htag₂ : checkTag tag₂ = true) (hdigest : digest ≠ []) (hslash : '/' ∉ digest)
    (excludedImages : List Text) (pol : Policy Program) (m : Memory) :
    (isExcluded checkRegistry table excludedImages (taggedPinned repo tag₁ digest) =
        isExcluded checkRegistry table excludedImages (pinned repo digest) ∧
      isExcluded checkRegistry table excludedImages (taggedPinned repo tag₂ digest) =
        isExcluded checkRegistry table excludedImages (pinned repo digest)) ∧
    (resolveImagePolicy checkRegistry table parseDuration pol (taggedPinned repo tag₁ digest) m =
        resolveImagePolicy checkRegistry table parseDuration pol (pinned repo digest) m ∧
      resolveImagePolicy checkRegistry table parseDuration pol (taggedPinned repo tag₂ digest) m =
        resolveImagePolicy checkRegistry table parseDuration pol (pinned repo digest) m) := by
  have hforms : ∀ tag, checkTag tag = true →
      imageMatchForms checkRegistry table (taggedPinned repo tag digest) true =
        imageMatchForms checkRegistry table (pinned repo digest) true :=
    fun tag htag => imageMatchForms_taggedPinned checkRegistry table hat hplain htag hdigest hslash
  refine ⟨⟨?_, ?_⟩, ?_, ?_⟩
  · exact isExcluded_of_forms checkRegistry table (hforms tag₁ htag₁)
  · exact isExcluded_of_forms checkRegistry table (hforms tag₂ htag₂)
  · exact resolveRules_of_forms checkRegistry table parseDuration pol (hforms tag₁ htag₁) _ _ _
  · exact resolveRules_of_forms checkRegistry table parseDuration pol (hforms tag₂ htag₂) _ _ _

theorem tag_next_to_digest_ignored_nginx : ∃ (pol : Policy Json) (m : Memory),
    decodePolicy sampleDurations samplePrograms sampleEnforced ⟨0, []⟩ = some (pol, m) ∧
      resolveImagePolicy (fun _ => true) CaseTable.ascii sampleDurations pol
          (taggedPinned "docker.io/library/nginx".toList "1.27".toList sampleDigest) m =
        resolveImagePolicy (fun _ => true) CaseTable.ascii sampleDurations pol
          (pinned "docker.io/library/nginx".toList sampleDigest) m := by
  have hdecode : (decodePolicy sampleDurations samplePrograms sampleEnforced ⟨0, []⟩).isSome =
      true := by decide
  obtain ⟨⟨pol, m⟩, hpol⟩ := Option.isSome_iff_exists.mp hdecode
  have hat : '@' ∉ "docker.io/library/nginx".toList := by decide
  have hplain : explicitTag "docker.io/library/nginx".toList = false := by decide
  have htag₁ : checkTag "1.27".toList = true := by decide
  have htag₂ : checkTag "latest".toList = true := by decide
  have hdigest : sampleDigest ≠ [] := by decide
  have hslash : '/' ∉ sampleDigest := by decide
  have hignored := tag_next_to_digest_ignored (fun _ => true) CaseTable.ascii sampleDurations
    hat hplain htag₁ htag₂ hdigest hslash [] pol m
  exact ⟨pol, m, hpol, hignored.2.1⟩

end pinned

section settings

open NriSupplyChain.Policy NriSupplyChain.Types

/-- How what the fields of a policy do not show is read: the bounds of a validity window,
compiled rules, and sections that only an individual check reads. -/
structure Reading (Program : Type) where
  parseTime : Text → Option Int
  rules : Program → List CompiledRule
  content : Sections → Option Program → Nat

def modeOf (mode : Text) : VerificationMode :=
  if mode = "disabled".toList then .disabled
  else if mode = "warn".toList then .warn
  else if mode = modeEnforce then .enforce
  else .other (String.ofList mode)

def actionOf (action : Text) : Action :=
  if action = "allow".toList then .allow
  else if action = "warn".toList then .warn
  else if action = "deny".toList then .deny
  else .unrecognized (String.ofList action)

/-- The section of an attestation type. -/
def sectionForCheckType : CheckType → Option SectionName
  | .slsa => some .slsa
  | .vex => some .vex
  | .vsa => some .vsa
  | .notationSig => some .notation_
  | .sbom => some .sbom
  | .scai => some .scai
  | .source => some .source
  | .buildEnv => some .buildEnv
  | .vulnScan => some .vulnScan
  | .testResult => some .testResult
  | .release => some .release
  | .runtimeTrace => some .runtimeTrace
  | .scorecard => some .scorecard
  | _ => none

def strings (value : texts.Val) : List String := (texts.texts value).map String.ofList

def trustedIdentities (value : Option (Nat × List (Text × Text × Unit))) :
    List TrustedIdentity :=
  (value.elim [] (·.2)).map fun (issuer, san, _) => ⟨String.ofList issuer, String.ofList san⟩

variable (r : Reading Program)

def trustSettings : trustPolicy.Val → TrustPolicy
  | (builders, verifiers, issuers, sanPatterns, _) => {
    builders := (Option.elim builders [] (·.2)).map fun (id, _, keys, identities, _) =>
      ⟨String.ofList id, strings keys, trustedIdentities identities⟩
    verifiers := (Option.elim verifiers [] (·.2)).map
      fun (id, keys, notBefore, notAfter, identities, _) =>
        ⟨String.ofList id, strings keys, trustedIdentities identities, r.parseTime notBefore,
          r.parseTime notAfter⟩
    issuers := strings issuers
    sanPatterns := strings sanPatterns }

/-- A policy as a verification reads it. -/
def settings (pol : Policy Program) : NriSupplyChain.Policy where
  mode := modeOf pol.mode
  include_ := strings pol.include_
  exclude := strings pol.exclude
  rules := (pol.rules.elim [] (·.2)).map fun rule =>
    ⟨strings rule.images, r.content rule.sections rule.compiledCEL⟩
  trust := (pol.sections.get .trust).map fun cell => trustSettings r cell.2
  signatures := (pol.sections.get .signatures).map fun (_, required, _) => required
  sections checkType := (sectionForCheckType checkType).bind fun name =>
    (pol.sections.get name).map fun cell =>
      actionOf ((sectionFields name).getText "MissingPolicy".toList cell.2)
  compiledCEL := pol.compiledCEL.map r.rules
  content := r.content pol.sections pol.compiledCEL

theorem effectiveMode_settings (pol : Policy Program) (global : Text) :
    (settings r pol).effectiveMode (modeOf global) = modeOf (effectiveMode pol global) := by
  have hunset : modeOf pol.mode = .other "" ↔ pol.mode = [] := by
    unfold modeOf modeEnforce
    constructor
    · split_ifs <;> simp
    · intro h
      rw [h, if_neg (by decide), if_neg (by decide), if_neg (by decide)]
  unfold effectiveMode
  rw [apply_ite modeOf]
  exact if_congr (not_congr hunset) rfl rfl

/-- The policy of a namespace can be looked up before or after it is read. -/
theorem policyForNamespace_settings (policies : Policies Program) (namespace_ : Text) :
    Verifier.policyForNamespace
        (policies.map fun entry => (String.ofList entry.1, settings r entry.2))
        (String.ofList namespace_) =
      (policyForNamespace policies namespace_).map (settings r) := by
  have hlookup (name : Text) : (policies.map fun entry =>
      (String.ofList entry.1, settings r entry.2)).lookup (String.ofList name) =
        (lookup name policies).map (settings r) := by
    induction policies with
    | nil => rfl
    | cons entry rest ih =>
      by_cases h : entry.1 = name
      · simp [lookup, h]
      · have hne : (String.ofList name == String.ofList entry.1) = false :=
          beq_eq_false_iff_ne.mpr fun heq => h (String.ofList_injective heq).symm
        simp [lookup, List.lookup_cons, h, hne, ih]
  rw [Verifier.policyForNamespace, hlookup, policyForNamespace]
  cases h : lookup namespace_ policies with
  | some pol => rfl
  | none => exact hlookup []

/-- With a policy that is safe to enforce, signatures by an issuer are verified for subjects. -/
theorem buildFetchOpts_subjects {pol : Policy Program} (h : SafeToEnforce pol.sections)
    (clean : String → String) (digest : String) (timeout : Int)
    (ref : Option Attestation.ParsedRef)
    (hissuers : (buildFetchOpts clean (settings r pol) digest timeout ref).trustedIssuers ≠ []) :
    (buildFetchOpts clean (settings r pol) digest timeout ref).sanPatterns ≠ [] := by
  have hsubjects := h.subjects
  unfold issuers sanPatterns at hsubjects
  unfold buildFetchOpts settings at hissuers ⊢
  cases hget : pol.sections.get .trust with
  | none => simp [hget] at hissuers
  | some cell =>
    rw [hget] at hsubjects
    simp only [hget, Option.map_some, Option.getD_some] at hissuers ⊢
    exact mt List.map_eq_nil_iff.mp (hsubjects (mt List.map_eq_nil_iff.mpr hissuers))

end settings

end NriSupplyChain.PolicyFile
