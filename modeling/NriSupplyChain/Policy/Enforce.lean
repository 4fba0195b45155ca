import NriSupplyChain.Policy.Effective

/-!
Loading of policy documents and the checks for namespaces that enforce
(`ValidateEnforce`, `applyInheritance`, `validatePoliciesModes`). The checks run
on the policies as loaded, after inheritance, and on every policy that one of
their rules produces. Warnings are left out, and so are the checks that only
refuse more policies.
-/

namespace NriSupplyChain.PolicyFile

open Lib

variable {Program : Type}

section model

variable (parseDuration : Text → Option Int) (compile : Json → Option Program)

inductive EnforceError where
  | notationSkip
  | notationAudit
  | sanPatternsRequired
deriving DecidableEq, Repr

def verificationLevel (sections : Sections) : Option Text :=
  (sections.get .notation_).map fun cell =>
    notationPolicy.getText "VerificationLevel".toList cell.2

def issuers (sections : Sections) : List Text :=
  (sections.get .trust).elim [] fun cell => trustPolicy.getTexts "Issuers".toList cell.2

def sanPatterns (sections : Sections) : List Text :=
  (sections.get .trust).elim [] fun cell => trustPolicy.getTexts "SANPatterns".toList cell.2

def enforceError (sections : Sections) : Option EnforceError :=
  if verificationLevel sections = some "skip".toList then some .notationSkip
  else if verificationLevel sections = some "audit".toList then some .notationAudit
  else if (issuers sections).length > 0 ∧ (sanPatterns sections).length = 0 then
    some .sanPatternsRequired
  else none

/-- The loop of `ValidateEnforce` over the rules, from an index on. -/
def validateEnforceRules (pol : Policy Program) : Nat → List (ImageRule Program) → Memory →
    Option (Nat × EnforceError) × Memory
  | _, [], m => (none, m)
  | idx, rule :: rules, m =>
    let (effective, m) := applyRule parseDuration pol rule m
    match enforceError effective.sections with
    | some err => (some (idx, err), m)
    | none => validateEnforceRules pol (idx + 1) rules m

/-- The error of a policy itself, or the one of a rule with its index. -/
def validateEnforce (pol : Policy Program) (m : Memory) :
    Option (Option Nat × EnforceError) × Memory :=
  match enforceError pol.sections with
  | some err => (some (none, err), m)
  | none =>
    let (err, m) := validateEnforceRules parseDuration pol 0 (pol.rules.elim [] (·.2)) m
    (err.map fun (idx, err) => (some idx, err), m)

def modeEnforce : Text :=
  "enforce".toList

def strictness (mode : Text) : Int :=
  if mode = "disabled".toList then 0
  else if mode = "warn".toList then 1
  else if mode = modeEnforce then 2
  else -1

def effectiveMode (pol : Policy Program) (global : Text) : Text :=
  if pol.mode ≠ [] then pol.mode else global

def validateModeStrictness (pol : Policy Program) (global : Text) : Bool :=
  pol.mode = [] || strictness global ≤ strictness pol.mode

/-- Policies by namespace; the default policy has the empty one. -/
abbrev Policies (Program : Type) := List (Text × Policy Program)

def validatePoliciesModes (mode : Text) : Policies Program → Memory → Bool × Memory
  | [], m => (true, m)
  | (_, pol) :: policies, m =>
    let (enforced, m) :=
      if effectiveMode pol mode = modeEnforce then
        let (err, m) := validateEnforce parseDuration pol m
        (err.isNone, m)
      else (true, m)
    let (others, m) := validatePoliciesModes mode policies m
    (validateModeStrictness pol mode && enforced && others, m)

def inheritsDefault (pol : Policy Program) : Bool :=
  match pol.inherits with
  | some (_, inherits) => inherits
  | none => false

def inheritFromDefault (pol defaultPol : Policy Program) (m : Memory) : Draft Program :=
  if inheritsDefault pol then mergeWithDefault parseDuration pol defaultPol m
  else if pol.mode = [] then ({ pol with mode := defaultPol.mode }, m.write pol.addr)
  else (pol, m)

def lookup (namespace_ : Text) : Policies Program → Option (Policy Program)
  | [] => none
  | (name, pol) :: policies => if name = namespace_ then some pol else lookup namespace_ policies

def inheritEntry (defaultPol : Policy Program) (entry : Text × Policy Program) (m : Memory) :
    (Text × Policy Program) × Memory :=
  if entry.1 = [] then (entry, m)
  else
    let (pol, m) := inheritFromDefault parseDuration entry.2 defaultPol m
    ((entry.1, pol), m)

/-- The default policy must not inherit. -/
def applyInheritance (policies : Policies Program) (m : Memory) :
    Option (Policies Program × Memory) :=
  match lookup [] policies with
  | none => some (policies, m)
  | some defaultPol =>
    if inheritsDefault defaultPol then none
    else some (traverse (inheritEntry parseDuration defaultPol) policies m)

def loadPolicyFiles : List (Text × Json) → Memory → Option (Policies Program × Memory)
  | [], m => some ([], m)
  | (namespace_, doc) :: docs, m =>
    (decodePolicy parseDuration compile doc m).bind fun (pol, m) =>
      (loadPolicyFiles docs m).map fun (policies, m) => ((namespace_, pol) :: policies, m)

def loadAll (docs : List (Text × Json)) (m : Memory) : Option (Policies Program × Memory) :=
  (loadPolicyFiles parseDuration compile docs m).bind fun (policies, m) =>
    applyInheritance parseDuration policies m

/-- Load policies and accept them if the checks for their modes pass. -/
def acceptPolicies (mode : Text) (docs : List (Text × Json)) (m : Memory) :
    Option (Policies Program × Memory) :=
  (loadAll parseDuration compile docs m).bind fun (policies, m) =>
    let (accepted, m) := validatePoliciesModes parseDuration mode policies m
    if accepted then some (policies, m) else none

end model

section content

theorem toJson_setCopy (type : GoType) (src : type.Val) (cell : Nat) (m : Memory) :
    type.toJson (setCopy type src cell m).1 = type.toJson src :=
  type.toJson_deepCopy src m

theorem toEntries_cons_inj {go name : Text} {type : GoType} {rest : Fields}
    {value value' : type.Val} {more more' : rest.Val}
    (h : (Fields.cons go name type rest).toEntries (value, more) =
      (Fields.cons go name type rest).toEntries (value', more')) :
    type.toJson value = type.toJson value' ∧ rest.toEntries more = rest.toEntries more' := by
  injection h with _ hvalue hmore
  exact ⟨hvalue, hmore⟩

mutual

/-- What merging gives does not depend on where its values are. -/
theorem toJson_merge (type : GoType) {dst dst' : type.Val}
    (h : type.toJson dst = type.toJson dst') (src : type.Val) (cell cell' : Nat) (path : Text)
    (explicit : Explicit) (m m' : Memory) :
    type.toJson (mergeValue type dst src cell path explicit m).1 =
      type.toJson (mergeValue type dst' src cell' path explicit m').1 := by
  cases type with
  | pointer target =>
    cases target with
    | struct fields =>
      cases dst with
      | none =>
        cases dst' with
        | none => exact (toJson_setCopy _ src cell m).trans (toJson_setCopy _ src cell' m').symm
        | some dstCell' => cases h
      | some dstCell =>
        cases dst' with
        | none => cases h
        | some dstCell' =>
          cases src with
          | none =>
            exact (toJson_setCopy (.pointer (.struct fields)) none cell m).trans
              (toJson_setCopy (.pointer (.struct fields)) none cell' m').symm
          | some srcCell =>
            exact congrArg Json.object (toEntries_merge fields (Json.object.inj h) srcCell.2
              dstCell.1 dstCell'.1 path explicit m m')
    | _ => exact (toJson_setCopy _ src cell m).trans (toJson_setCopy _ src cell' m').symm
  | _ => exact (toJson_setCopy _ src cell m).trans (toJson_setCopy _ src cell' m').symm

theorem toEntries_merge (fields : Fields) {dst dst' : fields.Val}
    (h : fields.toEntries dst = fields.toEntries dst') (src : fields.Val) (cell cell' : Nat)
    (path : Text) (explicit : Explicit) (m m' : Memory) :
    fields.toEntries (mergeStruct fields dst src cell path explicit m).1 =
      fields.toEntries (mergeStruct fields dst' src cell' path explicit m').1 := by
  cases fields with
  | nil => rfl
  | cons goName name type rest =>
    obtain ⟨dst, dstRest⟩ := dst
    obtain ⟨dst', dstRest'⟩ := dst'
    obtain ⟨src, srcRest⟩ := src
    obtain ⟨hvalue, hmore⟩ := toEntries_cons_inj h
    have hfield : ∀ m m' : Memory,
        type.toJson (mergeField type name dst src cell (path ++ '.' :: name) explicit
          (mergeValue type dst src cell (path ++ '.' :: name) explicit) m).1 =
        type.toJson (mergeField type name dst' src cell' (path ++ '.' :: name) explicit
          (mergeValue type dst' src cell' (path ++ '.' :: name) explicit) m').1 := by
      intro m m'
      unfold mergeField
      split
      · split
        · exact hvalue
        · exact (toJson_setCopy type src cell m).trans (toJson_setCopy type src cell' m').symm
      · split
        · exact toJson_merge type hvalue src cell cell' _ explicit m m'
        · exact hvalue
    have hrest := toEntries_merge rest hmore srcRest cell cell' path explicit
    simp only [mergeStruct, Fields.toEntries]
    rw [hfield m m', hrest _ _]

end

theorem text_of_toJson {type : GoType} {value value' : type.Val}
    (h : type.toJson value = type.toJson value') : type.text value = type.text value' := by
  cases type with
  | string => exact Json.string.inj h
  | _ => rfl

theorem texts_of_toJson {type : GoType} {value value' : type.Val}
    (h : type.toJson value = type.toJson value') : type.texts value = type.texts value' := by
  cases type with
  | slice item =>
    cases item with
    | string =>
      cases value with
      | none =>
        cases value' with
        | none => rfl
        | some cell' => cases h
      | some cell =>
        cases value' with
        | none => cases h
        | some cell' =>
          have hitems : cell.2.map Json.string = cell'.2.map Json.string := Json.array.inj h
          exact List.map_injective_iff.mpr (fun _ _ => Json.string.inj) hitems
    | _ => rfl
  | _ => rfl

theorem getText_of_toEntries (name : Text) : ∀ {fields : Fields} {value value' : fields.Val},
    fields.toEntries value = fields.toEntries value' →
      fields.getText name value = fields.getText name value'
  | .nil, _, _, _ => rfl
  | .cons go _ type rest, (value, more), (value', more'), h => by
    obtain ⟨hvalue, hmore⟩ := toEntries_cons_inj h
    simp only [Fields.getText, text_of_toJson hvalue, getText_of_toEntries name hmore]

theorem getTexts_of_toEntries (name : Text) : ∀ {fields : Fields} {value value' : fields.Val},
    fields.toEntries value = fields.toEntries value' →
      fields.getTexts name value = fields.getTexts name value'
  | .nil, _, _, _ => rfl
  | .cons go _ type rest, (value, more), (value', more'), h => by
    obtain ⟨hvalue, hmore⟩ := toEntries_cons_inj h
    simp only [Fields.getTexts, texts_of_toJson hvalue, getTexts_of_toEntries name hmore]

variable {name : SectionName}

/-- Two sections that hold the same are both missing, or have fields that hold the same. -/
theorem section_of_toJson {value value' : (sectionType name).Val}
    (h : (sectionType name).toJson value = (sectionType name).toJson value') :
    (value = none ∧ value' = none) ∨ ∃ cell cell' : Nat × (sectionFields name).Val,
      value = some cell ∧ value' = some cell' ∧
        (sectionFields name).toEntries cell.2 = (sectionFields name).toEntries cell'.2 := by
  cases value with
  | none =>
    cases value' with
    | none => exact .inl ⟨rfl, rfl⟩
    | some cell' => cases h
  | some cell =>
    cases value' with
    | none => cases h
    | some cell' => exact .inr ⟨cell, cell', rfl, rfl, Json.object.inj h⟩

/-- The checks only depend on what the two sections hold. -/
theorem enforceError_congr {sections sections' : Sections}
    (h : ∀ name : SectionName, name = .trust ∨ name = .notation_ →
      (sectionType name).toJson (sections.value name) =
        (sectionType name).toJson (sections'.value name)) :
    enforceError sections = enforceError sections' := by
  have hlevel : verificationLevel sections = verificationLevel sections' := by
    unfold verificationLevel Sections.get
    rcases section_of_toJson (h .notation_ (.inr rfl)) with
      ⟨hvalue, hvalue'⟩ | ⟨cell, cell', hvalue, hvalue', hentries⟩
    · rw [hvalue, hvalue']
    · rw [hvalue, hvalue']
      exact congrArg some (getText_of_toEntries _ hentries)
  have htrust : issuers sections = issuers sections' ∧
      sanPatterns sections = sanPatterns sections' := by
    unfold issuers sanPatterns Sections.get
    rcases section_of_toJson (h .trust (.inl rfl)) with
      ⟨hvalue, hvalue'⟩ | ⟨cell, cell', hvalue, hvalue', hentries⟩
    · rw [hvalue, hvalue']
      exact ⟨rfl, rfl⟩
    · rw [hvalue, hvalue']
      exact ⟨getTexts_of_toEntries _ hentries, getTexts_of_toEntries _ hentries⟩
  unfold enforceError
  rw [hlevel, htrust.1, htrust.2]

theorem resolveMergedMaxAge_plain (parseDuration : Text → Option Int) (src : Sections)
    (state : Sections × Memory) (h : name.hasMaxAge = false) :
    (resolveMergedMaxAge parseDuration src state name).1.value name = state.1.value name := by
  unfold resolveMergedMaxAge
  rw [h]

/-- A section without a maximum age is merged once. -/
theorem mergeSections_plain (parseDuration : Text → Option Int) (dst src : Sections) (cell : Nat)
    (m : Memory) (h : name.hasMaxAge = false) :
    ∃ before : Sections × Memory, before.1.value name = dst.value name ∧
      (mergeSections parseDuration dst src cell m).1.value name =
        (mergeSection src cell before name).1.value name := by
  obtain ⟨before, hbefore, hafter⟩ := foldl_registry (mergeSection src cell)
    (fun state _ _ hne => mergeSection_other src cell state hne) (dst, m) name
  obtain ⟨merged, hmerged, hresolved⟩ := foldl_registry (resolveMergedMaxAge parseDuration src)
    (fun state _ _ hne => resolveMergedMaxAge_other parseDuration src state hne)
    (SectionName.registry.foldl (mergeSection src cell) (dst, m)) name
  rw [resolveMergedMaxAge_plain parseDuration src merged h] at hresolved
  exact ⟨before, hbefore, hresolved.trans (hmerged.trans hafter)⟩

theorem applyRule_value (parseDuration : Text → Option Int) (base : Policy Program)
    (rule : ImageRule Program) (m : Memory) (h : name.hasMaxAge = false) (hcel : name ≠ .cel) :
    ∃ (below : (sectionType name).Val) (cell : Nat) (m' : Memory),
      (sectionType name).toJson below = (sectionType name).toJson (base.sections.value name) ∧
      (applyRule parseDuration base rule m).1.sections.value name =
        if (rule.sections.get name).isNone then below
        else (mergeValue (sectionType name) below (rule.sections.value name) cell name.text
          rule.sections.explicit m').1 := by
  obtain ⟨m', hclone⟩ := clonePolicy_sections base m
  have happlied : ∃ m'', (applyRule parseDuration base rule m).1.sections.value name =
      (mergeSections parseDuration (clonePolicy base m).1.sections rule.sections
        (clonePolicy base m).1.addr m'').1.value name := by
    simp only [applyRule, clearExplicit, overlayCEL_policy, overlaySections_policy, clearRules]
    exact ⟨_, rfl⟩
  obtain ⟨m'', hvalue⟩ := happlied
  obtain ⟨before, hbefore, hafter⟩ := mergeSections_plain parseDuration
    (clonePolicy base m).1.sections rule.sections (clonePolicy base m).1.addr m'' h
  refine ⟨before.1.value name, (clonePolicy base m).1.addr, before.2, ?_, ?_⟩
  · rw [hbefore, hclone]
    exact (cloneSections_alike base.sections m').json name
  · rw [hvalue, hafter, mergeSection_value _ _ _ hcel]

/-- Where a rule is applied does not matter for the checks. -/
theorem enforceError_applyRule (parseDuration : Text → Option Int) (base : Policy Program)
    (rule : ImageRule Program) (m m' : Memory) :
    enforceError (applyRule parseDuration base rule m).1.sections =
      enforceError (applyRule parseDuration base rule m').1.sections := by
  apply enforceError_congr
  intro name hname
  have hplain : name.hasMaxAge = false ∧ name ≠ .cel := by
    rcases hname with rfl | rfl <;> decide
  obtain ⟨below, cell, m₁, hbelow, hvalue⟩ :=
    applyRule_value parseDuration base rule m hplain.1 hplain.2
  obtain ⟨below', cell', m₁', hbelow', hvalue'⟩ :=
    applyRule_value parseDuration base rule m' hplain.1 hplain.2
  rw [hvalue, hvalue']
  split
  · exact hbelow.trans hbelow'.symm
  · exact toJson_merge _ (hbelow.trans hbelow'.symm) _ _ _ _ _ _ _

end content

section accepted

variable {parseDuration : Text → Option Int} {compile : Json → Option Program}

theorem validateEnforceRules_none {pol : Policy Program} :
    ∀ {idx : Nat} {rules : List (ImageRule Program)} {m : Memory},
      (validateEnforceRules parseDuration pol idx rules m).1 = none →
      ∀ rule ∈ rules, ∀ m', enforceError (applyRule parseDuration pol rule m').1.sections = none
  | _, [], _, _, rule, hmem, _ => by cases hmem
  | idx, first :: rules, m, h, rule, hmem, m' => by
    unfold validateEnforceRules at h
    dsimp only at h
    split at h
    · cases h
    · next hnone =>
      rcases List.mem_cons.mp hmem with rfl | hmem
      · rw [enforceError_applyRule parseDuration pol rule m' m]
        exact hnone
      · exact validateEnforceRules_none h rule hmem m'

/-- A policy that passes is safe, and so is each policy that one of its rules produces. -/
theorem validateEnforce_none {pol : Policy Program} {m : Memory}
    (h : (validateEnforce parseDuration pol m).1 = none) :
    enforceError pol.sections = none ∧ ∀ rule ∈ pol.rules.elim [] (·.2), ∀ m',
      enforceError (applyRule parseDuration pol rule m').1.sections = none := by
  unfold validateEnforce at h
  split at h
  · cases h
  · next hnone => exact ⟨hnone, validateEnforceRules_none (Option.map_eq_none_iff.mp h)⟩

theorem validatePoliciesModes_enforced {mode : Text} :
    ∀ {policies : Policies Program} {m : Memory},
      (validatePoliciesModes parseDuration mode policies m).1 = true →
      ∀ entry ∈ policies, effectiveMode entry.2 mode = modeEnforce →
        ∃ m', (validateEnforce parseDuration entry.2 m').1 = none
  | [], _, _, entry, hmem, _ => by cases hmem
  | first :: policies, m, h, entry, hmem, hmode => by
    unfold validatePoliciesModes at h
    dsimp only at h
    rw [Bool.and_eq_true, Bool.and_eq_true] at h
    obtain ⟨⟨-, henforced⟩, hothers⟩ := h
    rcases List.mem_cons.mp hmem with rfl | hmem
    · rw [if_pos hmode] at henforced
      exact ⟨m, Option.isNone_iff_eq_none.mp henforced⟩
    · exact validatePoliciesModes_enforced hothers entry hmem hmode

/-- What the checks are for. -/
structure SafeToEnforce (sections : Sections) : Prop where
  subjects : issuers sections ≠ [] → sanPatterns sections ≠ []
  not_skip : verificationLevel sections ≠ some "skip".toList
  not_audit : verificationLevel sections ≠ some "audit".toList

theorem enforceError_eq_none_iff {sections : Sections} :
    enforceError sections = none ↔ SafeToEnforce sections := by
  unfold enforceError
  constructor
  · intro h
    split at h
    · cases h
    · next hskip =>
      split at h
      · cases h
      · next haudit =>
        split at h
        · cases h
        · next htrust =>
          refine ⟨?_, hskip, haudit⟩
          intro hissuers hpatterns
          apply htrust
          exact ⟨List.length_pos_iff.mpr hissuers, List.length_eq_zero_iff.mpr hpatterns⟩
  · rintro ⟨hsubjects, hskip, haudit⟩
    rw [if_neg hskip, if_neg haudit, if_neg]
    rintro ⟨hissuers, hpatterns⟩
    exact hsubjects (List.length_pos_iff.mp hissuers) (List.length_eq_zero_iff.mp hpatterns)

end accepted

end NriSupplyChain.PolicyFile
