import NriSupplyChain.Policy.Cells

/-!
The effective policy of an image: the default policy, overlaid by the policy of the
namespace and then by a rule. Every field of a section is the one of the last document
that sets it. The CEL section is the exception, it is taken as a whole with the
programs compiled for it.
-/

namespace NriSupplyChain.PolicyFile

open Lib

variable {Program : Type}

section drafts

theorem overlayMode_policy (mode : Text) (draft : Draft Program) :
    (overlayMode mode draft).1 =
      { draft.1 with mode := if mode = [] then draft.1.mode else mode } := by
  unfold overlayMode
  split <;> rfl

theorem overlayInclude_policy (include_ : texts.Val) (draft : Draft Program) :
    (overlayInclude include_ draft).1 =
      { draft.1 with include_ := if texts.isZero include_ then draft.1.include_
          else (texts.deepCopy include_ draft.2).1 } := by
  unfold overlayInclude
  split <;> rfl

theorem overlayExclude_policy (exclude : texts.Val) (draft : Draft Program) :
    (overlayExclude exclude draft).1 =
      { draft.1 with exclude := if texts.isZero exclude then draft.1.exclude
          else (texts.deepCopy exclude draft.2).1 } := by
  unfold overlayExclude
  split <;> rfl

theorem overlaySections_policy (parseDuration : Text → Option Int) (src : Sections)
    (draft : Draft Program) :
    (overlaySections parseDuration src draft).1 =
      { draft.1 with sections :=
          (mergeSections parseDuration draft.1.sections src draft.1.addr draft.2).1 } :=
  rfl

theorem overlayCEL_policy (src : Sections) (compiledCEL : Option Program)
    (draft : Draft Program) :
    (overlayCEL src compiledCEL draft).1 =
      { draft.1 with compiledCEL := if (src.get .cel).isSome then compiledCEL
          else draft.1.compiledCEL } := by
  unfold overlayCEL
  split <;> rfl

theorem overlayRules_policy (rules : Option (Nat × List (ImageRule Program)))
    (draft : Draft Program) :
    (overlayRules rules draft).1 =
      { draft.1 with rules :=
          (rules.elim draft.1.rules fun cell => some (cloneRules cell.2 draft.2).1) } := by
  cases rules with
  | none => rfl
  | some cell => rfl

theorem clonePolicy_sections (pol : Policy Program) (m : Memory) :
    ∃ m', (clonePolicy pol m).1.sections = (cloneSections pol.sections m').1 :=
  ⟨_, rfl⟩

end drafts

section sections

variable {parseDuration : Text → Option Int}

/-- Sections that hold what others hold. -/
structure Alike (sections sections' : Sections) : Prop where
  seen : ∀ name path, viewValue (sectionType name) (sections.value name) path =
    viewValue (sectionType name) (sections'.value name) path
  json : ∀ name, (sectionType name).toJson (sections.value name) =
    (sectionType name).toJson (sections'.value name)

theorem cloneSections_alike (src : Sections) (m : Memory) :
    Alike (cloneSections src m).1 src := by
  constructor
  · intro name path
    obtain ⟨m', hvalue⟩ := cloneSections_value src m name
    rw [hvalue]
    exact viewValue_deepCopy _ _ m' path
  · intro name
    obtain ⟨m', hvalue⟩ := cloneSections_value src m name
    rw [hvalue]
    exact (sectionType name).toJson_deepCopy _ m'

theorem cloneSections_ages {src : Sections}
    (h : ∀ name, AgeResolved parseDuration name (src.value name)) (m : Memory)
    (name : SectionName) :
    AgeResolved parseDuration name ((cloneSections src m).1.value name) := by
  obtain ⟨m', hvalue⟩ := cloneSections_value src m name
  rw [hvalue]
  exact ageResolved_deepCopy parseDuration (h name) m'

/-- An overlay of a copy is an overlay. -/
theorem Overlays.of_alike {json : Json} {below below' above result : Sections}
    (halike : Alike below' below) (h : Overlays parseDuration json below' above result) :
    Overlays parseDuration json below above result := by
  refine ⟨?_, ?_, h.ages⟩
  · intro name hcel path
    rw [h.seen name hcel path, halike.seen]
  · rw [h.cel, halike.json]

end sections

section compiled

variable (compile : Json → Option Program)

/-- The programs only depend on what the rules say. -/
theorem compileCEL_congr {value value' : (sectionType .cel).Val}
    (h : (sectionType .cel).toJson value = (sectionType .cel).toJson value') :
    compileCEL compile value = compileCEL compile value' := by
  cases value with
  | none =>
    cases value' with
    | none => rfl
    | some cell => cases h
  | some cell =>
    cases value' with
    | none => cases h
    | some cell' =>
      obtain ⟨addr, rules, last⟩ := cell
      obtain ⟨addr', rules', last'⟩ := cell'
      have hrules : (GoType.slice celRule).toJson rules = (GoType.slice celRule).toJson rules' := by
        have hentries := Json.object.inj h
        injection hentries
      cases rules with
      | none =>
        cases rules' with
        | none => rfl
        | some items' => cases hrules
      | some items =>
        cases rules' with
        | none => cases hrules
        | some items' =>
          have hitems : items.2.map celRule.toJson = items'.2.map celRule.toJson :=
            Json.array.inj hrules
          obtain ⟨addr₁, list⟩ := items
          obtain ⟨addr₂, list'⟩ := items'
          cases list with
          | nil =>
            cases list' with
            | nil => rfl
            | cons first' rest' => cases hitems
          | cons first rest =>
            cases list' with
            | nil => cases hitems
            | cons first' rest' =>
              change (compile (.array ((first :: rest).map celRule.toJson))).map some =
                (compile (.array ((first' :: rest').map celRule.toJson))).map some
              rw [show (first :: rest).map celRule.toJson = (first' :: rest').map celRule.toJson
                from hitems]

/-- The programs follow the section that is taken. -/
theorem compiled_overlay {parseDuration : Text → Option Int} {json : Json}
    {below above result : Sections} {program program' : Option Program}
    (h : Overlays parseDuration json below above result)
    (hdescribes : Describes parseDuration json above)
    (hbelow : compileCEL compile (below.get .cel) = some program)
    (habove : compileCEL compile (above.get .cel) = some program') :
    compileCEL compile (result.get .cel) =
      some (if (above.get .cel).isSome then program' else program) := by
  have hnone := isNone_get parseDuration hdescribes .cel
  have hcel := h.cel
  unfold overlay at hcel
  cases hnull : (json.field SectionName.cel.text).isNull with
  | true =>
    rw [hnull] at hnone hcel
    rw [Option.isNone_iff_eq_none.mp hnone]
    exact (compileCEL_congr compile hcel).trans hbelow
  | false =>
    rw [hnull] at hnone hcel
    have hsome : (above.get .cel).isSome = true := by
      rw [← Option.not_isNone, hnone]
      rfl
    rw [if_pos hsome]
    exact (compileCEL_congr compile hcel).trans habove

end compiled

section accepted

variable {parseDuration : Text → Option Int} {compile : Json → Option Program}

/-- Sections with their programs are what a document says. -/
structure Accepted (parseDuration : Text → Option Int) (compile : Json → Option Program)
    (json : Json) (sections : Sections) (compiledCEL : Option Program) : Prop where
  describes : Describes parseDuration json sections
  compiled : compileCEL compile (sections.get .cel) = some compiledCEL

theorem decodeRule_accepted {json : Json} {m m' : Memory} {rule : ImageRule Program}
    (h : decodeRule parseDuration compile json m = some (rule, m')) :
    Accepted parseDuration compile json rule.sections rule.compiledCEL := by
  unfold decodeRule at h
  split at h
  · next hknown =>
    obtain ⟨⟨images, m₁⟩, -, hrest⟩ := Option.bind_eq_some_iff.mp h
    obtain ⟨⟨sections, m₂⟩, hsections, hrest⟩ := Option.bind_eq_some_iff.mp hrest
    obtain ⟨compiledCEL, hcompiled, hpair⟩ := Option.map_eq_some_iff.mp hrest
    cases hpair
    exact ⟨decodeSections_describes parseDuration hknown (by decide) hsections, hcompiled⟩
  · cases h

/-- An accepted policy is what its document says. -/
theorem decodePolicy_accepted {json : Json} {m m' : Memory} {pol : Policy Program}
    (h : decodePolicy parseDuration compile json m = some (pol, m')) :
    Accepted parseDuration compile json pol.sections pol.compiledCEL ∧
      texts.isZero pol.include_ = (json.field "include".toList).isNull ∧
      texts.isZero pol.exclude = (json.field "exclude".toList).isNull := by
  unfold decodePolicy at h
  split at h
  · next hknown =>
    obtain ⟨⟨version, m₁⟩, -, hrest⟩ := Option.bind_eq_some_iff.mp h
    obtain ⟨⟨mode, m₂⟩, -, hrest⟩ := Option.bind_eq_some_iff.mp hrest
    obtain ⟨⟨inherits, m₃⟩, -, hrest⟩ := Option.bind_eq_some_iff.mp hrest
    obtain ⟨⟨include_, m₄⟩, hinclude, hrest⟩ := Option.bind_eq_some_iff.mp hrest
    obtain ⟨⟨exclude, m₅⟩, hexclude, hrest⟩ := Option.bind_eq_some_iff.mp hrest
    obtain ⟨⟨sections, m₆⟩, hsections, hrest⟩ := Option.bind_eq_some_iff.mp hrest
    obtain ⟨⟨rules, m₇⟩, -, hrest⟩ := Option.bind_eq_some_iff.mp hrest
    obtain ⟨compiledCEL, hcompiled, hpair⟩ := Option.map_eq_some_iff.mp hrest
    cases hpair
    refine ⟨⟨decodeSections_describes parseDuration hknown (by decide) hsections, hcompiled⟩,
      ?_, ?_⟩
    · exact decode_isZero rfl hinclude
    · exact decode_isZero rfl hexclude
  · cases h

end accepted

section merging

variable {parseDuration : Text → Option Int} {compile : Json → Option Program}

variable {json : Json}

/-- Sections merged into a copy are the overlay of what was copied. -/
theorem overlays_of_clone {below above result : Sections}
    (habove : Describes parseDuration json above)
    (hbelow : ∀ name, AgeResolved parseDuration name (below.value name)) {cell : Nat}
    {m m' : Memory} (hresult : result.value =
      (mergeSections parseDuration (cloneSections below m).1 above cell m').1.value) :
    Overlays parseDuration json below above result := by
  have hmerged := mergeSections_overlays parseDuration habove (cloneSections_ages hbelow m) cell m'
  have hoverlay := hmerged.of_alike (cloneSections_alike below m)
  constructor
  · rw [hresult]
    exact hoverlay.seen
  · rw [hresult]
    exact hoverlay.cel
  · rw [hresult]
    exact hoverlay.ages

/-- Merging overlays the sections of the default policy. -/
theorem mergeWithDefault_overlays {namespace_ defaultPol : Policy Program}
    (hnamespace : Describes parseDuration json namespace_.sections)
    (hdefault : ∀ name, AgeResolved parseDuration name (defaultPol.sections.value name))
    (m : Memory) :
    Overlays parseDuration json defaultPol.sections namespace_.sections
      (mergeWithDefault parseDuration namespace_ defaultPol m).1.sections := by
  obtain ⟨m', hclone⟩ := clonePolicy_sections defaultPol m
  apply overlays_of_clone hnamespace hdefault (m := m')
  rw [← hclone]
  simp only [mergeWithDefault, clearExplicit, overlayRules_policy, overlayCEL_policy,
    overlaySections_policy, overlayExclude_policy, overlayInclude_policy, overlayMode_policy]
  rfl

/-- Applying a rule overlays the sections of the policy. -/
theorem applyRule_overlays {base : Policy Program} {rule : ImageRule Program}
    (hrule : Describes parseDuration json rule.sections)
    (hbase : ∀ name, AgeResolved parseDuration name (base.sections.value name)) (m : Memory) :
    Overlays parseDuration json base.sections rule.sections
      (applyRule parseDuration base rule m).1.sections := by
  obtain ⟨m', hclone⟩ := clonePolicy_sections base m
  apply overlays_of_clone hrule hbase (m := m')
  rw [← hclone]
  simp only [applyRule, clearExplicit, overlayCEL_policy, overlaySections_policy, clearRules]
  rfl

theorem mergeWithDefault_compiledCEL (namespace_ defaultPol : Policy Program) (m : Memory) :
    (mergeWithDefault parseDuration namespace_ defaultPol m).1.compiledCEL =
      if (namespace_.sections.get .cel).isSome then namespace_.compiledCEL
      else defaultPol.compiledCEL := by
  simp only [mergeWithDefault, clearExplicit, overlayRules_policy, overlayCEL_policy,
    overlaySections_policy, overlayExclude_policy, overlayInclude_policy, overlayMode_policy]
  rfl

theorem applyRule_compiledCEL (base : Policy Program) (rule : ImageRule Program) (m : Memory) :
    (applyRule parseDuration base rule m).1.compiledCEL =
      if (rule.sections.get .cel).isSome then rule.compiledCEL else base.compiledCEL := by
  simp only [applyRule, clearExplicit, overlayCEL_policy, overlaySections_policy, clearRules]
  rfl

end merging

section effective

variable (parseDuration : Text → Option Int) (compile : Json → Option Program)

/-- A policy is the overlay of a default policy by a policy and a rule, whose documents
say which fields they set. -/
structure IsOverlay (namespaceDoc ruleDoc : Json) (defaultPol namespace_ : Policy Program)
    (rule : ImageRule Program) (effective : Policy Program) : Prop where
  seen : ∀ name, name ≠ .cel → ∀ path,
    viewValue (sectionType name) (effective.sections.value name) path =
      overlay ((ruleDoc.field name.text).atPath path)
        (overlay ((namespaceDoc.field name.text).atPath path)
          (viewValue (sectionType name) (defaultPol.sections.value name) path)
          (viewValue (sectionType name) (namespace_.sections.value name) path))
        (viewValue (sectionType name) (rule.sections.value name) path)
  cel : (sectionType .cel).toJson (effective.sections.value .cel) =
    overlay (ruleDoc.field SectionName.cel.text)
      (overlay (namespaceDoc.field SectionName.cel.text)
        ((sectionType .cel).toJson (defaultPol.sections.value .cel))
        ((sectionType .cel).toJson (namespace_.sections.value .cel)))
      ((sectionType .cel).toJson (rule.sections.value .cel))
  compiled : compileCEL compile (effective.sections.get .cel) = some effective.compiledCEL
  ages : ∀ name, AgeResolved parseDuration name (effective.sections.value name)
  mode : effective.mode = if namespace_.mode = [] then defaultPol.mode else namespace_.mode
  include_ : texts.toJson effective.include_ =
    overlay (namespaceDoc.field "include".toList) (texts.toJson defaultPol.include_)
      (texts.toJson namespace_.include_)
  exclude : texts.toJson effective.exclude =
    overlay (namespaceDoc.field "exclude".toList) (texts.toJson defaultPol.exclude)
      (texts.toJson namespace_.exclude)
  version : effective.version = defaultPol.version
  inherits : effective.inherits = none
  rules : effective.rules = none

variable {parseDuration compile}

theorem overlayTexts_json {src dst : texts.Val} {json : Json}
    (hsrc : texts.isZero src = json.isNull) (m m' : Memory) :
    texts.toJson (if texts.isZero src then (texts.deepCopy dst m).1
      else (texts.deepCopy src m').1) = overlay json (texts.toJson dst) (texts.toJson src) := by
  unfold overlay
  rw [hsrc]
  cases json.isNull with
  | true => exact texts.toJson_deepCopy dst m
  | false => exact texts.toJson_deepCopy src m'

theorem applyRule_top (base : Policy Program) (rule : ImageRule Program) (m : Memory) :
    (applyRule parseDuration base rule m).1.mode = base.mode ∧
      (applyRule parseDuration base rule m).1.version = base.version ∧
      (applyRule parseDuration base rule m).1.inherits = none ∧
      (applyRule parseDuration base rule m).1.rules = none ∧
      texts.toJson (applyRule parseDuration base rule m).1.include_ =
        texts.toJson base.include_ ∧
      texts.toJson (applyRule parseDuration base rule m).1.exclude =
        texts.toJson base.exclude := by
  simp only [applyRule, clearExplicit, overlayCEL_policy, overlaySections_policy, clearRules]
  exact ⟨rfl, rfl, rfl, trivial, texts.toJson_deepCopy _ _, texts.toJson_deepCopy _ _⟩

theorem mergeWithDefault_top {json : Json} {namespace_ : Policy Program}
    (hinclude : texts.isZero namespace_.include_ = (json.field "include".toList).isNull)
    (hexclude : texts.isZero namespace_.exclude = (json.field "exclude".toList).isNull)
    (defaultPol : Policy Program) (m : Memory) :
    (mergeWithDefault parseDuration namespace_ defaultPol m).1.mode =
        (if namespace_.mode = [] then defaultPol.mode else namespace_.mode) ∧
      (mergeWithDefault parseDuration namespace_ defaultPol m).1.version = defaultPol.version ∧
      texts.toJson (mergeWithDefault parseDuration namespace_ defaultPol m).1.include_ =
        overlay (json.field "include".toList) (texts.toJson defaultPol.include_)
          (texts.toJson namespace_.include_) ∧
      texts.toJson (mergeWithDefault parseDuration namespace_ defaultPol m).1.exclude =
        overlay (json.field "exclude".toList) (texts.toJson defaultPol.exclude)
          (texts.toJson namespace_.exclude) := by
  simp only [mergeWithDefault, clearExplicit, overlayRules_policy, overlayCEL_policy,
    overlaySections_policy, overlayExclude_policy, overlayInclude_policy, overlayMode_policy]
  exact ⟨rfl, rfl, overlayTexts_json hinclude _ _, overlayTexts_json hexclude _ _⟩

/-- No cell of the given ones is written on the way from one memory to another. -/
def Untouched (m m' : Memory) (cells : List Nat) : Prop :=
  ∃ new, m'.written = new ++ m.written ∧ ∀ cell ∈ new, cell ∉ cells

theorem Confined.untouched {m m' : Memory} {low : Nat} (h : Confined low m m')
    {cells : List Nat} (hcells : ∀ cell ∈ cells, cell < low) : Untouched m m' cells := by
  obtain ⟨new, hnew, hlow⟩ := h.written
  refine ⟨new, hnew, ?_⟩
  intro cell hmem hcell
  have hle := hlow cell hmem
  have hlt := hcells cell hcell
  omega

/-- The policy that is in effect is the overlay of the three documents, and neither
merging nor applying the rule changes what it is made from. -/
theorem effective_isOverlay {defaultDoc namespaceDoc ruleDoc : Json}
    {m m₁ m₁' m₂ m₂' m₃ m₃' : Memory} {defaultPol namespace_ : Policy Program}
    {rule : ImageRule Program}
    (hdefault : decodePolicy parseDuration compile defaultDoc m₁ = some (defaultPol, m₁'))
    (hnamespace : decodePolicy parseDuration compile namespaceDoc m₂ = some (namespace_, m₂'))
    (hrule : decodeRule parseDuration compile ruleDoc m₃ = some (rule, m₃'))
    (hbelow : m₁'.next ≤ m.next ∧ m₂'.next ≤ m.next ∧ m₃'.next ≤ m.next) :
    let merged := mergeWithDefault parseDuration namespace_ defaultPol m
    let effective := applyRule parseDuration merged.1 rule merged.2
    IsOverlay parseDuration compile namespaceDoc ruleDoc defaultPol namespace_ rule effective.1 ∧
      Untouched m merged.2 (defaultPol.cells ++ namespace_.cells) ∧
      Untouched merged.2 effective.2
        (merged.1.cells ++ rule.cells ++ defaultPol.cells ++ namespace_.cells) := by
  intro merged effective
  obtain ⟨hdefaultDoc, -⟩ := decodePolicy_accepted hdefault
  obtain ⟨hnamespaceDoc, hinclude, hexclude⟩ := decodePolicy_accepted hnamespace
  have hruleDoc := decodeRule_accepted hrule
  have hmerged := mergeWithDefault_overlays hnamespaceDoc.describes hdefaultDoc.describes.ages m
  have heffective := applyRule_overlays hruleDoc.describes hmerged.ages merged.2
  have hmergedCEL := compiled_overlay compile hmerged hnamespaceDoc.describes
    hdefaultDoc.compiled hnamespaceDoc.compiled
  rw [← mergeWithDefault_compiledCEL namespace_ defaultPol m] at hmergedCEL
  have heffectiveCEL := compiled_overlay compile heffective hruleDoc.describes hmergedCEL
    hruleDoc.compiled
  rw [← applyRule_compiledCEL merged.1 rule merged.2] at heffectiveCEL
  obtain ⟨hmode, hversion, hmergedInclude, hmergedExclude⟩ :=
    mergeWithDefault_top hinclude hexclude defaultPol m
  obtain ⟨hmode', hversion', hinherits, hrules, hinclude', hexclude'⟩ :=
    applyRule_top merged.1 rule merged.2
  have hmergedCells := mergeWithDefault_owns parseDuration namespace_ defaultPol (le_refl m.next)
  have hnext := hmergedCells.confined.next_le
  have hdefaultCells : ∀ cell ∈ defaultPol.cells, cell < m.next := fun cell hmem =>
    lt_of_lt_of_le ((decodePolicy_owns (Nat.zero_le _) hdefault).within cell hmem).2 hbelow.1
  have hnamespaceCells : ∀ cell ∈ namespace_.cells, cell < m.next := fun cell hmem =>
    lt_of_lt_of_le ((decodePolicy_owns (Nat.zero_le _) hnamespace).within cell hmem).2 hbelow.2.1
  have hruleCells : ∀ cell ∈ rule.cells, cell < m.next := fun cell hmem =>
    lt_of_lt_of_le ((decodeRule_owns (Nat.zero_le _) hrule).within cell hmem).2 hbelow.2.2
  refine ⟨⟨?_, ?_, heffectiveCEL, heffective.ages, hmode'.trans hmode, ?_, ?_,
    hversion'.trans hversion, hinherits, hrules⟩, ?_, ?_⟩
  · intro name hcel path
    rw [heffective.seen name hcel path, hmerged.seen name hcel path]
  · rw [heffective.cel, hmerged.cel]
  · exact hinclude'.trans hmergedInclude
  · exact hexclude'.trans hmergedExclude
  · apply hmergedCells.confined.untouched
    intro cell hmem
    rcases List.mem_append.mp hmem with hmem | hmem
    · exact hdefaultCells cell hmem
    · exact hnamespaceCells cell hmem
  · apply (applyRule_owns parseDuration merged.1 rule (le_refl merged.2.next)).confined.untouched
    intro cell hmem
    simp only [List.mem_append] at hmem
    rcases hmem with ((hmem | hmem) | hmem) | hmem
    · exact (hmergedCells.within cell hmem).2
    · exact lt_of_lt_of_le (hruleCells cell hmem) hnext
    · exact lt_of_lt_of_le (hdefaultCells cell hmem) hnext
    · exact lt_of_lt_of_le (hnamespaceCells cell hmem) hnext

section samples

/-- An object with the given members. -/
def objectOf (members : List (String × Json)) : Json :=
  .object (Entries.ofList (members.map fun member => (member.1.toList, member.2)))

def sampleDurations (raw : Text) : Option Int :=
  if raw = "24h".toList then some 86400000000000
  else if raw = "1h".toList then some 3600000000000
  else none

/-- Programs that are their own rules. -/
def samplePrograms (rules : Json) : Option Json :=
  some rules

def sampleRule : Json :=
  objectOf [("match", .string "true".toList), ("require", .string "slsa.level > 1".toList)]

def sampleDefault : Json :=
  objectOf [
    ("version", .int 1),
    ("mode", .string "enforce".toList),
    ("slsa", objectOf [("missingPolicy", .string "deny".toList), ("maxAge", .string "24h".toList)]),
    ("cel", objectOf [("rules", .array [sampleRule])])]

/-- A namespace that keeps the policy for missing provenance and shortens the age. -/
def sampleNamespace : Json :=
  objectOf [
    ("inherits", .bool true),
    ("slsa", objectOf [("maxAge", .string "1h".toList), ("rejectUnknownParameters", .bool false)])]

def sampleImageRule : Json :=
  objectOf [
    ("images", .array [.string "docker.io/library/*".toList]),
    ("slsa", objectOf [("maxAge", .string [])])]

/-- A namespace that sets an empty CEL section. -/
def sampleEmptyCEL : Json :=
  objectOf [("inherits", .bool true), ("cel", objectOf [])]

/-- The effective policy, put together in a memory behind the decoded values. -/
def sampleEffective (defaultPol namespace_ : Policy Json) (rule : ImageRule Json) : Policy Json :=
  let merged := mergeWithDefault sampleDurations namespace_ defaultPol ⟨30, []⟩
  (applyRule sampleDurations merged.1 rule merged.2).1

end samples

theorem effective_isOverlay_sample : ∃ (defaultPol namespace_ : Policy Json)
    (rule : ImageRule Json) (m₁ m₂ m₃ : Memory),
    decodePolicy sampleDurations samplePrograms sampleDefault ⟨0, []⟩ = some (defaultPol, m₁) ∧
      decodePolicy sampleDurations samplePrograms sampleNamespace ⟨10, []⟩ =
        some (namespace_, m₂) ∧
      decodeRule sampleDurations samplePrograms sampleImageRule ⟨20, []⟩ = some (rule, m₃) ∧
      IsOverlay sampleDurations samplePrograms sampleNamespace sampleImageRule defaultPol namespace_
        rule (sampleEffective defaultPol namespace_ rule) := by
  have hdefault : decodePolicy sampleDurations samplePrograms sampleDefault ⟨0, []⟩ =
      some (_, _) := rfl
  exact ⟨_, _, _, _, _, _, hdefault, rfl, rfl,
    (effective_isOverlay hdefault rfl rfl (by decide)).1⟩

/-- An empty CEL section takes away the rules of the default policy, although it does not
set them. -/
theorem empty_cel_drops_rules : ∃ (defaultPol namespace_ : Policy Json) (rule : ImageRule Json)
    (m₁ m₂ m₃ : Memory),
    decodePolicy sampleDurations samplePrograms sampleDefault ⟨0, []⟩ = some (defaultPol, m₁) ∧
      decodePolicy sampleDurations samplePrograms sampleEmptyCEL ⟨10, []⟩ =
        some (namespace_, m₂) ∧
      decodeRule sampleDurations samplePrograms sampleImageRule ⟨20, []⟩ = some (rule, m₃) ∧
      (sampleImageRule.atPath ["cel".toList, "rules".toList]).isNull = true ∧
      (sampleEmptyCEL.atPath ["cel".toList, "rules".toList]).isNull = true ∧
      viewValue (sectionType .cel)
        ((sampleEffective defaultPol namespace_ rule).sections.value .cel) ["rules".toList] ≠
        viewValue (sectionType .cel) (defaultPol.sections.value .cel) ["rules".toList] := by
  refine ⟨_, _, _, _, _, _, rfl, rfl, rfl, rfl, rfl, ?_⟩
  intro h
  cases congrArg Json.isNull h

end effective

end NriSupplyChain.PolicyFile
