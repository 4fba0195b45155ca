import NriSupplyChain.Policy.Documents

/-!
Merging of all sections. The loops over the registry touch each section once, so
every section can be looked at alone: it is merged with the section above it, and
then its duration is recomputed.
-/

namespace NriSupplyChain.PolicyFile

open Lib

section loops

/-- A loop whose rounds only change the section they are for changes each section as its
own round does. -/
theorem foldl_value {step : Sections × Memory → SectionName → Sections × Memory}
    (hother : ∀ state name other, other ≠ name →
      (step state name).1.value other = state.1.value other) :
    ∀ {names : List SectionName}, names.Nodup → ∀ state : Sections × Memory,
      (∀ name ∉ names, (names.foldl step state).1.value name = state.1.value name) ∧
        ∀ name ∈ names, ∃ before : Sections × Memory,
          before.1.value name = state.1.value name ∧
            (names.foldl step state).1.value name = (step before name).1.value name
  | [], _, _ => ⟨fun _ _ => rfl, fun name hmem => by cases hmem⟩
  | first :: names, hnodup, state => by
    obtain ⟨hfirst, hnames⟩ := List.nodup_cons.mp hnodup
    obtain ⟨hsame, hhere⟩ := foldl_value hother hnames (step state first)
    constructor
    · intro name hmem
      rw [List.mem_cons, not_or] at hmem
      exact (hsame name hmem.2).trans (hother state first name hmem.1)
    · intro name hmem
      rcases List.mem_cons.mp hmem with rfl | hmem
      · exact ⟨state, rfl, hsame name hfirst⟩
      · have hne : name ≠ first := fun heq => hfirst (heq ▸ hmem)
        obtain ⟨before, hbefore, hafter⟩ := hhere name hmem
        exact ⟨before, hbefore.trans (hother state first name hne), hafter⟩

/-- The same for the loop over the whole registry. -/
theorem foldl_registry (step : Sections × Memory → SectionName → Sections × Memory)
    (hother : ∀ state name other, other ≠ name →
      (step state name).1.value other = state.1.value other)
    (state : Sections × Memory) (name : SectionName) :
    ∃ before : Sections × Memory, before.1.value name = state.1.value name ∧
      (SectionName.registry.foldl step state).1.value name = (step before name).1.value name :=
  (foldl_value hother SectionName.registry_nodup state).2 name (SectionName.mem_registry name)

theorem cloneSections_value (src : Sections) (m : Memory) (name : SectionName) :
    ∃ m' : Memory, (cloneSections src m).1.value name =
      ((sectionType name).deepCopy (src.value name) m').1 := by
  obtain ⟨before, -, hafter⟩ := foldl_registry (cloneSection src)
    (fun state _ _ hne => value_set_other state.1 hne _) (Sections.empty, m) name
  exact ⟨before.2, hafter.trans (value_set_self ..)⟩

variable {name : SectionName}

theorem mergeSection_other (src : Sections) (cell : Nat) (state : Sections × Memory)
    {other : SectionName} (h : other ≠ name) :
    (mergeSection src cell state name).1.value other = state.1.value other := by
  unfold mergeSection
  split
  · rfl
  · split
    · split <;> exact value_set_other _ h _
    · exact value_set_other _ h _

/-- A section is merged as a field of type pointer is. -/
theorem mergeSection_value (src : Sections) (cell : Nat) (state : Sections × Memory)
    (h : name ≠ .cel) :
    (mergeSection src cell state name).1.value name =
      if (src.get name).isNone then state.1.value name
      else (mergeValue (sectionType name) (state.1.value name) (src.value name) cell name.text
        src.explicit state.2).1 := by
  unfold mergeSection
  cases hsrc : src.get name with
  | none => rfl
  | some srcCell =>
    have hsrc' : src.value name = some srcCell := hsrc
    cases hdst : state.1.get name with
    | none =>
      have hdst' : state.1.value name = none := hdst
      rw [hdst', hsrc']
      exact value_set_self ..
    | some dstCell =>
      have hdst' : state.1.value name = some dstCell := hdst
      rw [hdst', hsrc']
      simp only [if_neg h]
      exact value_set_self ..

/-- The CEL section is replaced as a whole. -/
theorem mergeSection_cel (src : Sections) (cell : Nat) (state : Sections × Memory) :
    (mergeSection src cell state .cel).1.value .cel =
      if (src.get .cel).isNone then state.1.value .cel
      else ((sectionType .cel).deepCopy (src.value .cel) state.2).1 := by
  unfold mergeSection
  cases hsrc : src.get .cel with
  | none => rfl
  | some srcCell =>
    cases hdst : state.1.get .cel with
    | none => exact value_set_self ..
    | some dstCell => exact value_set_self ..

theorem resolveMergedMaxAge_other (parseDuration : Text → Option Int) (src : Sections)
    (state : Sections × Memory) {other : SectionName} (h : other ≠ name) :
    (resolveMergedMaxAge parseDuration src state name).1.value other = state.1.value other := by
  unfold resolveMergedMaxAge
  split
  · dsimp only
    split
    · split
      · exact value_set_other _ h _
      · rfl
    · split
      · split
        · exact value_set_other _ h _
        · rfl
      · rfl
  · rfl

end loops

section ages

/-- The text that a section is given as its maximum age in JSON. -/
def jsonMaxAge : Text :=
  "maxAge".toList

theorem view_maxAge {name : SectionName} (h : name.hasMaxAge = true)
    (cell : Nat × (sectionFields name).Val) :
    viewValue (sectionType name) (some cell : Option _) [jsonMaxAge] =
      .string ((sectionFields name).getText goMaxAge cell.2) := by
  cases name with
  | slsa => rfl
  | vsa => rfl
  | source => rfl
  | vulnScan => rfl
  | testResult => rfl
  | runtimeTrace => rfl
  | _ => cases h

/-- There is a field that is neither a struct nor a reference. -/
def hasScalar (name : Text) : Fields → Bool
  | .nil => false
  | .cons _ jsonName type rest =>
    if jsonName = name then jsonName ≠ hiddenName && isLeaf type && !isReference type
    else hasScalar name rest

theorem section_hasScalar {name : SectionName} (h : name.hasMaxAge = true) :
    hasScalar jsonMaxAge (sectionFields name) = true := by
  revert h
  cases name <;> decide

/-- A scalar is recorded exactly where the document sets it. -/
theorem contains_of_reflects {name : Text} : ∀ {fields : Fields}, hasScalar name fields = true →
    ∀ {value : fields.Val} {json : Json} {explicit : List Text} {start : Text},
      ReflectsFields fields value json explicit start →
      explicit.contains (start ++ '.' :: name) = !(json.field name).isNull
  | .nil, h, _, _, _, _, _ => by cases h
  | .cons _ jsonName type rest, h, (value, more), json, explicit, start, ⟨hvalue, hmore⟩ => by
    unfold hasScalar at h
    split at h
    · next heq =>
      subst heq
      simp only [ne_eq, decide_not, Bool.and_eq_true, Bool.not_eq_eq_eq_not, Bool.not_true,
        decide_eq_false_iff_not] at h
      obtain ⟨⟨hseen, hleaf⟩, href⟩ := h
      have hset := ((reflects_leaf hleaf).mp (hvalue hseen)).1
      rw [href] at hset
      exact hset
    · exact contains_of_reflects h hmore

theorem length_deepCopy (type : GoType) (value : type.Val) (m : Memory) :
    type.length (type.deepCopy value m).1 = type.length value := by
  cases type <;> rfl

theorem length_zero {type : GoType} {value : type.Val} (h : type.isZero value = true) :
    type.length value = 0 := by
  cases type with
  | duration => exact of_decide_eq_true h
  | _ => rfl

theorem length_of_not_zero {type : GoType} {value : type.Val} (h : type.isZero value = false)
    (hlength : type.length value = 0) (other : type.Val) : type.length other = 0 := by
  cases type with
  | duration => exact absurd hlength (of_decide_eq_false h)
  | _ => rfl

/-- A duration above that is not zero is carried over. -/
theorem getDuration_merge {goName : Text} (cell : Nat) (start : Text) (explicit : Explicit) :
    ∀ {fields : Fields}, hides goName fields = true → ∀ (dst src : fields.Val) (m : Memory),
      fields.getDuration goName (mergeStruct fields dst src cell start explicit m).1 =
        if fields.getDuration goName src = 0 then fields.getDuration goName dst
        else fields.getDuration goName src
  | .nil, _, _, _, _ => rfl
  | .cons go name type rest, hhidden, (dst, dstRest), (src, srcRest), m => by
    obtain ⟨hname, hrest⟩ := hides_cons hhidden
    by_cases hgo : go = goName
    · simp only [mergeStruct, Fields.getDuration, if_pos hgo, mergeField, if_pos (hname hgo)]
      cases hzero : type.isZero src with
      | true =>
        rw [if_pos (length_zero hzero)]
        rfl
      | false =>
        change type.length (type.deepCopy src m).1 = _
        rw [length_deepCopy]
        split
        · next hlength => rw [hlength, length_of_not_zero hzero hlength]
        · rfl
    · simp only [mergeStruct, Fields.getDuration, if_neg hgo]
      exact getDuration_merge cell start explicit hrest dstRest srcRest _

theorem text_deepCopy (type : GoType) (value : type.Val) (m : Memory) :
    type.text (type.deepCopy value m).1 = type.text value := by
  cases type <;> rfl

theorem getText_deepCopy (name : Text) (fields : Fields) (value : fields.Val) (m : Memory) :
    fields.getText name (fields.deepCopy value m).1 = fields.getText name value := by
  cases fields with
  | nil => rfl
  | cons go _ type rest =>
    obtain ⟨value, more⟩ := value
    have hvalue := text_deepCopy type value m
    have hmore := getText_deepCopy name rest more (type.deepCopy value m).2
    simp only [Fields.deepCopy, Fields.getText, hvalue, hmore]

theorem getDuration_deepCopy (name : Text) (fields : Fields) (value : fields.Val) (m : Memory) :
    fields.getDuration name (fields.deepCopy value m).1 = fields.getDuration name value := by
  cases fields with
  | nil => rfl
  | cons go _ type rest =>
    obtain ⟨value, more⟩ := value
    have hvalue := length_deepCopy type value m
    have hmore := getDuration_deepCopy name rest more (type.deepCopy value m).2
    simp only [Fields.deepCopy, Fields.getDuration, hvalue, hmore]

theorem getText_zero (name : Text) (fields : Fields) : fields.getText name fields.zero = [] := by
  cases fields with
  | nil => rfl
  | cons go _ type rest =>
    simp only [Fields.zero, Fields.getText, getText_zero name rest]
    split
    · cases type <;> rfl
    · rfl

end ages

section results

variable (parseDuration : Text → Option Int)

variable {name : SectionName}

theorem ageResolved_deepCopy {value : (sectionType name).Val}
    (h : AgeResolved parseDuration name value) (m : Memory) :
    AgeResolved parseDuration name ((sectionType name).deepCopy value m).1 := by
  intro hage cell hcell
  cases value with
  | none => cases hcell
  | some old =>
    obtain rfl := Option.some.inj hcell
    have hold := h hage old rfl
    rw [← getText_deepCopy _ _ old.2 m.alloc, ← getDuration_deepCopy _ _ old.2 m.alloc] at hold
    exact hold

/-- A section whose duration is the one of its maximum age once it is recomputed. -/
def Pending (src : Sections) (name : SectionName) (value : (sectionType name).Val) : Prop :=
  name.hasMaxAge = true → ∀ cell : Nat × (sectionFields name).Val, value = some cell →
    ((sectionFields name).getText goMaxAge cell.2 ≠ [] →
      ∃ duration, parseDuration ((sectionFields name).getText goMaxAge cell.2) = some duration ∧
        0 < duration) ∧
      ((sectionFields name).getText goMaxAge cell.2 = [] →
        (sectionFields name).getDuration goMaxAgeDuration cell.2 = 0 ∨
          (src.explicit.getD []).contains (maxAgePath name) = true)

theorem AgeResolved.pending {value : (sectionType name).Val}
    (h : AgeResolved parseDuration name value) (src : Sections) :
    Pending parseDuration src name value := by
  intro hage cell hcell
  obtain ⟨hempty, hset⟩ := h hage cell hcell
  exact ⟨fun hne => ⟨_, hset hne⟩, fun heq => .inl (hempty heq)⟩

theorem maxAgePath_eq (name : SectionName) : maxAgePath name = name.text ++ '.' :: jsonMaxAge :=
  rfl

variable {json : Json} {src : Sections}

theorem mergeStruct_pending (hsrc : Describes parseDuration json src)
    {srcCell dstCell : Nat × (sectionFields name).Val} (hcell : src.value name = some srcCell)
    (hdst : AgeResolved parseDuration name (some dstCell : Option _)) (m : Memory) :
    Pending parseDuration src name
      (some (dstCell.1, (mergeStruct (sectionFields name) dstCell.2 srcCell.2 dstCell.1 name.text
        src.explicit m).1) : Option _) := by
  intro hage cell hmerged
  obtain rfl := Option.some.inj hmerged
  have hfields : ReflectsFields (sectionFields name) srcCell.2 (json.field name.text)
      (explicitPaths json []) name.text := (hsrc.reflects name).2 srcCell hcell
  have hbelow := hdst hage dstCell rfl
  have habove := hsrc.ages name hage srcCell hcell
  -- the text of the merged section is the one above where the document sets it
  have hview := viewFields_merge (sectionFields name) dstCell.2 hfields dstCell.1 m jsonMaxAge []
  have hseen : ∀ cell : Nat × (sectionFields name).Val,
      viewFields (sectionFields name) cell.2 jsonMaxAge [] =
        .string ((sectionFields name).getText goMaxAge cell.2) := view_maxAge hage
  have hcontains := contains_of_reflects (section_hasScalar hage) hfields
  have hunset := viewFields_unset (sectionFields name) hfields jsonMaxAge []
  rw [hseen dstCell, hseen srcCell, hseen (dstCell.1, _)] at hview
  rw [hseen srcCell, hseen (0, _), getText_zero] at hunset
  rw [maxAgePath_eq, hsrc.explicit, Option.getD_some, hcontains]
  dsimp only at hview ⊢
  cases hnull : ((json.field name.text).field jsonMaxAge).isNull with
  | true =>
    have habsent : (((json.field name.text).field jsonMaxAge).atPath []).isNull = true := hnull
    unfold overlay at hview
    rw [if_pos habsent] at hview
    have hzero := habove.1 (Json.string.inj (hunset habsent))
    rw [Json.string.inj hview, getDuration_merge _ _ _ (section_hides name), if_pos hzero]
    exact ⟨fun hne => ⟨_, hbelow.2 hne⟩, fun heq => .inl (hbelow.1 heq)⟩
  | false =>
    have hpresent : ¬(((json.field name.text).field jsonMaxAge).atPath []).isNull = true := by
      change ¬((json.field name.text).field jsonMaxAge).isNull = true
      rw [hnull]
      exact Bool.false_ne_true
    unfold overlay at hview
    rw [if_neg hpresent] at hview
    rw [Json.string.inj hview]
    exact ⟨fun hne => ⟨_, habove.2 hne⟩, fun _ => .inr rfl⟩

theorem mergeSection_pending (hsrc : Describes parseDuration json src) (cell : Nat)
    {state : Sections × Memory} (hdst : AgeResolved parseDuration name (state.1.value name)) :
    Pending parseDuration src name ((mergeSection src cell state name).1.value name) := by
  by_cases hcel : name = .cel
  · subst hcel
    intro hage
    cases hage
  rw [mergeSection_value src cell state hcel]
  cases hsrcCell : src.get name with
  | none => exact hdst.pending parseDuration src
  | some srcCell =>
    have hvalue : src.value name = some srcCell := hsrcCell
    cases hdstCell : state.1.value name with
    | none =>
      rw [hvalue]
      have hages := ageResolved_deepCopy parseDuration (hsrc.ages name) state.2
      rw [hvalue] at hages
      exact hages.pending parseDuration src
    | some dstCell =>
      rw [hdstCell] at hdst
      rw [hvalue]
      exact mergeStruct_pending parseDuration hsrc hvalue hdst state.2

/-- Recomputing makes the duration the one of the maximum age and changes nothing else. -/
theorem resolveMergedMaxAge_here {state : Sections × Memory}
    (hpending : Pending parseDuration src name (state.1.value name)) :
    SameButDuration name (state.1.value name)
        ((resolveMergedMaxAge parseDuration src state name).1.value name) ∧
      AgeResolved parseDuration name
        ((resolveMergedMaxAge parseDuration src state name).1.value name) := by
  unfold resolveMergedMaxAge
  split
  · next addr section_ hage hget =>
    have hvalue : state.1.value name = some (addr, section_) := hget
    obtain ⟨hset, hempty⟩ := hpending hage _ hvalue
    have hput : ∀ duration : Int,
        Resolved parseDuration ((sectionFields name).getText goMaxAge section_) duration →
        AgeResolved parseDuration name ((state.1.put name
          (addr, (sectionFields name).setDuration goMaxAgeDuration duration section_)).value
            name) := by
      intro duration hresolved _ cell hcell
      obtain rfl := Option.some.inj ((value_set_self state.1 name _).symm.trans hcell)
      rw [getDuration_setDuration hage, getText_section_setDuration]
      exact hresolved
    dsimp only
    split
    · next hraw =>
      split
      · exact ⟨.inr ⟨_, 0, hvalue, value_set_self ..⟩,
          hput 0 ⟨fun _ => rfl, fun hne => absurd hraw hne⟩⟩
      · next hunset =>
        refine ⟨.inl rfl, ?_⟩
        intro _ cell hcell
        obtain rfl := Option.some.inj (hvalue.symm.trans hcell)
        exact ⟨fun _ => (hempty hraw).resolve_right hunset, fun hne => absurd hraw hne⟩
    · next hraw =>
      obtain ⟨duration, hparse, hpos⟩ := hset hraw
      simp only [hparse, if_pos hpos]
      exact ⟨.inr ⟨_, duration, hvalue, value_set_self ..⟩,
        hput duration ⟨fun hempty => absurd hempty hraw, fun _ => ⟨hparse, hpos⟩⟩⟩
  · next hskip =>
    refine ⟨.inl rfl, ?_⟩
    intro hage cell hcell
    exact absurd hcell (hskip cell.1 cell.2 hage)

theorem resolveMergedMaxAge_cel (src : Sections) (state : Sections × Memory) :
    (resolveMergedMaxAge parseDuration src state .cel).1.value .cel = state.1.value .cel :=
  rfl

theorem viewValue_sameButDuration {value value' : (sectionType name).Val}
    (h : SameButDuration name value value') (path : List Text) :
    viewValue (sectionType name) value' path = viewValue (sectionType name) value path := by
  rcases h with rfl | ⟨cell, duration, rfl, rfl⟩
  · rfl
  · cases path with
    | nil => rfl
    | cons field path => exact viewFields_setDuration _ _ (section_hides name) cell.2 field path

/-- Sections are the overlay of two others, seen with the document of the ones above. -/
structure Overlays (json : Json) (below above result : Sections) : Prop where
  seen : ∀ name, name ≠ .cel → ∀ path,
    viewValue (sectionType name) (result.value name) path =
      overlay ((json.field name.text).atPath path)
        (viewValue (sectionType name) (below.value name) path)
        (viewValue (sectionType name) (above.value name) path)
  cel : (sectionType .cel).toJson (result.value .cel) =
    overlay (json.field SectionName.cel.text) ((sectionType .cel).toJson (below.value .cel))
      ((sectionType .cel).toJson (above.value .cel))
  ages : ∀ name, AgeResolved parseDuration name (result.value name)

theorem isNone_get (hsrc : Describes parseDuration json src) (name : SectionName) :
    (src.get name).isNone = (json.field name.text).isNull := by
  have hsome : (src.get name).isSome = !(json.field name.text).isNull := (hsrc.reflects name).1
  rw [← Option.not_isSome, hsome, Bool.not_not]

/-- Merging of sections is the overlay. -/
theorem mergeSections_overlays {dst : Sections} (hsrc : Describes parseDuration json src)
    (hdst : ∀ name, AgeResolved parseDuration name (dst.value name)) (cell : Nat) (m : Memory) :
    Overlays parseDuration json dst src (mergeSections parseDuration dst src cell m).1 := by
  have hmerged : ∀ name, ∃ before merged : Sections × Memory,
      before.1.value name = dst.value name ∧
      merged.1.value name = (mergeSection src cell before name).1.value name ∧
      (mergeSections parseDuration dst src cell m).1.value name =
        (resolveMergedMaxAge parseDuration src merged name).1.value name := by
    intro name
    obtain ⟨before, hbefore, hafter⟩ := foldl_registry (mergeSection src cell)
      (fun state _ _ hne => mergeSection_other src cell state hne) (dst, m) name
    obtain ⟨merged, hmerged, hresolved⟩ := foldl_registry (resolveMergedMaxAge parseDuration src)
      (fun state _ _ hne => resolveMergedMaxAge_other parseDuration src state hne)
      (SectionName.registry.foldl (mergeSection src cell) (dst, m)) name
    exact ⟨before, merged, hbefore, hmerged.trans hafter, hresolved⟩
  have hresolved : ∀ name, ∀ before merged : Sections × Memory,
      before.1.value name = dst.value name →
      merged.1.value name = (mergeSection src cell before name).1.value name →
      Pending parseDuration src name (merged.1.value name) := by
    intro name before merged hbefore hafter
    rw [hafter]
    apply mergeSection_pending parseDuration hsrc
    rw [hbefore]
    exact hdst name
  constructor
  · intro name hcel path
    obtain ⟨before, merged, hbefore, hafter, hresult⟩ := hmerged name
    obtain ⟨hsame, -⟩ :=
      resolveMergedMaxAge_here parseDuration (hresolved name before merged hbefore hafter)
    rw [hresult, viewValue_sameButDuration hsame, hafter,
      mergeSection_value src cell before hcel, isNone_get parseDuration hsrc, ← hbefore]
    cases hnull : (json.field name.text).isNull with
    | true =>
      rw [eq_null_of_isNull hnull, atPath_null, overlay_null]
      rfl
    | false =>
      rw [hsrc.explicit]
      exact viewValue_merge _ _ (hsrc.reflects name) hnull cell _ path
  · obtain ⟨before, merged, hbefore, hafter, hresult⟩ := hmerged .cel
    rw [hresult, resolveMergedMaxAge_cel, hafter, mergeSection_cel,
      isNone_get parseDuration hsrc, ← hbefore]
    unfold overlay
    split
    · rfl
    · exact (sectionType .cel).toJson_deepCopy _ _
  · intro name
    obtain ⟨before, merged, hbefore, hafter, hresult⟩ := hmerged name
    rw [hresult]
    exact (resolveMergedMaxAge_here parseDuration
      (hresolved name before merged hbefore hafter)).2

end results

end NriSupplyChain.PolicyFile
