import NriSupplyChain.Lib.Cuts
import NriSupplyChain.Policy.Overlay

/-!
A decoded section is what its document says. The source records the fields a
document sets as paths joined by dots. No name of a field has a dot, so a path
stands for one place of the document only, although the keys of a map, which are
recorded as well, may have dots.
-/

namespace NriSupplyChain.PolicyFile

open Lib

section recorded

variable {name : Text}

theorem find_of_not_mem : ∀ {entries : Entries},
    name ∉ entries.keys → entries.find name = .null
  | .nil, _ => rfl
  | .cons key value rest, h => by
    rw [Entries.keys, List.mem_cons, not_or] at h
    rw [Entries.find, if_neg (Ne.symm h.1)]
    exact find_of_not_mem h.2

theorem mem_explicitEntries_cons {key : Text} {value : Json} {rest : Entries}
    {start path : Text} :
    path ∈ explicitEntries (.cons key value rest) start ↔
      (value.isNull = false ∧
        (path = start ++ key ∨ path ∈ explicitPaths value (start ++ key ++ ['.']))) ∨
        path ∈ explicitEntries rest start := by
  rw [explicitEntries, List.mem_append]
  cases value.isNull with
  | true => simp
  | false => simp

mutual

/-- All recorded paths are behind the start. -/
theorem explicitPaths_start : ∀ {json : Json} {start path : Text},
    path ∈ explicitPaths json start → ∃ rest, path = start ++ rest
  | .object _, _, _, h => explicitEntries_start h
  | .null, _, _, h => by cases h
  | .bool _, _, _, h => by cases h
  | .int _, _, _, h => by cases h
  | .real _, _, _, h => by cases h
  | .string _, _, _, h => by cases h
  | .array _, _, _, h => by cases h

theorem explicitEntries_start : ∀ {entries : Entries} {start path : Text},
    path ∈ explicitEntries entries start → ∃ rest, path = start ++ rest
  | .nil, _, _, h => by cases h
  | .cons key value rest, start, path, h => by
    rcases mem_explicitEntries_cons.mp h with ⟨-, rfl | hbelow⟩ | hrest
    · exact ⟨key, rfl⟩
    · obtain ⟨more, rfl⟩ := explicitPaths_start hbelow
      exact ⟨key ++ ['.'] ++ more, by simp⟩
    · exact explicitEntries_start hrest

end

/-- A recorded path with no dot behind the start names an entry that is set. -/
theorem mem_explicitEntries_here (start : Text) (hname : '.' ∉ name) :
    ∀ {entries : Entries}, entries.keys.Nodup →
      (start ++ name ∈ explicitEntries entries start ↔ (entries.find name).isNull = false)
  | .nil, _ => by simp [explicitEntries, Entries.find, Json.isNull]
  | .cons key value rest, hnodup => by
    obtain ⟨hkey, hrest⟩ := List.nodup_cons.mp hnodup
    have ih := mem_explicitEntries_here start hname hrest
    have hbelow : start ++ name ∉ explicitPaths value (start ++ key ++ ['.']) := by
      intro h
      obtain ⟨more, hmore⟩ := explicitPaths_start h
      rw [List.append_assoc, List.append_assoc] at hmore
      apply hname
      rw [List.append_cancel_left hmore]
      simp
    rw [mem_explicitEntries_cons, ih, Entries.find]
    by_cases heq : key = name
    · subst heq
      rw [if_pos rfl, find_of_not_mem hkey]
      simp [Json.isNull]
    · rw [if_neg heq]
      have hhere : start ++ name ≠ start ++ key := by
        intro h
        exact heq (List.append_cancel_left h).symm
      simp only [hhere, hbelow, or_false, and_false, false_or]

/-- A recorded path with a dot behind a name is recorded below the entry of that name. -/
theorem mem_explicitEntries_below (start : Text) (hname : '.' ∉ name) (more : Text) :
    ∀ {entries : Entries}, entries.keys.Nodup → (∀ key ∈ entries.keys, '.' ∉ key) →
      (start ++ name ++ '.' :: more ∈ explicitEntries entries start ↔
        start ++ name ++ '.' :: more ∈
          explicitPaths (entries.find name) (start ++ name ++ ['.']))
  | .nil, _, _ => by simp [explicitEntries, Entries.find, explicitPaths]
  | .cons key value rest, hnodup, hdots => by
    obtain ⟨hkey, hrest⟩ := List.nodup_cons.mp hnodup
    have hdot : '.' ∉ key := hdots key List.mem_cons_self
    have ih := mem_explicitEntries_below start hname more hrest
      fun key hmem => hdots key (List.mem_cons_of_mem _ hmem)
    have hhere : start ++ name ++ '.' :: more ≠ start ++ key := by
      intro h
      rw [List.append_assoc] at h
      apply hdot
      rw [← List.append_cancel_left h]
      simp
    rw [mem_explicitEntries_cons, ih, Entries.find]
    by_cases heq : key = name
    · subst heq
      rw [if_pos rfl, find_of_not_mem hkey]
      simp only [hhere, false_or, explicitPaths, List.not_mem_nil, or_false]
      constructor
      · rintro ⟨-, h⟩
        exact h
      · intro h
        cases value with
        | null => cases h
        | _ => exact ⟨rfl, h⟩
    · rw [if_neg heq]
      have hbelow :
          start ++ name ++ '.' :: more ∉ explicitPaths value (start ++ key ++ ['.']) := by
        intro h
        obtain ⟨tail, htail⟩ := explicitPaths_start h
        simp only [List.append_assoc, List.cons_append, List.nil_append] at htail
        have hcut := congrArg (cut '.') (List.append_cancel_left htail)
        rw [cut_append hname, cut_append hdot] at hcut
        exact heq (congrArg Prod.fst (Option.some.inj hcut)).symm
      simp only [hhere, hbelow, or_false, and_false, false_or]

end recorded

section decoded

mutual

/-- The names of the fields of a struct behind pointers have no dots. -/
def dotFree : GoType → Bool
  | .pointer (.struct fields) => dotFreeFields fields
  | _ => true

def dotFreeFields : Fields → Bool
  | .nil => true
  | .cons _ name type rest => !name.contains '.' && dotFree type && dotFreeFields rest

end

theorem dotFree_jsonNames : ∀ {fields : Fields}, dotFreeFields fields = true →
    ∀ name ∈ fields.jsonNames, '.' ∉ name
  | .nil, _, name, hmem => by cases hmem
  | .cons _ jsonName type rest, h, name, hmem => by
    unfold dotFreeFields at h
    rw [Bool.and_eq_true, Bool.and_eq_true] at h
    obtain ⟨⟨hhere, -⟩, hrest⟩ := h
    unfold Fields.jsonNames at hmem
    split at hmem
    · exact dotFree_jsonNames hrest name hmem
    · rcases List.mem_cons.mp hmem with rfl | hmem
      · simpa using hhere
      · exact dotFree_jsonNames hrest name hmem

theorem decode_null {type : GoType} {json : Json} {m m' : Memory} {value : type.Val}
    (h : type.decode json m = some (value, m')) (hnull : json.isNull = true) :
    value = type.zero := by
  rw [eq_null_of_isNull hnull] at h
  cases type <;> cases h <;> rfl

/-- A decoded reference is nil exactly for `null`. -/
theorem decode_isZero {type : GoType} (href : isReference type = true) {json : Json}
    {m m' : Memory} {value : type.Val} (h : type.decode json m = some (value, m')) :
    type.isZero value = json.isNull := by
  cases hnull : json.isNull with
  | true =>
    rw [decode_null h hnull]
    cases type with
    | pointer target => rfl
    | slice item => rfl
    | map item => rfl
    | _ => cases href
  | false =>
    cases type with
    | pointer target =>
      unfold GoType.decode at h
      rw [hnull] at h
      obtain ⟨⟨value, m'⟩, -, hpair⟩ := Option.map_eq_some_iff.mp h
      cases hpair
      rfl
    | slice item =>
      unfold GoType.decode at h
      split at h
      · obtain ⟨⟨values, m'⟩, -, hpair⟩ := Option.map_eq_some_iff.mp h
        cases hpair
        rfl
      · cases hnull
      · cases h
    | map item =>
      unfold GoType.decode at h
      split at h
      · split at h
        · obtain ⟨⟨values, m'⟩, -, hpair⟩ := Option.map_eq_some_iff.mp h
          cases hpair
          rfl
        · cases h
      · cases hnull
      · cases h
    | _ => cases href

/-- Paths record a place of the document: the place itself if it is set, and below it
what is set there. -/
structure Recorded (explicit : List Text) (json : Json) (start : Text) : Prop where
  here : explicit.contains start = !json.isNull
  below : ∀ more, start ++ '.' :: more ∈ explicit ↔
    start ++ '.' :: more ∈ explicitPaths json (start ++ ['.'])

variable {entries : Entries}

/-- What is recorded below an object records its entries. -/
theorem Recorded.entry {explicit : List Text} (start : Text) {name : Text}
    (h : ∀ more, start ++ more ∈ explicit ↔ start ++ more ∈ explicitEntries entries start)
    (hnodup : entries.keys.Nodup) (hdots : ∀ key ∈ entries.keys, '.' ∉ key) (hname : '.' ∉ name) :
    Recorded explicit (entries.find name) (start ++ name) := by
  constructor
  · have hiff := (h name).trans (mem_explicitEntries_here start hname hnodup)
    rw [Bool.eq_iff_iff, List.contains_iff_mem, hiff]
    simp
  · intro more
    have hiff := mem_explicitEntries_below start hname more hnodup hdots
    rw [← hiff, List.append_assoc]
    exact h _

theorem known_nodup {names : List Text} (h : entries.known names = true) : entries.keys.Nodup := by
  unfold Entries.known at h
  rw [Bool.and_eq_true, decide_eq_true_eq] at h
  exact h.1

theorem known_mem {names : List Text} (h : entries.known names = true) {key : Text}
    (hmem : key ∈ entries.keys) : key ∈ names := by
  unfold Entries.known at h
  rw [Bool.and_eq_true, List.all_eq_true] at h
  exact List.contains_iff_mem.mp (h.2 key hmem)

mutual

/-- A decoded value is what its document says. -/
theorem decode_reflects (type : GoType) (hdots : dotFree type = true) {json : Json}
    {m m' : Memory} {value : type.Val} (h : type.decode json m = some (value, m'))
    {explicit : List Text} {start : Text} (hrecorded : Recorded explicit json start) :
    Reflects type value json explicit start := by
  cases hleaf : isLeaf type with
  | true =>
    apply (reflects_leaf hleaf).mpr
    refine ⟨?_, decode_null h⟩
    cases href : isReference type with
    | true => exact decode_isZero href h
    | false => exact hrecorded.here
  | false =>
    cases type with
    | pointer target =>
      cases target with
      | struct fields =>
        unfold GoType.decode at h
        cases hnull : json.isNull with
        | true =>
          rw [hnull] at h
          cases h
          rw [eq_null_of_isNull hnull]
          exact ⟨rfl, fun cell hcell => by cases hcell⟩
        | false =>
          rw [hnull] at h
          obtain ⟨⟨struct_, m₁⟩, hstruct, hpair⟩ := Option.map_eq_some_iff.mp h
          cases hpair
          refine ⟨by rw [hnull]; rfl, ?_⟩
          rintro cell ⟨⟩
          rcases decodeObject_cases hstruct with ⟨entries, rfl, hknown, hfields⟩ | ⟨rfl, -, -⟩
          · have hkeys : ∀ key ∈ entries.keys, '.' ∉ key := fun key hmem =>
              dotFree_jsonNames hdots key (known_mem hknown hmem)
            exact decodeFields_reflects fields hdots hfields (known_nodup hknown) hkeys
              hrecorded.below
          · cases hnull
      | _ => cases hleaf
    | _ => cases hleaf

theorem decodeFields_reflects (fields : Fields) (hdots : dotFreeFields fields = true)
    {entries : Entries} {m m' : Memory} {value : fields.Val}
    (h : fields.decode (.object entries) m = some (value, m')) (hnodup : entries.keys.Nodup)
    (hkeys : ∀ key ∈ entries.keys, '.' ∉ key) {explicit : List Text} {start : Text}
    (hbelow : ∀ more, start ++ '.' :: more ∈ explicit ↔
      start ++ '.' :: more ∈ explicitEntries entries (start ++ ['.'])) :
    ReflectsFields fields value (.object entries) explicit start := by
  cases fields with
  | nil => exact trivial
  | cons goName name type rest =>
    unfold dotFreeFields at hdots
    rw [Bool.and_eq_true, Bool.and_eq_true] at hdots
    obtain ⟨⟨hname, htype⟩, hrest⟩ := hdots
    obtain ⟨⟨first, m₁⟩, hfirst, hmore⟩ := Option.bind_eq_some_iff.mp h
    obtain ⟨⟨more, m₂⟩, hmore, hpair⟩ := Option.map_eq_some_iff.mp hmore
    cases hpair
    refine ⟨?_, decodeFields_reflects rest hrest hmore hnodup hkeys hbelow⟩
    intro hseen
    rw [if_neg hseen] at hfirst
    have hentries : ∀ more, (start ++ ['.']) ++ more ∈ explicit ↔
        (start ++ ['.']) ++ more ∈ explicitEntries entries (start ++ ['.']) := by
      intro more
      rw [List.append_assoc]
      exact hbelow more
    have hname : '.' ∉ name := by simpa using hname
    have hrecorded := Recorded.entry _ hentries hnodup hkeys hname
    rw [List.append_assoc] at hrecorded
    exact decode_reflects type htype hfirst hrecorded

end

end decoded

section durations

/-- JSON does not see the field with a name in Go. -/
def hides (goName : Text) : Fields → Bool
  | .nil => true
  | .cons go name _ rest => (go ≠ goName || name = hiddenName) && hides goName rest

variable {go goName name : Text} {rest : Fields} {type : GoType}

theorem hides_cons (h : hides goName (.cons go name type rest) = true) :
    (go = goName → name = hiddenName) ∧ hides goName rest = true := by
  unfold hides at h
  simp only [ne_eq, decide_not, Bool.and_eq_true, Bool.or_eq_true, Bool.not_eq_eq_eq_not,
    Bool.not_true, decide_eq_false_iff_not, decide_eq_true_eq] at h
  exact ⟨fun heq => h.1.resolve_left fun hne => hne heq, h.2⟩

theorem setDuration_here (hgo : go = goName) (new : Int) (value : type.Val) (more : rest.Val) :
    (Fields.cons go name type rest).setDuration goName new (value, more) =
      (type.setLength new value, more) :=
  if_pos hgo

theorem setDuration_there (hgo : go ≠ goName) (new : Int) (value : type.Val) (more : rest.Val) :
    (Fields.cons go name type rest).setDuration goName new (value, more) =
      (value, rest.setDuration goName new more) :=
  if_neg hgo

theorem viewFields_setDuration (goName : Text) (new : Int) :
    ∀ {fields : Fields}, hides goName fields = true → ∀ (value : fields.Val) (name : Text)
      (path : List Text),
      viewFields fields (fields.setDuration goName new value) name path =
        viewFields fields value name path
  | .nil, _, _, _, _ => rfl
  | .cons go jsonName type rest, hhidden, (value, more), name, path => by
    obtain ⟨hname, hrest⟩ := hides_cons hhidden
    by_cases hgo : go = goName
    · have hskip : ¬(jsonName = name ∧ jsonName ≠ hiddenName) := fun h => h.2 (hname hgo)
      rw [setDuration_here hgo]
      simp only [viewFields, if_neg hskip]
    · have ih := viewFields_setDuration goName new hrest more name path
      rw [setDuration_there hgo]
      simp only [viewFields, ih]

theorem reflectsFields_setDuration (goName : Text) (new : Int) :
    ∀ {fields : Fields}, hides goName fields = true → ∀ {value : fields.Val} {json : Json}
      {explicit : List Text} {start : Text}, ReflectsFields fields value json explicit start →
      ReflectsFields fields (fields.setDuration goName new value) json explicit start
  | .nil, _, _, _, _, _, h => h
  | .cons go jsonName type rest, hhidden, (value, more), json, explicit, start,
      ⟨hvalue, hmore⟩ => by
    obtain ⟨hname, hrest⟩ := hides_cons hhidden
    by_cases hgo : go = goName
    · rw [setDuration_here hgo]
      exact ⟨fun hseen => absurd (hname hgo) hseen, hmore⟩
    · rw [setDuration_there hgo]
      exact ⟨hvalue, reflectsFields_setDuration goName new hrest hmore⟩

theorem getText_setDuration (hne : goName ≠ name) (new : Int) :
    ∀ {fields : Fields} (value : fields.Val),
      fields.getText name (fields.setDuration goName new value) = fields.getText name value
  | .nil, _ => rfl
  | .cons go _ type rest, (value, more) => by
    by_cases hgo : go = goName
    · have hother : go ≠ name := fun heq => hne (hgo.symm.trans heq)
      rw [setDuration_here hgo]
      simp only [Fields.getText, if_neg hother]
    · have ih := getText_setDuration hne new more
      rw [setDuration_there hgo]
      simp only [Fields.getText, ih]

/-- A hidden field is decoded to zero. -/
theorem decode_getDuration : ∀ {fields : Fields}, hides goName fields = true →
    ∀ {json : Json} {m m' : Memory} {value : fields.Val},
      fields.decode json m = some (value, m') → fields.getDuration goName value = 0
  | .nil, _, _, _, _, _, _ => rfl
  | .cons go name type rest, hhidden, json, m, m', value, h => by
    obtain ⟨hname, hrest⟩ := hides_cons hhidden
    obtain ⟨⟨first, m₁⟩, hfirst, hmore⟩ := Option.bind_eq_some_iff.mp h
    obtain ⟨⟨more, m₂⟩, hmore, hpair⟩ := Option.map_eq_some_iff.mp hmore
    cases hpair
    have ih := decode_getDuration hrest hmore
    by_cases hgo : go = goName
    · rw [if_pos (hname hgo)] at hfirst
      have hzero := decode_null hfirst rfl
      subst hzero
      simp only [Fields.getDuration, if_pos hgo]
      cases type with
      | _ => rfl
    · simp only [Fields.getDuration, if_neg hgo, ih]

end durations

section sections

theorem section_dotFree (name : SectionName) : dotFree (sectionType name) = true := by
  cases name <;> decide

theorem section_hides (name : SectionName) :
    hides goMaxAgeDuration (sectionFields name) = true := by
  cases name <;> decide

theorem section_text_dotFree (name : SectionName) : '.' ∉ name.text := by
  cases name <;> decide

variable {name : SectionName}

theorem getDuration_setDuration (h : name.hasMaxAge = true) (new : Int)
    (section_ : (sectionFields name).Val) :
    (sectionFields name).getDuration goMaxAgeDuration
      ((sectionFields name).setDuration goMaxAgeDuration new section_) = new := by
  cases name with
  | slsa => rfl
  | vsa => rfl
  | source => rfl
  | vulnScan => rfl
  | testResult => rfl
  | runtimeTrace => rfl
  | _ => cases h

theorem getText_section_setDuration (name : SectionName) (new : Int)
    (section_ : (sectionFields name).Val) :
    (sectionFields name).getText goMaxAge
      ((sectionFields name).setDuration goMaxAgeDuration new section_) =
      (sectionFields name).getText goMaxAge section_ :=
  getText_setDuration (by decide) new section_

theorem value_set_self (sections : Sections) (name : SectionName)
    (new : (sectionType name).Val) : (sections.set name new).value name = new :=
  Function.update_self ..

theorem value_set_other (sections : Sections) {other : SectionName} (h : other ≠ name)
    (new : (sectionType name).Val) : (sections.set name new).value other = sections.value other :=
  Function.update_of_ne h ..

variable {json : Json}

/-- Each section is decoded from its field. -/
theorem decodeSectionsFrom_value : ∀ {names : List SectionName}, names.Nodup →
    ∀ {sections sections' : Sections} {m m' : Memory},
      decodeSectionsFrom json names sections m = some (sections', m') →
      (∀ name ∉ names, sections'.value name = sections.value name) ∧
        ∀ name ∈ names, ∃ m₁ m₂,
          (sectionType name).decode (json.field name.text) m₁ = some (sections'.value name, m₂)
  | [], _, _, _, _, _, h => by
    cases h
    exact ⟨fun _ _ => rfl, fun name hmem => by cases hmem⟩
  | first :: names, hnodup, sections, sections', m, m', h => by
    obtain ⟨hfirst, hnames⟩ := List.nodup_cons.mp hnodup
    obtain ⟨⟨decoded, m₁⟩, hdecoded, hrest⟩ := Option.bind_eq_some_iff.mp h
    obtain ⟨⟨value, m₂⟩, hvalue, hpair⟩ := Option.map_eq_some_iff.mp hdecoded
    cases hpair
    obtain ⟨hother, hhere⟩ := decodeSectionsFrom_value hnames hrest
    constructor
    · intro name hmem
      rw [List.mem_cons, not_or] at hmem
      rw [hother name hmem.2, value_set_other _ hmem.1]
    · intro name hmem
      rcases List.mem_cons.mp hmem with rfl | hmem
      · rw [hother name hfirst, value_set_self]
        exact ⟨m, m₁, hvalue⟩
      · exact hhere name hmem

variable (parseDuration : Text → Option Int)

/-- A duration is the one a text stands for. -/
def Resolved (raw : Text) (duration : Int) : Prop :=
  (raw = [] → duration = 0) ∧ (raw ≠ [] → parseDuration raw = some duration ∧ 0 < duration)

/-- The duration of a section is the one of its maximum age. -/
def AgeResolved (name : SectionName) (value : (sectionType name).Val) : Prop :=
  name.hasMaxAge = true → ∀ cell : Nat × (sectionFields name).Val, value = some cell →
    Resolved parseDuration ((sectionFields name).getText goMaxAge cell.2)
      ((sectionFields name).getDuration goMaxAgeDuration cell.2)

/-- Two values of a section differ in the resolved duration only. -/
def SameButDuration (name : SectionName) (value value' : (sectionType name).Val) : Prop :=
  value' = value ∨ ∃ (cell : Nat × (sectionFields name).Val) (duration : Int),
    value = some cell ∧
      value' = some (cell.1, (sectionFields name).setDuration goMaxAgeDuration duration cell.2)

theorem resolveMaxAge_spec {sections sections' : Sections}
    (hzero : ∀ cell, sections.get name = some cell →
      (sectionFields name).getDuration goMaxAgeDuration cell.2 = 0)
    (h : resolveMaxAge parseDuration name sections = some sections') :
    sections'.explicit = sections.explicit ∧
      (∀ other, other ≠ name → sections'.value other = sections.value other) ∧
      SameButDuration name (sections.value name) (sections'.value name) ∧
      AgeResolved parseDuration name (sections'.value name) := by
  unfold resolveMaxAge at h
  split at h
  · next addr section_ hage hget =>
    dsimp only at h
    split at h
    · next hraw =>
      cases h
      refine ⟨rfl, fun _ _ => rfl, .inl rfl, ?_⟩
      intro _ cell hcell
      obtain rfl : (addr, section_) = cell := Option.some.inj (hget.symm.trans hcell)
      exact ⟨fun _ => hzero _ hget, fun hne => absurd hraw hne⟩
    · next hraw =>
      split at h
      · cases h
      · next parsed hparsed =>
        split at h
        · cases h
        · next hpos =>
          cases h
          refine ⟨rfl, fun other hother => value_set_other _ hother _,
            .inr ⟨(addr, section_), parsed, hget, value_set_self ..⟩, ?_⟩
          intro _ cell hcell
          obtain rfl := Option.some.inj ((value_set_self sections name _).symm.trans hcell)
          rw [getDuration_setDuration hage, getText_section_setDuration]
          exact ⟨fun hempty => absurd hempty hraw, fun _ => ⟨hparsed, by omega⟩⟩
  · next hskip =>
    cases h
    refine ⟨rfl, fun _ _ => rfl, .inl rfl, ?_⟩
    intro hage cell hcell
    exact absurd hcell (hskip cell.1 cell.2 hage)

theorem validateSections_spec : ∀ {names : List SectionName}, names.Nodup →
    ∀ {sections sections' : Sections},
      (∀ name ∈ names, ∀ cell, sections.get name = some cell →
        (sectionFields name).getDuration goMaxAgeDuration cell.2 = 0) →
      validateSections parseDuration names sections = some sections' →
      sections'.explicit = sections.explicit ∧
        (∀ name ∉ names, sections'.value name = sections.value name) ∧
        ∀ name ∈ names, SameButDuration name (sections.value name) (sections'.value name) ∧
          AgeResolved parseDuration name (sections'.value name)
  | [], _, _, _, _, h => by
    cases h
    exact ⟨rfl, fun _ _ => rfl, fun name hmem => by cases hmem⟩
  | first :: names, hnodup, sections, sections', hzero, h => by
    obtain ⟨hfirst, hnames⟩ := List.nodup_cons.mp hnodup
    obtain ⟨resolved, hresolved, hrest⟩ := Option.bind_eq_some_iff.mp h
    obtain ⟨hexplicit, hsame, hstep⟩ :=
      resolveMaxAge_spec parseDuration (hzero first List.mem_cons_self) hresolved
    have hzero' : ∀ name ∈ names, ∀ cell, resolved.get name = some cell →
        (sectionFields name).getDuration goMaxAgeDuration cell.2 = 0 := by
      intro name hmem cell hcell
      have hne : name ≠ first := fun heq => hfirst (heq ▸ hmem)
      apply hzero name (List.mem_cons_of_mem _ hmem) cell
      exact (hsame name hne).symm.trans hcell
    obtain ⟨hexplicit', hother, hhere⟩ := validateSections_spec hnames hzero' hrest
    refine ⟨hexplicit'.trans hexplicit, ?_, ?_⟩
    · intro name hmem
      rw [List.mem_cons, not_or] at hmem
      exact (hother name hmem.2).trans (hsame name hmem.1)
    · intro name hmem
      rcases List.mem_cons.mp hmem with rfl | hmem
      · rw [hother name hfirst]
        exact hstep
      · have hne : name ≠ first := fun heq => hfirst (heq ▸ hmem)
        rw [← hsame name hne]
        exact hhere name hmem

/-- Sections are what a document says. -/
structure Describes (json : Json) (sections : Sections) : Prop where
  explicit : sections.explicit = some (explicitPaths json [])
  reflects : ∀ name, Reflects (sectionType name) (sections.value name) (json.field name.text)
    (explicitPaths json []) name.text
  ages : ∀ name, AgeResolved parseDuration name (sections.value name)

theorem recorded_section {names : List Text} (hknown : knownKeys names json = true)
    (hnames : ∀ name ∈ names, '.' ∉ name) (name : SectionName) :
    Recorded (explicitPaths json []) (json.field name.text) name.text := by
  cases json with
  | object entries =>
    apply Recorded.entry [] (fun _ => Iff.rfl) (known_nodup hknown)
    · intro key hmem
      rcases List.mem_append.mp (known_mem hknown hmem) with hmem | hmem
      · exact hnames key hmem
      · obtain ⟨other, -, rfl⟩ := List.mem_map.mp hmem
        exact section_text_dotFree other
    · exact section_text_dotFree name
  | null => exact ⟨rfl, fun _ => Iff.rfl⟩
  | _ => cases hknown

theorem reflects_sameButDuration {value value' : (sectionType name).Val}
    (h : SameButDuration name value value') {explicit : List Text} {start : Text}
    (hreflects : Reflects (sectionType name) value json explicit start) :
    Reflects (sectionType name) value' json explicit start := by
  rcases h with rfl | ⟨cell, duration, rfl, rfl⟩
  · exact hreflects
  · obtain ⟨hsome, hfields⟩ := hreflects
    refine ⟨hsome, ?_⟩
    rintro _ ⟨⟩
    exact reflectsFields_setDuration _ _ (section_hides name) (hfields cell rfl)

/-- Accepted sections are what their document says. -/
theorem decodeSections_describes {names : List Text} (hknown : knownKeys names json = true)
    (hnames : ∀ name ∈ names, '.' ∉ name) {m m' : Memory} {sections : Sections}
    (h : decodeSections parseDuration json m = some (sections, m')) :
    Describes parseDuration json sections := by
  obtain ⟨⟨decoded, m₁⟩, hdecoded, hrest⟩ := Option.bind_eq_some_iff.mp h
  obtain ⟨validated, hvalidated, hpair⟩ := Option.map_eq_some_iff.mp hrest
  cases hpair
  obtain ⟨-, hvalues⟩ := decodeSectionsFrom_value SectionName.registry_nodup hdecoded
  have hzero : ∀ name ∈ SectionName.registry, ∀ cell, decoded.get name = some cell →
      (sectionFields name).getDuration goMaxAgeDuration cell.2 = 0 := by
    intro name hmem cell hcell
    obtain ⟨m₁, m₂, hvalue⟩ := hvalues name hmem
    rw [show decoded.value name = some cell from hcell] at hvalue
    unfold sectionType GoType.decode at hvalue
    split at hvalue
    · cases hvalue
    · obtain ⟨⟨struct_, m₃⟩, hstruct, hpair⟩ := Option.map_eq_some_iff.mp hvalue
      cases hpair
      rcases decodeObject_cases hstruct with ⟨entries, -, -, hfields⟩ | ⟨hnull, -, -⟩
      · exact decode_getDuration (section_hides name) hfields
      · next hset =>
        rw [hnull] at hset
        exact absurd rfl hset
  obtain ⟨hexplicit, -, hages⟩ :=
    validateSections_spec parseDuration SectionName.registry_nodup (by exact hzero) hvalidated
  refine ⟨hexplicit, ?_, fun name => (hages name (SectionName.mem_registry name)).2⟩
  intro name
  obtain ⟨m₁, m₂, hvalue⟩ := hvalues name (SectionName.mem_registry name)
  apply reflects_sameButDuration (hages name (SectionName.mem_registry name)).1
  exact decode_reflects _ (section_dotFree name) hvalue (recorded_section hknown hnames name)

end sections

end NriSupplyChain.PolicyFile
