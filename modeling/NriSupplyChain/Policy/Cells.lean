import NriSupplyChain.Policy.SectionMerge

/-!
The cells that merging writes. A merged policy is made of cells allocated for it,
and only these are written, so the policies and rules it is made from stay as
they are.
-/

namespace NriSupplyChain.PolicyFile

open Lib

section confined

/-- A step that only writes cells from an address on. -/
structure Confined (low : Nat) (m m' : Memory) : Prop where
  next_le : m.next ≤ m'.next
  written : ∃ new, m'.written = new ++ m.written ∧ ∀ cell ∈ new, low ≤ cell

theorem Confined.refl (low : Nat) (m : Memory) : Confined low m m :=
  ⟨le_refl _, [], rfl, fun cell hmem => by cases hmem⟩

variable {low : Nat} {m m' : Memory}

theorem Confined.trans {m'' : Memory} (h : Confined low m m') (h' : Confined low m' m'') :
    Confined low m m'' := by
  obtain ⟨new, hnew, hlow⟩ := h.written
  obtain ⟨new', hnew', hlow'⟩ := h'.written
  refine ⟨le_trans h.next_le h'.next_le, new' ++ new, ?_, ?_⟩
  · rw [hnew', hnew, List.append_assoc]
  · intro cell hmem
    rcases List.mem_append.mp hmem with hmem | hmem
    · exact hlow' cell hmem
    · exact hlow cell hmem

theorem Confined.write {cell : Nat} (h : low ≤ cell) (m : Memory) : Confined low m (m.write cell) :=
  ⟨le_refl _, [cell], rfl, fun other hmem => by rw [List.mem_singleton.mp hmem]; exact h⟩

theorem Confined.of_allocates {addrs : List Nat} (h : Allocates m m' addrs) : Confined low m m' :=
  ⟨h.next_le, [], h.written_eq, fun cell hmem => by cases hmem⟩

/-- A step that only writes cells from an address on and gives a value made of such cells. -/
structure Owns (low : Nat) (m m' : Memory) (addrs : List Nat) : Prop where
  confined : Confined low m m'
  within : Within low m'.next addrs

theorem Owns.of_allocates {addrs : List Nat} (h : Allocates m m' addrs) (hlow : low ≤ m.next) :
    Owns low m m' addrs :=
  ⟨.of_allocates h, h.within.mono hlow (le_refl _)⟩

theorem Owns.append {m'' : Memory} {as bs : List Nat} (h : Owns low m m' as)
    (h' : Owns low m' m'' bs) : Owns low m m'' (as ++ bs) :=
  ⟨h.confined.trans h'.confined,
    (h.within.mono (le_refl _) h'.confined.next_le).append h'.within⟩

theorem setCopy_owns {cell : Nat} (type : GoType) (src : type.Val) (hcell : low ≤ cell)
    (hlow : low ≤ m.next) :
    Owns low m (setCopy type src cell m).2 (type.addrs (setCopy type src cell m).1) := by
  have hcopy := Owns.of_allocates (type.deepCopy_allocates src m) hlow
  exact ⟨hcopy.confined.trans (.write hcell _), hcopy.within⟩

/-- What changes the struct in a cell keeps to the cell and the cells of the struct. -/
theorem mergeCell_owns {addr : Nat} {as bs : List Nat} (h : Within low m.next (addr :: as))
    (hmerge : low ≤ addr → Within low m.next as → Owns low m m' bs) :
    Owns low m m' (addr :: bs) := by
  obtain ⟨haddr, hnext⟩ := h addr List.mem_cons_self
  have hmerged := hmerge haddr fun addr hmem => h addr (List.mem_cons_of_mem _ hmem)
  refine ⟨hmerged.confined, ?_⟩
  intro other hmem
  rcases List.mem_cons.mp hmem with rfl | hmem
  · exact ⟨haddr, lt_of_lt_of_le hnext hmerged.confined.next_le⟩
  · exact hmerged.within other hmem

mutual

theorem mergeValue_owns {low : Nat} (type : GoType) {dst : type.Val} (src : type.Val)
    {cell : Nat} (hcell : low ≤ cell) (path : Text) (explicit : Explicit) {m : Memory}
    (hlow : low ≤ m.next) (hdst : Within low m.next (type.addrs dst)) :
    Owns low m (mergeValue type dst src cell path explicit m).2
      (type.addrs (mergeValue type dst src cell path explicit m).1) := by
  cases type with
  | pointer target =>
    cases target with
    | struct fields =>
      cases dst with
      | none => exact setCopy_owns _ src hcell hlow
      | some dstCell =>
        cases src with
        | none => exact setCopy_owns (.pointer (.struct fields)) none hcell hlow
        | some srcCell =>
          exact mergeCell_owns hdst fun haddr hfields =>
            mergeStruct_owns fields srcCell.2 haddr path explicit hlow hfields
    | _ => exact setCopy_owns _ src hcell hlow
  | _ => exact setCopy_owns _ src hcell hlow

theorem mergeStruct_owns {low : Nat} (fields : Fields) {dst : fields.Val} (src : fields.Val)
    {cell : Nat} (hcell : low ≤ cell) (path : Text) (explicit : Explicit) {m : Memory}
    (hlow : low ≤ m.next) (hdst : Within low m.next (fields.addrs dst)) :
    Owns low m (mergeStruct fields dst src cell path explicit m).2
      (fields.addrs (mergeStruct fields dst src cell path explicit m).1) := by
  cases fields with
  | nil => exact ⟨.refl _ _, hdst⟩
  | cons goName name type rest =>
    obtain ⟨dst, dstRest⟩ := dst
    obtain ⟨src, srcRest⟩ := src
    have hhere : Within low m.next (type.addrs dst) :=
      fun addr hmem => hdst addr (List.mem_append_left _ hmem)
    have hrest : Within low m.next (rest.addrs dstRest) :=
      fun addr hmem => hdst addr (List.mem_append_right _ hmem)
    have hfield : Owns low m
        (mergeField type name dst src cell (path ++ '.' :: name) explicit
          (mergeValue type dst src cell (path ++ '.' :: name) explicit) m).2
        (type.addrs (mergeField type name dst src cell (path ++ '.' :: name) explicit
          (mergeValue type dst src cell (path ++ '.' :: name) explicit) m).1) := by
      unfold mergeField
      split
      · split
        · exact ⟨.refl _ _, hhere⟩
        · exact setCopy_owns type src hcell hlow
      · split
        · exact mergeValue_owns type src hcell _ explicit hlow hhere
        · exact ⟨.refl _ _, hhere⟩
    have hnext := hfield.confined.next_le
    exact hfield.append (mergeStruct_owns rest srcRest hcell path explicit
      (le_trans hlow hnext) (hrest.mono (le_refl _) hnext))

end

theorem addrs_setLength (type : GoType) (new : Int) (value : type.Val) :
    type.addrs (type.setLength new value) = type.addrs value := by
  cases type <;> rfl

theorem addrs_setDuration (goName : Text) (new : Int) : ∀ {fields : Fields} (value : fields.Val),
    fields.addrs (fields.setDuration goName new value) = fields.addrs value
  | .nil, _ => rfl
  | .cons go name type rest, (value, more) => by
    by_cases hgo : go = goName
    · rw [setDuration_here hgo]
      simp only [Fields.addrs, addrs_setLength]
    · have ih := addrs_setDuration goName new more
      rw [setDuration_there hgo]
      simp only [Fields.addrs, ih]

end confined

section sections

/-- The cells of a section. -/
def Sections.cells (sections : Sections) (name : SectionName) : List Nat :=
  (sectionType name).addrs (sections.value name)

/-- All sections are made of cells in a range. -/
def SectionsWithin (low high : Nat) (sections : Sections) : Prop :=
  ∀ name, Within low high (sections.cells name)

variable {high low : Nat} {sections : Sections}

theorem SectionsWithin.mono {low' high' : Nat} (h : SectionsWithin low high sections)
    (hlow : low' ≤ low) (hhigh : high ≤ high') : SectionsWithin low' high' sections :=
  fun name => (h name).mono hlow hhigh

variable {name : SectionName}

theorem SectionsWithin.set (h : SectionsWithin low high sections) {new : (sectionType name).Val}
    (hnew : Within low high ((sectionType name).addrs new)) :
    SectionsWithin low high (sections.set name new) := by
  intro other
  unfold Sections.cells
  by_cases hname : other = name
  · subst hname
    rw [value_set_self]
    exact hnew
  · rw [value_set_other _ hname]
    exact h other

theorem sectionsWithin_empty (low high : Nat) : SectionsWithin low high Sections.empty :=
  fun _ => Within.nil low high

/-- A step on sections that only writes cells from an address on. -/
structure OwnsSections (low : Nat) (m : Memory) (state : Sections × Memory) : Prop where
  confined : Confined low m state.2
  within : SectionsWithin low state.2.next state.1

variable {m : Memory}

theorem OwnsSections.trans {m' : Memory} {state : Sections × Memory}
    (h' : OwnsSections low m' state) (h : Confined low m m') : OwnsSections low m state :=
  ⟨h.trans h'.confined, h'.within⟩

/-- One section is set and the others are kept. -/
theorem OwnsSections.set {m' : Memory} (h : SectionsWithin low m.next sections)
    {new : (sectionType name).Val} (hnew : Owns low m m' ((sectionType name).addrs new)) :
    OwnsSections low m (sections.set name new, m') :=
  ⟨hnew.confined, (h.mono (le_refl _) hnew.confined.next_le).set hnew.within⟩

/-- A loop over sections keeps to its cells if each round does. -/
theorem foldl_owns {step : Sections × Memory → SectionName → Sections × Memory}
    (hstep : ∀ state name, low ≤ state.2.next → SectionsWithin low state.2.next state.1 →
      OwnsSections low state.2 (step state name)) :
    ∀ (names : List SectionName) (state : Sections × Memory), low ≤ state.2.next →
      SectionsWithin low state.2.next state.1 →
      OwnsSections low state.2 (names.foldl step state)
  | [], _, _, hwithin => ⟨.refl _ _, hwithin⟩
  | name :: names, state, hlow, hwithin => by
    have hfirst := hstep state name hlow hwithin
    have hrest := foldl_owns hstep names _ (le_trans hlow hfirst.confined.next_le) hfirst.within
    exact hrest.trans hfirst.confined

theorem cloneSections_owns (src : Sections) (hlow : low ≤ m.next) :
    OwnsSections low m (cloneSections src m) := by
  have hstep : ∀ state name, low ≤ state.2.next → SectionsWithin low state.2.next state.1 →
      OwnsSections low state.2 (cloneSection src state name) := by
    intro state name hlow hwithin
    exact .set hwithin (.of_allocates ((sectionType name).deepCopy_allocates _ _) hlow)
  have hfold := foldl_owns hstep SectionName.registry (Sections.empty, m) hlow
    (sectionsWithin_empty _ _)
  exact ⟨hfold.confined, hfold.within⟩

theorem mergeSection_owns (src : Sections) {cell : Nat} (hcell : low ≤ cell)
    (state : Sections × Memory) (name : SectionName) (hlow : low ≤ state.2.next)
    (hwithin : SectionsWithin low state.2.next state.1) :
    OwnsSections low state.2 (mergeSection src cell state name) := by
  unfold mergeSection
  split
  · exact ⟨.refl _ _, hwithin⟩
  · split
    · next srcCell addr dstStruct hget =>
      split
      · exact .set hwithin (setCopy_owns (sectionType name) (src.value name) hcell hlow)
      · have hcells := hwithin name
        unfold Sections.cells at hcells
        rw [show state.1.value name = some (addr, dstStruct) from hget] at hcells
        exact .set hwithin (mergeCell_owns hcells fun haddr hfields =>
          mergeStruct_owns (sectionFields name) _ haddr name.text src.explicit hlow hfields)
    · exact .set hwithin (setCopy_owns (sectionType name) (src.value name) hcell hlow)

theorem resolveMergedMaxAge_owns (parseDuration : Text → Option Int) (src : Sections)
    (state : Sections × Memory) (name : SectionName)
    (hwithin : SectionsWithin low state.2.next state.1) :
    OwnsSections low state.2 (resolveMergedMaxAge parseDuration src state name) := by
  unfold resolveMergedMaxAge
  split
  · next addr section_ hage hget =>
    have hcells := hwithin name
    unfold Sections.cells at hcells
    rw [show state.1.value name = some (addr, section_) from hget] at hcells
    have haddr : low ≤ addr := (hcells addr List.mem_cons_self).1
    have hput : ∀ duration : Int, OwnsSections low state.2
        (state.1.put name
            (addr, (sectionFields name).setDuration goMaxAgeDuration duration section_),
          state.2.write addr) := by
      intro duration
      apply OwnsSections.set hwithin
      refine ⟨.write haddr _, ?_⟩
      change Within low state.2.next (addr :: (sectionFields name).addrs _)
      rw [addrs_setDuration]
      exact hcells
    dsimp only
    split
    · split
      · exact hput 0
      · exact ⟨.refl _ _, hwithin⟩
    · split
      · split
        · exact hput _
        · exact ⟨.refl _ _, hwithin⟩
      · exact ⟨.refl _ _, hwithin⟩
  · exact ⟨.refl _ _, hwithin⟩

/-- Merging sections only writes cells of the sections it merges into. -/
theorem mergeSections_owns (parseDuration : Text → Option Int) {dst : Sections} (src : Sections)
    {cell : Nat} (hcell : low ≤ cell) (hlow : low ≤ m.next) (hdst : SectionsWithin low m.next dst) :
    OwnsSections low m (mergeSections parseDuration dst src cell m) := by
  have hmerged := foldl_owns (mergeSection_owns src hcell) SectionName.registry (dst, m) hlow hdst
  have hresolved := foldl_owns
    (fun state name _ => resolveMergedMaxAge_owns parseDuration src state name)
    SectionName.registry _ (le_trans hlow hmerged.confined.next_le) hmerged.within
  exact hresolved.trans hmerged.confined

variable {parseDuration : Text → Option Int}

theorem resolveMaxAge_within {sections' : Sections} (hwithin : SectionsWithin low high sections)
    (h : resolveMaxAge parseDuration name sections = some sections') :
    SectionsWithin low high sections' := by
  unfold resolveMaxAge at h
  split at h
  · next addr section_ hage hget =>
    dsimp only at h
    split at h
    · cases h
      exact hwithin
    · split at h
      · cases h
      · split at h
        · cases h
        · cases h
          apply hwithin.set
          change Within low high (addr :: (sectionFields name).addrs _)
          rw [addrs_setDuration]
          have hcells := hwithin name
          unfold Sections.cells at hcells
          rw [show sections.value name = some (addr, section_) from hget] at hcells
          exact hcells
  · cases h
    exact hwithin

theorem validateSections_within :
    ∀ {names : List SectionName} {sections sections' : Sections},
      SectionsWithin low high sections →
      validateSections parseDuration names sections = some sections' →
      SectionsWithin low high sections'
  | [], _, _, hwithin, h => by
    cases h
    exact hwithin
  | _ :: _, _, _, hwithin, h => by
    obtain ⟨resolved, hresolved, hrest⟩ := Option.bind_eq_some_iff.mp h
    exact validateSections_within (resolveMaxAge_within hwithin hresolved) hrest

theorem decodeSectionsFrom_owns {json : Json} :
    ∀ {names : List SectionName} {sections : Sections} {m : Memory} {state : Sections × Memory},
      low ≤ m.next → SectionsWithin low m.next sections →
      decodeSectionsFrom json names sections m = some state → OwnsSections low m state
  | [], _, _, _, _, hwithin, h => by
    cases h
    exact ⟨.refl _ _, hwithin⟩
  | name :: _, sections, m, state, hlow, hwithin, h => by
    obtain ⟨⟨decoded, m₁⟩, hdecoded, hrest⟩ := Option.bind_eq_some_iff.mp h
    obtain ⟨⟨value, m₂⟩, hvalue, hpair⟩ := Option.map_eq_some_iff.mp hdecoded
    cases hpair
    have hfirst : OwnsSections low m (sections.set name value, m₁) :=
      OwnsSections.set hwithin
        (.of_allocates ((sectionType name).decode_allocates hvalue) hlow)
    have hnext := hfirst.confined.next_le
    exact (decodeSectionsFrom_owns (le_trans hlow hnext) hfirst.within hrest).trans
      hfirst.confined

theorem decodeSections_owns {json : Json} {state : Sections × Memory} (hlow : low ≤ m.next)
    (h : decodeSections parseDuration json m = some state) : OwnsSections low m state := by
  obtain ⟨⟨decoded, m₁⟩, hdecoded, hrest⟩ := Option.bind_eq_some_iff.mp h
  obtain ⟨validated, hvalidated, hpair⟩ := Option.map_eq_some_iff.mp hrest
  cases hpair
  have howns := decodeSectionsFrom_owns hlow (sectionsWithin_empty _ _) hdecoded
  exact ⟨howns.confined, validateSections_within (by exact howns.within) hvalidated⟩

end sections

section policies

variable {Program : Type}

def Sections.allCells (sections : Sections) : List Nat :=
  SectionName.registry.flatMap sections.cells

variable {low : Nat} {m : Memory}

theorem OwnsSections.owns {state : Sections × Memory} (h : OwnsSections low m state) :
    Owns low m state.2 state.1.allCells := by
  refine ⟨h.confined, ?_⟩
  intro addr hmem
  obtain ⟨name, -, hmem⟩ := List.mem_flatMap.mp hmem
  exact h.within name addr hmem

theorem sectionsWithin_of_allCells {high : Nat} {sections : Sections}
    (h : Within low high sections.allCells) : SectionsWithin low high sections := by
  intro name addr hmem
  exact h addr (List.mem_flatMap.mpr ⟨name, SectionName.mem_registry name, hmem⟩)

def ImageRule.cells (rule : ImageRule Program) : List Nat :=
  texts.addrs rule.images ++ rule.sections.allCells

def ruleCells (rules : Option (Nat × List (ImageRule Program))) : List Nat :=
  rules.elim [] fun cell => cell.1 :: cell.2.flatMap ImageRule.cells

/-- The cells that a policy reaches. -/
def Policy.cells (pol : Policy Program) : List Nat :=
  pol.addr :: ((GoType.pointer .bool).addrs pol.inherits ++ texts.addrs pol.include_ ++
    texts.addrs pol.exclude ++ pol.sections.allCells ++ ruleCells pol.rules)

theorem Owns.cell {m' : Memory} {as : List Nat} (hlow : low ≤ m.next) (h : Owns low m.alloc m' as) :
    Owns low m m' (m.next :: as) := by
  obtain ⟨hconfined, hwithin⟩ := h
  have hnext : m.next + 1 ≤ m'.next := hconfined.next_le
  refine ⟨⟨by omega, hconfined.written⟩, ?_⟩
  intro addr hmem
  rcases List.mem_cons.mp hmem with rfl | hmem
  · omega
  · exact hwithin addr hmem

theorem traverse_owns {α β : Type} {step : α → Memory → β × Memory} {addrs : β → List Nat}
    (h : ∀ item m, low ≤ m.next →
      Owns low m (step item m).2 (addrs (step item m).1)) (items : List α) (hlow : low ≤ m.next) :
    Owns low m (traverse step items m).2 ((traverse step items m).1.flatMap addrs) := by
  induction items generalizing m with
  | nil => exact ⟨.refl _ _, Within.nil _ _⟩
  | cons item rest ih =>
    have hfirst := h item m hlow
    exact hfirst.append (ih (le_trans hlow hfirst.confined.next_le))

theorem cloneRule_owns (rule : ImageRule Program) (m : Memory) (hlow : low ≤ m.next) :
    Owns low m (cloneRule rule m).2 (cloneRule rule m).1.cells := by
  have himages := Owns.of_allocates (texts.deepCopy_allocates rule.images m) hlow
  exact himages.append
    (cloneSections_owns rule.sections (le_trans hlow himages.confined.next_le)).owns

theorem cloneRules_owns (rules : List (ImageRule Program)) (hlow : low ≤ m.next) :
    Owns low m (cloneRules rules m).2 (ruleCells (some (cloneRules rules m).1)) :=
  .cell hlow (traverse_owns cloneRule_owns rules (Nat.le_succ_of_le hlow))

theorem clonePolicy_owns (pol : Policy Program) (hlow : low ≤ m.next) :
    Owns low m (clonePolicy pol m).2 (clonePolicy pol m).1.cells := by
  have hinclude : Owns low m.alloc (texts.deepCopy pol.include_ m.alloc).2
      (texts.addrs (texts.deepCopy pol.include_ m.alloc).1) :=
    .of_allocates (texts.deepCopy_allocates pol.include_ m.alloc) (Nat.le_succ_of_le hlow)
  have hexclude := hinclude.append (.of_allocates
    (texts.deepCopy_allocates pol.exclude (texts.deepCopy pol.include_ m.alloc).2)
    (le_trans (Nat.le_succ_of_le hlow) hinclude.confined.next_le))
  have hnext := le_trans (Nat.le_succ_of_le hlow) hexclude.confined.next_le
  have hsections := hexclude.append (cloneSections_owns pol.sections hnext).owns
  have hnext' := le_trans (Nat.le_succ_of_le hlow) hsections.confined.next_le
  apply Owns.cell hlow
  cases hrules : pol.rules with
  | none =>
    unfold clonePolicy
    simp only [hrules]
    exact hsections.append ⟨.refl _ _, Within.nil _ _⟩
  | some cell =>
    unfold clonePolicy
    simp only [hrules]
    have hclones := cloneRules_owns cell.2 hnext'
    exact hsections.append ⟨hclones.confined.trans (.write hlow _), hclones.within⟩

/-- A draft is made of cells from an address on, and only such cells have been written. -/
abbrev OwnsDraft (low : Nat) (m : Memory) (draft : Draft Program) : Prop :=
  Owns low m draft.2 draft.1.cells

theorem mem_cells {pol : Policy Program} {addr : Nat} :
    addr ∈ pol.cells ↔ addr = pol.addr ∨ addr ∈ (GoType.pointer .bool).addrs pol.inherits ∨
      addr ∈ texts.addrs pol.include_ ∨ addr ∈ texts.addrs pol.exclude ∨
      addr ∈ pol.sections.allCells ∨ addr ∈ ruleCells pol.rules := by
  simp only [Policy.cells, List.mem_cons, List.mem_append, or_assoc]

section steps

variable {low : Nat} {m : Memory} {draft : Draft Program} (h : OwnsDraft low m draft)

include h

theorem OwnsDraft.addr : low ≤ draft.1.addr ∧ draft.1.addr < draft.2.next :=
  h.within _ List.mem_cons_self

theorem OwnsDraft.low_le : low ≤ draft.2.next :=
  le_trans h.addr.1 (le_of_lt h.addr.2)

/-- A step that adds some cells of its own. -/
theorem OwnsDraft.step {draft' : Draft Program} {addrs : List Nat}
    (hnew : Owns low draft.2 draft'.2 addrs)
    (hcells : ∀ addr ∈ draft'.1.cells, addr ∈ draft.1.cells ∨ addr ∈ addrs) :
    OwnsDraft low m draft' := by
  refine ⟨h.confined.trans hnew.confined, ?_⟩
  intro addr hmem
  rcases hcells addr hmem with hmem | hmem
  · exact h.within.mono (le_refl _) hnew.confined.next_le addr hmem
  · exact hnew.within addr hmem

/-- A step that writes the policy and adds no cells. -/
theorem OwnsDraft.write {pol : Policy Program} (hcells : ∀ addr ∈ pol.cells, addr ∈ draft.1.cells) :
    OwnsDraft low m (pol, draft.2.write draft.1.addr) :=
  h.step ⟨.write h.addr.1 _, Within.nil _ _⟩ fun addr hmem => .inl (hcells addr hmem)

theorem overlayMode_owns (mode : Text) : OwnsDraft low m (overlayMode mode draft) := by
  unfold overlayMode
  split
  · exact h
  · exact h.write fun _ hmem => hmem

theorem overlayInclude_owns (include_ : texts.Val) :
    OwnsDraft low m (overlayInclude include_ draft) := by
  unfold overlayInclude
  split
  · exact h
  · apply h.step (setCopy_owns texts include_ h.addr.1 h.low_le)
    intro addr hmem
    rw [mem_cells] at hmem ⊢
    tauto

theorem overlayExclude_owns (exclude : texts.Val) :
    OwnsDraft low m (overlayExclude exclude draft) := by
  unfold overlayExclude
  split
  · exact h
  · apply h.step (setCopy_owns texts exclude h.addr.1 h.low_le)
    intro addr hmem
    rw [mem_cells] at hmem ⊢
    tauto

theorem overlaySections_owns (parseDuration : Text → Option Int) (src : Sections) :
    OwnsDraft low m (overlaySections parseDuration src draft) := by
  have hsections : SectionsWithin low draft.2.next draft.1.sections := by
    apply sectionsWithin_of_allCells
    intro addr hmem
    exact h.within addr (mem_cells.mpr (by tauto))
  apply h.step (mergeSections_owns parseDuration src h.addr.1 h.low_le hsections).owns
  intro addr hmem
  rw [mem_cells] at hmem ⊢
  tauto

theorem overlayCEL_owns (src : Sections) (compiledCEL : Option Program) :
    OwnsDraft low m (overlayCEL src compiledCEL draft) := by
  unfold overlayCEL
  split
  · exact h.write fun _ hmem => hmem
  · exact h

theorem overlayRules_owns (rules : Option (Nat × List (ImageRule Program))) :
    OwnsDraft low m (overlayRules rules draft) := by
  cases rules with
  | none => exact h
  | some cell =>
    have hclones := cloneRules_owns cell.2 h.low_le
    have hwrite : Owns low draft.2 ((cloneRules cell.2 draft.2).2.write draft.1.addr)
        (ruleCells (some (cloneRules cell.2 draft.2).1)) :=
      ⟨hclones.confined.trans (.write h.addr.1 _), hclones.within⟩
    apply h.step hwrite
    intro addr hmem
    rw [mem_cells] at hmem ⊢
    tauto

theorem clearRules_owns : OwnsDraft low m (clearRules draft) := by
  apply h.write
  intro addr hmem
  rw [mem_cells] at hmem ⊢
  have hnone : addr ∉ ruleCells (none : Option (Nat × List (ImageRule Program))) :=
    List.not_mem_nil
  tauto

theorem clearExplicit_owns : OwnsDraft low m (clearExplicit draft) :=
  h.write fun _ hmem => hmem

end steps

/-- Merging only writes cells allocated for the merged policy. -/
theorem mergeWithDefault_owns (parseDuration : Text → Option Int)
    (namespace_ defaultPol : Policy Program) (hlow : low ≤ m.next) :
    OwnsDraft low m (mergeWithDefault parseDuration namespace_ defaultPol m) := by
  unfold mergeWithDefault
  apply clearExplicit_owns
  apply overlayRules_owns
  apply overlayCEL_owns
  apply overlaySections_owns
  apply overlayExclude_owns
  apply overlayInclude_owns
  apply overlayMode_owns
  exact clonePolicy_owns defaultPol hlow

/-- Applying a rule only writes cells allocated for the new policy. -/
theorem applyRule_owns (parseDuration : Text → Option Int) (base : Policy Program)
    (rule : ImageRule Program) (hlow : low ≤ m.next) :
    OwnsDraft low m (applyRule parseDuration base rule m) := by
  unfold applyRule
  apply clearExplicit_owns
  apply overlayCEL_owns
  apply overlaySections_owns
  apply clearRules_owns
  exact clonePolicy_owns base hlow

section decoded

variable {parseDuration : Text → Option Int} {compile : Json → Option Program}

variable {low : Nat} {m m' : Memory}

theorem decodeItems_owns {α : Type} {step : Json → Memory → Option (α × Memory)}
    {addrs : α → List Nat} (h : ∀ {json m value m'}, low ≤ m.next → step json m = some (value, m') →
      Owns low m m' (addrs value)) {items : List Json} {values : List α} (hlow : low ≤ m.next)
    (hdecode : decodeItems step items m = some (values, m')) :
    Owns low m m' (values.flatMap addrs) := by
  induction items generalizing m values with
  | nil =>
    cases hdecode
    exact ⟨.refl _ _, Within.nil _ _⟩
  | cons item rest ih =>
    obtain ⟨⟨value, m₁⟩, hvalue, hrest⟩ := Option.bind_eq_some_iff.mp hdecode
    obtain ⟨⟨more, m₂⟩, hmore, hpair⟩ := Option.map_eq_some_iff.mp hrest
    cases hpair
    have hfirst := h hlow hvalue
    exact hfirst.append (ih (le_trans hlow hfirst.confined.next_le) hmore)

variable {json : Json}

theorem decodeRule_owns {rule : ImageRule Program} (hlow : low ≤ m.next)
    (h : decodeRule parseDuration compile json m = some (rule, m')) : Owns low m m' rule.cells := by
  unfold decodeRule at h
  split at h
  · obtain ⟨⟨images, m₁⟩, himages, hrest⟩ := Option.bind_eq_some_iff.mp h
    obtain ⟨⟨sections, m₂⟩, hsections, hrest⟩ := Option.bind_eq_some_iff.mp hrest
    obtain ⟨compiledCEL, -, hpair⟩ := Option.map_eq_some_iff.mp hrest
    cases hpair
    have hfirst := Owns.of_allocates (texts.decode_allocates himages) hlow
    exact hfirst.append
      (decodeSections_owns (le_trans hlow hfirst.confined.next_le) hsections).owns
  · cases h

theorem decodeRules_owns {rules : Option (Nat × List (ImageRule Program))} (hlow : low ≤ m.next)
    (h : decodeRules parseDuration compile json m = some (rules, m')) :
    Owns low m m' (ruleCells rules) := by
  unfold decodeRules at h
  split at h
  · cases h
    exact ⟨.refl _ _, Within.nil _ _⟩
  · obtain ⟨⟨decoded, m₁⟩, hdecoded, hpair⟩ := Option.map_eq_some_iff.mp h
    cases hpair
    exact .cell hlow (decodeItems_owns decodeRule_owns (Nat.le_succ_of_le hlow) hdecoded)
  · cases h

theorem decodePolicy_owns {pol : Policy Program} (hlow : low ≤ m.next)
    (h : decodePolicy parseDuration compile json m = some (pol, m')) : Owns low m m' pol.cells := by
  unfold decodePolicy at h
  split at h
  · obtain ⟨⟨version, m₁⟩, hversion, hrest⟩ := Option.bind_eq_some_iff.mp h
    obtain ⟨⟨mode, m₂⟩, hmode, hrest⟩ := Option.bind_eq_some_iff.mp hrest
    obtain ⟨⟨inherits, m₃⟩, hinherits, hrest⟩ := Option.bind_eq_some_iff.mp hrest
    obtain ⟨⟨include_, m₄⟩, hinclude, hrest⟩ := Option.bind_eq_some_iff.mp hrest
    obtain ⟨⟨exclude, m₅⟩, hexclude, hrest⟩ := Option.bind_eq_some_iff.mp hrest
    obtain ⟨⟨sections, m₆⟩, hsections, hrest⟩ := Option.bind_eq_some_iff.mp hrest
    obtain ⟨⟨rules, m₇⟩, hrules, hrest⟩ := Option.bind_eq_some_iff.mp hrest
    obtain ⟨compiledCEL, -, hpair⟩ := Option.map_eq_some_iff.mp hrest
    cases hpair
    have hlow' : low ≤ m.alloc.next := Nat.le_succ_of_le hlow
    have hscalars : Owns low m.alloc m₂ [] :=
      (Owns.of_allocates (GoType.int.decode_allocates hversion) hlow').append
        (.of_allocates (GoType.string.decode_allocates hmode)
          (le_trans hlow' (GoType.int.decode_allocates hversion).next_le))
    have hinherits := hscalars.append (.of_allocates
      ((GoType.pointer .bool).decode_allocates hinherits)
      (le_trans hlow' hscalars.confined.next_le))
    have hinclude := hinherits.append (.of_allocates (texts.decode_allocates hinclude)
      (le_trans hlow' hinherits.confined.next_le))
    have hexclude := hinclude.append (.of_allocates (texts.decode_allocates hexclude)
      (le_trans hlow' hinclude.confined.next_le))
    have hsections := hexclude.append
      (decodeSections_owns (le_trans hlow' hexclude.confined.next_le) hsections).owns
    have hrules := hsections.append
      (decodeRules_owns (le_trans hlow' hsections.confined.next_le) hrules)
    exact .cell hlow hrules
  · cases h

end decoded

end policies

end NriSupplyChain.PolicyFile
