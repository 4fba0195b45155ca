import NriSupplyChain.Policy.Schema

/-!
Merging of policies and image rules (`policy_merge.go`, `sections.go`). The source
works on values by reflection and in place; here each function returns the new
value and the memory, in which every cell that was set is noted. Sections do not
depend on each other, so the order in which the source ranges over them, which is
not fixed, is taken to be that of the registry. All structs of the sections have
exported fields only.
-/

namespace NriSupplyChain.PolicyFile

open Lib

/-- The paths of the fields that a document sets; missing for a policy that was not
decoded. -/
abbrev Explicit := Option (List Text)

section structs

/-- The kinds whose values may be nil. -/
def isReference : GoType → Bool
  | .pointer _ => true
  | .slice _ => true
  | .map _ => true
  | _ => false

/-- Whether a field is set. Only the other kinds need to be looked up. -/
def isFieldSet (type : GoType) (value : type.Val) (path : Text) (explicit : Explicit) : Bool :=
  if isReference type then !type.isZero value
  else
    match explicit with
    | some paths => paths.contains path
    | none => !type.isZero value

/-- `dstField.Set(deepCopy(srcField))` for a field of the struct in a cell. -/
def setCopy (type : GoType) (src : type.Val) (cell : Nat) (m : Memory) : type.Val × Memory :=
  let (copy, m) := type.deepCopy src m
  (copy, m.write cell)

/-- One round of the loop over the fields, with what is done to a field that is set. -/
def mergeField (type : GoType) (name : Text) (dst src : type.Val) (cell : Nat) (path : Text)
    (explicit : Explicit) (merge : Memory → type.Val × Memory) (m : Memory) : type.Val × Memory :=
  if name = hiddenName then
    if type.isZero src then (dst, m) else setCopy type src cell m
  else if isFieldSet type src path explicit then merge m
  else (dst, m)

mutual

/-- Overlay a field that is set: two structs are merged, anything else is replaced. -/
def mergeValue : (type : GoType) → (dst src : type.Val) → (cell : Nat) → (path : Text) →
    Explicit → Memory → type.Val × Memory
  | .pointer (.struct fields), (dst : Option (Nat × fields.Val)),
      (src : Option (Nat × fields.Val)), cell, path, explicit, m =>
    match dst, src with
    | some (addr, dstStruct), some (_, srcStruct) =>
      let (merged, m) := mergeStruct fields dstStruct srcStruct addr path explicit m
      ((some (addr, merged) : Option _), m)
    | _, _ => setCopy (.pointer (.struct fields)) src cell m
  | type, _, src, cell, _, _, m => setCopy type src cell m

/-- Overlay the fields of the struct in a cell. -/
def mergeStruct : (fields : Fields) → (dst src : fields.Val) → (cell : Nat) → (path : Text) →
    Explicit → Memory → fields.Val × Memory
  | .nil, dst, _, _, _, _, m => (dst, m)
  | .cons _ name type rest, (dst, dstRest), (src, srcRest), cell, path, explicit, m =>
    let (value, m) := mergeField type name dst src cell (path ++ '.' :: name) explicit
      (mergeValue type dst src cell (path ++ '.' :: name) explicit) m
    let (values, m) := mergeStruct rest dstRest srcRest cell path explicit m
    ((value, values), m)

end

end structs

section sections

structure Sections where
  value : (name : SectionName) → (sectionType name).Val
  explicit : Explicit

/-- A section, if it is set, with the cell it is in. -/
def Sections.get (sections : Sections) (name : SectionName) :
    Option (Nat × (sectionFields name).Val) :=
  sections.value name

def Sections.set (sections : Sections) (name : SectionName) (new : (sectionType name).Val) :
    Sections :=
  { sections with value := Function.update sections.value name new }

/-- Set a section to the struct in a cell. -/
def Sections.put (sections : Sections) (name : SectionName)
    (cell : Nat × (sectionFields name).Val) : Sections :=
  sections.set name (some cell : Option _)

def Sections.empty : Sections where
  value := fun name => (sectionType name).zero
  explicit := none

def cloneSection (src : Sections) (state : Sections × Memory) (name : SectionName) :
    Sections × Memory :=
  let (copy, m) := (sectionType name).deepCopy (src.value name) state.2
  (state.1.set name copy, m)

def cloneSections (src : Sections) (m : Memory) : Sections × Memory :=
  let (dst, m) := SectionName.registry.foldl (cloneSection src) (Sections.empty, m)
  ({ dst with explicit := src.explicit }, m)

/-- Overlay one section of the sections in a cell. -/
def mergeSection (src : Sections) (cell : Nat) (state : Sections × Memory) (name : SectionName) :
    Sections × Memory :=
  match src.get name with
  | none => state
  | some (_, srcStruct) =>
    match state.1.get name with
    | some (addr, dstStruct) =>
      if name = .cel then
        let (copy, m) := setCopy (sectionType name) (src.value name) cell state.2
        (state.1.set name copy, m)
      else
        let (merged, m) :=
          mergeStruct (sectionFields name) dstStruct srcStruct addr name.text src.explicit state.2
        (state.1.put name (addr, merged), m)
    | none =>
      let (copy, m) := setCopy (sectionType name) (src.value name) cell state.2
      (state.1.set name copy, m)

def goMaxAge : Text :=
  "MaxAge".toList

def goMaxAgeDuration : Text :=
  "MaxAgeDuration".toList

def maxAgePath (name : SectionName) : Text :=
  name.text ++ ".maxAge".toList

variable (parseDuration : Text → Option Int)

/-- Recompute the duration of one section. -/
def resolveMergedMaxAge (src : Sections) (state : Sections × Memory) (name : SectionName) :
    Sections × Memory :=
  match name.hasMaxAge, state.1.get name with
  | true, some (addr, section_) =>
    let raw := (sectionFields name).getText goMaxAge section_
    let setTo (duration : Int) :=
      (state.1.put name
        (addr, (sectionFields name).setDuration goMaxAgeDuration duration section_),
        state.2.write addr)
    if raw = [] then
      if (src.explicit.getD []).contains (maxAgePath name) then setTo 0 else state
    else
      match parseDuration raw with
      | some parsed => if parsed > 0 then setTo parsed else state
      | none => state
  | _, _ => state

def resolveMergedMaxAges (src : Sections) (state : Sections × Memory) : Sections × Memory :=
  SectionName.registry.foldl (resolveMergedMaxAge parseDuration src) state

def mergeSections (dst src : Sections) (cell : Nat) (m : Memory) : Sections × Memory :=
  resolveMergedMaxAges parseDuration src
    (SectionName.registry.foldl (mergeSection src cell) (dst, m))

end sections

section policies

variable (Program : Type)

structure ImageRule where
  sections : Sections
  images : texts.Val
  compiledCEL : Option Program

/-- A policy and the cell it is in. -/
structure Policy where
  addr : Nat
  sections : Sections
  version : Int
  mode : Text
  inherits : (GoType.pointer .bool).Val
  include_ : texts.Val
  exclude : texts.Val
  rules : Option (Nat × List (ImageRule Program))
  compiledCEL : Option Program

end policies

section merging

variable {Program : Type} (parseDuration : Text → Option Int)

def cloneRule (rule : ImageRule Program) (m : Memory) : ImageRule Program × Memory :=
  let (images, m) := texts.deepCopy rule.images m
  let (sections, m) := cloneSections rule.sections m
  ({ sections := sections, images := images, compiledCEL := rule.compiledCEL }, m)

def cloneRules (rules : List (ImageRule Program)) (m : Memory) :
    (Nat × List (ImageRule Program)) × Memory :=
  let (clones, m') := traverse cloneRule rules m.alloc
  ((m.next, clones), m')

def clonePolicy (pol : Policy Program) (m : Memory) : Policy Program × Memory :=
  let addr := m.next
  let (include_, m) := texts.deepCopy pol.include_ m.alloc
  let (exclude, m) := texts.deepCopy pol.exclude m
  let (sections, m) := cloneSections pol.sections m
  let (rules, m) :=
    match pol.rules with
    | none => (none, m)
    | some (_, rules) =>
      let (clones, m) := cloneRules rules m
      (some clones, m.write addr)
  ({ addr := addr
     sections := sections
     version := pol.version
     mode := pol.mode
     inherits := (GoType.pointer .bool).zero
     include_ := include_
     exclude := exclude
     rules := rules
     compiledCEL := pol.compiledCEL }, m)

/-- A policy that is being put together, and the memory. -/
abbrev Draft (Program : Type) := Policy Program × Memory

def overlayMode (mode : Text) (draft : Draft Program) : Draft Program :=
  if mode = [] then draft else ({ draft.1 with mode := mode }, draft.2.write draft.1.addr)

def overlayInclude (include_ : texts.Val) (draft : Draft Program) : Draft Program :=
  if texts.isZero include_ then draft
  else
    let (copy, m) := setCopy texts include_ draft.1.addr draft.2
    ({ draft.1 with include_ := copy }, m)

def overlayExclude (exclude : texts.Val) (draft : Draft Program) : Draft Program :=
  if texts.isZero exclude then draft
  else
    let (copy, m) := setCopy texts exclude draft.1.addr draft.2
    ({ draft.1 with exclude := copy }, m)

def overlaySections (src : Sections) (draft : Draft Program) : Draft Program :=
  let (sections, m) := mergeSections parseDuration draft.1.sections src draft.1.addr draft.2
  ({ draft.1 with sections := sections }, m)

/-- The programs follow the CEL section. -/
def overlayCEL (src : Sections) (compiledCEL : Option Program) (draft : Draft Program) :
    Draft Program :=
  if (src.get .cel).isSome then
    ({ draft.1 with compiledCEL := compiledCEL }, draft.2.write draft.1.addr)
  else draft

def overlayRules (rules : Option (Nat × List (ImageRule Program))) (draft : Draft Program) :
    Draft Program :=
  match rules with
  | none => draft
  | some (_, rules) =>
    let (clones, m) := cloneRules rules draft.2
    ({ draft.1 with rules := some clones }, m.write draft.1.addr)

def clearRules (draft : Draft Program) : Draft Program :=
  ({ draft.1 with rules := none }, draft.2.write draft.1.addr)

def clearExplicit (draft : Draft Program) : Draft Program :=
  ({ draft.1 with sections := { draft.1.sections with explicit := none } },
    draft.2.write draft.1.addr)

def mergeWithDefault (namespace_ defaultPol : Policy Program) (m : Memory) : Draft Program :=
  let merged := clonePolicy defaultPol m
  let merged := overlayMode namespace_.mode merged
  let merged := overlayInclude namespace_.include_ merged
  let merged := overlayExclude namespace_.exclude merged
  let merged := overlaySections parseDuration namespace_.sections merged
  let merged := overlayCEL namespace_.sections namespace_.compiledCEL merged
  let merged := overlayRules namespace_.rules merged
  clearExplicit merged

def applyRule (base : Policy Program) (rule : ImageRule Program) (m : Memory) : Draft Program :=
  let resolved := clonePolicy base m
  let resolved := clearRules resolved
  let resolved := overlaySections parseDuration rule.sections resolved
  let resolved := overlayCEL rule.sections rule.compiledCEL resolved
  clearExplicit resolved

end merging

end NriSupplyChain.PolicyFile
