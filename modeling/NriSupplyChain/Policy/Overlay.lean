import NriSupplyChain.Policy.Decode

/-!
What merging means: a policy is seen as a table from field paths to values, at
every nesting level, and merging is the overlay of tables. A field that a
document sets is looked up there, and in the policy below it otherwise. A struct
behind a pointer is seen as whether it is there, and its fields as those of a
struct of zeros if it is not.
-/

namespace NriSupplyChain.PolicyFile

open Lib

section views

mutual

/-- What stands at a path below a value. -/
def viewValue : (type : GoType) → type.Val → List Text → Json
  | .pointer (.struct fields), (value : Option (Nat × fields.Val)), path =>
    match path with
    | [] => .bool value.isSome
    | name :: path => viewFields fields (value.elim fields.zero (·.2)) name path
  | type, value, path =>
    match path with
    | [] => type.toJson value
    | _ :: _ => .null

/-- What stands at a path below a field, which JSON must see. -/
def viewFields : (fields : Fields) → fields.Val → Text → List Text → Json
  | .nil, _, _, _ => .null
  | .cons _ jsonName type rest, (value, more), name, path =>
    if jsonName = name ∧ jsonName ≠ hiddenName then viewValue type value path
    else viewFields rest more name path

end

/-- The types that are seen as one value. -/
def isLeaf : GoType → Bool
  | .pointer (.struct _) => false
  | _ => true

theorem viewValue_leaf {type : GoType} (h : isLeaf type = true) (value : type.Val)
    (path : List Text) :
    viewValue type value path = if path = [] then type.toJson value else .null := by
  cases path with
  | nil =>
    cases type with
    | pointer target =>
      cases target with
      | struct fields => cases h
      | _ => rfl
    | _ => rfl
  | cons name path =>
    cases type with
    | pointer target =>
      cases target with
      | struct fields => cases h
      | _ => rfl
    | _ => rfl

theorem viewValue_copy_leaf {type : GoType} (h : isLeaf type = true) (value : type.Val)
    (m : Memory) (path : List Text) :
    viewValue type (type.deepCopy value m).1 path = viewValue type value path := by
  rw [viewValue_leaf h, viewValue_leaf h, type.toJson_deepCopy]

mutual

/-- A copy looks like the value. -/
theorem viewValue_deepCopy (type : GoType) (value : type.Val) (m : Memory) (path : List Text) :
    viewValue type (type.deepCopy value m).1 path = viewValue type value path := by
  cases type with
  | pointer target =>
    cases target with
    | struct fields =>
      cases value with
      | none => rfl
      | some cell =>
        cases path with
        | nil => rfl
        | cons name path => exact viewFields_deepCopy fields cell.2 m.alloc name path
    | _ => exact viewValue_copy_leaf rfl value m path
  | _ => exact viewValue_copy_leaf rfl value m path

theorem viewFields_deepCopy : (fields : Fields) → (value : fields.Val) → (m : Memory) →
    (name : Text) → (path : List Text) →
    viewFields fields (fields.deepCopy value m).1 name path = viewFields fields value name path
  | .nil, _, _, _, _ => rfl
  | .cons _ jsonName type rest, (value, more), m, name, path => by
    have hvalue := viewValue_deepCopy type value m path
    have hmore := viewFields_deepCopy rest more (type.deepCopy value m).2 name path
    simp only [Fields.deepCopy, viewFields, hvalue, hmore]

end

end views

section documents

mutual

/-- A value is what a document says: a reference is nil exactly where the document has
`null` or nothing, any other value is recorded exactly where the document sets it, and
what the document does not set is zero. -/
def Reflects : (type : GoType) → type.Val → Json → List Text → Text → Prop
  | .pointer (.struct fields), (value : Option (Nat × fields.Val)), json, explicit, path =>
    value.isSome = !json.isNull ∧
      ∀ cell, value = some cell → ReflectsFields fields cell.2 json explicit path
  | type, value, json, explicit, path =>
    (if isReference type then type.isZero value = json.isNull
      else explicit.contains path = !json.isNull) ∧
      (json.isNull = true → value = type.zero)

def ReflectsFields : (fields : Fields) → fields.Val → Json → List Text → Text → Prop
  | .nil, _, _, _, _ => True
  | .cons _ name type rest, (value, more), json, explicit, path =>
    (name ≠ hiddenName →
      Reflects type value (json.field name) explicit (path ++ '.' :: name)) ∧
      ReflectsFields rest more json explicit path

end

variable {explicit : List Text}

theorem reflects_leaf {type : GoType} (h : isLeaf type = true) {value : type.Val} {json : Json}
    {path : Text} :
    Reflects type value json explicit path ↔
      (if isReference type then type.isZero value = json.isNull
        else explicit.contains path = !json.isNull) ∧
        (json.isNull = true → value = type.zero) := by
  cases type with
  | pointer target =>
    cases target with
    | struct fields => cases h
    | _ => exact Iff.rfl
  | _ => exact Iff.rfl

/-- A field counts as set exactly where the document sets it. -/
theorem isFieldSet_of_reflects {type : GoType} {value : type.Val} {json : Json} {path : Text}
    (h : Reflects type value json explicit path) :
    isFieldSet type value path (some explicit) = !json.isNull := by
  cases hleaf : isLeaf type with
  | true =>
    obtain ⟨hset, -⟩ := (reflects_leaf hleaf).mp h
    unfold isFieldSet
    cases href : isReference type with
    | true =>
      rw [href] at hset
      simpa using hset
    | false =>
      rw [href] at hset
      simpa using hset
  | false =>
    cases type with
    | pointer target =>
      cases target with
      | struct fields =>
        obtain ⟨hset, -⟩ := h
        cases value with
        | none => exact hset
        | some cell => exact hset
      | _ => cases hleaf
    | _ => cases hleaf

theorem atPath_null (path : List Text) : Json.null.atPath path = .null := by
  induction path with
  | nil => rfl
  | cons name path ih => exact ih

theorem eq_null_of_isNull {json : Json} (h : json.isNull = true) : json = .null := by
  cases json with
  | null => rfl
  | _ => cases h

mutual

/-- What a document does not set looks like zero. -/
theorem viewValue_unset (type : GoType) {value : type.Val} {json : Json} {start : Text}
    (h : Reflects type value json explicit start) (path : List Text)
    (hnull : (json.atPath path).isNull = true) :
    viewValue type value path = viewValue type type.zero path := by
  cases hleaf : isLeaf type with
  | true =>
    rw [viewValue_leaf hleaf, viewValue_leaf hleaf]
    cases path with
    | nil => rw [((reflects_leaf hleaf).mp h).2 hnull]
    | cons name path => rfl
  | false =>
    cases type with
    | pointer target =>
      cases target with
      | struct fields =>
        obtain ⟨hset, hfields⟩ := h
        cases value with
        | none => rfl
        | some cell =>
          cases path with
          | nil =>
            change json.isNull = true at hnull
            rw [hnull] at hset
            cases hset
          | cons name path => exact viewFields_unset fields (hfields cell rfl) name path hnull
      | _ => cases hleaf
    | _ => cases hleaf

theorem viewFields_unset (fields : Fields) {value : fields.Val} {json : Json} {start : Text}
    (h : ReflectsFields fields value json explicit start) (name : Text) (path : List Text)
    (hnull : ((json.field name).atPath path).isNull = true) :
    viewFields fields value name path = viewFields fields fields.zero name path := by
  cases fields with
  | nil => rfl
  | cons goName jsonName type rest =>
    obtain ⟨value, more⟩ := value
    obtain ⟨hvalue, hmore⟩ := h
    simp only [viewFields, Fields.zero]
    by_cases hname : jsonName = name ∧ jsonName ≠ hiddenName
    · rw [if_pos hname, if_pos hname]
      obtain ⟨rfl, hseen⟩ := hname
      exact viewValue_unset type (hvalue hseen) path hnull
    · rw [if_neg hname, if_neg hname]
      exact viewFields_unset rest hmore name path hnull

end

end documents

section overlays

/-- The overlay of two views: what the document sets comes from above. -/
def overlay (json : Json) (below above : Json) : Json :=
  if json.isNull then below else above

theorem overlay_null (below above : Json) : overlay .null below above = below :=
  rfl

theorem viewValue_setCopy (type : GoType) (src : type.Val) (cell : Nat) (m : Memory)
    (path : List Text) :
    viewValue type (setCopy type src cell m).1 path = viewValue type src path :=
  viewValue_deepCopy type src m path

theorem mergeValue_leaf {type : GoType} (h : isLeaf type = true) (dst src : type.Val)
    (cell : Nat) (path : Text) (explicit : Explicit) (m : Memory) :
    mergeValue type dst src cell path explicit m = setCopy type src cell m := by
  cases type with
  | pointer target =>
    cases target with
    | struct fields => cases h
    | _ => rfl
  | _ => rfl

theorem viewValue_merge_leaf {type : GoType} (hleaf : isLeaf type = true)
    (dst : type.Val) {src : type.Val} {json : Json} (hset : json.isNull = false)
    (cell : Nat) (start : Text) (explicit : Explicit) (m : Memory) (path : List Text) :
    viewValue type (mergeValue type dst src cell start explicit m).1 path =
      overlay (json.atPath path) (viewValue type dst path) (viewValue type src path) := by
  rw [mergeValue_leaf hleaf, viewValue_setCopy]
  cases path with
  | nil =>
    change _ = overlay json _ _
    unfold overlay
    rw [hset]
    rfl
  | cons name path =>
    rw [viewValue_leaf hleaf, viewValue_leaf hleaf]
    exact (ite_self _).symm

mutual

/-- Merging a value that is set is the overlay. -/
theorem viewValue_merge (type : GoType) (dst : type.Val) {src : type.Val} {json : Json}
    {explicit : List Text} {start : Text} (h : Reflects type src json explicit start)
    (hset : json.isNull = false) (cell : Nat) (m : Memory) (path : List Text) :
    viewValue type (mergeValue type dst src cell start (some explicit) m).1 path =
      overlay (json.atPath path) (viewValue type dst path) (viewValue type src path) := by
  cases type with
  | pointer target =>
    cases target with
    | struct fields =>
      have hview := viewValue_unset _ h path
      obtain ⟨hsome, hfields⟩ := h
      cases src with
      | none =>
        rw [hset] at hsome
        cases hsome
      | some srcCell =>
        cases dst with
        | none =>
          -- the whole struct is copied: what the document leaves out is zero there
          refine (viewValue_setCopy _ _ cell m path).trans ?_
          unfold overlay
          cases hnull : (json.atPath path).isNull with
          | true => exact hview hnull
          | false => rfl
        | some dstCell =>
          cases path with
          | nil =>
            change _ = overlay json _ _
            unfold overlay
            rw [hset]
            rfl
          | cons name path =>
            exact viewFields_merge fields dstCell.2 (hfields srcCell rfl) dstCell.1 m name path
    | _ => exact viewValue_merge_leaf rfl dst hset cell start _ m path
  | _ => exact viewValue_merge_leaf rfl dst hset cell start _ m path

/-- Merging structs is the overlay, at every nesting level. -/
theorem viewFields_merge (fields : Fields) (dst : fields.Val) {src : fields.Val} {json : Json}
    {explicit : List Text} {start : Text} (h : ReflectsFields fields src json explicit start)
    (cell : Nat) (m : Memory) (name : Text) (path : List Text) :
    viewFields fields (mergeStruct fields dst src cell start (some explicit) m).1 name path =
      overlay ((json.field name).atPath path)
        (viewFields fields dst name path) (viewFields fields src name path) := by
  cases fields with
  | nil => exact (ite_self _).symm
  | cons goName jsonName type rest =>
    obtain ⟨dst, dstRest⟩ := dst
    obtain ⟨src, srcRest⟩ := src
    obtain ⟨hvalue, hmore⟩ := h
    simp only [mergeStruct, viewFields]
    by_cases hname : jsonName = name ∧ jsonName ≠ hiddenName
    · simp only [if_pos hname]
      obtain ⟨rfl, hseen⟩ := hname
      have hreflects := hvalue hseen
      unfold mergeField
      rw [if_neg hseen, isFieldSet_of_reflects hreflects]
      cases hnull : (json.field jsonName).isNull with
      | true =>
        rw [eq_null_of_isNull hnull, atPath_null, overlay_null]
        rfl
      | false => exact viewValue_merge type dst hreflects hnull cell m path
    · simp only [if_neg hname]
      exact viewFields_merge rest dstRest hmore cell _ name path

end

end overlays

end NriSupplyChain.PolicyFile
