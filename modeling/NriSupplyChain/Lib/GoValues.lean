import NriSupplyChain.Lib.Unicode

/-!
JSON documents and Go values of a type given by reflection. A type is a code, and
the values of a type are computed from the code, so a value always fits its
type. Pointers, slices and maps carry the address of the cell they refer to: two
values alias where they share an address. Decoding and copying allocate new
cells, and a `Memory` remembers which cells have been written.
-/

namespace NriSupplyChain.Lib

section documents

mutual

/-- A JSON document. A number keeps whether it is written as an integer. -/
inductive Json where
  | null
  | bool (b : Bool)
  | int (i : Int)
  | real (text : Text)
  | string (s : Text)
  | array (items : List Json)
  | object (entries : Entries)

/-- The members of a JSON object in the order they are written in. -/
inductive Entries where
  | nil
  | cons (key : Text) (value : Json) (rest : Entries)

end

namespace Entries

def keys : Entries → List Text
  | nil => []
  | cons key _ rest => key :: rest.keys

/-- The value of a key, `null` if the key is missing. -/
def find (name : Text) : Entries → Json
  | nil => .null
  | cons key value rest => if key = name then value else rest.find name

def ofList : List (Text × Json) → Entries
  | [] => nil
  | (key, value) :: rest => cons key value (ofList rest)

def toList : Entries → List (Text × Json)
  | nil => []
  | cons key value rest => (key, value) :: rest.toList

end Entries

namespace Json

def isNull : Json → Bool
  | null => true
  | _ => false

def field (json : Json) (name : Text) : Json :=
  match json with
  | object entries => entries.find name
  | _ => null

/-- The value at a path of field names. -/
def atPath (json : Json) : List Text → Json
  | [] => json
  | name :: path => (json.field name).atPath path

end Json

end documents

section types

mutual

/-- The types that the values of a configuration are made of. -/
inductive GoType where
  | string
  | bool
  | int
  | float
  | duration
  | pointer (target : GoType)
  | slice (item : GoType)
  | map (item : GoType)
  | struct (fields : Fields)

/-- The fields of a struct: the name in Go, the name in JSON (a dash for a field that
JSON does not see) and the type. -/
inductive Fields where
  | nil
  | cons (goName jsonName : Text) (type : GoType) (rest : Fields)

end

/-- A floating-point number as it is written. -/
abbrev Number := Int ⊕ Text

mutual

/-- The values of a type. -/
def GoType.Val : GoType → Type
  | .string => Text
  | .bool => Bool
  | .int => Int
  | .float => Number
  | .duration => Int
  | .pointer target => Option (Nat × target.Val)
  | .slice item => Option (Nat × List item.Val)
  | .map item => Option (Nat × List (Text × item.Val))
  | .struct fields => fields.Val

def Fields.Val : Fields → Type
  | .nil => Unit
  | .cons _ _ type rest => type.Val × rest.Val

end

mutual

/-- The value that a variable of the type starts with. -/
def GoType.zero : (type : GoType) → type.Val
  | .string => ([] : Text)
  | .bool => false
  | .int => (0 : Int)
  | .float => (.inl 0 : Number)
  | .duration => (0 : Int)
  | .pointer _ => (none : Option _)
  | .slice _ => (none : Option _)
  | .map _ => (none : Option _)
  | .struct fields => fields.zero

def Fields.zero : (fields : Fields) → fields.Val
  | .nil => ()
  | .cons _ _ type rest => (type.zero, rest.zero)

end

mutual

def GoType.isZero : (type : GoType) → type.Val → Bool
  | .string, (value : Text) => value.isEmpty
  | .bool, (value : Bool) => !value
  | .int, (value : Int) => value = 0
  | .float, (value : Number) => value = .inl 0
  | .duration, (value : Int) => value = 0
  | .pointer _, (value : Option _) => value.isNone
  | .slice _, (value : Option _) => value.isNone
  | .map _, (value : Option _) => value.isNone
  | .struct fields, value => fields.isZero value

def Fields.isZero : (fields : Fields) → fields.Val → Bool
  | .nil, _ => true
  | .cons _ _ type rest, (value, more) => type.isZero value && rest.isZero more

end

mutual

/-- A value without its addresses. -/
def GoType.toJson : (type : GoType) → type.Val → Json
  | .string, (value : Text) => .string value
  | .bool, (value : Bool) => .bool value
  | .int, (value : Int) => .int value
  | .float, (value : Number) => value.elim .int .real
  | .duration, (value : Int) => .int value
  | .pointer target, (value : Option (Nat × target.Val)) =>
    value.elim .null fun cell => target.toJson cell.2
  | .slice item, (value : Option (Nat × List item.Val)) =>
    value.elim .null fun cell => .array (cell.2.map item.toJson)
  | .map item, (value : Option (Nat × List (Text × item.Val))) =>
    value.elim .null fun cell =>
      .object (Entries.ofList (cell.2.map fun entry => (entry.1, item.toJson entry.2)))
  | .struct fields, value => .object (fields.toEntries value)

def Fields.toEntries : (fields : Fields) → fields.Val → Entries
  | .nil, _ => .nil
  | .cons goName _ type rest, (value, more) =>
    .cons goName (type.toJson value) (rest.toEntries more)

end

mutual

/-- The cells that a value reaches. -/
def GoType.addrs : (type : GoType) → type.Val → List Nat
  | .string, _ => []
  | .bool, _ => []
  | .int, _ => []
  | .float, _ => []
  | .duration, _ => []
  | .pointer target, (value : Option (Nat × target.Val)) =>
    value.elim [] fun cell => cell.1 :: target.addrs cell.2
  | .slice item, (value : Option (Nat × List item.Val)) =>
    value.elim [] fun cell => cell.1 :: cell.2.flatMap item.addrs
  | .map item, (value : Option (Nat × List (Text × item.Val))) =>
    value.elim [] fun cell => cell.1 :: cell.2.flatMap fun entry => item.addrs entry.2
  | .struct fields, value => fields.addrs value

def Fields.addrs : (fields : Fields) → fields.Val → List Nat
  | .nil, _ => []
  | .cons _ _ type rest, (value, more) => type.addrs value ++ rest.addrs more

end

end types

section memory

/-- The next free address, and the cells that have been written. -/
structure Memory where
  next : Nat
  written : List Nat

namespace Memory

def alloc (m : Memory) : Memory :=
  { m with next := m.next + 1 }

def write (m : Memory) (addr : Nat) : Memory :=
  { m with written := addr :: m.written }

end Memory

/-- Run a step on each item of a list, in order. -/
def traverse {α β : Type} (step : α → Memory → β × Memory) : List α → Memory → List β × Memory
  | [], m => ([], m)
  | item :: rest, m =>
    let (value, m) := step item m
    let (values, m) := traverse step rest m
    (value :: values, m)

def copyEntry {α : Type} (copy : α → Memory → α × Memory) (entry : Text × α) (m : Memory) :
    (Text × α) × Memory :=
  let (value, m) := copy entry.2 m
  ((entry.1, value), m)

mutual

/-- A copy that shares no cell with the value. -/
def GoType.deepCopy : (type : GoType) → type.Val → Memory → type.Val × Memory
  | .string, value, m => (value, m)
  | .bool, value, m => (value, m)
  | .int, value, m => (value, m)
  | .float, value, m => (value, m)
  | .duration, value, m => (value, m)
  | .pointer target, (value : Option (Nat × target.Val)), m =>
    match value with
    | none => ((none : Option (Nat × target.Val)), m)
    | some cell =>
      let (copy, m') := target.deepCopy cell.2 m.alloc
      ((some (m.next, copy) : Option (Nat × target.Val)), m')
  | .slice item, (value : Option (Nat × List item.Val)), m =>
    match value with
    | none => ((none : Option (Nat × List item.Val)), m)
    | some cell =>
      let (copies, m') := traverse item.deepCopy cell.2 m.alloc
      ((some (m.next, copies) : Option (Nat × List item.Val)), m')
  | .map item, (value : Option (Nat × List (Text × item.Val))), m =>
    match value with
    | none => ((none : Option (Nat × List (Text × item.Val))), m)
    | some cell =>
      let (copies, m') := traverse (copyEntry item.deepCopy) cell.2 m.alloc
      ((some (m.next, copies) : Option (Nat × List (Text × item.Val))), m')
  | .struct fields, value, m => fields.deepCopy value m

def Fields.deepCopy : (fields : Fields) → fields.Val → Memory → fields.Val × Memory
  | .nil, value, m => (value, m)
  | .cons _ _ type rest, (value, more), m =>
    let (copy, m) := type.deepCopy value m
    let (copies, m) := rest.deepCopy more m
    ((copy, copies), m)

end

end memory

section decoding

/-- Decode each item of a list, in order. -/
def decodeItems {α : Type} (step : Json → Memory → Option (α × Memory)) :
    List Json → Memory → Option (List α × Memory)
  | [], m => some ([], m)
  | item :: rest, m =>
    (step item m).bind fun (value, m) =>
      (decodeItems step rest m).map fun (values, m) => (value :: values, m)

/-- Decode each value of an object, in order. -/
def decodeEntries {α : Type} (step : Json → Memory → Option (α × Memory)) :
    Entries → Memory → Option (List (Text × α) × Memory)
  | .nil, m => some ([], m)
  | .cons key item rest, m =>
    (step item m).bind fun (value, m) =>
      (decodeEntries step rest m).map fun (values, m) => ((key, value) :: values, m)

/-- The name in JSON of a field that JSON does not see. -/
def hiddenName : Text :=
  "-".toList

def Fields.jsonNames : Fields → List Text
  | .nil => []
  | .cons _ jsonName _ rest =>
    if jsonName = hiddenName then rest.jsonNames else jsonName :: rest.jsonNames

/-- Whether an object repeats no key and has known keys only. -/
def Entries.known (names : List Text) (entries : Entries) : Bool :=
  entries.keys.Nodup && entries.keys.all names.contains

/-- Decode an object that has known keys only. -/
def decodeObject {α : Type} (names : List Text) (step : Json → Memory → Option (α × Memory))
    (zero : α) (json : Json) (m : Memory) : Option (α × Memory) :=
  match json with
  | .object entries => if entries.known names then step (.object entries) m else none
  | .null => some (zero, m)
  | _ => none

mutual

/-- Decode a document into a value. `null` leaves the value at zero; keys that are
repeated or unknown are refused. -/
def GoType.decode : (type : GoType) → Json → Memory → Option (type.Val × Memory)
  | .string, json, m =>
    match json with
    | .string value => some (value, m)
    | .null => some (([] : Text), m)
    | _ => none
  | .bool, json, m =>
    match json with
    | .bool value => some (value, m)
    | .null => some (false, m)
    | _ => none
  | .int, json, m =>
    match json with
    | .int value => if -2 ^ 63 ≤ value ∧ value < 2 ^ 63 then some (value, m) else none
    | .null => some ((0 : Int), m)
    | _ => none
  | .float, json, m =>
    match json with
    | .int value => some ((.inl value : Number), m)
    | .real value => some ((.inr value : Number), m)
    | .null => some ((.inl 0 : Number), m)
    | _ => none
  | .duration, json, m =>
    match json with
    | .int value => some (value, m)
    | .null => some ((0 : Int), m)
    | _ => none
  | .pointer target, json, m =>
    if json.isNull then some ((none : Option _), m)
    else
      (target.decode json m.alloc).map fun (value, m') =>
        ((some (m.next, value) : Option _), m')
  | .slice item, json, m =>
    match json with
    | .array items =>
      (decodeItems item.decode items m.alloc).map fun (values, m') =>
        ((some (m.next, values) : Option _), m')
    | .null => some ((none : Option _), m)
    | _ => none
  | .map item, json, m =>
    match json with
    | .object entries =>
      if entries.keys.Nodup then
        (decodeEntries item.decode entries m.alloc).map fun (values, m') =>
          ((some (m.next, values) : Option _), m')
      else none
    | .null => some ((none : Option _), m)
    | _ => none
  | .struct fields, json, m => decodeObject fields.jsonNames fields.decode fields.zero json m

def Fields.decode : (fields : Fields) → Json → Memory → Option (fields.Val × Memory)
  | .nil, _, m => some ((), m)
  | .cons _ jsonName type rest, json, m =>
    (type.decode (if jsonName = hiddenName then .null else json.field jsonName) m).bind
      fun (value, m) => (rest.decode json m).map fun (values, m) => ((value, values), m)

end

end decoding

section access

def GoType.text : (type : GoType) → type.Val → Text
  | .string, (value : Text) => value
  | _, _ => []

def GoType.texts : (type : GoType) → type.Val → List Text
  | .slice .string, (value : Option (Nat × List Text)) => value.elim [] (·.2)
  | _, _ => []

def GoType.length : (type : GoType) → type.Val → Int
  | .duration, (value : Int) => value
  | _, _ => 0

def GoType.setLength : (type : GoType) → Int → type.Val → type.Val
  | .duration, new, _ => new
  | _, _, value => value

/-- A text field by its name in Go. -/
def Fields.getText (name : Text) : (fields : Fields) → fields.Val → Text
  | .nil, _ => []
  | .cons goName _ type rest, (value, more) =>
    if goName = name then type.text value else rest.getText name more

/-- A field with a list of texts by its name in Go. -/
def Fields.getTexts (name : Text) : (fields : Fields) → fields.Val → List Text
  | .nil, _ => []
  | .cons goName _ type rest, (value, more) =>
    if goName = name then type.texts value else rest.getTexts name more

def Fields.getDuration (name : Text) : (fields : Fields) → fields.Val → Int
  | .nil, _ => 0
  | .cons goName _ type rest, (value, more) =>
    if goName = name then type.length value else rest.getDuration name more

def Fields.setDuration (name : Text) (new : Int) : (fields : Fields) → fields.Val → fields.Val
  | .nil, value => value
  | .cons goName _ type rest, (value, more) =>
    if goName = name then (type.setLength new value, more)
    else (value, rest.setDuration name new more)

end access

section copies

theorem traverse_map {α β γ : Type} {step : α → Memory → β × Memory} {f : β → γ} {g : α → γ}
    (h : ∀ item m, f (step item m).1 = g item) (items : List α) (m : Memory) :
    (traverse step items m).1.map f = items.map g := by
  induction items generalizing m with
  | nil => rfl
  | cons item rest ih => simp [traverse, h, ih]

mutual

/-- A copy holds what the value holds. -/
theorem GoType.toJson_deepCopy : (type : GoType) → (value : type.Val) → (m : Memory) →
    type.toJson (type.deepCopy value m).1 = type.toJson value
  | .string, _, _ => rfl
  | .bool, _, _ => rfl
  | .int, _, _ => rfl
  | .float, _, _ => rfl
  | .duration, _, _ => rfl
  | .pointer target, none, _ => rfl
  | .pointer target, some cell, m => target.toJson_deepCopy cell.2 m.alloc
  | .slice item, none, _ => rfl
  | .slice item, some cell, m =>
    congrArg Json.array (traverse_map item.toJson_deepCopy cell.2 m.alloc)
  | .map item, none, _ => rfl
  | .map item, some cell, m => by
    have hentry : ∀ entry m,
        (fun entry : Text × item.Val => (entry.1, item.toJson entry.2))
          (copyEntry item.deepCopy entry m).1 = (entry.1, item.toJson entry.2) := by
      intro entry m
      exact congrArg (Prod.mk entry.1) (item.toJson_deepCopy entry.2 m)
    exact congrArg (fun entries => Json.object (Entries.ofList entries))
      (traverse_map hentry cell.2 m.alloc)
  | .struct fields, value, m => congrArg Json.object (fields.toEntries_deepCopy value m)

theorem Fields.toEntries_deepCopy : (fields : Fields) → (value : fields.Val) → (m : Memory) →
    fields.toEntries (fields.deepCopy value m).1 = fields.toEntries value
  | .nil, _, _ => rfl
  | .cons goName _ type rest, (value, more), m => by
    have hvalue := type.toJson_deepCopy value m
    have hmore := rest.toEntries_deepCopy more (type.deepCopy value m).2
    simp only [Fields.deepCopy, Fields.toEntries, hvalue, hmore]

end

end copies

section cells

/-- Cells between two addresses. -/
def Within (low high : Nat) (addrs : List Nat) : Prop :=
  ∀ addr ∈ addrs, low ≤ addr ∧ addr < high

theorem Within.nil (low high : Nat) : Within low high [] := by
  simp [Within]

variable {as : List Nat}

theorem Within.append {low high : Nat} {bs : List Nat} (ha : Within low high as)
    (hb : Within low high bs) : Within low high (as ++ bs) := by
  intro addr haddr
  rcases List.mem_append.mp haddr with h | h
  · exact ha addr h
  · exact hb addr h

theorem Within.mono {low low' high high' : Nat} (h : Within low high as) (hlow : low' ≤ low)
    (hhigh : high ≤ high') : Within low' high' as := by
  intro addr haddr
  obtain ⟨hl, hh⟩ := h addr haddr
  omega

/-- A step from one memory to another that allocates the given cells and writes none. -/
structure Allocates (m m' : Memory) (addrs : List Nat) : Prop where
  next_le : m.next ≤ m'.next
  written_eq : m'.written = m.written
  within : Within m.next m'.next addrs

theorem Allocates.refl (m : Memory) : Allocates m m [] :=
  ⟨le_refl _, rfl, Within.nil _ _⟩

variable {m m' : Memory}

theorem Allocates.trans {m'' : Memory} {bs : List Nat} (ha : Allocates m m' as)
    (hb : Allocates m' m'' bs) : Allocates m m'' (as ++ bs) := by
  refine ⟨le_trans ha.next_le hb.next_le, hb.written_eq.trans ha.written_eq, ?_⟩
  exact (ha.within.mono (le_refl _) hb.next_le).append (hb.within.mono ha.next_le (le_refl _))

theorem Allocates.cell (h : Allocates m.alloc m' as) : Allocates m m' (m.next :: as) := by
  have hnext : m.next + 1 ≤ m'.next := h.next_le
  refine ⟨by omega, h.written_eq, ?_⟩
  intro addr haddr
  rcases List.mem_cons.mp haddr with rfl | hmem
  · omega
  · obtain ⟨hl, hh⟩ := h.within addr hmem
    have hlow : m.next + 1 ≤ addr := hl
    omega

variable {α : Type}

theorem traverse_allocates {β : Type} {step : α → Memory → β × Memory} {addrs : β → List Nat}
    (h : ∀ item m, Allocates m (step item m).2 (addrs (step item m).1)) (items : List α)
    (m : Memory) :
    Allocates m (traverse step items m).2 ((traverse step items m).1.flatMap addrs) := by
  induction items generalizing m with
  | nil => exact Allocates.refl m
  | cons item rest ih => exact (h item m).trans (ih (step item m).2)

mutual

/-- A copy is made of new cells. -/
theorem GoType.deepCopy_allocates : (type : GoType) → (value : type.Val) → (m : Memory) →
    Allocates m (type.deepCopy value m).2 (type.addrs (type.deepCopy value m).1)
  | .string, _, m => Allocates.refl m
  | .bool, _, m => Allocates.refl m
  | .int, _, m => Allocates.refl m
  | .float, _, m => Allocates.refl m
  | .duration, _, m => Allocates.refl m
  | .pointer _, none, m => Allocates.refl m
  | .pointer target, some cell, m => (target.deepCopy_allocates cell.2 m.alloc).cell
  | .slice _, none, m => Allocates.refl m
  | .slice item, some cell, m =>
    (traverse_allocates item.deepCopy_allocates cell.2 m.alloc).cell
  | .map _, none, m => Allocates.refl m
  | .map item, some cell, m => by
    have hentry : ∀ (entry : Text × item.Val) (m : Memory),
        Allocates m (copyEntry item.deepCopy entry m).2
          ((fun entry : Text × item.Val => item.addrs entry.2)
            (copyEntry item.deepCopy entry m).1) :=
      fun entry m => item.deepCopy_allocates entry.2 m
    exact (traverse_allocates hentry cell.2 m.alloc).cell
  | .struct fields, value, m => fields.deepCopy_allocates value m

theorem Fields.deepCopy_allocates : (fields : Fields) → (value : fields.Val) → (m : Memory) →
    Allocates m (fields.deepCopy value m).2 (fields.addrs (fields.deepCopy value m).1)
  | .nil, _, m => Allocates.refl m
  | .cons _ _ type rest, (value, more), m =>
    (type.deepCopy_allocates value m).trans
      (rest.deepCopy_allocates more (type.deepCopy value m).2)

end

theorem decodeItems_allocates {step : Json → Memory → Option (α × Memory)} {addrs : α → List Nat}
    (h : ∀ {json m value m'}, step json m = some (value, m') → Allocates m m' (addrs value))
    {items : List Json} {values : List α} (hdecode : decodeItems step items m = some (values, m')) :
    Allocates m m' (values.flatMap addrs) := by
  induction items generalizing m values with
  | nil =>
    cases hdecode
    exact Allocates.refl _
  | cons item rest ih =>
    obtain ⟨⟨value, m₁⟩, hvalue, hrest⟩ := Option.bind_eq_some_iff.mp hdecode
    obtain ⟨⟨more, m₂⟩, hmore, hpair⟩ := Option.map_eq_some_iff.mp hrest
    cases hpair
    exact (h hvalue).trans (ih hmore)

theorem decodeEntries_allocates {step : Json → Memory → Option (α × Memory)} {addrs : α → List Nat}
    (h : ∀ {json m value m'}, step json m = some (value, m') → Allocates m m' (addrs value)) :
    ∀ (entries : Entries) {m m' : Memory} {values : List (Text × α)},
      decodeEntries step entries m = some (values, m') →
        Allocates m m' (values.flatMap fun entry => addrs entry.2)
  | .nil, m, _, _, hdecode => by
    cases hdecode
    exact Allocates.refl m
  | .cons key item rest, m, _, _, hdecode => by
    obtain ⟨⟨value, m₁⟩, hvalue, hrest⟩ := Option.bind_eq_some_iff.mp hdecode
    obtain ⟨⟨more, m₂⟩, hmore, hpair⟩ := Option.map_eq_some_iff.mp hrest
    cases hpair
    exact (h hvalue).trans (decodeEntries_allocates h rest hmore)

mutual

theorem GoType.zero_addrs : (type : GoType) → type.addrs type.zero = []
  | .string => rfl
  | .bool => rfl
  | .int => rfl
  | .float => rfl
  | .duration => rfl
  | .pointer _ => rfl
  | .slice _ => rfl
  | .map _ => rfl
  | .struct fields => fields.zero_addrs

theorem Fields.zero_addrs : (fields : Fields) → fields.addrs fields.zero = []
  | .nil => rfl
  | .cons _ _ type rest => by
    simp only [Fields.zero, Fields.addrs, type.zero_addrs, rest.zero_addrs, List.append_nil]

end

/-- An accepted object has known keys only, or it is missing. -/
theorem decodeObject_cases {names : List Text} {step : Json → Memory → Option (α × Memory)}
    {zero value : α} {json : Json} (h : decodeObject names step zero json m = some (value, m')) :
    (∃ entries, json = .object entries ∧ entries.known names = true ∧
      step (.object entries) m = some (value, m')) ∨
      json = .null ∧ value = zero ∧ m' = m := by
  unfold decodeObject at h
  split at h
  · next entries =>
    split at h
    · next hknown => exact .inl ⟨entries, rfl, hknown, h⟩
    · cases h
  · cases h
    exact .inr ⟨rfl, rfl, rfl⟩
  · cases h

theorem decodeObject_allocates {names : List Text} {step : Json → Memory → Option (α × Memory)}
    {addrs : α → List Nat} {zero value : α} {json : Json} (hzero : addrs zero = [])
    (h : ∀ {json m value m'}, step json m = some (value, m') → Allocates m m' (addrs value))
    (hdecode : decodeObject names step zero json m = some (value, m')) :
    Allocates m m' (addrs value) := by
  rcases decodeObject_cases hdecode with ⟨entries, -, -, hstep⟩ | ⟨-, rfl, rfl⟩
  · exact h hstep
  · rw [hzero]
    exact Allocates.refl _

mutual

/-- A decoded value is made of new cells. -/
theorem GoType.decode_allocates : (type : GoType) → ∀ {json m value m'},
    type.decode json m = some (value, m') → Allocates m m' (type.addrs value)
  | .string, _, _, _, _, h => by
    unfold GoType.decode at h
    split at h <;> cases h <;> exact Allocates.refl _
  | .bool, _, _, _, _, h => by
    unfold GoType.decode at h
    split at h <;> cases h <;> exact Allocates.refl _
  | .int, _, _, _, _, h => by
    unfold GoType.decode at h
    split at h
    · split at h <;> cases h
      exact Allocates.refl _
    · cases h
      exact Allocates.refl _
    · cases h
  | .float, _, _, _, _, h => by
    unfold GoType.decode at h
    split at h <;> cases h <;> exact Allocates.refl _
  | .duration, _, _, _, _, h => by
    unfold GoType.decode at h
    split at h <;> cases h <;> exact Allocates.refl _
  | .pointer target, _, _, _, _, h => by
    unfold GoType.decode at h
    split at h
    · cases h
      exact Allocates.refl _
    · obtain ⟨⟨value, m'⟩, hvalue, hpair⟩ := Option.map_eq_some_iff.mp h
      cases hpair
      exact (target.decode_allocates hvalue).cell
  | .slice item, _, _, _, _, h => by
    unfold GoType.decode at h
    split at h
    · obtain ⟨⟨values, m'⟩, hvalues, hpair⟩ := Option.map_eq_some_iff.mp h
      cases hpair
      exact (decodeItems_allocates item.decode_allocates hvalues).cell
    · cases h
      exact Allocates.refl _
    · cases h
  | .map item, _, _, _, _, h => by
    unfold GoType.decode at h
    split at h
    · split at h
      · obtain ⟨⟨values, m'⟩, hvalues, hpair⟩ := Option.map_eq_some_iff.mp h
        cases hpair
        exact (decodeEntries_allocates item.decode_allocates _ hvalues).cell
      · cases h
    · cases h
      exact Allocates.refl _
    · cases h
  | .struct fields, _, _, _, _, h =>
    decodeObject_allocates fields.zero_addrs fields.decode_allocates h

theorem Fields.decode_allocates : (fields : Fields) → ∀ {json m value m'},
    fields.decode json m = some (value, m') → Allocates m m' (fields.addrs value)
  | .nil, _, m, _, _, h => by
    cases h
    exact Allocates.refl m
  | .cons _ _ type rest, json, m, value, m', h => by
    obtain ⟨⟨first, m₁⟩, hfirst, hrest⟩ := Option.bind_eq_some_iff.mp h
    obtain ⟨⟨more, m₂⟩, hmore, hpair⟩ := Option.map_eq_some_iff.mp hrest
    cases hpair
    exact (type.decode_allocates hfirst).trans (rest.decode_allocates hmore)

end

end cells

end NriSupplyChain.Lib
