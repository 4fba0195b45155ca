import NriSupplyChain.Policy.Merge

/-!
Decoding of policy documents (`decodePolicy`): strict decoding, the record of the
fields that a document sets, and the part of the validation that fills in derived
values. The other checks of the validation only refuse documents and are left
out, so what holds for every document decoded here holds for every accepted one.
-/

namespace NriSupplyChain.PolicyFile

open Lib

section paths

mutual

/-- The paths of the values that are not `null`, each behind a given start. -/
def explicitPaths : Json → Text → List Text
  | .object entries, start => explicitEntries entries start
  | _, _ => []

def explicitEntries : Entries → Text → List Text
  | .nil, _ => []
  | .cons key value rest, start =>
    (if value.isNull then []
      else (start ++ key) :: explicitPaths value (start ++ key ++ ['.'])) ++
      explicitEntries rest start

end

end paths

section sections

variable (parseDuration : Text → Option Int)

/-- Decode one section of a document. -/
def decodeSection (json : Json) (name : SectionName) (sections : Sections) (m : Memory) :
    Option (Sections × Memory) :=
  ((sectionType name).decode (json.field name.text) m).map fun (value, m) =>
    (sections.set name value, m)

def decodeSectionsFrom (json : Json) : List SectionName → Sections → Memory →
    Option (Sections × Memory)
  | [], sections, m => some (sections, m)
  | name :: names, sections, m =>
    (decodeSection json name sections m).bind fun (sections, m) =>
      decodeSectionsFrom json names sections m

/-- Parse the maximum age of one section into its duration. -/
def resolveMaxAge (name : SectionName) (sections : Sections) : Option Sections :=
  match name.hasMaxAge, sections.get name with
  | true, some (addr, section_) =>
    let raw := (sectionFields name).getText goMaxAge section_
    if raw = [] then some sections
    else
      match parseDuration raw with
      | none => none
      | some parsed =>
        if parsed ≤ 0 then none
        else
          some (sections.put name
            (addr, (sectionFields name).setDuration goMaxAgeDuration parsed section_))
  | _, _ => some sections

/-- The part of `validateSections` that resolves derived values. -/
def validateSections : List SectionName → Sections → Option Sections
  | [], sections => some sections
  | name :: names, sections =>
    (resolveMaxAge parseDuration name sections).bind (validateSections names)

def decodeSections (json : Json) (m : Memory) : Option (Sections × Memory) :=
  (decodeSectionsFrom json SectionName.registry Sections.empty m).bind fun (sections, m) =>
    (validateSections parseDuration SectionName.registry
      { sections with explicit := some (explicitPaths json []) }).map (·, m)

end sections

section policies

variable {Program : Type} (parseDuration : Text → Option Int)
  (compile : Json → Option Program)

/-- `compileCEL`. Rules that do not compile are an error; no rules give no program. -/
def compileCEL (section_ : Option (Nat × celPolicy.Val)) : Option (Option Program) :=
  match section_ with
  | none => some none
  | some (_, (rules, _)) =>
    match (rules : Option (Nat × List celRule.Val)) with
    | none => some none
    | some (_, []) => some none
    | some (_, rule :: more) => (compile (.array ((rule :: more).map celRule.toJson))).map some

def sectionKeys : List Text :=
  SectionName.registry.map SectionName.text

def knownKeys (names : List Text) : Json → Bool
  | .object entries => entries.known (names ++ sectionKeys)
  | .null => true
  | _ => false

def decodeRule (json : Json) (m : Memory) : Option (ImageRule Program × Memory) :=
  if knownKeys ["images".toList] json then
    (texts.decode (json.field "images".toList) m).bind fun (images, m) =>
      (decodeSections parseDuration json m).bind fun (sections, m) =>
        (compileCEL compile (sections.get .cel)).map fun compiledCEL =>
          ({ sections := sections, images := images, compiledCEL := compiledCEL }, m)
  else none

def decodeRules (json : Json) (m : Memory) :
    Option (Option (Nat × List (ImageRule Program)) × Memory) :=
  match json with
  | .null => some (none, m)
  | .array items =>
    (decodeItems (decodeRule parseDuration compile) items m.alloc).map fun (rules, m') =>
      (some (m.next, rules), m')
  | _ => none

def policyKeys : List Text :=
  ["version", "mode", "inherits", "include", "exclude", "rules"].map String.toList

def decodePolicy (json : Json) (m : Memory) : Option (Policy Program × Memory) :=
  if knownKeys policyKeys json then
    (GoType.int.decode (json.field "version".toList) m.alloc).bind fun (version, m') =>
    (GoType.string.decode (json.field "mode".toList) m').bind fun (mode, m') =>
    ((GoType.pointer .bool).decode (json.field "inherits".toList) m').bind fun (inherits, m') =>
    (texts.decode (json.field "include".toList) m').bind fun (include_, m') =>
    (texts.decode (json.field "exclude".toList) m').bind fun (exclude, m') =>
    (decodeSections parseDuration json m').bind fun (sections, m') =>
    (decodeRules parseDuration compile (json.field "rules".toList) m').bind fun (rules, m') =>
    (compileCEL compile (sections.get .cel)).map fun compiledCEL =>
      ({ addr := m.next
         sections := sections
         version := version
         mode := mode
         inherits := inherits
         include_ := include_
         exclude := exclude
         rules := rules
         compiledCEL := compiledCEL }, m')
  else none

end policies

end NriSupplyChain.PolicyFile
