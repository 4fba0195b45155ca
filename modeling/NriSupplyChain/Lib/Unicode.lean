import Mathlib.Data.List.DropRight
import Mathlib.Tactic

/-!
Character classification and case mapping as text processing uses them. The
full case tables are not spelled out: a `CaseTable` is any mapping that agrees
with the usual one on the ASCII characters, and what is proved holds for each.
-/

namespace NriSupplyChain.Lib

abbrev Text := List Char

instance lawfulBEqText : LawfulBEq Text := List.instLawfulBEq

/-- The white space characters of Unicode. -/
def isSpace (c : Char) : Bool :=
  let n := c.toNat
  (9 ≤ n && n ≤ 13) || n == 0x20 || n == 0x85 || n == 0xA0 || n == 0x1680 ||
    (0x2000 ≤ n && n ≤ 0x200A) || n == 0x2028 || n == 0x2029 || n == 0x202F || n == 0x205F ||
    n == 0x3000

/-- A case mapping that works character by character. -/
structure CaseTable where
  lower : Char → Char
  upper : Char → Char
  lower_ascii : ∀ c, c.toNat < 128 → lower c = c.toLower
  upper_ascii : ∀ c, c.toNat < 128 → upper c = c.toUpper

/-- The table that maps the ASCII letters only. -/
def CaseTable.ascii : CaseTable where
  lower := Char.toLower
  upper := Char.toUpper
  lower_ascii := fun _ _ => rfl
  upper_ascii := fun _ _ => rfl

def CaseTable.toLower (table : CaseTable) (text : Text) : Text :=
  text.map table.lower

def CaseTable.toUpper (table : CaseTable) (text : Text) : Text :=
  text.map table.upper

@[simp] theorem CaseTable.toUpper_append (table : CaseTable) (a b : Text) :
    table.toUpper (a ++ b) = table.toUpper a ++ table.toUpper b := by
  simp [CaseTable.toUpper]

@[simp] theorem CaseTable.length_toUpper (table : CaseTable) (a : Text) :
    (table.toUpper a).length = a.length := by
  simp [CaseTable.toUpper]

/-- Compare texts by their bytes. -/
def compareText : Text → Text → Int
  | [], [] => 0
  | [], _ :: _ => -1
  | _ :: _, [] => 1
  | c :: left, d :: right =>
    if c.toNat < d.toNat then -1 else if d.toNat < c.toNat then 1 else compareText left right

def trimSpace (text : Text) : Text :=
  (text.dropWhile isSpace).rdropWhile isSpace

/-- Text without white space at either end is left alone. -/
theorem trimSpace_of_no_space {text : Text} (h : ∀ c ∈ text, isSpace c = false) :
    trimSpace text = text := by
  have hleft : text.dropWhile isSpace = text := by
    apply List.dropWhile_eq_self_iff.mpr
    intro hlen
    simp [h _ (List.getElem_mem hlen)]
  unfold trimSpace
  rw [hleft]
  apply List.rdropWhile_eq_self_iff.mpr
  intro hne
  simp [h _ (List.getLast_mem hne)]

/-- Cut a text off the end of another. -/
def cutSuffix (text tail : Text) : Option Text :=
  if tail <:+ text then some (text.take (text.length - tail.length)) else none

def trimSuffix (text tail : Text) : Text :=
  (cutSuffix text tail).getD text

def trimPrefix (text head : Text) : Text :=
  if head <+: text then text.drop head.length else text

/-- A text that lacks a character of the tail does not end in it. -/
theorem cutSuffix_eq_none {text tail : Text} {c : Char} (hc : c ∈ tail) (h : c ∉ text) :
    cutSuffix text tail = none := by
  have hne : ¬ tail <:+ text := fun hsuffix => h (hsuffix.subset hc)
  simp [cutSuffix, hne]

/-- The number that decimal digits stand for. -/
def decimalValue (digits : Text) : Nat :=
  digits.foldl (fun value c => 10 * value + (c.toNat - '0'.toNat)) 0

/-- Read a decimal integer of 64 bits with an optional sign. -/
def atoi (s : Text) : Option Int :=
  let (negative, digits) :=
    match s with
    | '-' :: rest => (true, rest)
    | '+' :: rest => (false, rest)
    | _ => (false, s)
  if digits = [] || !digits.all Char.isDigit then none
  else if negative then
    if decimalValue digits ≤ 2 ^ 63 then some (-(decimalValue digits : Int)) else none
  else if decimalValue digits < 2 ^ 63 then some (decimalValue digits : Int)
  else none

end NriSupplyChain.Lib
