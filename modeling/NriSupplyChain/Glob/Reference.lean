import NriSupplyChain.Glob.Pattern

/-!
What a glob pattern means, without regular expressions. A pattern is read into
tokens, a token covers certain texts, and a pattern matches the texts that are
covered by its tokens one after the other. A class lists characters and ranges;
its first character is listed even if it is a closing bracket, and an opening
bracket that no other closes is an ordinary character.
-/

namespace NriSupplyChain.Glob

open Lib

/-- A listed character, and whether a backslash stands before it. -/
abbrev ClassChar := Char × Bool

inductive Token where
  | literal (c : Char)
  | star
  | doubleStar
  | anyChar
  | charClass (negated : Bool) (chars : List ClassChar)
deriving DecidableEq, Repr

/-- A dash without a backslash between two characters stands for what lies between. -/
def classRanges : List ClassChar → List Regexp.Range
  | lo :: ('-', false) :: hi :: rest => (lo.1, hi.1) :: classRanges rest
  | c :: rest => (c.1, c.1) :: classRanges rest
  | [] => []

/-- Whether a class lists a character. -/
def Listed (chars : List ClassChar) (c : Char) : Prop :=
  ∃ range ∈ classRanges chars, range.1 ≤ c ∧ c ≤ range.2

/-- The texts that a token stands for. -/
def Token.Covers : Token → Text → Prop
  | .literal c, text => text = [c]
  | .star, text => '/' ∉ text
  | .doubleStar, _ => True
  | .anyChar, text => ∃ c, text = [c] ∧ c ≠ '/'
  | .charClass false chars, text => ∃ c, text = [c] ∧ Listed chars c
  | .charClass true chars, text => ∃ c, text = [c] ∧ c ≠ '/' ∧ ¬ Listed chars c

def Covers : List Token → Text → Prop
  | [], text => text = []
  | token :: rest, text => ∃ u v, text = u ++ v ∧ token.Covers u ∧ Covers rest v

section reading

/-- The characters up to the closing bracket, and how many were read with it. -/
def readChars : Text → Option (List ClassChar × Nat)
  | [] => none
  | ']' :: _ => some ([], 1)
  | '\\' :: c :: rest => (readChars rest).map fun (chars, n) => ((c, true) :: chars, n + 2)
  | c :: rest => (readChars rest).map fun (chars, n) => ((c, false) :: chars, n + 1)

/-- The characters of a class, whose first one may be a closing bracket. -/
def readListed : Text → Option (List ClassChar × Nat)
  | ']' :: rest => (readChars rest).map fun (chars, n) => ((']', true) :: chars, n + 1)
  | text => readChars text

/-- A class behind its opening bracket. -/
def readClass (text : Text) : Option (Token × Nat) :=
  if text.head?.any isClassNegation then
    (readListed text.tail).map fun (chars, n) => (.charClass true chars, n + 1)
  else
    (readListed text).map fun (chars, n) => (.charClass false chars, n)

def tokensLoop : Text → Nat → List Token
  | [], _ => []
  | _ :: rest, jump + 1 => tokensLoop rest jump
  | c :: rest, 0 =>
    if c = '\\' then
      match rest with
      | [] => [.literal '\\']
      | next :: _ => .literal next :: tokensLoop rest 1
    else if c = '*' then
      if rest.head? = some '*' then .doubleStar :: tokensLoop rest 1
      else .star :: tokensLoop rest 0
    else if c = '?' then .anyChar :: tokensLoop rest 0
    else if c = '[' then
      match readClass rest with
      | none => .literal '[' :: tokensLoop rest 0
      | some (token, n) => token :: tokensLoop rest n
    else .literal c :: tokensLoop rest 0

def tokens (pattern : Text) : List Token :=
  tokensLoop pattern 0

end reading

/-- The meaning of a pattern. -/
def Matches (pattern text : Text) : Prop :=
  Covers (tokens pattern) text

end NriSupplyChain.Glob
