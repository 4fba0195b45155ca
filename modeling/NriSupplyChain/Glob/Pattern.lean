import NriSupplyChain.Lib.Regexp

/-!
Glob patterns of `internal/glob`: how a pattern is validated, turned into a
regular expression and matched. The source walks the runes of a pattern by index
and jumps over what it has read; here the walk is over the remaining runes, with
the number of runes still to be jumped over as an argument. A class is passed
around as the runes between its brackets. Runes are the characters of a valid
UTF-8 text. The size limits of the regexp package are left out.
-/

namespace NriSupplyChain.Glob

open Lib

def isClassNegation (r : Char) : Bool :=
  r = '^' || r = '!'

/-- The number of runes up to the bracket that closes a class, from `idx` on. -/
def scanBracketEnd : Text → Nat → Option Nat
  | '\\' :: _ :: rest, idx => scanBracketEnd rest (idx + 2)
  | r :: rest, idx => if r = ']' then some idx else scanBracketEnd rest (idx + 1)
  | [], _ => none

/-- The number of runes between an opening bracket and the one that closes it. -/
def findBracketEnd (runes : Text) : Option Nat :=
  let negation := if runes.head?.any isClassNegation then 1 else 0
  let leading := if (runes.drop negation).head? = some ']' then 1 else 0
  scanBracketEnd (runes.drop (negation + leading)) (negation + leading)

/-- What opens a class in the regular expression, and the runes left to be read. -/
def writeClassOpening (runes : Text) : Text × Text :=
  let (opening, runes) :=
    if runes.head?.any isClassNegation then
      if runes.tail.head? = some '-' then ("[^/\\-".toList, runes.tail.tail)
      else ("[^/".toList, runes.tail)
    else ("[".toList, runes)
  if runes.head? = some ']' then (opening ++ "\\]".toList, runes.tail) else (opening, runes)

/-- The escapes that the regular expression keeps inside of a class. -/
def keepsEscape (ch : Char) : Bool :=
  ch = '\\' || ch = ']' || ch = '-' || ch = '^'

def escapeMembers : Text → Text
  | '\\' :: ch :: rest => (if keepsEscape ch then ['\\', ch] else [ch]) ++ escapeMembers rest
  | r :: rest => r :: escapeMembers rest
  | [] => []

def escapeCharClass (runes : Text) : Text :=
  let (opening, rest) := writeClassOpening runes
  opening ++ escapeMembers rest ++ [']']

def classCompiles (runes : Text) : Bool :=
  (Regexp.compile (escapeCharClass runes)).isSome

inductive GlobError where
  | invalidCharClass (runes : Text)
  | invalidRegexp
deriving DecidableEq, Repr

def validateLoop : Text → Nat → Except GlobError Unit
  | [], _ => .ok ()
  | _ :: rest, jump + 1 => validateLoop rest jump
  | r :: rest, 0 =>
    if r = '\\' then validateLoop rest 1
    else if r = '[' then
      match findBracketEnd rest with
      | none => validateLoop rest 0
      | some len =>
        if classCompiles (rest.take len) then validateLoop rest (len + 1)
        else .error (.invalidCharClass ('[' :: rest.take (len + 1)))
    else validateLoop rest 0

def validate (pattern : Text) : Except GlobError Unit :=
  validateLoop pattern 0

def convertBracketExpr (runes : Text) (len : Nat) : Text :=
  if classCompiles (runes.take len) then escapeCharClass (runes.take len)
  else ('[' :: runes.take (len + 1)).flatMap Regexp.quoteMeta

def toRegexLoop : Text → Nat → Text
  | [], _ => []
  | _ :: rest, jump + 1 => toRegexLoop rest jump
  | r :: rest, 0 =>
    if r = '\\' then
      match rest with
      | [] => Regexp.quoteMeta '\\'
      | next :: _ => Regexp.quoteMeta next ++ toRegexLoop rest 1
    else if r = '*' then
      if rest.head? = some '*' then ".*".toList ++ toRegexLoop rest 1
      else "[^/]*".toList ++ toRegexLoop rest 0
    else if r = '?' then "[^/]".toList ++ toRegexLoop rest 0
    else if r = '[' then
      match findBracketEnd rest with
      | none => Regexp.quoteMeta '[' ++ toRegexLoop rest 0
      | some len => convertBracketExpr rest len ++ toRegexLoop rest (len + 1)
    else Regexp.quoteMeta r ++ toRegexLoop rest 0

def toRegex (pattern : Text) : Text :=
  toRegexLoop pattern 0

/-- The part of `compile` behind the cache. -/
def compilePattern (pattern : Text) : Except GlobError (List Regexp.Item) := do
  validate pattern
  match Regexp.compile ('^' :: toRegex pattern ++ ['$']) with
  | none => .error .invalidRegexp
  | some compiled => .ok compiled

/-- The cached expressions. Each entry is what its pattern compiles to. -/
structure PatternCache where
  compiledPatterns : List (Text × List Regexp.Item)
  cachedCount : Nat
  coherent : ∀ entry ∈ compiledPatterns, compilePattern entry.1 = .ok entry.2

def maxCachedPatterns : Nat :=
  10000

namespace PatternCache

def resetCache : PatternCache where
  compiledPatterns := []
  cachedCount := 0
  coherent := by simp

def load (cache : PatternCache) (pattern : Text) : Option (List Regexp.Item) :=
  (cache.compiledPatterns.find? (·.1 = pattern)).map (·.2)

def store (cache : PatternCache) (pattern : Text) (compiled : List Regexp.Item)
    (h : compilePattern pattern = .ok compiled) : PatternCache :=
  if cache.cachedCount < maxCachedPatterns then
    { compiledPatterns := (pattern, compiled) :: cache.compiledPatterns
      cachedCount := cache.cachedCount + 1
      coherent := by
        intro entry hentry
        rcases List.mem_cons.mp hentry with rfl | hentry
        · exact h
        · exact cache.coherent entry hentry }
  else cache

theorem load_eq_some {cache : PatternCache} {pattern : Text} {compiled : List Regexp.Item}
    (h : cache.load pattern = some compiled) : compilePattern pattern = .ok compiled := by
  obtain ⟨entry, hfind, rfl⟩ := Option.map_eq_some_iff.mp h
  have hpattern : entry.1 = pattern := by simpa using List.find?_some hfind
  rw [← hpattern]
  exact cache.coherent entry (List.mem_of_find?_eq_some hfind)

def compile (cache : PatternCache) (pattern : Text) :
    Except GlobError (List Regexp.Item) × PatternCache :=
  match cache.load pattern with
  | some compiled => (.ok compiled, cache)
  | none =>
    match h : compilePattern pattern with
    | .error err => (.error err, cache)
    | .ok compiled => (.ok compiled, cache.store pattern compiled h)

/-- What is cached changes no result. -/
theorem compile_fst (cache : PatternCache) (pattern : Text) :
    (cache.compile pattern).1 = compilePattern pattern := by
  unfold compile
  split
  · next hload => exact (load_eq_some hload).symm
  · split
    · next h => exact h.symm
    · next h => exact h.symm

/-- `Match`, with the cache that the call leaves behind. -/
def globMatch (cache : PatternCache) (pattern text : Text) :
    Except GlobError Bool × PatternCache :=
  let (compiled, cache) := cache.compile pattern
  (compiled.map (Regexp.matchString · text), cache)

end PatternCache

/-- `Match` as a function of its arguments alone. -/
def matchPattern (pattern text : Text) : Except GlobError Bool :=
  (compilePattern pattern).map (Regexp.matchString · text)

theorem PatternCache.globMatch_fst (cache : PatternCache) (pattern text : Text) :
    (cache.globMatch pattern text).1 = matchPattern pattern text := by
  unfold globMatch matchPattern
  rw [← compile_fst cache pattern]

end NriSupplyChain.Glob
