import NriSupplyChain.Glob.Reference

/-!
The regular expression of a valid pattern, token by token. Reading a class as the
reference does and scanning for its closing bracket as the source does stop at
the same place, and what the source writes for the class depends on the
characters read only.
-/

namespace NriSupplyChain.Glob

open Lib

section classes

def escapeChar : ClassChar → Text
  | (c, true) => if keepsEscape c then ['\\', c] else [c]
  | (c, false) => [c]

/-- A dash that leads a negated class is written with a backslash. -/
def literalDash : List ClassChar → List ClassChar
  | ('-', false) :: rest => ('-', true) :: rest
  | chars => chars

/-- Closing brackets and backslashes are listed behind a backslash only. -/
def Unambiguous (chars : List ClassChar) : Prop :=
  ∀ c, (c, false) ∈ chars → c ≠ ']' ∧ c ≠ '\\'

variable {chars : List ClassChar}

theorem unambiguous_cons_true (c : Char) (h : Unambiguous chars) :
    Unambiguous ((c, true) :: chars) := by
  intro d hd
  have hmem : (d, false) ∈ chars := by simpa using hd
  exact h d hmem

theorem unambiguous_cons_false {c : Char} (hc : c ≠ ']' ∧ c ≠ '\\') (h : Unambiguous chars) :
    Unambiguous ((c, false) :: chars) := by
  intro d hd
  rcases List.mem_cons.mp hd with heq | hmem
  · obtain ⟨rfl, -⟩ := Prod.mk.inj heq
    exact hc
  · exact h d hmem

variable {text : Text}

theorem scanBracketEnd_of_readChars_none (h : readChars text = none) (idx : Nat) :
    scanBracketEnd text idx = none := by
  fun_induction readChars text generalizing idx with
  | case1 => rfl
  | case2 => cases h
  | case3 c rest ih =>
    rw [scanBracketEnd]
    exact ih (Option.map_eq_none_iff.mp h) (idx + 2)
  | case4 c rest hbracket hescape ih =>
    have hne : c ≠ ']' := fun heq => hbracket heq
    rw [scanBracketEnd, if_neg hne]
    · exact ih (Option.map_eq_none_iff.mp h) (idx + 1)
    · exact hescape

/-- Where reading a class ends, scanning for its bracket ends. -/
theorem scanBracketEnd_of_readChars {n : Nat} (h : readChars text = some (chars, n)) :
    ∃ len, n = len + 1 ∧ (∀ idx, scanBracketEnd text idx = some (idx + len)) ∧
      escapeMembers (text.take len) = chars.flatMap escapeChar ∧ Unambiguous chars := by
  fun_induction readChars text generalizing chars n with
  | case1 => cases h
  | case2 rest =>
    cases h
    exact ⟨0, rfl, by simp [scanBracketEnd], by simp [escapeMembers], by simp [Unambiguous]⟩
  | case3 c rest ih =>
    obtain ⟨⟨chars, n⟩, hrest, hpair⟩ := Option.map_eq_some_iff.mp h
    obtain ⟨rfl, rfl⟩ := Prod.mk.inj hpair
    obtain ⟨len, rfl, hscan, hescape, hok⟩ := ih hrest
    refine ⟨len + 2, rfl, ?_, ?_, unambiguous_cons_true c hok⟩
    · intro idx
      rw [scanBracketEnd, hscan]
      congr 1
      omega
    · simp [escapeMembers, hescape, escapeChar]
  | case4 c rest hbracket hescaped ih =>
    obtain ⟨⟨chars, n⟩, hrest, hpair⟩ := Option.map_eq_some_iff.mp h
    obtain ⟨rfl, rfl⟩ := Prod.mk.inj hpair
    obtain ⟨len, rfl, hscan, hescape, hok⟩ := ih hrest
    have hne : c ≠ ']' := fun heq => hbracket heq
    have hplain : c ≠ '\\' := by
      rintro rfl
      cases rest with
      | nil => cases hrest
      | cons d rest => exact hescaped d rest rfl rfl
    refine ⟨len + 1, rfl, ?_, ?_, unambiguous_cons_false ⟨hne, hplain⟩ hok⟩
    · intro idx
      rw [scanBracketEnd, if_neg hne, hscan]
      · congr 1
        omega
      · exact hescaped
    · rw [List.take_succ_cons, escapeMembers, hescape]
      · rfl
      · intro d rest' heq
        exact absurd heq hplain

/-- What is written for the runes behind the opening of a class. -/
def writeListed (runes : Text) : Text :=
  if runes.head? = some ']' then "\\]".toList ++ escapeMembers runes.tail else escapeMembers runes

variable {runes : Text}

theorem escapeCharClass_plain (h : runes.head?.any isClassNegation = false) :
    escapeCharClass runes = '[' :: writeListed runes ++ [']'] := by
  unfold escapeCharClass writeClassOpening writeListed
  rw [h]
  by_cases hclose : runes.head? = some ']' <;> simp [hclose]

theorem escapeCharClass_negated {r : Char} (h : isClassNegation r = true)
    (hdash : runes.head? ≠ some '-') :
    escapeCharClass (r :: runes) = "[^/".toList ++ writeListed runes ++ [']'] := by
  unfold escapeCharClass writeClassOpening writeListed
  by_cases hclose : runes.head? = some ']' <;> simp [h, hdash, hclose]

theorem escapeCharClass_dash {r : Char} (h : isClassNegation r = true) :
    escapeCharClass (r :: '-' :: runes) = "[^/\\-".toList ++ writeListed runes ++ [']'] := by
  unfold escapeCharClass writeClassOpening writeListed
  by_cases hclose : runes.head? = some ']' <;> simp [h, hclose]

/-- The part of a class that reading covers does not start with its closing bracket. -/
theorem writeListed_of_readChars {len : Nat} (h : readChars text = some (chars, len + 1)) :
    writeListed (text.take len) = chars.flatMap escapeChar := by
  obtain ⟨len', hlen, -, hescape, -⟩ := scanBracketEnd_of_readChars h
  obtain rfl : len = len' := by omega
  have hhead : (text.take len).head? ≠ some ']' := by
    intro hhead
    cases text with
    | nil => cases h
    | cons c rest =>
      cases len with
      | zero => simp at hhead
      | succ len =>
        obtain rfl : c = ']' := by simpa using hhead
        simp [readChars] at h
  rw [writeListed, if_neg hhead, hescape]

/-- The number of runes that a leading closing bracket takes. -/
def leadingBracket (runes : Text) : Nat :=
  if runes.head? = some ']' then 1 else 0

theorem readListed_of_head_ne (h : text.head? ≠ some ']') : readListed text = readChars text := by
  rw [readListed]
  rintro rest rfl
  exact h rfl

theorem scanBracketEnd_of_readListed_none (h : readListed text = none) (idx : Nat) :
    scanBracketEnd (text.drop (leadingBracket text)) (idx + leadingBracket text) = none := by
  unfold leadingBracket
  by_cases hhead : text.head? = some ']'
  · obtain ⟨rest, rfl⟩ := List.head?_eq_some_iff.mp hhead
    exact scanBracketEnd_of_readChars_none (Option.map_eq_none_iff.mp h) _
  · rw [if_neg hhead]
    rw [readListed_of_head_ne hhead] at h
    exact scanBracketEnd_of_readChars_none h _

theorem scanBracketEnd_of_readListed {n : Nat} (h : readListed text = some (chars, n)) :
    ∃ len, n = len + 1 ∧
      (∀ idx, scanBracketEnd (text.drop (leadingBracket text)) (idx + leadingBracket text) =
        some (idx + len)) ∧
      writeListed (text.take len) = chars.flatMap escapeChar ∧ Unambiguous chars ∧
      chars ≠ [] := by
  unfold leadingBracket
  by_cases hhead : text.head? = some ']'
  · obtain ⟨rest, rfl⟩ := List.head?_eq_some_iff.mp hhead
    obtain ⟨⟨chars, n⟩, hrest, hpair⟩ := Option.map_eq_some_iff.mp h
    obtain ⟨rfl, rfl⟩ := Prod.mk.inj hpair
    obtain ⟨len, rfl, hscan, hescape, hok⟩ := scanBracketEnd_of_readChars hrest
    refine ⟨len + 1, rfl, ?_, ?_, unambiguous_cons_true _ hok, by simp⟩
    · intro idx
      simp [hscan]
      omega
    · simp [writeListed, hescape, escapeChar, keepsEscape]
  · rw [readListed_of_head_ne hhead] at h
    obtain ⟨len, rfl, hscan, hescape, hok⟩ := scanBracketEnd_of_readChars h
    refine ⟨len, rfl, ?_, writeListed_of_readChars h, hok, ?_⟩
    · intro idx
      simp [hhead, hscan]
    · rintro rfl
      cases text with
      | nil => cases h
      | cons c rest =>
        have hc : c ≠ ']' := fun heq => hhead (by rw [heq]; rfl)
        unfold readChars at h
        split at h <;> simp_all

end classes

def Token.regex : Token → Text
  | .literal c => Regexp.quoteMeta c
  | .star => "[^/]*".toList
  | .doubleStar => ".*".toList
  | .anyChar => "[^/]".toList
  | .charClass false chars => '[' :: chars.flatMap escapeChar ++ [']']
  | .charClass true chars => "[^/".toList ++ (literalDash chars).flatMap escapeChar ++ [']']

/-- What reading a class guarantees. -/
def Token.WellFormed : Token → Prop
  | .charClass negated chars =>
    chars ≠ [] ∧ Unambiguous chars ∧ (negated = false → chars.head? ≠ some ('^', false))
  | _ => True

variable {text : Text}

theorem findBracketEnd_plain (h : ¬ text.head?.any isClassNegation = true) :
    findBracketEnd text =
      scanBracketEnd (text.drop (leadingBracket text)) (0 + leadingBracket text) := by
  unfold findBracketEnd
  rw [if_neg h]
  change scanBracketEnd (text.drop (0 + leadingBracket text)) (0 + leadingBracket text) = _
  rw [Nat.zero_add]

theorem findBracketEnd_negated {r : Char} {rest : Text} (h : isClassNegation r = true) :
    findBracketEnd (r :: rest) =
      scanBracketEnd (rest.drop (leadingBracket rest)) (1 + leadingBracket rest) := by
  have hhead : (r :: rest).head?.any isClassNegation = true := h
  unfold findBracketEnd
  rw [if_pos hhead]
  change scanBracketEnd ((r :: rest).drop (1 + leadingBracket rest)) (1 + leadingBracket rest) = _
  rw [Nat.add_comm 1, List.drop_succ_cons]

theorem findBracketEnd_of_readClass_none (h : readClass text = none) :
    findBracketEnd text = none := by
  unfold readClass at h
  by_cases hneg : text.head?.any isClassNegation = true
  · cases text with
    | nil => cases hneg
    | cons r rest =>
      rw [if_pos hneg] at h
      rw [findBracketEnd_negated hneg]
      exact scanBracketEnd_of_readListed_none (Option.map_eq_none_iff.mp h) 1
  · rw [if_neg hneg] at h
    rw [findBracketEnd_plain hneg]
    exact scanBracketEnd_of_readListed_none (Option.map_eq_none_iff.mp h) 0

variable {n : Nat}

/-- A first character without a backslash is the first character of the text. -/
theorem head_of_readListed {chars : List ClassChar} {c : Char}
    (h : readListed text = some (chars, n)) (hc : chars.head? = some (c, false)) :
    text.head? = some c := by
  by_cases hhead : text.head? = some ']'
  · obtain ⟨rest, rfl⟩ := List.head?_eq_some_iff.mp hhead
    obtain ⟨⟨more, m⟩, -, hpair⟩ := Option.map_eq_some_iff.mp h
    obtain ⟨rfl, rfl⟩ := Prod.mk.inj hpair
    simp at hc
  · rw [readListed_of_head_ne hhead] at h
    unfold readChars at h
    split at h
    · cases h
    · exact absurd rfl hhead
    · obtain ⟨⟨more, m⟩, -, hpair⟩ := Option.map_eq_some_iff.mp h
      obtain ⟨rfl, rfl⟩ := Prod.mk.inj hpair
      simp at hc
    · obtain ⟨⟨more, m⟩, -, hpair⟩ := Option.map_eq_some_iff.mp h
      obtain ⟨rfl, rfl⟩ := Prod.mk.inj hpair
      simpa using hc

theorem escapeCharClass_of_readListed {r : Char} {chars : List ClassChar} {len : Nat}
    (hneg : isClassNegation r = true) (h : readListed text = some (chars, len + 1)) :
    escapeCharClass (r :: text.take len) = (Token.charClass true chars).regex := by
  obtain ⟨len', hlen, -, hwrite, -⟩ := scanBracketEnd_of_readListed h
  obtain rfl : len = len' := by omega
  by_cases hdash : text.head? = some '-'
  · obtain ⟨rest, rfl⟩ := List.head?_eq_some_iff.mp hdash
    obtain ⟨⟨chars, n⟩, hrest, hpair⟩ := Option.map_eq_some_iff.mp h
    obtain ⟨rfl, hn⟩ := Prod.mk.inj hpair
    obtain ⟨len', rfl, -⟩ := scanBracketEnd_of_readChars hrest
    obtain rfl : len = len' + 1 := by omega
    rw [List.take_succ_cons, escapeCharClass_dash hneg, writeListed_of_readChars hrest]
    simp [Token.regex, literalDash, escapeChar, keepsEscape]
  · have htake : (text.take len).head? ≠ some '-' := by
      cases len with
      | zero => simp
      | succ len => simpa [List.head?_take] using hdash
    have hchars : literalDash chars = chars := by
      unfold literalDash
      split
      · exact absurd (head_of_readListed h rfl) hdash
      · rfl
    rw [escapeCharClass_negated hneg htake, hwrite, Token.regex, hchars]

variable {token : Token}

/-- Reading a class and finding its end agree on where it ends, and what is written
for it is what its characters are written as. -/
theorem findBracketEnd_of_readClass (h : readClass text = some (token, n)) :
    ∃ len, n = len + 1 ∧ findBracketEnd text = some len ∧
      escapeCharClass (text.take len) = token.regex ∧ token.WellFormed := by
  unfold readClass at h
  by_cases hneg : text.head?.any isClassNegation = true
  · cases text with
    | nil => cases hneg
    | cons r rest =>
      rw [if_pos hneg] at h
      obtain ⟨⟨chars, n⟩, hread, hpair⟩ := Option.map_eq_some_iff.mp h
      obtain ⟨rfl, rfl⟩ := Prod.mk.inj hpair
      obtain ⟨len, rfl, hscan, -, hok, hne⟩ := scanBracketEnd_of_readListed hread
      refine ⟨len + 1, rfl, ?_, escapeCharClass_of_readListed hneg hread, hne, hok, nofun⟩
      rw [findBracketEnd_negated hneg, Nat.add_comm len]
      exact hscan 1
  · rw [if_neg hneg] at h
    obtain ⟨⟨chars, n⟩, hread, hpair⟩ := Option.map_eq_some_iff.mp h
    obtain ⟨rfl, rfl⟩ := Prod.mk.inj hpair
    obtain ⟨len, rfl, hscan, hwrite, hok, hne⟩ := scanBracketEnd_of_readListed hread
    have htake : (text.take len).head?.any isClassNegation = false := by
      cases len with
      | zero => simp
      | succ len => simpa [List.head?_take] using hneg
    refine ⟨len, rfl, ?_, ?_, hne, hok, ?_⟩
    · rw [findBracketEnd_plain hneg, hscan, Nat.zero_add]
    · rw [escapeCharClass_plain htake, hwrite]
      rfl
    · intro _ hhead
      rw [head_of_readListed hread hhead] at hneg
      exact hneg rfl

/-- The tokens of a valid pattern are well formed and their classes compile. -/
structure Token.Accepted (token : Token) : Prop where
  wellFormed : token.WellFormed
  compiles : ∀ negated chars, token = .charClass negated chars →
    (Regexp.compile token.regex).isSome

theorem Token.accepted_of_not_class (h : ∀ negated chars, token ≠ .charClass negated chars) :
    token.Accepted := by
  constructor
  · cases token with
    | charClass negated chars => exact absurd rfl (h negated chars)
    | _ => exact trivial
  · intro negated chars htoken
    exact absurd htoken (h negated chars)

/-- The expression of a pattern is that of its tokens, and these are accepted. -/
def Translated (pattern : Text) (jump : Nat) : Prop :=
  toRegexLoop pattern jump = (tokensLoop pattern jump).flatMap Token.regex ∧
    ∀ token ∈ tokensLoop pattern jump, token.Accepted

theorem translated_cons {c : Char} {rest : Text} (token : Token) (jump : Nat)
    (hregex : toRegexLoop (c :: rest) 0 = token.regex ++ toRegexLoop rest jump)
    (htokens : tokensLoop (c :: rest) 0 = token :: tokensLoop rest jump)
    (haccepted : token.Accepted) (h : Translated rest jump) : Translated (c :: rest) 0 := by
  constructor
  · rw [hregex, htokens, List.flatMap_cons, h.1]
  · intro other hother
    rw [htokens] at hother
    rcases List.mem_cons.mp hother with rfl | hother
    · exact haccepted
    · exact h.2 other hother

theorem accepted_of_readClass {len : Nat} (hread : readClass text = some (token, n))
    (hend : findBracketEnd text = some len) (hcompiles : classCompiles (text.take len) = true) :
    token.Accepted := by
  obtain ⟨len', -, hend', hregex, hformed⟩ := findBracketEnd_of_readClass hread
  obtain rfl : len' = len := Option.some.inj (hend'.symm.trans hend)
  refine ⟨hformed, ?_⟩
  intro _ _ _
  rw [← hregex]
  exact hcompiles

/-- A valid pattern is translated token by token. -/
theorem translated_of_validateLoop {pattern : Text} {jump : Nat}
    (h : validateLoop pattern jump = .ok ()) : Translated pattern jump := by
  induction pattern generalizing jump with
  | nil => exact ⟨by simp [toRegexLoop, tokensLoop], by simp [tokensLoop]⟩
  | cons c rest ih =>
    cases jump with
    | succ jump => exact ih h
    | zero =>
      unfold validateLoop at h
      by_cases hescape : c = '\\'
      · subst hescape
        cases rest with
        | nil =>
          exact translated_cons (.literal '\\') 0 rfl rfl (Token.accepted_of_not_class nofun)
            (ih rfl)
        | cons next more =>
          exact translated_cons (.literal next) 1 rfl rfl (Token.accepted_of_not_class nofun)
            (ih h)
      rw [if_neg hescape] at h
      by_cases hclass : c = '['
      · subst hclass
        cases hread : readClass rest with
        | none =>
          have hend := findBracketEnd_of_readClass_none hread
          simp only [hend, if_true] at h
          apply translated_cons (.literal '[') 0
          · simp [toRegexLoop, hend, Token.regex]
          · simp [tokensLoop, hread]
          · exact Token.accepted_of_not_class nofun
          · exact ih h
        | some found =>
          obtain ⟨token, n⟩ := found
          obtain ⟨len, rfl, hend, hregex, -⟩ := findBracketEnd_of_readClass hread
          simp only [hend, if_true] at h
          by_cases hcompiles : classCompiles (rest.take len) = true
          · rw [if_pos hcompiles] at h
            apply translated_cons token (len + 1)
            · simp [toRegexLoop, hend, convertBracketExpr, hcompiles, hregex]
            · simp [tokensLoop, hread]
            · exact accepted_of_readClass hread hend hcompiles
            · exact ih h
          · rw [if_neg hcompiles] at h
            cases h
      rw [if_neg hclass] at h
      by_cases hstar : c = '*'
      · subst hstar
        by_cases hdouble : rest.head? = some '*'
        · obtain ⟨more, rfl⟩ := List.head?_eq_some_iff.mp hdouble
          exact translated_cons .doubleStar 1 rfl rfl (Token.accepted_of_not_class nofun) (ih h)
        · apply translated_cons .star 0
          · simp [toRegexLoop, hdouble, Token.regex]
          · simp [tokensLoop, hdouble]
          · exact Token.accepted_of_not_class nofun
          · exact ih h
      by_cases hany : c = '?'
      · subst hany
        exact translated_cons .anyChar 0 rfl rfl (Token.accepted_of_not_class nofun) (ih h)
      · apply translated_cons (.literal c) 0
        · simp [toRegexLoop, hescape, hclass, hstar, hany, Token.regex]
        · simp [tokensLoop, hescape, hclass, hstar, hany]
        · exact Token.accepted_of_not_class nofun
        · exact ih h

end NriSupplyChain.Glob
