import NriSupplyChain.Glob.Compilation

/-!
Where matching a valid pattern agrees with its meaning. The two differ in two
ways. The expression of a pattern can be refused although each of its classes
compiles, and `**` is translated to an expression that stops at a newline. A
newline tells the two apart whenever the rest of the pattern matches something:
a run of `**` over many newlines with slashes between them cannot be taken over
by the other tokens.
-/

namespace NriSupplyChain.Glob

open Lib Regexp

section lines

/-- What the expression of a token matches. -/
def Token.CoversLine : Token → Text → Prop
  | .doubleStar, text => '\n' ∉ text
  | token, text => token.Covers text

def CoversLine : List Token → Text → Prop
  | [], text => text = []
  | token :: rest, text => ∃ u v, text = u ++ v ∧ token.CoversLine u ∧ CoversLine rest v

theorem contains_single (c d : Char) : Range.contains (c, c) d = decide (d = c) := by
  unfold Range.contains
  by_cases h : d = c
  · simp [h]
  · have hne : ¬ (c ≤ d ∧ d ≤ c) := fun hle => h (Char.le_antisymm hle.2 hle.1)
    simpa [h] using fun h1 h2 => hne ⟨h1, h2⟩

theorem noSlash_accepts (c : Char) :
    (Atom.set true [.range ('/', '/')]).accepts c = true ↔ c ≠ '/' := by
  simp [Atom.accepts, Member.contains, contains_single]

theorem any_range_iff (chars : List ClassChar) (c : Char) :
    ((classRanges chars).map Member.range).any (·.contains c) = true ↔ Listed chars c := by
  simp [Listed, Member.contains, Range.contains]

theorem charClass_accepts (negated : Bool) (chars : List ClassChar) (c : Char) :
    (Token.charClass negated chars).atom.accepts c = true ↔
      (Token.charClass negated chars).Covers [c] := by
  cases negated with
  | false =>
    have haccepts : (Token.charClass false chars).atom.accepts c =
        ((classRanges chars).map Member.range).any (·.contains c) := by
      simp [Token.atom, Atom.accepts, classMembers, writtenChars]
    rw [haccepts, any_range_iff]
    simp [Token.Covers]
  | true =>
    have hranges : classRanges (writtenChars true chars) = ('/', '/') :: classRanges chars := by
      rw [writtenChars, classRanges_single (literalDash_head_ne chars),
        (classRanges_literalDash chars).1]
    have haccepts : (Token.charClass true chars).atom.accepts c =
        !(decide (c = '/') || ((classRanges chars).map Member.range).any (·.contains c)) := by
      rw [Token.atom, Atom.accepts, classMembers, hranges]
      simp [Member.contains, contains_single]
    rw [haccepts, Bool.not_eq_true', Bool.or_eq_false_iff, decide_eq_false_iff_not,
      ← Bool.not_eq_true, any_range_iff]
    simp [Token.Covers]

theorem mem_iff_forall_ne {text : Text} {c : Char} : c ∉ text ↔ ∀ d ∈ text, d ≠ c := by
  constructor
  · rintro h d hd rfl
    exact h hd
  · intro h hc
    exact h c hc rfl

/-- The items of tokens match what the expressions of the tokens match. -/
theorem whole_items_iff (tokens : List Token) (text : Text) :
    Whole (tokens.map Token.item) text ↔ CoversLine tokens text := by
  induction tokens generalizing text with
  | nil => exact whole_nil_iff
  | cons token rest ih =>
    have hone : ∀ atom, token.item = .one atom →
        (∀ u, token.CoversLine u ↔ ∃ c, u = [c] ∧ atom.accepts c = true) →
        (Whole ((token :: rest).map Token.item) text ↔ CoversLine (token :: rest) text) := by
      intro atom hitem hcovers
      rw [List.map_cons, hitem, whole_one_iff, CoversLine]
      constructor
      · rintro ⟨c, v, rfl, hc, hv⟩
        exact ⟨[c], v, rfl, (hcovers _).mpr ⟨c, rfl, hc⟩, (ih v).mp hv⟩
      · rintro ⟨u, v, rfl, hu, hv⟩
        obtain ⟨c, rfl, hc⟩ := (hcovers u).mp hu
        exact ⟨c, v, rfl, hc, (ih v).mpr hv⟩
    have hstar : ∀ atom, token.item = .star atom →
        (∀ u, token.CoversLine u ↔ ∀ c ∈ u, atom.accepts c = true) →
        (Whole ((token :: rest).map Token.item) text ↔ CoversLine (token :: rest) text) := by
      intro atom hitem hcovers
      rw [List.map_cons, hitem, whole_star_iff, CoversLine]
      simp only [hcovers, ih]
    cases token with
    | literal c =>
      apply hone (.char c) rfl
      intro u
      simp [Token.CoversLine, Token.Covers, Atom.accepts]
    | star =>
      apply hstar _ rfl
      intro u
      simp only [Token.atom, noSlash_accepts]
      exact mem_iff_forall_ne
    | doubleStar =>
      apply hstar _ rfl
      intro u
      simp only [Token.atom, Atom.accepts, decide_eq_true_eq]
      exact mem_iff_forall_ne
    | anyChar =>
      apply hone _ rfl
      intro u
      simp only [Token.atom, noSlash_accepts]
      rfl
    | charClass negated chars =>
      apply hone _ rfl
      intro u
      simp only [charClass_accepts]
      cases negated <;> simp [Token.CoversLine, Token.Covers]

end lines

section newlines

/-- The number of newlines that a slash follows. -/
def crossings : Text → Nat
  | [] => 0
  | c :: rest => crossings rest + if c = '\n' ∧ rest.head? = some '/' then 1 else 0

theorem crossings_le_append (u v : Text) : crossings v ≤ crossings (u ++ v) := by
  induction u with
  | nil => exact le_refl _
  | cons c u ih => exact le_trans ih (Nat.le_add_right _ _)

/-- Putting two texts together makes at most one new crossing. -/
theorem crossings_append_le (u v : Text) : crossings (u ++ v) ≤ crossings u + crossings v + 1 := by
  induction u with
  | nil =>
    simp only [List.nil_append, crossings]
    omega
  | cons c u ih =>
    cases u with
    | nil =>
      simp only [List.singleton_append, crossings]
      split <;> omega
    | cons d u =>
      have hhead : (d :: u ++ v).head? = (d :: u).head? := rfl
      rw [List.cons_append, crossings, crossings, hhead]
      omega

variable {text : Text}

theorem crossings_of_no_slash (h : '/' ∉ text) : crossings text = 0 := by
  induction text with
  | nil => rfl
  | cons c rest ih =>
    have hhead : rest.head? ≠ some '/' := by
      intro hhead
      exact h (List.mem_cons_of_mem c (List.mem_of_mem_head? hhead))
    have hrest : '/' ∉ rest := fun hmem => h (List.mem_cons_of_mem c hmem)
    simp [crossings, ih hrest, hhead]

theorem crossings_of_no_newline (h : '\n' ∉ text) : crossings text = 0 := by
  induction text with
  | nil => rfl
  | cons c rest ih =>
    have hc : c ≠ '\n' := by
      rintro rfl
      exact h (by simp)
    have hrest : '\n' ∉ rest := fun hmem => h (List.mem_cons_of_mem c hmem)
    simp [crossings, ih hrest, hc]

theorem crossings_singleton (c : Char) : crossings [c] = 0 := by
  simp [crossings]

variable {token : Token}

/-- No expression of a token matches a newline and the slash behind it. -/
theorem Token.CoversLine.crossings_eq (h : token.CoversLine text) : crossings text = 0 := by
  cases token with
  | literal c =>
    obtain rfl : text = [c] := h
    exact crossings_singleton c
  | star => exact crossings_of_no_slash h
  | doubleStar => exact crossings_of_no_newline h
  | anyChar =>
    obtain ⟨c, rfl, -⟩ := h
    exact crossings_singleton c
  | charClass negated chars =>
    cases negated with
    | false =>
      obtain ⟨c, rfl, -⟩ := h
      exact crossings_singleton c
    | true =>
      obtain ⟨c, rfl, -⟩ := h
      exact crossings_singleton c

variable {tokens : List Token}

theorem CoversLine.crossings_le (h : CoversLine tokens text) : crossings text ≤ tokens.length := by
  induction tokens generalizing text with
  | nil =>
    obtain rfl : text = [] := h
    exact le_refl _
  | cons token rest ih =>
    obtain ⟨u, v, rfl, hu, hv⟩ := h
    have hjoin := crossings_append_le u v
    have hzero := hu.crossings_eq
    have hrest := ih hv
    rw [List.length_cons]
    omega

/-- A text with as many crossings as wanted. -/
def crossingText : Nat → Text
  | 0 => []
  | n + 1 => '\n' :: '/' :: crossingText n

theorem le_crossings_crossingText (n : Nat) (v : Text) : n ≤ crossings (crossingText n ++ v) := by
  induction n with
  | zero => exact Nat.zero_le _
  | succ n ih => simpa [crossingText, crossings] using ih

theorem exists_covers (h : ∀ token ∈ tokens, ∃ text, token.Covers text) :
    ∃ text, Covers tokens text := by
  induction tokens with
  | nil => exact ⟨[], rfl⟩
  | cons token rest ih =>
    obtain ⟨u, hu⟩ := h token (by simp)
    obtain ⟨v, hv⟩ := ih (fun token htoken => h token (by simp [htoken]))
    exact ⟨u ++ v, u, v, rfl, hu, hv⟩

/-- A `**` between tokens that match something takes as many newlines as wanted. -/
theorem exists_covers_crossings (h : ∀ token ∈ tokens, ∃ text, token.Covers text)
    (hstar : .doubleStar ∈ tokens) (n : Nat) : ∃ text, Covers tokens text ∧ n ≤ crossings text := by
  induction tokens with
  | nil => cases hstar
  | cons token rest ih =>
    have hrest : ∀ token ∈ rest, ∃ text, token.Covers text :=
      fun token htoken => h token (by simp [htoken])
    rcases List.mem_cons.mp hstar with heq | hstar
    · subst heq
      obtain ⟨v, hv⟩ := exists_covers hrest
      exact ⟨crossingText n ++ v, ⟨_, v, rfl, trivial, hv⟩, le_crossings_crossingText n v⟩
    · obtain ⟨u, hu⟩ := h token (by simp)
      obtain ⟨v, hv, hcrossings⟩ := ih hrest hstar
      exact ⟨u ++ v, ⟨u, v, rfl, hu, hv⟩, le_trans hcrossings (crossings_le_append u v)⟩

theorem Token.CoversLine.covers (h : token.CoversLine text) : token.Covers text := by
  cases token with
  | doubleStar => exact trivial
  | _ => exact h

theorem CoversLine.covers (h : CoversLine tokens text) : Covers tokens text := by
  induction tokens generalizing text with
  | nil => exact h
  | cons token rest ih =>
    obtain ⟨u, v, rfl, hu, hv⟩ := h
    exact ⟨u, v, rfl, hu.covers, ih hv⟩

theorem Covers.coversLine (hstar : .doubleStar ∉ tokens) (h : Covers tokens text) :
    CoversLine tokens text := by
  induction tokens generalizing text with
  | nil => exact h
  | cons token rest ih =>
    obtain ⟨u, v, rfl, hu, hv⟩ := h
    refine ⟨u, v, rfl, ?_, ih (fun hmem => hstar (List.mem_cons_of_mem token hmem)) hv⟩
    cases token with
    | doubleStar => exact absurd (List.mem_cons_self) hstar
    | _ => exact hu

theorem Covers.exists_covers (h : Covers tokens text) (htoken : token ∈ tokens) :
    ∃ u, token.Covers u := by
  induction tokens generalizing text with
  | nil => cases htoken
  | cons first rest ih =>
    obtain ⟨u, v, rfl, hu, hv⟩ := h
    rcases List.mem_cons.mp htoken with rfl | hrest
    · exact ⟨u, hu⟩
    · exact ih hv hrest

/-- The expressions of tokens match what the tokens stand for if there is no `**`, or
if nothing is matched at all. -/
theorem coversLine_iff_covers (tokens : List Token) :
    (∀ text, CoversLine tokens text ↔ Covers tokens text) ↔
      .doubleStar ∉ tokens ∨ ∃ token ∈ tokens, ∀ text, ¬ token.Covers text := by
  constructor
  · intro h
    by_contra hnot
    obtain ⟨hstar, hdead⟩ := not_or.mp hnot
    have halive : ∀ token ∈ tokens, ∃ text, token.Covers text := by
      intro token htoken
      by_contra hnone
      exact hdead ⟨token, htoken, fun text hcovers => hnone ⟨text, hcovers⟩⟩
    obtain ⟨text, hcovers, hcrossings⟩ :=
      exists_covers_crossings halive (not_not.mp hstar) (tokens.length + 1)
    have hless := ((h text).mpr hcovers).crossings_le
    omega
  · rintro (hstar | ⟨token, htoken, hdead⟩) text
    · exact ⟨CoversLine.covers, Covers.coversLine hstar⟩
    · refine ⟨CoversLine.covers, fun hcovers => ?_⟩
      obtain ⟨u, hu⟩ := hcovers.exists_covers htoken
      exact absurd hu (hdead u)

end newlines

section agreement

instance (tokens : List Token) : Decidable (NoStrayName tokens) :=
  inferInstanceAs (Decidable (tokens.Pairwise _))

theorem item_isAnchor (token : Token) : token.item.isAnchor = false := by
  cases token with
  | star => rfl
  | doubleStar => rfl
  | literal c => rfl
  | anyChar => rfl
  | charClass negated chars => rfl

/-- What matching a valid pattern returns, if its expression is not refused. -/
theorem matchPattern_eq {pattern : Text} (h : validate pattern = .ok ())
    (hnames : NoStrayName (tokens pattern)) (text : Text) :
    ∃ b, matchPattern pattern text = .ok b ∧
      (b = true ↔ CoversLine (tokens pattern) text) := by
  refine ⟨matchString (.start :: (tokens pattern).map Token.item ++ [.stop]) text, ?_, ?_⟩
  · rw [matchPattern, (compilePattern_of_valid h).1 hnames]
    rfl
  · rw [matchString_anchored, whole_items_iff]
    intro item hitem
    obtain ⟨token, -, rfl⟩ := List.mem_map.mp hitem
    exact item_isAnchor token

/-- Matching a valid pattern agrees with its meaning on every text exactly when no class
with a member that starts with `[:` stands before a class that ends with a colon, and
`**` does not occur next to tokens that all match something. -/
theorem globMatch_agrees_iff (cache : PatternCache) (pattern : Text)
    (h : validate pattern = .ok ()) :
    (∀ text, ∃ b, (cache.globMatch pattern text).1 = .ok b ∧
        (b = true ↔ Matches pattern text)) ↔
      NoStrayName (tokens pattern) ∧
        (.doubleStar ∉ tokens pattern ∨
          ∃ token ∈ tokens pattern, ∀ text, ¬ token.Covers text) := by
  simp only [PatternCache.globMatch_fst]
  rw [← coversLine_iff_covers]
  constructor
  · intro hagree
    have hnames : NoStrayName (tokens pattern) := by
      by_contra hstray
      obtain ⟨b, hb, -⟩ := hagree []
      rw [matchPattern, (compilePattern_of_valid h).2 hstray] at hb
      cases hb
    refine ⟨hnames, fun text => ?_⟩
    obtain ⟨b, hb, hcovers⟩ := hagree text
    obtain ⟨b', hb', hline⟩ := matchPattern_eq h hnames text
    obtain rfl : b = b' := Except.ok.inj (hb.symm.trans hb')
    exact hline.symm.trans hcovers
  · rintro ⟨hnames, hlines⟩ text
    obtain ⟨b, hb, hline⟩ := matchPattern_eq h hnames text
    exact ⟨b, hb, hline.trans (hlines text)⟩

theorem globMatch_agrees_image :
    validate "ghcr.io/*/[!-a]pp:v?".toList = .ok () ∧
      ∀ text, ∃ b,
        (PatternCache.resetCache.globMatch "ghcr.io/*/[!-a]pp:v?".toList text).1 = .ok b ∧
        (b = true ↔ Matches "ghcr.io/*/[!-a]pp:v?".toList text) :=
  ⟨by decide, (globMatch_agrees_iff PatternCache.resetCache _ (by decide)).mpr
    ⟨by decide, .inl (by decide)⟩⟩

/-- A `**` does not match a newline, and two valid classes can make a pattern fail. -/
theorem globMatch_disagrees :
    (validate "**".toList = .ok () ∧ Matches "**".toList "\n".toList ∧
      (PatternCache.resetCache.globMatch "**".toList "\n".toList).1 = .ok false) ∧
    validate "[[:][:]".toList = .ok () ∧ Matches "[[:][:]".toList "[:".toList ∧
      (PatternCache.resetCache.globMatch "[[:][:]".toList "[:".toList).1 =
        .error .invalidRegexp := by
  refine ⟨⟨by decide, ?_, by decide⟩, by decide, ?_, by decide⟩
  · exact ⟨['\n'], [], rfl, trivial, rfl⟩
  · refine ⟨['['], [':'], rfl, ⟨'[', rfl, ('[', '['), by decide, by decide⟩, ?_⟩
    exact ⟨[':'], [], rfl, ⟨':', rfl, (':', ':'), by decide, by decide⟩, rfl⟩

end agreement

end NriSupplyChain.Glob
