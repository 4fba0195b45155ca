import NriSupplyChain.Sbom.Licenses

/-!
License expressions as they are written: names joined by operators, with
parentheses, where the gap between two tokens is white space or invisible
characters and invisible characters may also stand inside a name or an
operator. The two readings of `splitSPDXExpression` are computed from the
written expression here, token by token.
-/

namespace NriSupplyChain.Sbom

open Lib

inductive Operator where
  | and
  | or
  | with_
deriving DecidableEq, Repr

def Operator.text : Operator → Text
  | .and => "AND".toList
  | .or => "OR".toList
  | .with_ => "WITH".toList

/-- One character of a written name or operator: part of it, or an invisible
character inside it. -/
inductive Glyph where
  | shown (char : Char)
  | hidden (char : Char)
deriving DecidableEq, Repr

def Glyph.char : Glyph → Char
  | .shown c => c
  | .hidden c => c

def Glyph.shown? : Glyph → Option Char
  | .shown c => some c
  | .hidden _ => none

def Glyph.fill (c : Char) : Glyph → Glyph
  | .shown _ => .shown c
  | .hidden z => .hidden z

/-- A token of an expression with the gap that follows it. -/
inductive Lexeme where
  | name (word : List Glyph) (gap : Text)
  | operator (op : Operator) (word : List Glyph) (gap : Text)
  | paren (char : Char) (gap : Text)
deriving DecidableEq, Repr

namespace Lexeme

def gap : Lexeme → Text
  | .name _ gap => gap
  | .operator _ _ gap => gap
  | .paren _ gap => gap

def isName : Lexeme → Bool
  | .name _ _ => true
  | _ => false

def isParen : Lexeme → Bool
  | .paren _ _ => true
  | _ => false

/-- The token without its invisible characters. -/
def visible : Lexeme → Text
  | .name word _ => word.filterMap Glyph.shown?
  | .operator _ word _ => word.filterMap Glyph.shown?
  | .paren char _ => [char]

/-- The token as it is written. -/
def spelled : Lexeme → Text
  | .name word _ => word.map Glyph.char
  | .operator _ word _ => word.map Glyph.char
  | .paren char _ => [char]

/-- A name with every shown character replaced. -/
def fillWith (c : Char) : Lexeme → Lexeme
  | .name word gap => .name (word.map (Glyph.fill c)) gap
  | other => other

/-- What is left of a token when the names are blanked. -/
def outline : Lexeme → Lexeme := fillWith ' '

end Lexeme

/-- Names joined by operators, with parentheses around any part. -/
inductive IsExpression : List Lexeme → Prop where
  | license (word : List Glyph) (gap : Text) : IsExpression [.name word gap]
  | join {left right : List Lexeme} (op : Operator) (word : List Glyph) (gap : Text) :
      IsExpression left → IsExpression right →
      IsExpression (left ++ .operator op word gap :: right)
  | group {inner : List Lexeme} (openGap closeGap : Text) : IsExpression inner →
      IsExpression (.paren '(' openGap :: inner ++ [.paren ')' closeGap])

/-- What is shown neither separates nor groups, what is hidden is invisible. -/
def Glyph.ok : Glyph → Bool
  | .shown c => !isSeparator c && !isParen c
  | .hidden c => isInvisible c

/-- Invisible characters stand inside the word, not at its ends. -/
structure WordOk (word : List Glyph) : Prop where
  glyphs : ∀ g ∈ word, g.ok = true
  opening : (word.head?.bind Glyph.shown?).isSome = true
  closing : (word.getLast?.bind Glyph.shown?).isSome = true

variable {word : List Glyph}

theorem WordOk.shown (h : WordOk word) (c : Char) (hc : .shown c ∈ word) :
    isSeparator c = false ∧ isParen c = false := by
  simpa [Glyph.ok] using h.glyphs _ hc

theorem WordOk.hidden (h : WordOk word) (c : Char) (hc : .hidden c ∈ word) : isInvisible c = true :=
  h.glyphs _ hc

theorem exists_shown {glyph : Option Glyph} (h : (glyph.bind Glyph.shown?).isSome = true) :
    ∃ c, glyph = some (.shown c) := by
  cases glyph with
  | none => simp at h
  | some g =>
    cases g with
    | shown c => exact ⟨c, rfl⟩
    | hidden c => simp [Glyph.shown?] at h

theorem WordOk.first (h : WordOk word) : ∃ c, word.head? = some (.shown c) :=
  exists_shown h.opening

theorem WordOk.last (h : WordOk word) : ∃ c, word.getLast? = some (.shown c) :=
  exists_shown h.closing

def Lexeme.Ok (table : CaseTable) : Lexeme → Prop
  | .name word gap => WordOk word ∧ (∀ c ∈ gap, isSeparator c = true) ∧
      isBoundary table (word.filterMap Glyph.shown?) = false ∧
      isWith table (word.filterMap Glyph.shown?) = false
  | .operator op word gap => WordOk word ∧ (∀ c ∈ gap, isSeparator c = true) ∧
      (word.filterMap Glyph.shown?).map Char.toUpper = op.text
  | .paren char gap => Sbom.isParen char = true ∧ ∀ c ∈ gap, isSeparator c = true

/-- Two words next to each other have a gap between them. -/
def Spaced (a b : Lexeme) : Prop :=
  a.isParen = false → b.isParen = false → a.gap ≠ []

/-- A written license expression after the separators `lead`. -/
structure WellFormed (table : CaseTable) (lead : Text) (lexemes : List Lexeme) : Prop where
  grammar : IsExpression lexemes
  lead : ∀ c ∈ lead, isSeparator c = true
  ok : ∀ x ∈ lexemes, x.Ok table
  spaced : lexemes.IsChain Spaced

def render (lexemes : List Lexeme) : Text :=
  lexemes.flatMap (fun x => x.spelled ++ x.gap)

/-- The license identifiers of an expression, invisible characters removed. An
exception after WITH is not one. -/
def licenses (table : CaseTable) : Bool → List Lexeme → List Text
  | _, [] => []
  | afterWith, .name word gap :: rest =>
    let id := (Lexeme.name word gap).visible
    (if afterWith && isLicenseException table id then [] else [id]) ++ licenses table false rest
  | _, .operator op _ _ :: rest => licenses table (op = .with_) rest
  | _, .paren _ _ :: rest => licenses table false rest

/-- No invisible character stands inside the word. -/
def Intact (word : List Glyph) : Prop :=
  ∀ g ∈ word, g.shown?.isSome = true

instance (word : List Glyph) : Decidable (Intact word) :=
  inferInstanceAs (Decidable (∀ g ∈ word, _))

/-- White space, a parenthesis or the end follows, so a name with this gap after
it stands apart from what comes next. -/
def Closed (gap : Text) : List Lexeme → Bool
  | [] => true
  | next :: _ => next.isParen || gap.any isSpace

/-- Every name is free of invisible characters inside, or has white space, a
parenthesis or the end of the expression on both sides. -/
def Exposed : Bool → List Lexeme → Prop
  | _, [] => True
  | apart, .name word gap :: rest =>
    (Intact word ∨ apart = true ∧ Closed gap rest = true) ∧ Exposed (gap.any isSpace) rest
  | _, .operator _ _ gap :: rest => Exposed (gap.any isSpace) rest
  | _, .paren _ _ :: rest => Exposed true rest

section tokenizer

theorem flush_append (tokens : List Text) (current : Text) :
    flush tokens current = tokens ++ flush [] current := by
  unfold flush
  split <;> simp

theorem tokenizeLoop_append (expr : Text) (tokens : List Text) (current : Text) :
    tokenizeLoop expr tokens current = tokens ++ tokenizeLoop expr [] current := by
  induction expr generalizing tokens current with
  | nil => exact flush_append tokens current
  | cons char rest ih =>
    unfold tokenizeLoop
    split
    · rw [ih (flush tokens current ++ [[char]]), ih (flush [] current ++ [[char]]),
        flush_append tokens]
      simp
    · split
      · rw [ih (flush tokens current), ih (flush [] current), flush_append tokens]
        simp
      · exact ih tokens _

variable {char : Char}

/-- A parenthesis is a token of its own. -/
theorem tokenizeLoop_paren (h : isParen char = true) (rest current : Text) :
    tokenizeLoop (char :: rest) [] current =
      flush [] current ++ [char] :: tokenizeLoop rest [] [] := by
  rw [tokenizeLoop, if_pos h, tokenizeLoop_append]
  simp

theorem isParen_of_isSeparator (h : isSeparator char = true) : isParen char = false := by
  have hopen : char ≠ '(' := by
    rintro rfl
    exact absurd h (by decide)
  have hclose : char ≠ ')' := by
    rintro rfl
    exact absurd h (by decide)
  simp [isParen, hopen, hclose]

theorem isSeparator_of_isParen (h : isParen char = true) : isSeparator char = false := by
  by_contra hsep
  rw [isParen_of_isSeparator (by simpa using hsep)] at h
  exact absurd h (by simp)

theorem tokenizeLoop_separator (h : isSeparator char = true) (rest current : Text) :
    tokenizeLoop (char :: rest) [] current = flush [] current ++ tokenizeLoop rest [] [] := by
  rw [tokenizeLoop, if_neg (by simp [isParen_of_isSeparator h]), if_pos h, tokenizeLoop_append]

/-- Characters of a word go to the current token. -/
theorem tokenizeLoop_word {word : Text}
    (h : ∀ c ∈ word, isSeparator c = false ∧ isParen c = false) (rest current : Text) :
    tokenizeLoop (word ++ rest) [] current = tokenizeLoop rest [] (current ++ word) := by
  induction word generalizing current with
  | nil => simp
  | cons char word ih =>
    have hchar := h char (by simp)
    rw [List.cons_append, tokenizeLoop, if_neg (by simp [hchar.2]), if_neg (by simp [hchar.1]),
      ih (fun c hc => h c (by simp [hc]))]
    simp

/-- Separators in front of the text are skipped. -/
theorem tokenizeLoop_gap {gap : Text} (h : ∀ c ∈ gap, isSeparator c = true) (rest : Text) :
    tokenizeLoop (gap ++ rest) [] [] = tokenizeLoop rest [] [] := by
  induction gap with
  | nil => rfl
  | cons char gap ih =>
    rw [List.cons_append, tokenizeLoop_separator (h char (by simp)),
      ih (fun c hc => h c (by simp [hc]))]
    simp [flush]

/-- A gap that is not empty ends the current token. -/
theorem tokenizeLoop_flush {gap : Text} (h : ∀ c ∈ gap, isSeparator c = true) (hne : gap ≠ [])
    (rest current : Text) :
    tokenizeLoop (gap ++ rest) [] current = flush [] current ++ tokenizeLoop rest [] [] := by
  cases gap with
  | nil => exact absurd rfl hne
  | cons char gap =>
    rw [List.cons_append, tokenizeLoop_separator (h char (by simp)),
      tokenizeLoop_gap (fun c hc => h c (by simp [hc]))]

/-- A text that is empty or begins with a separator or a parenthesis ends a token. -/
def Boundary (text : Text) : Prop :=
  ∀ c ∈ text.head?, isSeparator c = true ∨ isParen c = true

theorem tokenizeLoop_boundary {rest : Text} (h : Boundary rest) (current : Text) :
    tokenizeLoop rest [] current = flush [] current ++ tokenizeLoop rest [] [] := by
  cases rest with
  | nil => simp [tokenizeLoop, flush]
  | cons char rest =>
    rcases h char (by simp) with hsep | hparen
    · rw [tokenizeLoop_separator hsep, tokenizeLoop_separator hsep]
      simp [flush]
    · rw [tokenizeLoop_paren hparen, tokenizeLoop_paren hparen]
      simp [flush]

/-- Tokens do not reach over a boundary. -/
theorem tokenizeLoop_append_boundary {rest : Text} (h : Boundary rest) (text current : Text) :
    tokenizeLoop (text ++ rest) [] current =
      tokenizeLoop text [] current ++ tokenizeLoop rest [] [] := by
  induction text generalizing current with
  | nil => exact tokenizeLoop_boundary h current
  | cons char text ih =>
    rw [List.cons_append]
    by_cases hparen : isParen char = true
    · rw [tokenizeLoop_paren hparen, tokenizeLoop_paren hparen, ih]
      simp
    · by_cases hsep : isSeparator char = true
      · rw [tokenizeLoop_separator hsep, tokenizeLoop_separator hsep, ih]
        simp
      · rw [tokenizeLoop, if_neg hparen, if_neg hsep, ih, tokenizeLoop, if_neg hparen,
          if_neg hsep]

/-- The characters of a text that do not separate tokens. -/
def solid (text : Text) : Text :=
  text.filter (fun c => !isSeparator c)

variable {current : Text}

theorem mem_flush {tok : Text} (h : tok ∈ flush [] current) : tok = current ∧ tok ≠ [] := by
  unfold flush at h
  split at h
  · simp at h
  · next hne =>
    have htok : tok = current := by simpa using h
    subst htok
    exact ⟨rfl, by simpa using hne⟩

/-- What a token is made of: characters of the text that do not separate, in
their order. -/
theorem mem_tokenizeLoop {expr tok : Text} (h : tok ∈ tokenizeLoop expr [] current) :
    tok ≠ [] ∧ tok.Sublist (current ++ solid expr) := by
  induction expr generalizing current with
  | nil =>
    obtain ⟨rfl, hne⟩ := mem_flush h
    exact ⟨hne, by simp [solid]⟩
  | cons char rest ih =>
    have hflush : tok ∈ flush [] current →
        tok ≠ [] ∧ tok.Sublist (current ++ solid (char :: rest)) := by
      intro hmem
      obtain ⟨rfl, hne⟩ := mem_flush hmem
      exact ⟨hne, List.sublist_append_left tok _⟩
    have hrest : tok ∈ tokenizeLoop rest [] [] →
        tok ≠ [] ∧ tok.Sublist (current ++ solid (char :: rest)) := by
      intro hmem
      obtain ⟨hne, hsub⟩ := ih hmem
      have htail : (solid rest).Sublist (solid (char :: rest)) :=
        (List.sublist_cons_self char rest).filter _
      exact ⟨hne, (hsub.trans htail).trans (List.sublist_append_right current _)⟩
    by_cases hparen : isParen char = true
    · rw [tokenizeLoop_paren hparen, List.mem_append, List.mem_cons] at h
      rcases h with h | rfl | h
      · exact hflush h
      · have hsolid : [char].Sublist (solid (char :: rest)) := by
          simp [solid, isSeparator_of_isParen hparen]
        exact ⟨by simp, hsolid.trans (List.sublist_append_right current _)⟩
      · exact hrest h
    · by_cases hsep : isSeparator char = true
      · rw [tokenizeLoop_separator hsep, List.mem_append] at h
        rcases h with h | h
        · exact hflush h
        · exact hrest h
      · rw [tokenizeLoop, if_neg hparen, if_neg hsep] at h
        have hsolid : solid (char :: rest) = char :: solid rest := by
          simp [solid, hsep]
        rw [hsolid]
        simpa using ih h

/-- Nothing solid gets lost: every such character is in some token. -/
theorem exists_token {expr : Text} {c : Char} (h : c ∈ current ++ solid expr) :
    ∃ tok ∈ tokenizeLoop expr [] current, c ∈ tok := by
  induction expr generalizing current with
  | nil =>
    have hc : c ∈ current := by simpa [solid] using h
    have hne : current.isEmpty = false := by
      cases current with
      | nil => simp at hc
      | cons d rest => rfl
    exact ⟨current, by simp [tokenizeLoop, flush, hne], hc⟩
  | cons char rest ih =>
    have hstep : c ∈ current ∨ c = char ∧ isSeparator char = false ∨ c ∈ solid rest := by
      rcases List.mem_append.mp h with hcur | hsolid
      · exact .inl hcur
      · obtain ⟨hmem, hsep⟩ := List.mem_filter.mp hsolid
        rcases List.mem_cons.mp hmem with rfl | hmem
        · exact .inr (.inl ⟨rfl, by simpa using hsep⟩)
        · exact .inr (.inr (List.mem_filter.mpr ⟨hmem, hsep⟩))
    have hflush : c ∈ current → ∃ tok ∈ flush [] current, c ∈ tok := by
      intro hcur
      have hne : current.isEmpty = false := by
        cases current with
        | nil => simp at hcur
        | cons d rest => rfl
      exact ⟨current, by simp [flush, hne], hcur⟩
    by_cases hparen : isParen char = true
    · rw [tokenizeLoop_paren hparen]
      rcases hstep with hcur | ⟨rfl, -⟩ | hrest
      · obtain ⟨tok, hmem, hc⟩ := hflush hcur
        exact ⟨tok, List.mem_append_left _ hmem, hc⟩
      · exact ⟨[c], by simp, by simp⟩
      · obtain ⟨tok, hmem, hc⟩ := @ih [] (by simpa using hrest)
        exact ⟨tok, by simp [hmem], hc⟩
    · by_cases hsep : isSeparator char = true
      · rw [tokenizeLoop_separator hsep]
        rcases hstep with hcur | ⟨-, hnsep⟩ | hrest
        · obtain ⟨tok, hmem, hc⟩ := hflush hcur
          exact ⟨tok, List.mem_append_left _ hmem, hc⟩
        · simp [hsep] at hnsep
        · obtain ⟨tok, hmem, hc⟩ := @ih [] (by simpa using hrest)
          exact ⟨tok, List.mem_append_right _ hmem, hc⟩
      · rw [tokenizeLoop, if_neg hparen, if_neg hsep]
        apply ih
        rcases hstep with hcur | ⟨rfl, -⟩ | hrest
        · simp [hcur]
        · simp
        · simp [hrest]

end tokenizer

section readings

/-- The first reading: what the tokenizer makes of each token on its own. -/
def pieces (lexemes : List Lexeme) : List Text :=
  lexemes.flatMap (fun x => tokenizeSPDXExpression x.spelled)

/-- The second reading: tokens run together unless white space or a parenthesis
keeps them apart. -/
def runs : Text → List Lexeme → List Text
  | current, [] => flush [] current
  | current, x :: rest =>
    if x.isParen then flush [] current ++ x.visible :: runs [] rest
    else if x.gap.any isSpace then flush [] (current ++ x.visible) ++ runs [] rest
    else runs (current ++ x.visible) rest

variable {x : Lexeme}

theorem runs_paren (h : x.isParen = true) (current : Text) (rest : List Lexeme) :
    runs current (x :: rest) = flush [] current ++ x.visible :: runs [] rest := by
  rw [runs, if_pos h]

theorem runs_apart (h : x.isParen = false) (hspace : x.gap.any isSpace = true) (current : Text)
    (rest : List Lexeme) :
    runs current (x :: rest) = flush [] (current ++ x.visible) ++ runs [] rest := by
  rw [runs, if_neg (by simp [h]), if_pos hspace]

theorem runs_joined (h : x.isParen = false) (hspace : x.gap.any isSpace = false) (current : Text)
    (rest : List Lexeme) : runs current (x :: rest) = runs (current ++ x.visible) rest := by
  rw [runs, if_neg (by simp [h]), if_neg (by rw [hspace]; simp)]

variable {table : CaseTable}

theorem Lexeme.Ok.gap (h : x.Ok table) : ∀ c ∈ x.gap, isSeparator c = true := by
  cases x with
  | name word gap => exact h.2.1
  | operator op word gap => exact h.2.1
  | paren char gap => exact h.2

theorem isSpace_isInvisible {c : Char} (h : isInvisible c = true) : isSpace c = false := by
  have hmem : c ∈ invisibleSeparators := by simpa [isInvisible] using h
  have hall : invisibleSeparators.all (fun c => !isSpace c) = true := by decide
  simpa using List.all_eq_true.mp hall c hmem

theorem isInvisible_of_solid {c : Char} (h : isSeparator c = false) : isInvisible c = false := by
  unfold isSeparator at h
  simp at h
  exact h.2

variable {word : List Glyph}

/-- A filter that keeps the shown characters of a word and drops the others. -/
theorem filter_spelled {keep : Char → Bool} (hshown : ∀ c, .shown c ∈ word → keep c = true)
    (hhidden : ∀ c, .hidden c ∈ word → keep c = false) :
    (word.map Glyph.char).filter keep = word.filterMap Glyph.shown? := by
  induction word with
  | nil => rfl
  | cons g word ih =>
    have htail := ih (fun c hc => hshown c (by simp [hc])) (fun c hc => hhidden c (by simp [hc]))
    cases g with
    | shown c =>
      have hc := hshown c (by simp)
      have hvisible : Glyph.shown? (.shown c) = some c := rfl
      rw [List.map_cons, List.filterMap_cons_some hvisible]
      simp only [Glyph.char, List.filter_cons, hc, if_true, htail]
    | hidden c =>
      have hc := hhidden c (by simp)
      have hvisible : Glyph.shown? (.hidden c) = none := rfl
      rw [List.map_cons, List.filterMap_cons_none hvisible]
      simpa [Glyph.char, hc] using htail

theorem WordOk.solid_spelled (h : WordOk word) :
    solid (word.map Glyph.char) = word.filterMap Glyph.shown? := by
  apply filter_spelled
  · intro c hc
    simp [(h.shown c hc).1]
  · intro c hc
    simp [isSeparator, h.hidden c hc]

theorem WordOk.dropInvisible_spelled (h : WordOk word) :
    dropInvisible (word.map Glyph.char) = word.filterMap Glyph.shown? := by
  apply filter_spelled
  · intro c hc
    simp [isInvisible_of_solid (h.shown c hc).1]
  · intro c hc
    simp [h.hidden c hc]

theorem WordOk.visible_ne_nil (h : WordOk word) : word.filterMap Glyph.shown? ≠ [] := by
  obtain ⟨c, hc⟩ := h.first
  have hmem : Glyph.shown c ∈ word := List.mem_of_mem_head? hc
  have hvisible : c ∈ word.filterMap Glyph.shown? :=
    List.mem_filterMap.mpr ⟨_, hmem, rfl⟩
  exact List.ne_nil_of_mem hvisible

theorem WordOk.visible_plain (h : WordOk word) :
    ∀ c ∈ word.filterMap Glyph.shown?, isSeparator c = false ∧ isParen c = false := by
  intro c hc
  obtain ⟨g, hg, hshown⟩ := List.mem_filterMap.mp hc
  cases g with
  | shown d =>
    have hd : d = c := by simpa [Glyph.shown?] using hshown
    exact hd ▸ h.shown d hg
  | hidden d => simp [Glyph.shown?] at hshown

theorem Lexeme.Ok.visible_ne_nil (h : x.Ok table) : x.visible ≠ [] := by
  cases x with
  | name word gap => exact h.1.visible_ne_nil
  | operator op word gap => exact h.1.visible_ne_nil
  | paren char gap => simp [Lexeme.visible]

theorem Lexeme.Ok.solid_spelled (h : x.Ok table) : solid x.spelled = x.visible := by
  cases x with
  | name word gap => exact h.1.solid_spelled
  | operator op word gap => exact h.1.solid_spelled
  | paren char gap => simp [solid, Lexeme.spelled, Lexeme.visible, isSeparator_of_isParen h.1]

theorem Lexeme.Ok.dropInvisible_spelled (h : x.Ok table) : dropInvisible x.spelled = x.visible := by
  cases x with
  | name word gap => exact h.1.dropInvisible_spelled
  | operator op word gap => exact h.1.dropInvisible_spelled
  | paren char gap =>
    have hc := isInvisible_of_solid (isSeparator_of_isParen h.1)
    simp [dropInvisible, Lexeme.spelled, Lexeme.visible, hc]

theorem Lexeme.Ok.visible_plain (h : x.Ok table) (hword : x.isParen = false) :
    ∀ c ∈ x.visible, isSeparator c = false ∧ Sbom.isParen c = false := by
  cases x with
  | name word gap => exact h.1.visible_plain
  | operator op word gap => exact h.1.visible_plain
  | paren char gap => simp [Lexeme.isParen] at hword

theorem render_cons (x : Lexeme) (rest : List Lexeme) :
    render (x :: rest) = x.spelled ++ (x.gap ++ render rest) := by
  simp [render]

/-- What follows a word begins with a separator or a parenthesis. -/
theorem boundary_after_word {rest : List Lexeme} (hok : ∀ y ∈ x :: rest, y.Ok table)
    (hspaced : (x :: rest).IsChain Spaced) (hword : x.isParen = false) :
    Boundary (x.gap ++ render rest) := by
  intro c hc
  cases hgap : x.gap with
  | cons d gap =>
    have hd : d = c := by simpa [hgap] using hc
    have hsep := (hok x (by simp)).gap d (by simp [hgap])
    exact .inl (hd ▸ hsep)
  | nil =>
    cases rest with
    | nil => simp [hgap, render] at hc
    | cons y rest =>
      have hparen : y.isParen = true := by
        by_contra hy
        have hne := (List.isChain_cons_cons.mp hspaced).1 hword (by simpa using hy)
        exact hne hgap
      have hy := hok y (by simp)
      cases y with
      | name word gap => simp [Lexeme.isParen] at hparen
      | operator op word gap => simp [Lexeme.isParen] at hparen
      | paren char gap =>
        have hchar : char = c := by simpa [hgap, render_cons, Lexeme.spelled] using hc
        exact .inr (hchar ▸ hy.1)

/-- The tokenizer reads an expression token by token, and splits a token where
an invisible character stands in it. -/
theorem tokenize_render {lexemes : List Lexeme} (hok : ∀ x ∈ lexemes, x.Ok table)
    (hspaced : lexemes.IsChain Spaced) :
    tokenizeSPDXExpression (render lexemes) = pieces lexemes := by
  induction lexemes with
  | nil => rfl
  | cons x rest ih =>
    have hgap := (hok x (by simp)).gap
    have hrest := ih (fun y hy => hok y (by simp [hy])) hspaced.tail
    have hsplit : tokenizeSPDXExpression (render (x :: rest)) =
        tokenizeSPDXExpression x.spelled ++ tokenizeSPDXExpression (render rest) := by
      rw [render_cons]
      unfold tokenizeSPDXExpression
      cases hx : x.isParen with
      | false =>
        rw [tokenizeLoop_append_boundary (boundary_after_word hok hspaced hx),
          tokenizeLoop_gap hgap]
      | true =>
        cases x with
        | name word gap => simp [Lexeme.isParen] at hx
        | operator op word gap => simp [Lexeme.isParen] at hx
        | paren char gap =>
          have hchar : isParen char = true := (hok (.paren char gap) (by simp)).1
          simp only [Lexeme.spelled, List.singleton_append]
          rw [tokenizeLoop_paren hchar, tokenizeLoop_gap hgap, tokenizeLoop_paren hchar]
          simp [flush, tokenizeLoop]
    rw [hsplit, hrest]
    simp [pieces]

theorem dropInvisible_append (a b : Text) :
    dropInvisible (a ++ b) = dropInvisible a ++ dropInvisible b := by
  simp [dropInvisible]

theorem dropInvisible_gap {gap : Text} (h : ∀ c ∈ gap, isSeparator c = true) :
    (∀ c ∈ dropInvisible gap, isSeparator c = true) ∧
      (dropInvisible gap ≠ [] ↔ gap.any isSpace = true) := by
  refine ⟨fun c hc => h c (List.mem_of_mem_filter hc), ?_⟩
  constructor
  · intro hne
    obtain ⟨c, hc⟩ := List.exists_mem_of_ne_nil _ hne
    have hmem := List.mem_filter.mp hc
    have hsep := h c hmem.1
    have hspace : isSpace c = true := by
      have hvisible : isInvisible c = false := by simpa using hmem.2
      simpa [isSeparator, hvisible] using hsep
    exact List.any_eq_true.mpr ⟨c, hmem.1, hspace⟩
  · intro hany
    obtain ⟨c, hc, hspace⟩ := List.any_eq_true.mp hany
    have hvisible : isInvisible c = false := by
      by_contra hinvisible
      rw [isSpace_isInvisible (by simpa using hinvisible)] at hspace
      exact absurd hspace (by simp)
    have hmem : c ∈ dropInvisible gap := List.mem_filter.mpr ⟨hc, by simp [hvisible]⟩
    exact List.ne_nil_of_mem hmem

/-- With its invisible characters removed an expression is read in runs. -/
theorem tokenize_dropInvisible {lexemes : List Lexeme} (hok : ∀ x ∈ lexemes, x.Ok table)
    (current : Text) :
    tokenizeLoop (dropInvisible (render lexemes)) [] current = runs current lexemes := by
  induction lexemes generalizing current with
  | nil => rfl
  | cons x rest ih =>
    have hx := hok x (by simp)
    have hrest := fun cur => ih (fun y hy => hok y (by simp [hy])) cur
    have hgap := dropInvisible_gap hx.gap
    rw [render_cons, dropInvisible_append, dropInvisible_append, hx.dropInvisible_spelled, runs]
    split
    · next hparen =>
      cases x with
      | name word gap => simp [Lexeme.isParen] at hparen
      | operator op word gap => simp [Lexeme.isParen] at hparen
      | paren char gap =>
        simp only [Lexeme.visible, List.singleton_append]
        rw [tokenizeLoop_paren hx.1, tokenizeLoop_gap hgap.1, hrest]
    · next hword =>
      rw [tokenizeLoop_word (hx.visible_plain (by simpa using hword))]
      split
      · next hspace => rw [tokenizeLoop_flush hgap.1 (hgap.2.mpr hspace), hrest]
      · next hspace =>
        have hnil : dropInvisible x.gap = [] := by
          by_contra hne
          exact hspace (hgap.2.mp hne)
        rw [hnil, List.nil_append, hrest]

end readings

end NriSupplyChain.Sbom
