import NriSupplyChain.Sbom.Invisible

/-!
When invisible characters can hide a denied license. A name that is split on
the inside and joined on the outside is seen by neither reading: spelled with a
letter that no other token has, no token of either reading is that name.
-/

namespace NriSupplyChain.Sbom

open Lib

variable {table : CaseTable}

/-- The letters of the operators, two more for names, and the parentheses. -/
def alphabet : Text := "zqANDORWITHandorwith()".toList

theorem alphabet_plain : ∀ c ∈ alphabet, c.toNat < 128 ∧ isSeparator c = false ∧
    c.toLower ≠ '-' ∧ c.toLower ≠ '+' ∧ c.toLower ≠ 'e' ∧ (c.toLower = 'q' ↔ c = 'q') := by
  have hall : alphabet.all (fun c => c.toNat < 128 ∧ isSeparator c = false ∧ c.toLower ≠ '-' ∧
      c.toLower ≠ '+' ∧ c.toLower ≠ 'e' ∧ (c.toLower = 'q' ↔ c = 'q')) = true := by decide
  intro c hc
  exact of_decide_eq_true (List.all_eq_true.mp hall c hc)

section alphabet

variable {tok : Text}

theorem toLower_plain (h : ∀ c ∈ tok, c ∈ alphabet) : table.toLower tok = tok.map Char.toLower := by
  apply List.map_congr_left
  intro c hc
  exact table.lower_ascii c (alphabet_plain c (h c hc)).1

theorem not_mem_lower {d : Char} (h : ∀ c ∈ tok, c ∈ alphabet)
    (hd : ∀ c ∈ alphabet, c.toLower ≠ d) : d ∉ table.toLower tok := by
  rw [toLower_plain h]
  intro hmem
  obtain ⟨c, hc, hlower⟩ := List.mem_map.mp hmem
  exact hd c (h c hc) hlower

/-- A token over the alphabet is its own base license. -/
theorem parseLicenseForm_plain (h : ∀ c ∈ tok, c ∈ alphabet) :
    (parseLicenseForm table tok).base = tok.map Char.toLower := by
  have hdrop : dropInvisible tok = tok := by
    apply List.filter_eq_self.mpr
    intro c hc
    simp [isInvisible_of_solid (alphabet_plain c (h c hc)).2.1]
  have htrim : trimSpace tok = tok := by
    apply trimSpace_of_no_space
    intro c hc
    have hsolid := (alphabet_plain c (h c hc)).2.1
    unfold isSeparator at hsolid
    simp at hsolid
    exact hsolid.1
  have hdash : '-' ∉ table.toLower tok := not_mem_lower h (fun c hc => (alphabet_plain c hc).2.2.1)
  have hplus : '+' ∉ table.toLower tok :=
    not_mem_lower h (fun c hc => (alphabet_plain c hc).2.2.2.1)
  have hnoplus : cutSuffix (table.toLower tok) "+".toList = none :=
    cutSuffix_eq_none (by decide) hplus
  have hnolater : cutSuffix (table.toLower tok) "-or-later".toList = none :=
    cutSuffix_eq_none (c := '-') (by decide) hdash
  have hnoonly : cutSuffix (table.toLower tok) "-only".toList = none :=
    cutSuffix_eq_none (c := '-') (by decide) hdash
  rw [← toLower_plain h]
  unfold parseLicenseForm
  simp only [hdrop, htrim, hnoplus, Option.getD_none, hnolater, trimSuffix, hnoonly]
  split
  · rfl
  · split <;> rfl

theorem isLicenseException_plain (h : ∀ c ∈ tok, c ∈ alphabet) :
    isLicenseException table tok = false := by
  have he : 'e' ∉ table.toLower tok :=
    not_mem_lower h (fun c hc => (alphabet_plain c hc).2.2.2.2.1)
  have hdash : '-' ∉ table.toLower tok := not_mem_lower h (fun c hc => (alphabet_plain c hc).2.2.1)
  have hexception : ¬ "exception".toList <:+: table.toLower tok :=
    fun hin => he (hin.subset (by decide))
  have hnote : ¬ "-note".toList <:+ table.toLower tok :=
    fun hin => hdash (hin.subset (by decide))
  have haddition : ¬ "additionref-".toList <+: table.toLower tok :=
    fun hin => hdash (hin.subset (by decide))
  unfold isLicenseException
  simp only [hexception, hnote, haddition, decide_false, Bool.or_self]

/-- A token with a letter that no operator has is not an operator. -/
theorem not_operator_of_mem (table : CaseTable) {c : Char} (hc : c ∈ tok)
    (hcase : c = 'q' ∨ c = 'z') : isBoundary table tok = false ∧ isWith table tok = false := by
  have hupper : table.upper c ∈ table.toUpper tok := List.mem_map_of_mem hc
  have hascii : table.upper c = c.toUpper := by
    apply table.upper_ascii
    rcases hcase with rfl | rfl <;> decide
  have habsent : ∀ word : Text, 'Q' ∉ word → 'Z' ∉ word → table.toUpper tok ≠ word := by
    intro word hq hz heq
    rw [heq, hascii] at hupper
    rcases hcase with rfl | rfl
    · exact hq hupper
    · exact hz hupper
  constructor
  · unfold isBoundary
    simp only [habsent "(".toList (by decide) (by decide),
      habsent ")".toList (by decide) (by decide), habsent "AND".toList (by decide) (by decide),
      habsent "OR".toList (by decide) (by decide), decide_false, Bool.or_self]
  · exact decide_eq_false (habsent "WITH".toList (by decide) (by decide))

/-- What is examined of tokens over the alphabet are some of these tokens. -/
theorem mem_splitSPDXTokens_plain {expr id : Text} {tokens : List Text}
    (hplain : ∀ tok ∈ tokens, ∀ c ∈ tok, c ∈ alphabet) (hq : ∃ tok ∈ tokens, 'q' ∈ tok)
    (h : id ∈ splitSPDXTokens table expr tokens) : id ∈ tokens := by
  obtain ⟨tok, hmem, hqtok⟩ := hq
  obtain ⟨a, b, htokens⟩ := List.append_of_mem hmem
  have hop := not_operator_of_mem table hqtok (.inl rfl)
  have hexamined : tok ∈ splitLoop table tokens false := by
    rw [htokens]
    apply mem_splitLoop hop.1 hop.2
    intro hex
    rw [isLicenseException_plain (hplain tok hmem)] at hex
    exact absurd hex (by simp)
  rw [splitSPDXTokens_of_mem hexamined] at h
  exact mem_of_mem_splitLoop h

end alphabet

section layouts

theorem outline_fillWith (c : Char) (x : Lexeme) : (x.fillWith c).outline = x.outline := by
  cases x with
  | name word gap =>
    simp only [Lexeme.outline, Lexeme.fillWith, List.map_map, Lexeme.name.injEq, and_true]
    apply List.map_congr_left
    intro g _
    cases g <;> rfl
  | operator op word gap => rfl
  | paren char gap => rfl

theorem outline_isParen (x : Lexeme) : x.outline.isParen = x.isParen := by
  cases x <;> rfl

theorem outline_gap (x : Lexeme) : x.outline.gap = x.gap := by
  cases x <;> rfl

variable {gap : Text} {word : List Glyph} {x : Lexeme}

theorem eq_name_of_outline (h : x.outline = (Lexeme.name word gap).outline) :
    ∃ word', x = .name word' gap := by
  cases x with
  | name word' gap' =>
    have hgap : gap' = gap := (Lexeme.name.inj h).2
    exact ⟨word', by rw [hgap]⟩
  | operator op word' gap' => exact absurd h (by simp [Lexeme.outline, Lexeme.fillWith])
  | paren char gap' => exact absurd h (by simp [Lexeme.outline, Lexeme.fillWith])

theorem eq_of_outline {y : Lexeme} (hy : y.isName = false) (h : x.outline = y.outline) : x = y := by
  cases y with
  | name word gap => simp [Lexeme.isName] at hy
  | operator op word gap => cases x <;> simp_all [Lexeme.outline, Lexeme.fillWith]
  | paren char gap => cases x <;> simp_all [Lexeme.outline, Lexeme.fillWith]

/-- Whether tokens form an expression does not depend on the names. -/
theorem IsExpression.of_outline {lexemes : List Lexeme} (h : IsExpression lexemes) :
    ∀ others : List Lexeme, others.map Lexeme.outline = lexemes.map Lexeme.outline →
      IsExpression others := by
  induction h with
  | license word gap =>
    intro others heq
    obtain ⟨x, rfl, hx⟩ := List.map_eq_singleton_iff.mp heq
    obtain ⟨word', rfl⟩ := eq_name_of_outline hx
    exact .license word' gap
  | @join left right op word gap _ _ ihleft ihright =>
    intro others heq
    rw [List.map_append, List.map_cons] at heq
    obtain ⟨a, tail, rfl, ha, htail⟩ := List.map_eq_append_iff.mp heq
    obtain ⟨x, b, rfl, hx, hb⟩ := List.map_eq_cons_iff.mp htail
    have hop := eq_of_outline rfl hx
    subst hop
    exact .join op word gap (ihleft a ha) (ihright b hb)
  | @group inner openGap closeGap _ ih =>
    intro others heq
    rw [List.cons_append, List.map_cons, List.map_append] at heq
    obtain ⟨x, b, rfl, hx, hb⟩ := List.map_eq_cons_iff.mp heq
    obtain ⟨a, c, rfl, ha, hc⟩ := List.map_eq_append_iff.mp hb
    obtain ⟨y, rfl, hy⟩ := List.map_eq_singleton_iff.mp hc
    have hopen := eq_of_outline rfl hx
    have hclose := eq_of_outline rfl hy
    subst hopen hclose
    exact .group openGap closeGap (ih a ha)

theorem spaced_of_outline {lexemes others : List Lexeme}
    (heq : others.map Lexeme.outline = lexemes.map Lexeme.outline)
    (h : lexemes.IsChain Spaced) : others.IsChain Spaced := by
  have hinvariant : ∀ a b : Lexeme, Spaced a.outline b.outline ↔ Spaced a b := by
    intro a b
    simp only [Spaced, outline_isParen, outline_gap]
  have hmap : (lexemes.map Lexeme.outline).IsChain Spaced := by
    rw [List.isChain_map]
    exact h.imp (fun a b hab => (hinvariant a b).mpr hab)
  rw [← heq, List.isChain_map] at hmap
  exact hmap.imp (fun a b hab => (hinvariant a b).mp hab)

theorem intact_fill (c : Char) (word : List Glyph) :
    Intact (word.map (Glyph.fill c)) ↔ Intact word := by
  have hsame : ∀ g : Glyph, (g.fill c).shown?.isSome = g.shown?.isSome := by
    intro g
    cases g <;> rfl
  simp only [Intact, List.forall_mem_map, hsame]

theorem closed_outline (gap : Text) (lexemes : List Lexeme) :
    Closed gap (lexemes.map Lexeme.outline) = Closed gap lexemes := by
  cases lexemes with
  | nil => rfl
  | cons x rest => simp [Closed, outline_isParen]

/-- The condition does not depend on the names. -/
theorem exposed_outline (apart : Bool) (lexemes : List Lexeme) :
    Exposed apart (lexemes.map Lexeme.outline) ↔ Exposed apart lexemes := by
  induction lexemes generalizing apart with
  | nil => rfl
  | cons x rest ih =>
    rw [List.map_cons]
    cases x with
    | operator op word gap => exact ih _
    | paren char gap => exact ih _
    | name word gap =>
      have hname : (Lexeme.name word gap).outline = .name (word.map (Glyph.fill ' ')) gap := rfl
      rw [hname]
      simp only [Exposed, intact_fill, closed_outline, ih]

variable {c : Char}

theorem WordOk.fill (h : WordOk word) (hc : isSeparator c = false ∧ isParen c = false) :
    WordOk (word.map (Glyph.fill c)) where
  glyphs := by
    intro g hg
    obtain ⟨g, hmem, rfl⟩ := List.mem_map.mp hg
    cases g with
    | shown d => simp [Glyph.fill, Glyph.ok, hc]
    | hidden d => exact h.hidden d hmem
  opening := by
    obtain ⟨d, hd⟩ := h.first
    simp [hd, Glyph.fill, Glyph.shown?]
  closing := by
    obtain ⟨d, hd⟩ := h.last
    simp [hd, Glyph.fill, Glyph.shown?]

theorem visible_fill (word : List Glyph) (c : Char) :
    (word.map (Glyph.fill c)).filterMap Glyph.shown? =
      List.replicate (word.filterMap Glyph.shown?).length c := by
  induction word with
  | nil => rfl
  | cons g word ih =>
    cases g with
    | shown d =>
      have hfilled : Glyph.shown? (Glyph.fill c (.shown d)) = some c := rfl
      have hshown : Glyph.shown? (.shown d) = some d := rfl
      rw [List.map_cons, List.filterMap_cons_some hfilled, List.filterMap_cons_some hshown, ih]
      rfl
    | hidden d =>
      have hfilled : Glyph.shown? (Glyph.fill c (.hidden d)) = none := rfl
      have hshown : Glyph.shown? (.hidden d) = none := rfl
      rw [List.map_cons, List.filterMap_cons_none hfilled, List.filterMap_cons_none hshown, ih]

theorem Lexeme.Ok.fillWith (h : x.Ok table) (hc : c = 'q' ∨ c = 'z') : (x.fillWith c).Ok table := by
  cases x with
  | operator op word gap => exact h
  | paren char gap => exact h
  | name word gap =>
    have hplain : isSeparator c = false ∧ Sbom.isParen c = false := by
      rcases hc with rfl | rfl <;> decide
    have hword : WordOk (word.map (Glyph.fill c)) := h.1.fill hplain
    have hmem : c ∈ (word.map (Glyph.fill c)).filterMap Glyph.shown? := by
      rw [visible_fill, List.mem_replicate]
      exact ⟨by simpa using h.1.visible_ne_nil, rfl⟩
    have hop := not_operator_of_mem table hmem hc
    exact ⟨hword, h.2.1, hop.1, hop.2⟩

theorem mem_alphabet_of_toUpper {op : Operator} (h : c.toUpper ∈ op.text) :
    c ∈ alphabet ∧ c ≠ 'q' := by
  have hascii := isAscii_of_toUpper (operator_text_ascii h)
  have hall : ∀ op : Operator, ∀ n < 128, (Char.ofNat n).toUpper ∈ op.text →
      Char.ofNat n ∈ alphabet ∧ Char.ofNat n ≠ 'q' := by
    intro op
    cases op <;> decide +kernel
  have hc := hall op c.toNat hascii
  rw [Char.ofNat_toNat] at hc
  exact hc h

/-- With its name blanked by another letter, a token has no letter q. -/
theorem Lexeme.Ok.visible_fillWith (h : x.Ok table) :
    ∀ c ∈ (x.fillWith 'z').visible, c ∈ alphabet ∧ c ≠ 'q' := by
  intro c hc
  cases x with
  | name word gap =>
    have hz : c = 'z' := by
      have hmem : c ∈ (word.map (Glyph.fill 'z')).filterMap Glyph.shown? := hc
      rw [visible_fill] at hmem
      exact (List.mem_replicate.mp hmem).2
    subst hz
    decide
  | operator op word gap =>
    have hupper : (Lexeme.operator op word gap).visible.map Char.toUpper = op.text := h.2.2
    apply mem_alphabet_of_toUpper
    rw [← hupper]
    exact List.mem_map_of_mem hc
  | paren char gap =>
    have hchar : c = char := by simpa [Lexeme.fillWith, Lexeme.visible] using hc
    have hparen : char = '(' ∨ char = ')' := by simpa [Sbom.isParen] using h.1
    subst hchar
    rcases hparen with rfl | rfl <;> decide

/-- A name with an invisible character inside is cut into shorter pieces. -/
theorem WordOk.pieces_shorter (h : WordOk word) (hsplit : ¬ Intact word) {tok : Text}
    (htok : tok ∈ tokenizeSPDXExpression (word.map Glyph.char)) :
    tok.length < (word.filterMap Glyph.shown?).length := by
  obtain ⟨g, hnot⟩ := not_forall.mp hsplit
  obtain ⟨hg, hhidden⟩ := Classical.not_imp.mp hnot
  obtain ⟨a, b, rfl⟩ := List.append_of_mem hg
  cases g with
  | shown c => simp [Glyph.shown?] at hhidden
  | hidden z =>
    have hz : isSeparator z = true := by simp [isSeparator, h.hidden z hg]
    have hsolid := h.solid_spelled
    have hparts : solid ((a ++ .hidden z :: b).map Glyph.char) =
        solid (a.map Glyph.char) ++ solid (b.map Glyph.char) := by
      simp [solid, Glyph.char, hz]
    have hleft : 0 < (solid (a.map Glyph.char)).length := by
      obtain ⟨c, hc⟩ := h.first
      cases a with
      | nil => simp at hc
      | cons first a =>
        have hfirst : first = .shown c := by simpa using hc
        have hplain := (h.shown c (by simp [hfirst])).1
        simp [solid, hfirst, Glyph.char, hplain]
    have hright : 0 < (solid (b.map Glyph.char)).length := by
      obtain ⟨c, hc⟩ := h.last
      rcases List.eq_nil_or_concat' b with rfl | ⟨init, last, rfl⟩
      · simp at hc
      · have hlist : a ++ .hidden z :: (init ++ [last]) = (a ++ .hidden z :: init) ++ [last] := by
          simp
        rw [hlist, List.getLast?_concat] at hc
        have hlast : last = .shown c := by simpa using hc
        have hplain := (h.shown c (by simp [hlast])).1
        simp [solid, hlast, Glyph.char, hplain]
    rw [← hsolid, hparts, List.length_append]
    have hboundary : Boundary (z :: b.map Glyph.char) := by
      intro c hc
      have hcz : z = c := by simpa using hc
      exact .inl (hcz ▸ hz)
    have htokens : tok ∈ tokenizeLoop (a.map Glyph.char) [] [] ++
        tokenizeLoop (b.map Glyph.char) [] [] := by
      have hcut := tokenizeLoop_append_boundary hboundary (a.map Glyph.char) []
      rw [tokenizeLoop_separator hz] at hcut
      rw [tokenizeSPDXExpression, List.map_append, List.map_cons] at htok
      simp only [Glyph.char] at htok
      rw [hcut] at htok
      simpa [flush] using htok
    rcases List.mem_append.mp htokens with hmem | hmem
    all_goals
      have hle := (mem_tokenizeLoop hmem).2.length_le
      rw [List.nil_append] at hle
      omega

/-- A text with a character besides the letter q. -/
def Marked (text : Text) : Prop :=
  ∃ c ∈ text, c ≠ 'q'

theorem Marked.append_left {a : Text} (h : Marked a) (b : Text) : Marked (a ++ b) := by
  obtain ⟨c, hc, hq⟩ := h
  exact ⟨c, by simp [hc], hq⟩

theorem Marked.append_right {b : Text} (h : Marked b) (a : Text) : Marked (a ++ b) := by
  obtain ⟨c, hc, hq⟩ := h
  exact ⟨c, by simp [hc], hq⟩

/-- Every run is marked once the current one is. -/
def MarksRuns (lexemes : List Lexeme) : Prop :=
  ∀ current : Text, (current = [] ∨ Marked current) → ∀ tok ∈ runs current lexemes, Marked tok

theorem marked_flush {current tok : Text} (hcurrent : current = [] ∨ Marked current)
    (h : tok ∈ flush [] current) : Marked tok := by
  obtain ⟨rfl, hne⟩ := mem_flush h
  exact hcurrent.resolve_left hne

/-- Every run is marked when a token other than a parenthesis makes the current one so. -/
theorem MarksRuns.token {rest : List Lexeme} (hrest : MarksRuns rest) {current : Text}
    (hparen : x.isParen = false) (hmarked : Marked (current ++ x.visible)) :
    ∀ tok ∈ runs current (x :: rest), Marked tok := by
  intro tok htok
  cases hspace : x.gap.any isSpace with
  | true =>
    rw [runs_apart hparen hspace, List.mem_append] at htok
    rcases htok with htok | htok
    · exact marked_flush (.inr hmarked) htok
    · exact hrest [] (.inl rfl) tok htok
  | false =>
    rw [runs_joined hparen hspace] at htok
    exact hrest _ (.inr hmarked) tok htok

/-- A marked token in front keeps every run marked. -/
theorem MarksRuns.cons {rest : List Lexeme} (hx : Marked x.visible) (hrest : MarksRuns rest) :
    MarksRuns (x :: rest) := by
  intro current hcurrent tok htok
  cases hparen : x.isParen with
  | true =>
    rw [runs_paren hparen, List.mem_append, List.mem_cons] at htok
    rcases htok with htok | rfl | htok
    · exact marked_flush hcurrent htok
    · exact hx
    · exact hrest [] (.inl rfl) tok htok
  | false => exact hrest.token hparen (hx.append_right current) tok htok

theorem MarksRuns.nil : MarksRuns [] := by
  intro current hcurrent tok htok
  exact marked_flush hcurrent htok

theorem MarksRuns.append {before rest : List Lexeme} (hbefore : ∀ x ∈ before, Marked x.visible)
    (hrest : MarksRuns rest) : MarksRuns (before ++ rest) := by
  induction before with
  | nil => exact hrest
  | cons x before ih =>
    exact .cons (hbefore x (by simp)) (ih (fun y hy => hbefore y (by simp [hy])))

/-- A name that runs on from a marked token leaves no run unmarked. -/
theorem MarksRuns.joined_left {op : Lexeme} {after : List Lexeme} (hop : Marked op.visible)
    (hparen : op.isParen = false) (hspace : op.gap.any isSpace = false) (hafter : MarksRuns after) :
    MarksRuns (op :: .name word gap :: after) := by
  intro current _
  rw [runs_joined hparen hspace]
  exact hafter.token rfl ((hop.append_right current).append_left _)

/-- A name that a marked token runs on from leaves no run unmarked. -/
theorem MarksRuns.joined_right {op : Lexeme} {after : List Lexeme} (hop : Marked op.visible)
    (hparen : op.isParen = false) (hspace : (Lexeme.name word gap).gap.any isSpace = false)
    (hafter : MarksRuns after) : MarksRuns (.name word gap :: op :: after) := by
  intro current _
  rw [runs_joined rfl hspace]
  exact hafter.token hparen (hop.append_right _)

end layouts

section exactness

/-- The other reading of the same layout: one name spelled with the letter q, every
other one with the letter z. -/
def hide (before : List Lexeme) (word : List Glyph) (gap : Text) (after : List Lexeme) :
    List Lexeme :=
  before.map (·.fillWith 'z') ++ .name (word.map (Glyph.fill 'q')) gap ::
    after.map (·.fillWith 'z')

variable {lead : Text} {before after : List Lexeme} {word : List Glyph} {gap : Text}

theorem hide_outline : (hide before word gap after).map Lexeme.outline =
    (before ++ .name word gap :: after).map Lexeme.outline := by
  have hmap : ∀ lexemes : List Lexeme, (lexemes.map (·.fillWith 'z')).map Lexeme.outline =
      lexemes.map Lexeme.outline := by
    intro lexemes
    rw [List.map_map]
    apply List.map_congr_left
    intro x _
    exact outline_fillWith 'z' x
  have hname : (Lexeme.name (word.map (Glyph.fill 'q')) gap).outline =
      (Lexeme.name word gap).outline :=
    outline_fillWith 'q' (.name word gap)
  simp only [hide, List.map_append, List.map_cons, hmap, hname]

theorem hide_wellFormed (h : WellFormed table lead (before ++ .name word gap :: after)) :
    WellFormed table lead (hide before word gap after) where
  grammar := h.grammar.of_outline _ hide_outline
  lead := h.lead
  spaced := spaced_of_outline hide_outline h.spaced
  ok := by
    intro x hx
    rcases List.mem_append.mp hx with hx | hx
    · obtain ⟨y, hy, rfl⟩ := List.mem_map.mp hx
      exact (h.ok y (by simp [hy])).fillWith (.inr rfl)
    · rcases List.mem_cons.mp hx with rfl | hx
      · have hname : (Lexeme.name word gap).Ok table := h.ok _ (by simp)
        exact hname.fillWith (.inl rfl)
      · obtain ⟨y, hy, rfl⟩ := List.mem_map.mp hx
        exact (h.ok y (by simp [hy])).fillWith (.inr rfl)

/-- The name that is spelled with the letter q. -/
def hiddenName (word : List Glyph) : Text :=
  List.replicate (word.filterMap Glyph.shown?).length 'q'

theorem hiddenName_plain : ∀ c ∈ hiddenName word, c ∈ alphabet := by
  intro c hc
  have hq := (List.mem_replicate.mp hc).2
  subst hq
  decide

theorem ne_hiddenName {id : Text} {c : Char} (hc : c ∈ id) (hplain : c ∈ alphabet)
    (hne : c ≠ 'q') : id.map Char.toLower ≠ hiddenName word := by
  intro heq
  have hlower : c.toLower ∈ hiddenName word := heq ▸ List.mem_map_of_mem hc
  exact hne ((alphabet_plain c hplain).2.2.2.2.2.mp (List.mem_replicate.mp hlower).2)

theorem hide_visible (h : WellFormed table lead (before ++ .name word gap :: after)) :
    ∀ x ∈ hide before word gap after, ∀ c ∈ x.visible, c ∈ alphabet := by
  intro x hx c hc
  rcases List.mem_append.mp hx with hx | hx
  · obtain ⟨y, hy, rfl⟩ := List.mem_map.mp hx
    exact ((h.ok y (by simp [hy])).visible_fillWith c hc).1
  · rcases List.mem_cons.mp hx with rfl | hx
    · have hmem : c ∈ (word.map (Glyph.fill 'q')).filterMap Glyph.shown? := hc
      rw [visible_fill] at hmem
      exact hiddenName_plain c hmem
    · obtain ⟨y, hy, rfl⟩ := List.mem_map.mp hx
      exact ((h.ok y (by simp [hy])).visible_fillWith c hc).1

theorem marked_fillWith {x : Lexeme} (h : x.Ok table) : Marked (x.fillWith 'z').visible := by
  obtain ⟨c, hc⟩ := List.exists_mem_of_ne_nil _ (h.fillWith (.inr rfl)).visible_ne_nil
  exact ⟨c, hc, (h.visible_fillWith c hc).2⟩

theorem fillWith_isParen (c : Char) (x : Lexeme) : (x.fillWith c).isParen = x.isParen := by
  cases x <;> rfl

theorem fillWith_gap (c : Char) (x : Lexeme) : (x.fillWith c).gap = x.gap := by
  cases x <;> rfl

theorem apartAfter_concat (apart : Bool) (init : List Lexeme) (x : Lexeme) :
    apartAfter apart (init ++ [x]) = (x.isParen || x.gap.any isSpace) := by
  induction init generalizing apart with
  | nil => rfl
  | cons y init ih => exact ih _

/-- A name that does not stand apart on both sides is in no run of its own. -/
theorem hide_marks (h : WellFormed table lead (before ++ .name word gap :: after))
    (hjoined : ¬ (apartAfter true before = true ∧ Closed gap after = true)) :
    MarksRuns (hide before word gap after) := by
  have hmarked : ∀ x ∈ before ++ .name word gap :: after, Marked (x.fillWith 'z').visible :=
    fun x hx => marked_fillWith (h.ok x hx)
  have hmap : ∀ lexemes : List Lexeme, (∀ x ∈ lexemes, x ∈ before ++ .name word gap :: after) →
      ∀ x ∈ lexemes.map (·.fillWith 'z'), Marked x.visible := by
    intro lexemes hsub x hx
    obtain ⟨y, hy, rfl⟩ := List.mem_map.mp hx
    exact hmarked y (hsub y hy)
  have hall : ∀ lexemes : List Lexeme, (∀ x ∈ lexemes, x ∈ before ++ .name word gap :: after) →
      MarksRuns (lexemes.map (·.fillWith 'z')) := by
    intro lexemes hsub
    have happend := MarksRuns.append (hmap lexemes hsub) .nil
    rwa [List.append_nil] at happend
  unfold hide
  cases hapart : apartAfter true before with
  | false =>
    rcases List.eq_nil_or_concat' before with rfl | ⟨init, op, rfl⟩
    · simp [apartAfter] at hapart
    · rw [apartAfter_concat, Bool.or_eq_false_iff] at hapart
      rw [List.map_append, List.map_singleton, List.append_assoc, List.singleton_append]
      apply MarksRuns.append (hmap init (fun x hx => by simp [hx]))
      apply MarksRuns.joined_left (hmarked op (by simp))
      · rw [fillWith_isParen]
        exact hapart.1
      · rw [fillWith_gap]
        exact hapart.2
      · exact hall after (fun x hx => by simp [hx])
  | true =>
    have hopen : Closed gap after = false := by
      by_contra hclosed
      exact hjoined ⟨hapart, by simpa using hclosed⟩
    cases after with
    | nil => simp [Closed] at hopen
    | cons op after =>
      have hparts : op.isParen = false ∧ gap.any isSpace = false :=
        Bool.or_eq_false_iff.mp hopen
      apply MarksRuns.append (hmap before (fun x hx => by simp [hx]))
      rw [List.map_cons]
      apply MarksRuns.joined_right (hmarked op (by simp))
      · rw [fillWith_isParen]
        exact hparts.1
      · exact hparts.2
      · exact hall after (fun x hx => by simp [hx])

theorem hide_mem_q (h : WellFormed table lead (before ++ .name word gap :: after)) :
    ∃ x ∈ hide before word gap after, 'q' ∈ x.visible := by
  refine ⟨.name (word.map (Glyph.fill 'q')) gap, by simp [hide], ?_⟩
  have hname : (Lexeme.name word gap).Ok table := h.ok _ (by simp)
  change 'q' ∈ (word.map (Glyph.fill 'q')).filterMap Glyph.shown?
  rw [visible_fill, List.mem_replicate]
  exact ⟨by simpa using hname.1.visible_ne_nil, rfl⟩

/-- Every solid character of an expression is in a token of its second reading. -/
theorem exists_run {lexemes : List Lexeme} (hok : ∀ x ∈ lexemes, x.Ok table) {x : Lexeme}
    (hx : x ∈ lexemes) {c : Char} (hc : c ∈ x.visible) : ∃ tok ∈ runs [] lexemes, c ∈ tok := by
  have hvisible : c ∈ dropInvisible x.spelled := by
    rw [(hok x hx).dropInvisible_spelled]
    exact hc
  have hsolid : isSeparator c = false := by
    have hmem : c ∈ solid x.spelled := by
      rw [(hok x hx).solid_spelled]
      exact hc
    simpa using (List.mem_filter.mp hmem).2
  have hrender : c ∈ dropInvisible (render lexemes) := by
    obtain ⟨hmem, hkeep⟩ := List.mem_filter.mp hvisible
    refine List.mem_filter.mpr ⟨?_, hkeep⟩
    exact List.mem_flatMap.mpr ⟨x, hx, List.mem_append_left _ hmem⟩
  have hrest : c ∈ [] ++ solid (dropInvisible (render lexemes)) :=
    List.mem_filter.mpr ⟨hrender, by simp [hsolid]⟩
  have htoken := exists_token hrest
  rwa [tokenize_dropInvisible hok] at htoken

/-- The characters of a run are visible characters of the expression. -/
theorem mem_run {lexemes : List Lexeme} (hok : ∀ x ∈ lexemes, x.Ok table) {tok : Text}
    (htok : tok ∈ runs [] lexemes) {c : Char} (hc : c ∈ tok) : ∃ x ∈ lexemes, c ∈ x.visible := by
  rw [← tokenize_dropInvisible hok] at htok
  have hmem := (mem_tokenizeLoop htok).2.subset hc
  rw [List.nil_append] at hmem
  obtain ⟨hdrop, hsolid⟩ := List.mem_filter.mp hmem
  obtain ⟨hrender, -⟩ := List.mem_filter.mp hdrop
  obtain ⟨x, hx, hpart⟩ := List.mem_flatMap.mp hrender
  rcases List.mem_append.mp hpart with hspelled | hgap
  · refine ⟨x, hx, ?_⟩
    rw [← (hok x hx).solid_spelled]
    exact List.mem_filter.mpr ⟨hspelled, hsolid⟩
  · simp [(hok x hx).gap c hgap] at hsolid

/-- No token of either reading of the hidden name is that name. -/
theorem hidden_not_examined (h : WellFormed table lead (before ++ .name word gap :: after))
    (hsplit : ¬ Intact word) (hjoined : ¬ (apartAfter true before = true ∧ Closed gap after = true))
    {id : Text}
    (hid : id ∈ splitSPDXExpression table (lead ++ render (hide before word gap after))) :
    (parseLicenseForm table id).base ≠ hiddenName word := by
  have hwell := hide_wellFormed h
  have hplain := hide_visible h
  rw [mem_splitSPDXExpression] at hid
  rcases hid with hid | ⟨-, hid⟩
  · rw [hwell.tokenize] at hid
    have hpart : ∀ tok ∈ pieces (hide before word gap after), ∃ x ∈ hide before word gap after,
        tok ∈ tokenizeSPDXExpression x.spelled ∧ tok ≠ [] ∧ tok.Sublist x.visible := by
      intro tok htok
      obtain ⟨x, hx, hmem⟩ := List.mem_flatMap.mp htok
      have hsub := mem_tokenizeLoop hmem
      rw [List.nil_append, (hwell.ok x hx).solid_spelled] at hsub
      exact ⟨x, hx, hmem, hsub⟩
    have halphabet : ∀ tok ∈ pieces (hide before word gap after), ∀ c ∈ tok, c ∈ alphabet := by
      intro tok htok c hc
      obtain ⟨x, hx, -, -, hsub⟩ := hpart tok htok
      exact hplain x hx c (hsub.subset hc)
    have hq : ∃ tok ∈ pieces (hide before word gap after), 'q' ∈ tok := by
      obtain ⟨x, hx, hqx⟩ := hide_mem_q h
      have hsolid : 'q' ∈ [] ++ solid x.spelled := by
        rw [List.nil_append, (hwell.ok x hx).solid_spelled]
        exact hqx
      obtain ⟨tok, htok, hqtok⟩ := exists_token hsolid
      exact ⟨tok, List.mem_flatMap.mpr ⟨x, hx, htok⟩, hqtok⟩
    have hmem := mem_splitSPDXTokens_plain halphabet hq hid
    rw [parseLicenseForm_plain (halphabet id hmem)]
    intro heq
    obtain ⟨x, hx, hxtok, hne, hsub⟩ := hpart id hmem
    have hfilled : ∀ y ∈ before ++ .name word gap :: after, x = y.fillWith 'z' → False := by
      rintro y hy rfl
      obtain ⟨c, hc⟩ := List.exists_mem_of_ne_nil _ hne
      have hvis := (h.ok y hy).visible_fillWith c (hsub.subset hc)
      exact ne_hiddenName hc hvis.1 hvis.2 heq
    rcases List.mem_append.mp hx with hx | hx
    · obtain ⟨y, hy, hxy⟩ := List.mem_map.mp hx
      exact hfilled y (by simp [hy]) hxy.symm
    · rcases List.mem_cons.mp hx with rfl | hx
      · have hname : (Lexeme.name word gap).Ok table := h.ok _ (by simp)
        have hword := hname.1.fill (c := 'q') (by decide)
        have hnot : ¬ Intact (word.map (Glyph.fill 'q')) := by
          rw [intact_fill]
          exact hsplit
        have hshort := hword.pieces_shorter hnot hxtok
        rw [visible_fill, List.length_replicate] at hshort
        have hlen := congrArg List.length heq
        rw [List.length_map, hiddenName, List.length_replicate] at hlen
        omega
      · obtain ⟨y, hy, hxy⟩ := List.mem_map.mp hx
        exact hfilled y (by simp [hy]) hxy.symm
  · rw [hwell.tokenize_visible] at hid
    have halphabet : ∀ tok ∈ runs [] (hide before word gap after), ∀ c ∈ tok, c ∈ alphabet := by
      intro tok htok c hc
      obtain ⟨x, hx, hcx⟩ := mem_run hwell.ok htok hc
      exact hplain x hx c hcx
    have hq : ∃ tok ∈ runs [] (hide before word gap after), 'q' ∈ tok := by
      obtain ⟨x, hx, hqx⟩ := hide_mem_q h
      exact exists_run hwell.ok hx hqx
    have hmem := mem_splitSPDXTokens_plain halphabet hq hid
    rw [parseLicenseForm_plain (halphabet id hmem)]
    obtain ⟨c, hc, hcq⟩ := hide_marks h hjoined [] (.inl rfl) id hmem
    exact ne_hiddenName hc (halphabet id hmem c hc) hcq

end exactness

/-- The deny check sees every denied license of an expression, whatever its
licenses are called, exactly when each name is free of invisible characters
inside or stands apart on both sides. -/
theorem denied_license_found_iff (table : CaseTable) (lead : Text) (lexemes : List Lexeme)
    (hwell : WellFormed table lead lexemes) :
    (∀ others, others.map Lexeme.outline = lexemes.map Lexeme.outline →
      WellFormed table lead others → ∀ entries denyList,
        ⟨lead ++ render others, true⟩ ∈ entries →
        (∃ id ∈ licenses table false others, licenseDenied table id denyList = true) →
        (checkLicenseDenyList table entries denyList).isSome) ↔
      Exposed true lexemes := by
  constructor
  · intro h
    rw [exposed_iff]
    rintro before word gap after rfl
    by_contra hnot
    obtain ⟨hsplit, hjoined⟩ := not_or.mp hnot
    have hhidden := hide_wellFormed hwell
    have hlicense : hiddenName word ∈ licenses table false (hide before word gap after) := by
      rw [mem_licenses_iff]
      refine ⟨_, _, _, _, rfl, (visible_fill word 'q').symm, ?_⟩
      intro hex
      rw [isLicenseException_plain hiddenName_plain] at hex
      exact absurd hex (by simp)
    have hdenied : licenseDenied table (hiddenName word) [hiddenName word] = true := by
      simp [licenseDenied]
    have hfound := h _ hide_outline hhidden
      [⟨lead ++ render (hide before word gap after), true⟩] [hiddenName word] (by simp)
      ⟨_, hlicense, hdenied⟩
    obtain ⟨entry, hentry, id, hid, hmatch⟩ :=
      (checkLicenseDenyList_isSome_iff table _ _).mp hfound
    have hvalue : entry = ⟨lead ++ render (hide before word gap after), true⟩ := by
      simpa using hentry
    subst hvalue
    have hbase : (parseLicenseForm table (hiddenName word)).base =
        (parseLicenseForm table id).base := by
      simpa [licenseDenied] using hmatch
    have hown : (parseLicenseForm table (hiddenName word)).base = hiddenName word := by
      rw [parseLicenseForm_plain hiddenName_plain]
      simp [hiddenName]
    exact hidden_not_examined hwell hsplit hjoined hid (hbase.symm.trans hown)
  · rintro hexposed others houtline hothers entries denyList hentry ⟨id, hid, hdenied⟩
    have hexposed' : Exposed true others := by
      rw [← exposed_outline, houtline, exposed_outline]
      exact hexposed
    apply (checkLicenseDenyList_isSome_iff table entries denyList).mpr
    exact ⟨_, hentry, id, license_examined hothers hexposed' hid, hdenied⟩

/-- The glyphs of a written word. -/
def glyphs (text : String) : List Glyph :=
  text.toList.map (fun c => if isInvisible c then .hidden c else .shown c)

/-- `MIT AND GPL-3.0-only` with a zero-width space inside the second name. -/
def spacedExpression : List Lexeme :=
  [.name (glyphs "MIT") " ".toList, .operator .and (glyphs "AND") " ".toList,
    .name (glyphs "GPL\u200b-3.0-only") []]

theorem wellFormed_of_gap {gap : Text} (hall : gap.all isSeparator = true) (hne : gap ≠ []) :
    WellFormed .ascii [] [.name (glyphs "MIT") gap, .operator .and (glyphs "AND") gap,
      .name (glyphs "GPL\u200b-3.0-only") []] where
  grammar := .join .and (glyphs "AND") gap (.license _ _) (.license _ _)
  lead := by simp
  spaced := by
    rw [List.isChain_cons_cons, List.isChain_cons_cons]
    exact ⟨fun _ _ => hne, fun _ _ => hne, List.IsChain.singleton _⟩
  ok := by
    have hgap := List.all_eq_true.mp hall
    simp only [List.forall_mem_cons]
    exact ⟨⟨⟨by decide, by decide, by decide⟩, hgap, by decide, by decide⟩,
      ⟨⟨by decide, by decide, by decide⟩, hgap, by decide⟩,
      ⟨⟨by decide, by decide, by decide⟩, by simp, by decide, by decide⟩, by simp⟩

theorem spacedExpression_wellFormed : WellFormed .ascii [] spacedExpression :=
  wellFormed_of_gap (by decide) (by decide)

theorem spaced_license_found :
    (checkLicenseDenyList .ascii [⟨render spacedExpression, true⟩]
      ["GPL-3.0-or-later".toList]).isSome :=
  (denied_license_found_iff .ascii [] spacedExpression spacedExpression_wellFormed).mpr
    ⟨.inl (by decide), .inr ⟨by decide, by decide⟩, trivial⟩ spacedExpression rfl
    spacedExpression_wellFormed _ _ (by simp) ⟨"GPL-3.0-only".toList, by decide, by decide⟩

/-- The same expression with zero-width spaces between its tokens too. -/
def joinedExpression : List Lexeme :=
  [.name (glyphs "MIT") "\u200b".toList, .operator .and (glyphs "AND") "\u200b".toList,
    .name (glyphs "GPL\u200b-3.0-only") []]

theorem joinedExpression_wellFormed : WellFormed .ascii [] joinedExpression :=
  wellFormed_of_gap (by decide) (by decide)

theorem joined_license_hidden :
    WellFormed .ascii [] joinedExpression ∧
      "GPL-3.0-only".toList ∈ licenses .ascii false joinedExpression ∧
      licenseDenied .ascii "GPL-3.0-only".toList ["GPL-3.0-only".toList] = true ∧
      (checkLicenseDenyList .ascii [⟨render joinedExpression, true⟩]
        ["GPL-3.0-only".toList]).isSome = false :=
  ⟨joinedExpression_wellFormed, by decide, by decide, by decide +kernel⟩

end NriSupplyChain.Sbom
