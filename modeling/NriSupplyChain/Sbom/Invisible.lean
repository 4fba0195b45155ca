import NriSupplyChain.Sbom.Expressions

/-!
Which licenses of a written expression are examined. A name is examined if no
invisible character stands inside it, which the first reading sees, or if white
space or a parenthesis keeps it apart from its neighbours, which the second
reading sees.
-/

namespace NriSupplyChain.Sbom

open Lib

variable {table : CaseTable}

/-- Whether the last token read was WITH. -/
def flagAfter (table : CaseTable) : List Text → Bool → Bool
  | [], afterWith => afterWith
  | tok :: rest, _ => flagAfter table rest (!isBoundary table tok && isWith table tok)

theorem flagAfter_concat (tokens : List Text) (tok : Text) (afterWith : Bool) :
    flagAfter table (tokens ++ [tok]) afterWith =
      (!isBoundary table tok && isWith table tok) := by
  induction tokens generalizing afterWith with
  | nil => rfl
  | cons first rest ih => exact ih _

theorem splitLoop_append (a b : List Text) (afterWith : Bool) :
    splitLoop table (a ++ b) afterWith =
      splitLoop table a afterWith ++ splitLoop table b (flagAfter table a afterWith) := by
  induction a generalizing afterWith with
  | nil => rfl
  | cons tok rest ih =>
    rw [List.cons_append, splitLoop, splitLoop, flagAfter]
    cases hboundary : isBoundary table tok with
    | true => simp [ih]
    | false =>
      cases hwith : isWith table tok with
      | true => simp [ih]
      | false =>
        cases hskip : afterWith && isLicenseException table tok with
        | true => simp [ih]
        | false => simp [ih]

variable {afterWith : Bool} {tok : Text}

/-- A token that is no operator is examined, unless it is an exception after WITH. -/
theorem mem_splitLoop {a b : List Text} (hboundary : isBoundary table tok = false)
    (hwith : isWith table tok = false)
    (hexception : isLicenseException table tok = true → flagAfter table a afterWith = false) :
    tok ∈ splitLoop table (a ++ tok :: b) afterWith := by
  have hskip : (flagAfter table a afterWith && isLicenseException table tok) = false := by
    cases h : isLicenseException table tok with
    | true => simp [hexception h]
    | false => simp
  rw [splitLoop_append, List.mem_append]
  right
  simp [splitLoop, hboundary, hwith, hskip]

theorem mem_of_mem_splitLoop {tokens : List Text} (h : tok ∈ splitLoop table tokens afterWith) :
    tok ∈ tokens := by
  induction tokens generalizing afterWith with
  | nil => simp [splitLoop] at h
  | cons first rest ih =>
    rw [splitLoop] at h
    split at h
    · exact List.mem_cons_of_mem _ (ih h)
    · split at h
      · exact List.mem_cons_of_mem _ (ih h)
      · split at h
        · exact List.mem_cons_of_mem _ (ih h)
        · rcases List.mem_cons.mp h with rfl | h
          · exact List.mem_cons_self
          · exact List.mem_cons_of_mem _ (ih h)

theorem splitSPDXTokens_of_mem {expr : Text} {tokens : List Text}
    (h : tok ∈ splitLoop table tokens false) :
    splitSPDXTokens table expr tokens = splitLoop table tokens false := by
  unfold splitSPDXTokens
  cases hids : splitLoop table tokens false with
  | nil => simp [hids] at h
  | cons id ids => rfl

def Lexeme.isWithOperator : Lexeme → Bool
  | .operator op _ _ => op = .with_
  | _ => false

/-- Whether the token in front is a WITH. -/
def withBefore : Bool → List Lexeme → Bool
  | afterWith, [] => afterWith
  | _, x :: rest => withBefore x.isWithOperator rest

theorem withBefore_concat (afterWith : Bool) (init : List Lexeme) (x : Lexeme) :
    withBefore afterWith (init ++ [x]) = x.isWithOperator := by
  induction init generalizing afterWith with
  | nil => rfl
  | cons y init ih => exact ih _

variable {lexemes : List Lexeme}

/-- A license of an expression is a name at some place of it. -/
theorem mem_licenses_iff {id : Text} :
    id ∈ licenses table afterWith lexemes ↔
      ∃ before word gap after, lexemes = before ++ .name word gap :: after ∧
        id = (Lexeme.name word gap).visible ∧
        (isLicenseException table id = true → withBefore afterWith before = false) := by
  constructor
  · intro h
    induction lexemes generalizing afterWith with
    | nil => simp [licenses] at h
    | cons x rest ih =>
      have hlater : ∀ flag, id ∈ licenses table flag rest → withBefore afterWith [x] = flag →
          ∃ before word gap after, x :: rest = before ++ .name word gap :: after ∧
            id = (Lexeme.name word gap).visible ∧
            (isLicenseException table id = true → withBefore afterWith before = false) := by
        intro flag hmem hflag
        obtain ⟨before, word, gap, after, rfl, hid, hexception⟩ := ih hmem
        refine ⟨x :: before, word, gap, after, rfl, hid, ?_⟩
        intro hex
        have hbefore := hexception hex
        rw [← hflag] at hbefore
        cases x <;> exact hbefore
      cases x with
      | name word gap =>
        rw [licenses, List.mem_append] at h
        rcases h with h | h
        · split at h
          · simp at h
          · next hskip =>
            have hid : id = (Lexeme.name word gap).visible := by simpa using h
            refine ⟨[], word, gap, rest, rfl, hid, ?_⟩
            intro hex
            rw [hid] at hex
            simpa [withBefore, hex] using hskip
        · exact hlater false h rfl
      | operator op word gap => exact hlater _ h rfl
      | paren char gap => exact hlater false h rfl
  · rintro ⟨before, word, gap, after, rfl, rfl, hexception⟩
    induction before generalizing afterWith with
    | nil =>
      have hskip : (afterWith && isLicenseException table (Lexeme.name word gap).visible) =
          false := by
        cases hex : isLicenseException table (Lexeme.name word gap).visible with
        | true =>
          have hflag : afterWith = false := hexception hex
          simp [hflag]
        | false => simp
      simp [licenses, hskip]
    | cons x before ih =>
      cases x with
      | name first firstGap =>
        rw [List.cons_append, licenses, List.mem_append]
        exact .inr (ih hexception)
      | operator op first firstGap => exact ih hexception
      | paren char firstGap => exact ih hexception

/-- Whether what comes next stands apart from the token in front. -/
def apartAfter : Bool → List Lexeme → Bool
  | apart, [] => apart
  | _, x :: rest => apartAfter (x.isParen || x.gap.any isSpace) rest

/-- The condition, place by place. -/
theorem exposed_iff {apart : Bool} :
    Exposed apart lexemes ↔ ∀ before word gap after, lexemes = before ++ .name word gap :: after →
      Intact word ∨ apartAfter apart before = true ∧ Closed gap after = true := by
  induction lexemes generalizing apart with
  | nil => simp [Exposed]
  | cons x rest ih =>
    have hlater : (∀ before word gap after, rest = before ++ .name word gap :: after →
        Intact word ∨ apartAfter (x.isParen || x.gap.any isSpace) before = true ∧
          Closed gap after = true) ↔
        ∀ before word gap after, x :: rest = (x :: before) ++ .name word gap :: after →
          Intact word ∨ apartAfter apart (x :: before) = true ∧ Closed gap after = true := by
      simp [apartAfter]
    have hsplit : Exposed apart (x :: rest) ↔
        (∀ word gap, x = .name word gap →
          Intact word ∨ apart = true ∧ Closed gap rest = true) ∧
        Exposed (x.isParen || x.gap.any isSpace) rest := by
      cases x <;> simp [Exposed, Lexeme.isParen, Lexeme.gap]
    rw [hsplit, ih, hlater]
    constructor
    · rintro ⟨hfirst, hrest⟩ before word gap after heq
      cases before with
      | nil =>
        obtain ⟨rfl, rfl⟩ := List.cons.inj heq
        exact hfirst word gap rfl
      | cons y before =>
        obtain ⟨rfl, -⟩ := List.cons.inj heq
        exact hrest before word gap after heq
    · intro h
      constructor
      · rintro word gap rfl
        exact h [] word gap rest rfl
      · intro before word gap after heq
        exact h (x :: before) word gap after heq

/-- Names are never next to each other: an operator or a parenthesis is between them. -/
theorem IsExpression.names_apart (h : IsExpression lexemes) :
    lexemes.IsChain (fun a b => a.isName = true → b.isName = false) := by
  induction h with
  | license word gap => exact List.IsChain.singleton _
  | join op word gap _ _ ihleft ihright =>
    rw [List.isChain_append]
    refine ⟨ihleft, ?_, ?_⟩
    · rw [List.isChain_cons]
      exact ⟨fun b _ h => by simp [Lexeme.isName] at h, ihright⟩
    · intro a _ b hb _
      have hop : Lexeme.operator op word gap = b := by simpa using hb
      simp [← hop, Lexeme.isName]
  | group openGap closeGap _ ih =>
    rw [List.cons_append, List.isChain_cons]
    refine ⟨fun b _ h => by simp [Lexeme.isName] at h, ?_⟩
    rw [List.isChain_append]
    refine ⟨ih, List.IsChain.singleton _, ?_⟩
    intro a _ b hb _
    have hclose : Lexeme.paren ')' closeGap = b := by simpa using hb
    simp [← hclose, Lexeme.isName]

variable {op : Operator}

theorem operator_text_ascii {c : Char} (h : c ∈ op.text) : c.toNat < 128 := by
  have hall : op.text.all (fun c => c.toNat < 128) = true := by
    cases op <;> decide
  exact of_decide_eq_true (List.all_eq_true.mp hall c h)

theorem isAscii_of_toUpper {c : Char} (h : c.toUpper.toNat < 128) : c.toNat < 128 := by
  unfold Char.toUpper at h
  split at h
  · next hlower =>
    have hle : c.val ≤ 122 := hlower.2
    have hnat : c.val.toNat ≤ 122 := by simpa [UInt32.le_iff_toNat_le] using hle
    exact Nat.lt_of_le_of_lt hnat (by decide)
  · exact h

variable {gap : Text} {word : List Glyph}

/-- An operator in any letter case is an operator under every table. -/
theorem Lexeme.Ok.operator_upper (h : (Lexeme.operator op word gap).Ok table) :
    table.toUpper (Lexeme.operator op word gap).visible = op.text := by
  have hupper : (Lexeme.operator op word gap).visible.map Char.toUpper = op.text := h.2.2
  rw [← hupper]
  apply List.map_congr_left
  intro c hc
  apply table.upper_ascii
  apply isAscii_of_toUpper
  have hmem : c.toUpper ∈ op.text := hupper ▸ List.mem_map_of_mem hc
  exact operator_text_ascii hmem

/-- The last piece of a token is made of its visible characters. -/
theorem tokenize_spelled_last {x : Lexeme} (h : x.Ok table) :
    ∃ init tok, tokenizeSPDXExpression x.spelled = init ++ [tok] ∧ tok.Sublist x.visible := by
  obtain ⟨c, hc⟩ := List.exists_mem_of_ne_nil _ h.visible_ne_nil
  have hsolid : c ∈ [] ++ solid x.spelled := by simpa [h.solid_spelled] using hc
  obtain ⟨tok, hmem, -⟩ := exists_token hsolid
  have hne : tokenizeSPDXExpression x.spelled ≠ [] := List.ne_nil_of_mem hmem
  have hlast := List.getLast_mem hne
  refine ⟨_, _, (List.dropLast_append_getLast hne).symm, ?_⟩
  simpa [h.solid_spelled] using (mem_tokenizeLoop hlast).2

theorem pieces_append (a b : List Lexeme) : pieces (a ++ b) = pieces a ++ pieces b := by
  simp [pieces]

theorem isWith_of_length (h : tok.length < 4) : isWith table tok = false := by
  apply decide_eq_false
  intro heq
  have hlen := congrArg List.length heq
  have hfour : "WITH".toList.length = 4 := by decide
  rw [CaseTable.length_toUpper, hfour] at hlen
  omega

theorem isWith_paren {char : Char} : isWith table [char] = false :=
  isWith_of_length (by simp)

theorem Operator.length_text (h : op ≠ .with_) : op.text.length < 4 := by
  cases op with
  | and => decide
  | or => decide
  | with_ => exact absurd rfl h

variable {before : List Lexeme}

/-- In the first reading a token is behind WITH only where it is in the expression. -/
theorem flagAfter_pieces (hok : ∀ x ∈ before, x.Ok table)
    (hlast : ∀ x ∈ before.getLast?, x.isName = false) (hwith : withBefore false before = false) :
    flagAfter table (pieces before) false = false := by
  rcases List.eq_nil_or_concat' before with rfl | ⟨init, x, rfl⟩
  · rfl
  · have hx : x.Ok table := hok x (by simp)
    obtain ⟨first, tok, htokens, hsub⟩ := tokenize_spelled_last hx
    have hpieces : pieces (init ++ [x]) = (pieces init ++ first) ++ [tok] := by
      rw [pieces_append]
      simp [pieces, htokens]
    rw [hpieces, flagAfter_concat]
    have hnowith : isWith table tok = false := by
      cases x with
      | name word gap => simp [Lexeme.isName] at hlast
      | paren char gap =>
        have hlen := hsub.length_le
        simp only [Lexeme.visible, List.length_singleton] at hlen
        exact isWith_of_length (by omega)
      | operator op word gap =>
        have hop : op ≠ .with_ := by
          rw [withBefore_concat] at hwith
          simpa [Lexeme.isWithOperator] using hwith
        have hlen := hsub.length_le
        have hupper := congrArg List.length hx.operator_upper
        rw [CaseTable.length_toUpper] at hupper
        have htext := Operator.length_text hop
        exact isWith_of_length (by omega)
    simp [hnowith]

/-- Runs end where the next token stands apart. -/
theorem runs_append {apart : Bool} {current : Text} (after : List Lexeme)
    (hcurrent : apart = true → current = []) (h : apartAfter apart before = true) :
    runs current (before ++ after) = runs current before ++ runs [] after := by
  induction before generalizing apart current with
  | nil =>
    have hnil := hcurrent h
    subst hnil
    simp [runs, flush]
  | cons x before ih =>
    rw [List.cons_append]
    rw [apartAfter] at h
    cases hparen : x.isParen with
    | true =>
      rw [runs_paren hparen, runs_paren hparen, ih (fun _ => rfl) h]
      simp
    | false =>
      cases hspace : x.gap.any isSpace with
      | true =>
        rw [runs_apart hparen hspace, runs_apart hparen hspace, ih (fun _ => rfl) h]
        simp
      | false =>
        rw [hparen, hspace] at h
        rw [runs_joined hparen hspace, runs_joined hparen hspace]
        exact ih (by simp) h

/-- The last run ends in the last token. -/
theorem runs_concat {x : Lexeme} (hx : x.visible ≠ []) (init : List Lexeme) (current : Text) :
    ∃ tokens head, runs current (init ++ [x]) = tokens ++ [head ++ x.visible] ∧
      (x.isParen = true → head = []) := by
  have hne : ∀ cur : Text, (cur ++ x.visible).isEmpty = false := by
    intro cur
    cases h : cur ++ x.visible with
    | nil => exact absurd (List.append_eq_nil_iff.mp h).2 hx
    | cons c text => rfl
  induction init generalizing current with
  | nil =>
    rw [List.nil_append]
    cases hparen : x.isParen with
    | true =>
      rw [runs_paren hparen]
      exact ⟨flush [] current, [], by simp [runs, flush], fun _ => rfl⟩
    | false =>
      refine ⟨[], current, ?_, by simp⟩
      cases hspace : x.gap.any isSpace with
      | true =>
        rw [runs_apart hparen hspace]
        simp [runs, flush, hne]
      | false =>
        rw [runs_joined hparen hspace]
        simp [runs, flush, hne]
  | cons y init ih =>
    rw [List.cons_append]
    cases hparen : y.isParen with
    | true =>
      obtain ⟨tokens, head, htokens, hhead⟩ := ih []
      rw [runs_paren hparen, htokens]
      exact ⟨flush [] current ++ y.visible :: tokens, head, by simp, hhead⟩
    | false =>
      cases hspace : y.gap.any isSpace with
      | true =>
        obtain ⟨tokens, head, htokens, hhead⟩ := ih []
        rw [runs_apart hparen hspace, htokens]
        exact ⟨flush [] (current ++ y.visible) ++ tokens, head, by simp, hhead⟩
      | false =>
        obtain ⟨tokens, head, htokens, hhead⟩ := ih (current ++ y.visible)
        rw [runs_joined hparen hspace]
        exact ⟨tokens, head, htokens, hhead⟩

theorem isWith_of_ends_otherwise {head tail : Text} (htail : table.toUpper tail = op.text)
    (hop : op ≠ .with_) : isWith table (head ++ tail) = false := by
  apply decide_eq_false
  intro heq
  rw [CaseTable.toUpper_append, htail] at heq
  have hsuffix : op.text <:+ "WITH".toList := ⟨_, heq⟩
  cases op with
  | and => exact absurd hsuffix (by decide)
  | or => exact absurd hsuffix (by decide)
  | with_ => exact hop rfl

theorem flagAfter_runs (hok : ∀ x ∈ before, x.Ok table)
    (hlast : ∀ x ∈ before.getLast?, x.isName = false) (hwith : withBefore false before = false) :
    flagAfter table (runs [] before) false = false := by
  rcases List.eq_nil_or_concat' before with rfl | ⟨init, x, rfl⟩
  · rfl
  · have hx : x.Ok table := hok x (by simp)
    obtain ⟨tokens, head, hruns, hhead⟩ := runs_concat hx.visible_ne_nil init []
    rw [hruns, flagAfter_concat]
    have hnowith : isWith table (head ++ x.visible) = false := by
      cases x with
      | name word gap => simp [Lexeme.isName] at hlast
      | paren char gap =>
        rw [hhead rfl]
        exact isWith_paren
      | operator op word gap =>
        have hop : op ≠ .with_ := by
          rw [withBefore_concat] at hwith
          simpa [Lexeme.isWithOperator] using hwith
        exact isWith_of_ends_otherwise hx.operator_upper hop
    simp [hnowith]

/-- A name followed by white space, a parenthesis or the end is a run of its own. -/
theorem runs_closed {after : List Lexeme} (hne : (Lexeme.name word gap).visible ≠ [])
    (h : Closed gap after = true) :
    runs [] (.name word gap :: after) = (Lexeme.name word gap).visible :: runs [] after := by
  have hflush : flush [] (Lexeme.name word gap).visible = [(Lexeme.name word gap).visible] := by
    cases hv : (Lexeme.name word gap).visible with
    | nil => exact absurd hv hne
    | cons c text => rfl
  cases hspace : (Lexeme.name word gap).gap.any isSpace with
  | true =>
    rw [runs_apart rfl hspace, List.nil_append, hflush]
    rfl
  | false =>
    rw [runs_joined rfl hspace, List.nil_append]
    cases after with
    | nil =>
      rw [runs, hflush]
      rfl
    | cons y after =>
      have hgap : gap.any isSpace = false := hspace
      have hparen : y.isParen = true := by simpa [Closed, hgap] using h
      rw [runs_paren hparen, runs_paren hparen, hflush]
      rfl

theorem names_before {after : List Lexeme} (h : IsExpression (before ++ .name word gap :: after)) :
    ∀ x ∈ before.getLast?, x.isName = false := by
  intro x hx
  have hchain := (List.isChain_append.mp h.names_apart).2.2
  have hpair := hchain x hx (.name word gap) (by simp)
  by_contra hname
  exact absurd (hpair (by simpa using hname)) (by simp [Lexeme.isName])

theorem tokenize_intact (h : WordOk word) (hintact : Intact word) :
    tokenizeSPDXExpression (word.map Glyph.char) = [word.filterMap Glyph.shown?] := by
  have hspelled : word.map Glyph.char = word.filterMap Glyph.shown? := by
    rw [← h.solid_spelled]
    symm
    apply List.filter_eq_self.mpr
    intro c hc
    obtain ⟨g, hg, rfl⟩ := List.mem_map.mp hc
    have hshown := hintact g hg
    cases g with
    | shown d => simp [Glyph.char, (h.shown d hg).1]
    | hidden d => simp [Glyph.shown?] at hshown
  have hword := tokenizeLoop_word h.visible_plain [] []
  have hne : (word.filterMap Glyph.shown?).isEmpty = false := by
    cases hv : word.filterMap Glyph.shown? with
    | nil => exact absurd hv h.visible_ne_nil
    | cons c text => rfl
  rw [hspelled, tokenizeSPDXExpression]
  rw [List.append_nil] at hword
  rw [hword]
  simp [tokenizeLoop, flush, hne]

variable {lead : Text}

theorem WellFormed.tokenize (h : WellFormed table lead lexemes) :
    tokenizeSPDXExpression (lead ++ render lexemes) = pieces lexemes :=
  (tokenizeLoop_gap h.lead _).trans (tokenize_render h.ok h.spaced)

theorem WellFormed.tokenize_visible (h : WellFormed table lead lexemes) :
    tokenizeSPDXExpression (dropInvisible (lead ++ render lexemes)) = runs [] lexemes := by
  unfold tokenizeSPDXExpression
  rw [dropInvisible_append, tokenizeLoop_gap (dropInvisible_gap h.lead).1,
    tokenize_dropInvisible h.ok]

/-- A license of an exposed expression is among the identifiers that are examined. -/
theorem license_examined {id : Text} (hwell : WellFormed table lead lexemes)
    (hexposed : Exposed true lexemes) (hid : id ∈ licenses table false lexemes) :
    id ∈ splitSPDXExpression table (lead ++ render lexemes) := by
  obtain ⟨before, word, gap, after, rfl, rfl, hexception⟩ := mem_licenses_iff.mp hid
  have hbefore : ∀ x ∈ before, x.Ok table := fun x hx => hwell.ok x (by simp [hx])
  have hname : (Lexeme.name word gap).Ok table := hwell.ok _ (by simp)
  have hnames := names_before hwell.grammar
  rw [mem_splitSPDXExpression]
  by_cases hintact : Intact word
  · left
    have htokens : tokenizeSPDXExpression (lead ++ render (before ++ .name word gap :: after)) =
        pieces before ++ (Lexeme.name word gap).visible :: pieces after := by
      rw [hwell.tokenize, pieces_append]
      simp [pieces, Lexeme.spelled, Lexeme.visible, tokenize_intact hname.1 hintact]
    have hmem : (Lexeme.name word gap).visible ∈ splitLoop table (pieces before ++
        (Lexeme.name word gap).visible :: pieces after) false :=
      mem_splitLoop hname.2.2.1 hname.2.2.2
        (fun hex => flagAfter_pieces hbefore hnames (hexception hex))
    rw [htokens, splitSPDXTokens_of_mem hmem]
    exact hmem
  · right
    obtain ⟨hapart, hclosed⟩ :=
      (exposed_iff.mp hexposed before word gap after rfl).resolve_left hintact
    have htokens : tokenizeSPDXExpression
        (dropInvisible (lead ++ render (before ++ .name word gap :: after))) =
        runs [] before ++ (Lexeme.name word gap).visible :: runs [] after := by
      rw [hwell.tokenize_visible, runs_append _ (fun _ => rfl) hapart,
        runs_closed hname.visible_ne_nil hclosed]
    have hmem : (Lexeme.name word gap).visible ∈ splitLoop table (runs [] before ++
        (Lexeme.name word gap).visible :: runs [] after) false :=
      mem_splitLoop hname.2.2.1 hname.2.2.2
        (fun hex => flagAfter_runs hbefore hnames (hexception hex))
    have hinvisible : (lead ++ render (before ++ .name word gap :: after)).any isInvisible =
        true := by
      obtain ⟨g, hnot⟩ := not_forall.mp hintact
      obtain ⟨hg, hhidden⟩ := Classical.not_imp.mp hnot
      cases g with
      | shown c => simp [Glyph.shown?] at hhidden
      | hidden c =>
        have hc : c ∈ render (before ++ .name word gap :: after) := by
          simp only [render, List.mem_flatMap]
          refine ⟨.name word gap, by simp, ?_⟩
          apply List.mem_append_left
          exact List.mem_map.mpr ⟨.hidden c, hg, rfl⟩
        exact List.any_eq_true.mpr ⟨c, by simp [hc], hname.1.hidden c hg⟩
    refine ⟨hinvisible, ?_⟩
    rw [htokens, splitSPDXTokens_of_mem hmem]
    exact hmem

end NriSupplyChain.Sbom
