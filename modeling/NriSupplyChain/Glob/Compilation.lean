import NriSupplyChain.Glob.Translation

/-!
How the regexp package reads the expression of a valid pattern. A class is read
as its ranges, unless one of its members starts with `[:` and a `:]` stands
further behind: then the package takes everything in between for the name of a
class, and refuses the expression.
-/

namespace NriSupplyChain.Glob

open Lib Regexp

section members

/-- Whether the last character of a class is a colon. -/
def endsColon (chars : List ClassChar) : Bool :=
  chars.getLast?.map (·.1) = some ':'

/-- Whether a class continues with `[:`. -/
def atName (c : ClassChar) (rest : List ClassChar) : Bool :=
  c.1 = '[' && rest.head?.map (·.1) = some ':'

/-- Whether some member of a class starts with `[:`. -/
def opensName : List ClassChar → Bool
  | _ :: ('-', false) :: _ :: rest => opensName rest
  | c :: rest => atName c rest || opensName rest
  | [] => false

/-- Whether a class can be read when a `:]` stands behind it or not. -/
def Readable (closes : Bool) : List ClassChar → Bool
  | lo :: ('-', false) :: hi :: rest => lo.1 ≤ hi.1 && Readable closes rest
  | c :: rest => !(atName c rest && (endsColon rest.tail || closes)) && Readable closes rest
  | [] => true

theorem readable_eq (closes : Bool) (chars : List ClassChar) :
    Readable closes chars = (Readable false chars && !(closes && opensName chars)) := by
  fun_induction opensName chars with
  | case1 lo hi rest ih => simp [Readable, ih, Bool.and_assoc]
  | case2 c rest hrange ih =>
    rw [Readable, Readable, ih]
    · cases closes <;> cases atName c rest <;> simp
    · exact hrange
    · exact hrange
  | case3 => simp [Readable]

variable {c : ClassChar} {rest : List ClassChar}

theorem Unambiguous.tail (h : Unambiguous (c :: rest)) : Unambiguous rest :=
  fun d hd => h d (List.mem_cons_of_mem c hd)

/-- A character is written as itself or behind a backslash. -/
theorem escapeChar_cases (h : Unambiguous (c :: rest)) :
    (escapeChar c = ['\\', c.1] ∧ c.2 = true ∧ keepsEscape c.1 = true) ∨
      (escapeChar c = [c.1] ∧ c.1 ≠ ']' ∧ c.1 ≠ '\\' ∧ (c.2 = true → keepsEscape c.1 = false)) := by
  obtain ⟨c, escaped⟩ := c
  cases escaped with
  | false =>
    obtain ⟨hclose, hslash⟩ := h c (by simp)
    exact .inr ⟨rfl, hclose, hslash, nofun⟩
  | true =>
    by_cases hkeep : keepsEscape c = true
    · exact .inl ⟨by simp [escapeChar, hkeep], rfl, hkeep⟩
    · refine .inr ⟨by simp [escapeChar, hkeep], ?_, ?_, fun _ => by simpa using hkeep⟩
      · rintro rfl
        exact hkeep rfl
      · rintro rfl
        exact hkeep rfl

theorem isPunct_of_keepsEscape {c : Char} (h : keepsEscape c = true) : isPunct c = true := by
  simp only [keepsEscape, Bool.or_eq_true, decide_eq_true_eq] at h
  rcases h with ((rfl | rfl) | rfl) | rfl <;> decide

theorem parseClassChar_escapeChar (h : Unambiguous (c :: rest)) (text : Text) :
    parseClassChar (escapeChar c ++ text) = some (c.1, text) := by
  rcases escapeChar_cases h with ⟨hwritten, -, hkeep⟩ | ⟨hwritten, -, hslash, -⟩
  · rw [hwritten]
    simp [parseClassChar, isPunct_of_keepsEscape hkeep]
  · rw [hwritten, List.singleton_append, parseClassChar]
    · intro d more heq
      exact absurd heq hslash
    · intro heq
      exact absurd heq hslash

/-- The text of the characters of a class and of what follows the class. -/
def classText (chars : List ClassChar) (behind : Text) : Text :=
  chars.flatMap escapeChar ++ ']' :: behind

theorem classText_cons (c : ClassChar) (rest : List ClassChar) (behind : Text) :
    classText (c :: rest) behind = escapeChar c ++ classText rest behind := by
  simp [classText]

theorem escapeChar_head_ne (h : Unambiguous (c :: rest)) (text : Text) :
    (escapeChar c ++ text).head? ≠ some ']' := by
  rcases escapeChar_cases h with ⟨hwritten, -⟩ | ⟨hwritten, hclose, -⟩
  · rw [hwritten]
    simp
  · rw [hwritten]
    simpa using hclose

theorem cutNamed_cons {c : Char} {text : Text} (h : ¬ (c = ':' ∧ text.head? = some ']')) :
    cutNamed (c :: text) = (cutNamed text).map fun (name, behind) => (c :: name, behind) := by
  rw [cutNamed]
  rintro rest rfl rfl
  exact h ⟨rfl, rfl⟩

theorem cutNamed_escapeChar {text : Text} (h : Unambiguous (c :: rest))
    (hclose : ¬ (c.1 = ':' ∧ text.head? = some ']')) :
    cutNamed (escapeChar c ++ text) =
      (cutNamed text).map fun (name, behind) => (escapeChar c ++ name, behind) := by
  rcases escapeChar_cases h with ⟨hwritten, -⟩ | ⟨hwritten, -⟩
  · rw [hwritten]
    simp only [List.cons_append, List.nil_append]
    rw [cutNamed_cons (by simp), cutNamed_cons hclose]
    simp [Function.comp_def]
  · rw [hwritten]
    exact cutNamed_cons hclose

theorem classText_head_ne (h : Unambiguous (c :: rest)) (behind : Text) :
    (classText (c :: rest) behind).head? ≠ some ']' := by
  rw [classText_cons]
  exact escapeChar_head_ne h _

variable {chars : List ClassChar}

/-- A name is closed by a colon at the end of the class, or behind the class. -/
theorem cutNamed_classText (h : Unambiguous chars) (behind : Text) :
    (endsColon chars = true → ∃ name, cutNamed (classText chars behind) = some (name, behind)) ∧
      (endsColon chars = false → cutNamed (classText chars behind) =
        (cutNamed behind).map fun (name, rest) => (classText chars name, rest)) := by
  induction chars with
  | nil =>
    refine ⟨nofun, fun _ => ?_⟩
    exact cutNamed_cons (by simp)
  | cons c rest ih =>
    cases rest with
    | nil =>
      rw [classText_cons]
      constructor
      · intro hends
        have hcolon : c.1 = ':' := by simpa [endsColon] using hends
        refine ⟨[], ?_⟩
        rcases escapeChar_cases h with ⟨-, -, hkeep⟩ | ⟨hwritten, -⟩
        · simp [hcolon, keepsEscape] at hkeep
        · rw [hwritten, hcolon]
          rfl
      · intro hends
        have hcolon : c.1 ≠ ':' := by simpa [endsColon] using hends
        rw [cutNamed_escapeChar h (fun hc => hcolon hc.1), classText, List.flatMap_nil,
          List.nil_append, cutNamed_cons (by simp)]
        simp [Function.comp_def, classText]
    | cons d rest =>
      have hends : endsColon (c :: d :: rest) = endsColon (d :: rest) := by simp [endsColon]
      obtain ⟨hclosed, hopen⟩ := ih h.tail
      have hhead := classText_head_ne h.tail behind
      rw [hends, classText_cons, cutNamed_escapeChar h (fun hc => hhead hc.2)]
      constructor
      · intro hcolon
        obtain ⟨name, hname⟩ := hclosed hcolon
        exact ⟨escapeChar c ++ name, by simp [hname]⟩
      · intro hcolon
        rw [hopen hcolon]
        simp [Function.comp_def, classText_cons]

theorem cutNamed_classText_isSome (h : Unambiguous chars) (behind : Text) :
    (cutNamed (classText chars behind)).isSome = (endsColon chars || (cutNamed behind).isSome) := by
  obtain ⟨hclosed, hopen⟩ := cutNamed_classText h behind
  cases hends : endsColon chars with
  | true =>
    obtain ⟨name, hname⟩ := hclosed hends
    simp [hname]
  | false => simp [hopen hends]

/-- A range of the class, with a dash between its ends. -/
theorem parseRange_dash {lo hi : ClassChar} (h : Unambiguous (lo :: ('-', false) :: hi :: rest))
    (behind : Text) :
    parseRange (classText (lo :: ('-', false) :: hi :: rest) behind) =
      if hi.1 < lo.1 then none else some ((lo.1, hi.1), classText rest behind) := by
  have hhi : Unambiguous (hi :: rest) := h.tail.tail
  have hhead := classText_head_ne hhi behind
  have hparse : parseClassChar (classText (hi :: rest) behind) =
      some (hi.1, classText rest behind) := by
    rw [classText_cons]
    exact parseClassChar_escapeChar hhi _
  unfold parseRange
  rw [classText_cons, parseClassChar_escapeChar h, classText_cons]
  generalize htext : classText (hi :: rest) behind = text at hhead hparse
  cases text with
  | nil => simp [parseClassChar] at hparse
  | cons c more =>
    have hc : c ≠ ']' := by simpa using hhead
    simp [escapeChar, hc, hparse]

/-- A single character of the class. -/
theorem parseRange_single (h : Unambiguous (c :: rest))
    (hrange : ∀ hi more, rest ≠ ('-', false) :: hi :: more) (behind : Text) :
    parseRange (classText (c :: rest) behind) = some ((c.1, c.1), classText rest behind) := by
  unfold parseRange
  rw [classText_cons, parseClassChar_escapeChar h]
  cases rest with
  | nil => rfl
  | cons d rest =>
    rcases escapeChar_cases h.tail with ⟨hwritten, -⟩ | ⟨hwritten, hclose, -, hkeep⟩
    · rw [classText_cons, hwritten]
      rfl
    · rw [classText_cons, hwritten]
      by_cases hdash : d.1 = '-'
      · obtain ⟨d, escaped⟩ := d
        obtain rfl : d = '-' := hdash
        cases escaped with
        | true => simp [keepsEscape] at hkeep
        | false =>
          cases rest with
          | nil => rfl
          | cons hi more => exact absurd rfl (hrange hi more)
      · simp only [Option.bind_eq_bind, Option.bind_some, List.singleton_append]
        split
        · next heq => exact absurd (List.cons.inj heq).1 hdash
        · rfl

theorem parseNamedClass_absent (h : Unambiguous (c :: rest)) (hname : atName c rest = false)
    (behind : Text) : parseNamedClass (classText (c :: rest) behind) = .absent := by
  unfold parseNamedClass
  split
  · next text heq =>
    exfalso
    rw [classText_cons] at heq
    rcases escapeChar_cases h with ⟨hwritten, -⟩ | ⟨hwritten, -⟩
    · simp [hwritten] at heq
    · rw [hwritten, List.singleton_append] at heq
      obtain ⟨hc, htext⟩ := List.cons.inj heq
      cases rest with
      | nil => simp [classText] at htext
      | cons d rest =>
        rw [classText_cons] at htext
        rcases escapeChar_cases h.tail with ⟨hwritten, -⟩ | ⟨hwritten, -⟩
        · simp [hwritten] at htext
        · rw [hwritten, List.singleton_append] at htext
          simp [atName, hc, (List.cons.inj htext).1] at hname
  · rfl

theorem parseNamedClass_atName {d : ClassChar} (h : Unambiguous (c :: d :: rest))
    (hname : atName c (d :: rest) = true) (behind : Text) :
    parseNamedClass (classText (c :: d :: rest) behind) =
      match cutNamed (classText rest behind) with
      | none => .absent
      | some (name, behind) =>
        match posixMembers name with
        | none => .unknown
        | some members => .known members behind := by
  have hchars : c.1 = '[' ∧ d.1 = ':' := by simpa [atName] using hname
  have hc : escapeChar c = ['['] := by
    rcases escapeChar_cases h with ⟨-, -, hkeep⟩ | ⟨hwritten, -⟩
    · simp [hchars.1, keepsEscape] at hkeep
    · rw [hwritten, hchars.1]
  have hd : escapeChar d = [':'] := by
    rcases escapeChar_cases h.tail with ⟨-, -, hkeep⟩ | ⟨hwritten, -⟩
    · simp [hchars.2, keepsEscape] at hkeep
    · rw [hwritten, hchars.2]
  rw [classText_cons, classText_cons, hc, hd]
  rfl

theorem posixRanges_eq_none {name : Text} (h : ']' ∈ name) : posixRanges name = none := by
  have hne : ∀ known : Text, ']' ∉ known → name ≠ known := by
    rintro known hknown rfl
    exact hknown h
  unfold posixRanges
  repeat rw [if_neg (hne _ (by decide))]

/-- No known name holds a closing bracket. -/
theorem posixMembers_eq_none {name : Text} (h : ']' ∈ name) : posixMembers name = none := by
  unfold posixMembers
  split
  · next rest =>
    have hrest : ']' ∈ rest := by simpa using h
    rw [posixRanges_eq_none hrest]
    rfl
  · rw [posixRanges_eq_none h]
    rfl

theorem parseMembers_nil (fuel : Nat) : parseMembers fuel false [] = none := by
  cases fuel with
  | zero => rfl
  | succ fuel => rfl

theorem escapeChar_length_pos (c : ClassChar) : 0 < (escapeChar c).length := by
  obtain ⟨c, escaped⟩ := c
  cases escaped with
  | false => simp [escapeChar]
  | true => by_cases hkeep : keepsEscape c = true <;> simp [escapeChar, hkeep]

/-- One round of the loop over the members of a class. -/
theorem parseMembers_succ (h : Unambiguous (c :: rest)) (behind : Text) (fuel : Nat)
    (first : Bool) :
    parseMembers (fuel + 1) first (classText (c :: rest) behind) =
      match parseNamedClass (classText (c :: rest) behind) with
      | .unknown => none
      | .known members rest =>
        (parseMembers fuel false rest).map fun (more, behind) => (members ++ more, behind)
      | .absent => (parseRange (classText (c :: rest) behind)).bind fun (range, rest) =>
        (parseMembers fuel false rest).bind fun (more, behind) =>
          some (.range range :: more, behind) := by
  rw [parseMembers, if_neg (fun hclose => classText_head_ne h behind hclose.2)]
  rfl

/-- A class is read as its ranges, or not at all. -/
theorem parseMembers_classText (h : Unambiguous chars) (behind : Text)
    (hread : behind = [] ∨ Readable false chars = true) {fuel : Nat}
    (hfuel : (chars.flatMap escapeChar).length < fuel) (first : Bool)
    (hfirst : first = true → chars ≠ []) :
    parseMembers fuel first (classText chars behind) =
      if Readable (cutNamed behind).isSome chars then
        some ((classRanges chars).map .range, behind)
      else none := by
  fun_induction classRanges chars generalizing fuel first with
  | case1 lo hi rest ih =>
    obtain ⟨fuel, rfl⟩ := Nat.exists_eq_succ_of_ne_zero (Nat.ne_of_gt (Nat.zero_lt_of_lt hfuel))
    have hrest : (rest.flatMap escapeChar).length < fuel := by
      have hlo := escapeChar_length_pos lo
      simp only [List.flatMap_cons, List.length_append] at hfuel
      omega
    have hname : atName lo (('-', false) :: hi :: rest) = false := by simp [atName]
    rw [Nat.succ_eq_add_one, parseMembers_succ h, parseNamedClass_absent h hname,
      parseRange_dash h]
    by_cases hlt : hi.1 < lo.1
    · simp [hlt, Readable]
    · have hle : lo.1 ≤ hi.1 := Char.not_lt.mp hlt
      have hread' : behind = [] ∨ Readable false rest = true := by
        rcases hread with hread | hread
        · exact .inl hread
        · exact .inr (by simpa [Readable, hle] using hread)
      have hparse := ih h.tail.tail.tail hread' hrest false nofun
      simp only [hlt, if_false, Option.bind_some, hparse, Readable, hle, decide_true,
        Bool.true_and]
      split <;> simp
  | case2 c rest hrange ih =>
    obtain ⟨fuel, rfl⟩ := Nat.exists_eq_succ_of_ne_zero (Nat.ne_of_gt (Nat.zero_lt_of_lt hfuel))
    have hrest : (rest.flatMap escapeChar).length < fuel := by
      have hc := escapeChar_length_pos c
      simp only [List.flatMap_cons, List.length_append] at hfuel
      omega
    have hne : ∀ hi more, rest ≠ ('-', false) :: hi :: more := by
      rintro hi more rfl
      exact hrange hi more rfl
    have hreadable : ∀ closes, Readable closes (c :: rest) =
        (!(atName c rest && (endsColon rest.tail || closes)) && Readable closes rest) := by
      intro closes
      rw [Readable]
      exact hrange
    -- the round that takes one character
    have hsingle : (atName c rest && (endsColon rest.tail || (cutNamed behind).isSome)) = false →
        parseNamedClass (classText (c :: rest) behind) = .absent →
        parseMembers (fuel + 1) first (classText (c :: rest) behind) =
          if Readable (cutNamed behind).isSome (c :: rest) then
            some (((c.1, c.1) :: classRanges rest).map .range, behind)
          else none := by
      intro hstray habsent
      have hread' : behind = [] ∨ Readable false rest = true := by
        rcases hread with hread | hread
        · exact .inl hread
        · rw [hreadable, Bool.and_eq_true] at hread
          exact .inr hread.2
      have hparse := ih h.tail hread' hrest false nofun
      rw [parseMembers_succ h, habsent, parseRange_single h hne, hreadable, hstray]
      simp only [Option.bind_some, hparse, Bool.not_false, Bool.true_and]
      split <;> simp
    cases hname : atName c rest with
    | false => exact hsingle (by simp [hname]) (parseNamedClass_absent h hname behind)
    | true =>
      cases rest with
      | nil => simp [atName] at hname
      | cons d rest =>
        have hnamed := parseNamedClass_atName h hname behind
        obtain ⟨hclosed, hopen⟩ := cutNamed_classText h.tail.tail behind
        cases hends : endsColon rest with
        | true =>
          obtain ⟨name, hcut⟩ := hclosed hends
          have hstray : ∀ closes, Readable closes (c :: d :: rest) = false := by
            intro closes
            simp [hreadable, hname, hends]
          have hbehind : behind = [] := by simpa [hstray] using hread
          rw [Nat.succ_eq_add_one, parseMembers_succ h, hnamed, hcut, hstray]
          cases hknown : posixMembers name with
          | none => simp [hknown]
          | some members => simp [hknown, hbehind, parseMembers_nil]
        | false =>
          have hcut := hopen hends
          cases hbehind : cutNamed behind with
          | none =>
            rw [hbehind] at hsingle hcut
            apply hsingle
            · simp [hends]
            · rw [hnamed, hcut]
              rfl
          | some found =>
            obtain ⟨name, more⟩ := found
            have hunknown : posixMembers (classText rest name) = none :=
              posixMembers_eq_none (by simp [classText])
            have hstray : Readable true (c :: d :: rest) = false := by simp [hreadable, hname]
            rw [hbehind] at hcut
            rw [Nat.succ_eq_add_one, parseMembers_succ h, hnamed, hcut, Option.isSome_some, hstray]
            simp [hunknown]
  | case3 =>
    obtain ⟨fuel, rfl⟩ := Nat.exists_eq_succ_of_ne_zero (Nat.ne_of_gt (Nat.zero_lt_of_lt hfuel))
    cases first with
    | true => exact absurd rfl (hfirst rfl)
    | false => simp [parseMembers, classText, Readable]

end members

section expressions

theorem classRanges_single {c : ClassChar} {rest : List ClassChar}
    (h : ∀ hi more, rest ≠ ('-', false) :: hi :: more) :
    classRanges (c :: rest) = (c.1, c.1) :: classRanges rest := by
  rw [classRanges]
  exact h

theorem readable_single {c : ClassChar} {rest : List ClassChar}
    (h : ∀ hi more, rest ≠ ('-', false) :: hi :: more) (closes : Bool) :
    Readable closes (c :: rest) =
      (!(atName c rest && (endsColon rest.tail || closes)) && Readable closes rest) := by
  rw [Readable]
  exact h

/-- A backslash before the first character changes neither the ranges of a class nor
whether it can be read. -/
theorem classRanges_first (c : Char) (rest : List ClassChar) :
    classRanges ((c, true) :: rest) = classRanges ((c, false) :: rest) ∧
      ∀ closes, Readable closes ((c, true) :: rest) = Readable closes ((c, false) :: rest) := by
  by_cases h : ∃ hi more, rest = ('-', false) :: hi :: more
  · obtain ⟨hi, more, rfl⟩ := h
    exact ⟨rfl, fun _ => rfl⟩
  · have hsingle : ∀ hi more, rest ≠ ('-', false) :: hi :: more :=
      fun hi more heq => h ⟨hi, more, heq⟩
    refine ⟨?_, fun closes => ?_⟩
    · rw [classRanges_single hsingle, classRanges_single hsingle]
    · rw [readable_single hsingle, readable_single hsingle]
      rfl

/-- The characters that the class of a token is written with. -/
def writtenChars : Bool → List ClassChar → List ClassChar
  | false, chars => chars
  | true, chars => ('/', false) :: literalDash chars

theorem literalDash_head_ne (chars : List ClassChar) (hi : ClassChar) (more : List ClassChar) :
    literalDash chars ≠ ('-', false) :: hi :: more := by
  unfold literalDash
  split
  · simp
  · next hne =>
    rintro rfl
    exact hne _ rfl

theorem classRanges_literalDash (chars : List ClassChar) :
    classRanges (literalDash chars) = classRanges chars ∧
      ∀ closes, Readable closes (literalDash chars) = Readable closes chars := by
  unfold literalDash
  split
  · next rest => exact classRanges_first '-' rest
  · exact ⟨rfl, fun _ => rfl⟩

theorem readable_writtenChars (closes negated : Bool) (chars : List ClassChar) :
    Readable closes (writtenChars negated chars) = Readable closes chars := by
  cases negated with
  | false => rfl
  | true =>
    rw [writtenChars, readable_single (literalDash_head_ne chars),
      (classRanges_literalDash chars).2]
    simp [atName]

variable {chars : List ClassChar}

theorem unambiguous_writtenChars (h : Unambiguous chars) (negated : Bool) :
    Unambiguous (writtenChars negated chars) := by
  cases negated with
  | false => exact h
  | true =>
    apply unambiguous_cons_false (by decide)
    unfold literalDash
    split
    · exact unambiguous_cons_true _ h.tail
    · exact h

theorem literalDash_fst (chars : List ClassChar) :
    (literalDash chars).map (·.1) = chars.map (·.1) := by
  unfold literalDash
  split <;> rfl

theorem endsColon_eq (chars : List ClassChar) :
    endsColon chars = decide ((chars.map (·.1)).getLast? = some ':') := by
  rw [endsColon, List.getLast?_map]

theorem endsColon_writtenChars (h : chars ≠ []) (negated : Bool) :
    endsColon (writtenChars negated chars) = endsColon chars := by
  cases negated with
  | false => rfl
  | true =>
    rw [endsColon_eq, endsColon_eq, writtenChars, List.map_cons, literalDash_fst]
    obtain ⟨c, rest, rfl⟩ := List.exists_cons_of_ne_nil h
    rfl

/-- The members of the class that a token is read as. -/
def classMembers (negated : Bool) (chars : List ClassChar) : List Member :=
  (classRanges (writtenChars negated chars)).map .range

def Token.atom : Token → Atom
  | .literal c => .char c
  | .star => .set true [.range ('/', '/')]
  | .doubleStar => .dot
  | .anyChar => .set true [.range ('/', '/')]
  | .charClass negated chars => .set negated (classMembers negated chars)

def Token.item : Token → Item
  | .star => .star Token.star.atom
  | .doubleStar => .star Token.doubleStar.atom
  | token => .one token.atom

def Token.opensName : Token → Bool
  | .charClass _ chars => Glob.opensName chars
  | _ => false

def Token.closesName : Token → Bool
  | .charClass _ chars => endsColon chars
  | _ => false

theorem regex_charClass (negated : Bool) (chars : List ClassChar) (behind : Text) :
    (Token.charClass negated chars).regex ++ behind =
      '[' :: ((if negated then ['^'] else []) ++
        classText (writtenChars negated chars) behind) := by
  cases negated <;> simp [Token.regex, writtenChars, classText, escapeChar]

theorem parseClass_plain {text : Text} (h : text.head? ≠ some '^') :
    parseClass text = (parseMembers (text.length + 1) true text).map
      fun (members, rest) => (.set false members, rest) := by
  rw [parseClass]
  rintro rest rfl
  exact h rfl

/-- A class of a token is read as its members, or not at all. -/
theorem parseAtom_charClass {negated : Bool} (h : (Token.charClass negated chars).WellFormed)
    (behind : Text) (hread : behind = [] ∨ Readable false chars = true) :
    parseAtom ((Token.charClass negated chars).regex ++ behind) =
      if Readable (cutNamed behind).isSome chars then
        some ((Token.charClass negated chars).atom, behind)
      else none := by
  obtain ⟨hne, hchars, hcaret⟩ := h
  have hwritten := unambiguous_writtenChars hchars negated
  have hread' : behind = [] ∨ Readable false (writtenChars negated chars) = true := by
    rw [readable_writtenChars]
    exact hread
  have hfuel : ((writtenChars negated chars).flatMap escapeChar).length <
      (classText (writtenChars negated chars) behind).length + 1 := by
    simp only [classText, List.length_append]
    omega
  have hnonempty : writtenChars negated chars ≠ [] := by
    cases negated with
    | false => exact hne
    | true => simp [writtenChars]
  have hparse := parseMembers_classText hwritten behind hread' hfuel true (fun _ => hnonempty)
  rw [regex_charClass, parseAtom]
  cases negated with
  | true =>
    change (parseMembers ((classText (writtenChars true chars) behind).length + 1) true
      (classText (writtenChars true chars) behind)).map _ = _
    rw [hparse, readable_writtenChars]
    split <;> rfl
  | false =>
    have hhead : (classText (writtenChars false chars) behind).head? ≠ some '^' := by
      obtain ⟨c, rest, rfl⟩ := List.exists_cons_of_ne_nil hne
      rw [writtenChars, classText_cons]
      rcases escapeChar_cases hchars with ⟨hescaped, -⟩ | ⟨hescaped, -, -, hkeep⟩
      · simp [hescaped]
      · obtain ⟨c, escaped⟩ := c
        rw [hescaped]
        rintro heq
        obtain rfl : c = '^' := by simpa using heq
        cases escaped with
        | true => simp [keepsEscape] at hkeep
        | false => exact hcaret rfl rfl
    change parseClass (classText (writtenChars false chars) behind) = _
    rw [parseClass_plain hhead, hparse, readable_writtenChars]
    split <;> rfl

theorem isPunct_of_isMeta {c : Char} (h : isMeta c = true) : isPunct c = true := by
  have hall : ∀ c ∈ "\\.+*?()|[]\x7b\x7d^$".toList, isPunct c = true :=
    List.all_eq_true.mp (by decide)
  exact hall c (by simpa [isMeta] using h)

theorem parseAtom_literal (c : Char) (behind : Text) :
    parseAtom (quoteMeta c ++ behind) = some (.char c, behind) := by
  unfold quoteMeta
  cases hmeta : isMeta c with
  | true => simp [parseAtom, isPunct_of_isMeta hmeta]
  | false =>
    have hne : ∀ d, isMeta d = true → c ≠ d := by
      rintro d hd rfl
      rw [hmeta] at hd
      cases hd
    simp only [Bool.false_eq_true, if_false, List.singleton_append]
    rw [parseAtom]
    · rw [hmeta]
      rfl
    · intro d rest heq
      exact absurd heq (hne '\\' (by decide))
    · exact hne '.' (by decide)
    · exact hne '[' (by decide)

/-- The expression of a token starts with nothing that continues what stands before it. -/
theorem regex_head (token : Token) :
    ∃ c rest, token.regex = c :: rest ∧ c ≠ '^' ∧ c ≠ '$' ∧ c ≠ ']' ∧ isRepeat c = false := by
  cases token with
  | literal c =>
    cases hmeta : isMeta c with
    | true => exact ⟨'\\', [c], by simp [Token.regex, quoteMeta, hmeta], by decide⟩
    | false =>
      have hne : ∀ d, isMeta d = true → c ≠ d := by
        rintro d hd rfl
        rw [hmeta] at hd
        cases hd
      refine ⟨c, [], by simp [Token.regex, quoteMeta, hmeta], hne _ (by decide), hne _ (by decide),
        hne _ (by decide), ?_⟩
      have hall : ∀ d ∈ "*+?\x7b".toList, isMeta d = true := List.all_eq_true.mp (by decide)
      apply decide_eq_false
      intro hrepeat
      exact hne c (hall c hrepeat) rfl
  | star => exact ⟨'[', _, rfl, by decide⟩
  | doubleStar => exact ⟨'.', _, rfl, by decide⟩
  | anyChar => exact ⟨'[', _, rfl, by decide⟩
  | charClass negated chars =>
    cases negated with
    | false => exact ⟨'[', _, rfl, by decide⟩
    | true => exact ⟨'[', _, rfl, by decide⟩

/-- Whether a token can be read when a `:]` stands behind it or not. -/
def Token.readable (closes : Bool) : Token → Bool
  | .charClass _ chars => Readable closes chars
  | _ => true

variable {token : Token}

/-- A token is read as its item, or not at all. -/
theorem parseItems_token (h : token.WellFormed) (behind : Text)
    (hread : behind = [] ∨ token.readable false = true)
    (hbehind : behind.head?.any isRepeat = false) (fuel : Nat) :
    parseItems (fuel + 1) (token.regex ++ behind) =
      if token.readable (cutNamed behind).isSome then
        (parseItems fuel behind).map (token.item :: ·)
      else none := by
  obtain ⟨c, rest, hregex, hstart, hstop, -⟩ := regex_head token
  rw [parseItems_succ (by simp [hregex]) (by simpa [hregex] using hstart)
    (by simpa [hregex] using hstop)]
  cases token with
  | literal c =>
    rw [Token.regex, parseAtom_literal]
    simp [withStar_one _ hbehind, Token.readable, Token.item, Token.atom]
  | star =>
    have hatom : parseAtom (Token.star.regex ++ behind) = some (Token.star.atom, '*' :: behind) :=
      rfl
    simp [hatom, withStar_star _ hbehind, Token.readable, Token.item]
  | doubleStar =>
    have hatom : parseAtom (Token.doubleStar.regex ++ behind) =
        some (Token.doubleStar.atom, '*' :: behind) :=
      rfl
    simp [hatom, withStar_star _ hbehind, Token.readable, Token.item]
  | anyChar =>
    have hatom : parseAtom (Token.anyChar.regex ++ behind) = some (Token.anyChar.atom, behind) :=
      rfl
    simp [hatom, withStar_one _ hbehind, Token.readable, Token.item]
  | charClass negated chars =>
    rw [parseAtom_charClass h behind hread, Token.readable]
    split
    · simp [withStar_one _ hbehind, Token.item]
    · rfl

/-- The classes of accepted tokens can be read where nothing follows them. -/
theorem Token.Accepted.readable (h : token.Accepted) : token.readable false = true := by
  cases token with
  | charClass negated chars =>
    have hcompiles := h.compiles negated chars rfl
    have hparse := parseItems_token h.wellFormed [] (.inl rfl) rfl
      (Token.charClass negated chars).regex.length
    rw [List.append_nil] at hparse
    by_contra hread
    rw [compile, hparse] at hcompiles
    simp [cutNamed, hread] at hcompiles
  | _ => rfl

/-- The expression of some tokens, up to the end of the text. -/
def tokensText (tokens : List Token) : Text :=
  tokens.flatMap Token.regex ++ ['$']

theorem tokensText_cons (token : Token) (rest : List Token) :
    tokensText (token :: rest) = token.regex ++ tokensText rest := by
  simp [tokensText]

theorem tokensText_head (tokens : List Token) :
    (tokensText tokens).head? ≠ some ']' ∧ (tokensText tokens).head?.any isRepeat = false := by
  cases tokens with
  | nil => decide
  | cons token rest =>
    obtain ⟨c, more, hregex, -, -, hclose, hrepeat⟩ := regex_head token
    rw [tokensText_cons, hregex]
    exact ⟨by simpa using hclose, by simpa using hrepeat⟩

theorem cutNamed_append {start : Text} (h : ∀ c ∈ start, c ≠ ':') (text : Text) :
    (cutNamed (start ++ text)).isSome = (cutNamed text).isSome := by
  induction start with
  | nil => rfl
  | cons c start ih =>
    have hc : c ≠ ':' := h c (by simp)
    rw [List.cons_append, cutNamed_cons (fun hclose => hc hclose.1), Option.isSome_map]
    exact ih (fun d hd => h d (by simp [hd]))

/-- A name is closed exactly by the classes that end with a colon. -/
theorem cutNamed_tokensText {tokens : List Token} (h : ∀ token ∈ tokens, token.WellFormed) :
    (cutNamed (tokensText tokens)).isSome = tokens.any Token.closesName := by
  induction tokens with
  | nil => rfl
  | cons token rest ih =>
    have hrest := ih (fun token htoken => h token (by simp [htoken]))
    rw [tokensText_cons, List.any_cons, ← hrest]
    cases token with
    | literal c =>
      have hnext : cutNamed (c :: tokensText rest) =
          (cutNamed (tokensText rest)).map fun (name, behind) => (c :: name, behind) :=
        cutNamed_cons (fun hclose => (tokensText_head rest).1 hclose.2)
      rw [Token.regex, quoteMeta]
      split
      · simp only [List.cons_append, List.nil_append]
        rw [cutNamed_cons (by simp), hnext]
        simp [Token.closesName]
      · simp [hnext, Token.closesName]
    | star => exact cutNamed_append (List.forall_mem_ne'.mpr (by decide)) _
    | doubleStar => exact cutNamed_append (List.forall_mem_ne'.mpr (by decide)) _
    | anyChar => exact cutNamed_append (List.forall_mem_ne'.mpr (by decide)) _
    | charClass negated chars =>
      obtain ⟨hne, hchars, -⟩ := h (.charClass negated chars) (by simp)
      have hwritten := unambiguous_writtenChars hchars negated
      have hopening : ∀ c ∈ '[' :: (if negated then ['^'] else []), c ≠ ':' := by
        apply List.forall_mem_ne'.mpr
        cases negated <;> decide
      rw [regex_charClass, ← List.cons_append, cutNamed_append hopening,
        cutNamed_classText_isSome hwritten, endsColon_writtenChars hne]
      rfl

/-- No class with a member that starts with `[:` stands before one that ends with a colon. -/
def NoStrayName (tokens : List Token) : Prop :=
  tokens.Pairwise fun opening closing => ¬ (opening.opensName = true ∧ closing.closesName = true)

theorem Token.Accepted.readable_eq (h : token.Accepted) (closes : Bool) :
    token.readable closes = !(closes && token.opensName) := by
  have hread := h.readable
  cases token with
  | charClass negated chars =>
    rw [Token.readable, Glob.readable_eq]
    rw [Token.readable] at hread
    rw [hread, Bool.true_and]
    rfl
  | _ => simp [Token.readable, Token.opensName]

/-- The expression of accepted tokens is read token by token, or not at all. -/
theorem parseItems_tokensText {tokens : List Token} (h : ∀ token ∈ tokens, token.Accepted)
    {fuel : Nat} (hfuel : (tokensText tokens).length < fuel) :
    (NoStrayName tokens →
      parseItems fuel (tokensText tokens) = some (tokens.map Token.item ++ [.stop])) ∧
      (¬ NoStrayName tokens → parseItems fuel (tokensText tokens) = none) := by
  induction tokens generalizing fuel with
  | nil =>
    obtain ⟨fuel, rfl⟩ : ∃ n, fuel = n + 2 := Nat.exists_eq_add_of_le' hfuel
    exact ⟨fun _ => rfl, fun hstray => absurd List.Pairwise.nil hstray⟩
  | cons token rest ih =>
    have haccepted : token.Accepted := h token (by simp)
    have hrest : ∀ token ∈ rest, token.Accepted := fun token htoken => h token (by simp [htoken])
    obtain ⟨c, more, hregex, -⟩ := regex_head token
    rw [tokensText_cons] at hfuel ⊢
    obtain ⟨fuel, rfl⟩ := Nat.exists_eq_succ_of_ne_zero (Nat.ne_of_gt (Nat.zero_lt_of_lt hfuel))
    have hless : (tokensText rest).length < fuel := by
      simp only [hregex, List.cons_append, List.length_cons, List.length_append] at hfuel
      omega
    obtain ⟨hread, hrefuse⟩ := ih hrest hless
    have hstep := parseItems_token haccepted.wellFormed (tokensText rest) (.inr haccepted.readable)
      (tokensText_head rest).2 fuel
    rw [cutNamed_tokensText (fun token htoken => (hrest token htoken).wellFormed),
      haccepted.readable_eq] at hstep
    rw [Nat.succ_eq_add_one, hstep]
    have hpairwise : NoStrayName (token :: rest) ↔
        (rest.any Token.closesName && token.opensName) = false ∧ NoStrayName rest := by
      rw [NoStrayName, List.pairwise_cons]
      apply and_congr_left
      intro _
      rw [Bool.and_eq_false_iff, List.any_eq_false]
      constructor
      · intro hnone
        cases hopens : token.opensName with
        | false => exact .inr rfl
        | true => exact .inl fun other hother hcloses => hnone other hother ⟨hopens, hcloses⟩
      · rintro (hnone | hnone) other hother ⟨hopens, hcloses⟩
        · exact hnone other hother hcloses
        · rw [hnone] at hopens
          cases hopens
    rw [hpairwise]
    constructor
    · rintro ⟨hstray, hnames⟩
      rw [hstray, hread hnames]
      rfl
    · intro hnot
      cases hstray : rest.any Token.closesName && token.opensName with
      | true => rfl
      | false =>
        rw [hrefuse (fun hnames => hnot ⟨hstray, hnames⟩)]
        rfl

/-- What a valid pattern compiles to. -/
theorem compilePattern_of_valid {pattern : Text} (h : validate pattern = .ok ()) :
    (NoStrayName (tokens pattern) →
      compilePattern pattern = .ok (.start :: (tokens pattern).map Token.item ++ [.stop])) ∧
      (¬ NoStrayName (tokens pattern) → compilePattern pattern = .error .invalidRegexp) := by
  have hregex : toRegex pattern = (tokens pattern).flatMap Token.regex :=
    (translated_of_validateLoop h).1
  have haccepted : ∀ token ∈ tokens pattern, token.Accepted := (translated_of_validateLoop h).2
  have hcompile : compile ('^' :: toRegex pattern ++ ['$']) =
      (parseItems (('^' :: toRegex pattern ++ ['$']).length)
        (tokensText (tokens pattern))).map (.start :: ·) := by
    rw [tokensText, ← hregex]
    rfl
  have hfuel : (tokensText (tokens pattern)).length <
      ('^' :: toRegex pattern ++ ['$']).length := by
    rw [tokensText, ← hregex]
    simp
  obtain ⟨hread, hrefuse⟩ := parseItems_tokensText haccepted hfuel
  unfold compilePattern
  rw [h, hcompile]
  constructor
  · intro hnames
    rw [hread hnames]
    rfl
  · intro hstray
    rw [hrefuse hstray]
    rfl

end expressions

end NriSupplyChain.Glob
