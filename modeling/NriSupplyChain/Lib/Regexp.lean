import NriSupplyChain.Lib.Unicode

/-!
The part of the RE2 syntax that consists of single characters, dots, bracket
classes, stars and anchors: its parser and its matcher. Bracket classes are read
with the rules of RE2, named classes included. What lies outside this part
(groups, alternatives, other repetitions, letter escapes) is refused by the
parser, so a text that it accepts means what RE2 takes it to mean.
-/

namespace NriSupplyChain.Lib.Regexp

abbrev Range := Char × Char

def Range.contains (r : Range) (c : Char) : Bool :=
  r.1 ≤ c && c ≤ r.2

/-- A member of a bracket class: a range, or the characters outside of some. -/
inductive Member where
  | range (r : Range)
  | outside (ranges : List Range)
deriving DecidableEq, Repr

def Member.contains : Member → Char → Bool
  | .range r, c => r.contains c
  | .outside ranges, c => !ranges.any (·.contains c)

inductive Atom where
  | char (c : Char)
  | dot
  | set (negated : Bool) (members : List Member)
deriving DecidableEq, Repr

/-- Without the flag `s` a dot does not match a newline; a negated class does. -/
def Atom.accepts : Atom → Char → Bool
  | .char d, c => c = d
  | .dot, c => c ≠ '\n'
  | .set negated members, c => xor negated (members.any (·.contains c))

inductive Item where
  | one (atom : Atom)
  | star (atom : Atom)
  | start
  | stop
deriving DecidableEq, Repr

section matching

def starRun (accepts : Char → Bool) (next : Bool → Text → Bool) : Bool → Text → Bool
  | atStart, [] => next atStart []
  | atStart, c :: text => next atStart (c :: text) || accepts c && starRun accepts next false text

/-- Whether the items match a first part of the text. -/
def run : List Item → Bool → Text → Bool
  | [], _, _ => true
  | .one _ :: _, _, [] => false
  | .one atom :: rest, _, c :: text => atom.accepts c && run rest false text
  | .star atom :: rest, atStart, text => starRun atom.accepts (run rest) atStart text
  | .start :: rest, atStart, text => atStart && run rest atStart text
  | .stop :: rest, atStart, text => text.isEmpty && run rest atStart text

/-- Whether the items match anywhere behind the start of the text. -/
def runLater (items : List Item) : Text → Bool
  | [] => false
  | _ :: text => run items false text || runLater items text

def matchString (items : List Item) (text : Text) : Bool :=
  run items true text || runLater items text

/-- The texts that items without anchors match as a whole. -/
inductive Whole : List Item → Text → Prop where
  | nil : Whole [] []
  | one {atom : Atom} {rest : List Item} {c : Char} {text : Text} :
      atom.accepts c = true → Whole rest text → Whole (.one atom :: rest) (c :: text)
  | star {atom : Atom} {rest : List Item} {first text : Text} :
      (∀ c ∈ first, atom.accepts c = true) → Whole rest text →
      Whole (.star atom :: rest) (first ++ text)

def Item.isAnchor : Item → Bool
  | .start => true
  | .stop => true
  | _ => false

theorem starRun_iff {accepts : Char → Bool} {next : Bool → Text → Bool} {P : Text → Prop}
    (hnext : ∀ atStart text, next atStart text = true ↔ P text) (atStart : Bool) (text : Text) :
    starRun accepts next atStart text = true ↔
      ∃ u v, text = u ++ v ∧ (∀ c ∈ u, accepts c = true) ∧ P v := by
  induction text generalizing atStart with
  | nil =>
    rw [starRun, hnext]
    constructor
    · intro h
      exact ⟨[], [], rfl, by simp, h⟩
    · rintro ⟨u, v, huv, -, h⟩
      have hv : v = [] := (List.append_eq_nil_iff.mp huv.symm).2
      exact hv ▸ h
  | cons c text ih =>
    rw [starRun, Bool.or_eq_true, Bool.and_eq_true, hnext, ih]
    constructor
    · rintro (h | ⟨hc, u, v, rfl, hu, h⟩)
      · exact ⟨[], c :: text, rfl, by simp, h⟩
      · refine ⟨c :: u, v, rfl, ?_, h⟩
        intro d hd
        rcases List.mem_cons.mp hd with rfl | hd
        · exact hc
        · exact hu d hd
    · rintro ⟨u, v, huv, hu, h⟩
      cases u with
      | nil =>
        rw [List.nil_append] at huv
        exact .inl (huv ▸ h)
      | cons d u =>
        obtain ⟨rfl, rfl⟩ := List.cons.inj huv
        exact .inr ⟨hu c (by simp), u, v, rfl, fun e he => hu e (by simp [he]), h⟩

variable {text : Text}

theorem whole_nil_iff : Whole [] text ↔ text = [] := by
  constructor
  · rintro ⟨⟩
    rfl
  · rintro rfl
    exact .nil

theorem whole_one_iff {atom : Atom} {rest : List Item} :
    Whole (.one atom :: rest) text ↔
      ∃ c u, text = c :: u ∧ atom.accepts c = true ∧ Whole rest u := by
  constructor
  · rintro (_ | ⟨hc, h⟩)
    exact ⟨_, _, rfl, hc, h⟩
  · rintro ⟨c, u, rfl, hc, h⟩
    exact .one hc h

theorem whole_star_iff {atom : Atom} {rest : List Item} :
    Whole (.star atom :: rest) text ↔
      ∃ u v, text = u ++ v ∧ (∀ c ∈ u, atom.accepts c = true) ∧ Whole rest v := by
  constructor
  · intro h
    generalize hitems : Item.star atom :: rest = items at h
    cases h with
    | nil => cases hitems
    | one hc h => cases hitems
    | star hu h =>
      cases hitems
      exact ⟨_, _, rfl, hu, h⟩
  · rintro ⟨u, v, rfl, hu, h⟩
    exact .star hu h

/-- Items followed by the end of the text match exactly the whole texts. -/
theorem run_stop_iff {items : List Item} (h : ∀ item ∈ items, item.isAnchor = false)
    (atStart : Bool) (text : Text) :
    run (items ++ [.stop]) atStart text = true ↔ Whole items text := by
  induction items generalizing atStart text with
  | nil => simp [run, whole_nil_iff]
  | cons item rest ih =>
    have hrest := ih (fun item hitem => h item (by simp [hitem]))
    cases item with
    | one atom =>
      rw [whole_one_iff, List.cons_append]
      cases text with
      | nil => simp [run]
      | cons c text => simp [run, hrest]
    | star atom =>
      rw [whole_star_iff, List.cons_append, run]
      exact starRun_iff hrest atStart text
    | start => simp [Item.isAnchor] at h
    | stop => simp [Item.isAnchor] at h

theorem runLater_start (items : List Item) (text : Text) :
    runLater (.start :: items) text = false := by
  induction text with
  | nil => rfl
  | cons c text ih => simp [runLater, run, ih]

/-- An expression between anchors matches whole texts only. -/
theorem matchString_anchored {items : List Item} (h : ∀ item ∈ items, item.isAnchor = false)
    (text : Text) :
    matchString (.start :: items ++ [.stop]) text = true ↔ Whole items text := by
  rw [matchString, List.cons_append, runLater_start, Bool.or_false, run, Bool.true_and]
  exact run_stop_iff h true text

end matching

section parsing

/-- The punctuation of ASCII, which a backslash makes literal. -/
def isPunct (c : Char) : Bool :=
  c.toNat < 128 && !c.isAlphanum

/-- The characters that mean something other than themselves. -/
def isMeta (c : Char) : Bool :=
  c ∈ "\\.+*?()|[]\x7b\x7d^$".toList

/-- The characters that start a repetition. -/
def isRepeat (c : Char) : Bool :=
  c ∈ "*+?\x7b".toList

def quoteMeta (c : Char) : Text :=
  if isMeta c then ['\\', c] else [c]

/-- The ranges behind the name of a POSIX class. -/
def posixRanges (name : Text) : Option (List Range) :=
  if name = "alnum".toList then some [('0', '9'), ('A', 'Z'), ('a', 'z')]
  else if name = "alpha".toList then some [('A', 'Z'), ('a', 'z')]
  else if name = "ascii".toList then some [(Char.ofNat 0, Char.ofNat 127)]
  else if name = "blank".toList then some [('\t', '\t'), (' ', ' ')]
  else if name = "cntrl".toList then
    some [(Char.ofNat 0, Char.ofNat 31), (Char.ofNat 127, Char.ofNat 127)]
  else if name = "digit".toList then some [('0', '9')]
  else if name = "graph".toList then some [('!', '~')]
  else if name = "lower".toList then some [('a', 'z')]
  else if name = "print".toList then some [(' ', '~')]
  else if name = "punct".toList then
    some [('!', '/'), (':', '@'), ('[', Char.ofNat 96), (Char.ofNat 123, '~')]
  else if name = "space".toList then some [('\t', '\r'), (' ', ' ')]
  else if name = "upper".toList then some [('A', 'Z')]
  else if name = "word".toList then some [('0', '9'), ('A', 'Z'), ('a', 'z'), ('_', '_')]
  else if name = "xdigit".toList then some [('0', '9'), ('A', 'F'), ('a', 'f')]
  else none

def posixMembers : Text → Option (List Member)
  | '^' :: name => (posixRanges name).map fun ranges => [.outside ranges]
  | name => (posixRanges name).map (·.map .range)

/-- The text before and behind the first `:]`. -/
def cutNamed : Text → Option (Text × Text)
  | ':' :: ']' :: rest => some ([], rest)
  | c :: rest => (cutNamed rest).map fun (name, behind) => (c :: name, behind)
  | [] => none

inductive Named where
  | absent
  | unknown
  | known (members : List Member) (rest : Text)
deriving DecidableEq, Repr

/-- A `[:` opens a named class when a `:]` stands anywhere behind it. -/
def parseNamedClass : Text → Named
  | '[' :: ':' :: rest =>
    match cutNamed rest with
    | none => .absent
    | some (name, behind) =>
      match posixMembers name with
      | none => .unknown
      | some members => .known members behind
  | _ => .absent

def parseClassChar : Text → Option (Char × Text)
  | '\\' :: c :: rest => if isPunct c then some (c, rest) else none
  | ['\\'] => none
  | c :: rest => some (c, rest)
  | [] => none

/-- One character of a class, or two with a dash between them in ascending order. -/
def parseRange (text : Text) : Option (Range × Text) := do
  let (lo, rest) ← parseClassChar text
  match rest with
  | '-' :: c :: more =>
    if c = ']' then some ((lo, lo), rest)
    else do
      let (hi, rest) ← parseClassChar (c :: more)
      if hi < lo then none else some ((lo, hi), rest)
  | _ => some ((lo, lo), rest)

/-- The members of a class up to its closing bracket, which is not the first character. -/
def parseMembers : Nat → Bool → Text → Option (List Member × Text)
  | 0, _, _ => none
  | fuel + 1, first, text =>
    if first = false ∧ text.head? = some ']' then some ([], text.tail)
    else
      match parseNamedClass text with
      | .unknown => none
      | .known members rest =>
        (parseMembers fuel false rest).map fun (more, behind) => (members ++ more, behind)
      | .absent => do
        let (range, rest) ← parseRange text
        let (more, behind) ← parseMembers fuel false rest
        some (.range range :: more, behind)

/-- A class behind its opening bracket. -/
def parseClass : Text → Option (Atom × Text)
  | '^' :: text =>
    (parseMembers (text.length + 1) true text).map fun (members, rest) => (.set true members, rest)
  | text =>
    (parseMembers (text.length + 1) true text).map fun (members, rest) => (.set false members, rest)

def parseAtom : Text → Option (Atom × Text)
  | '\\' :: c :: rest => if isPunct c then some (.char c, rest) else none
  | '.' :: rest => some (.dot, rest)
  | '[' :: rest => parseClass rest
  | c :: rest => if isMeta c then none else some (.char c, rest)
  | [] => none

def withStar (atom : Atom) (text : Text) : Option (Item × Text) :=
  let (item, rest) := if text.head? = some '*' then (Item.star atom, text.tail)
    else (Item.one atom, text)
  if rest.head?.any isRepeat then none else some (item, rest)

def parseItems : Nat → Text → Option (List Item)
  | 0, _ => none
  | _ + 1, [] => some []
  | fuel + 1, '^' :: rest => (parseItems fuel rest).map (.start :: ·)
  | fuel + 1, '$' :: rest => (parseItems fuel rest).map (.stop :: ·)
  | fuel + 1, text => do
    let (atom, rest) ← parseAtom text
    let (item, rest) ← withStar atom rest
    (parseItems fuel rest).map (item :: ·)

/-- The items of an expression, nothing if it is not accepted. -/
def compile (expression : Text) : Option (List Item) :=
  parseItems (expression.length + 1) expression

variable {text : Text}

theorem parseItems_succ (hne : text ≠ []) (hstart : text.head? ≠ some '^')
    (hstop : text.head? ≠ some '$') (fuel : Nat) :
    parseItems (fuel + 1) text =
      (parseAtom text).bind fun (atom, rest) =>
        (withStar atom rest).bind fun (item, rest) => (parseItems fuel rest).map (item :: ·) := by
  rw [parseItems]
  · rfl
  · exact hne
  · rintro rest rfl
    exact hstart rfl
  · rintro rest rfl
    exact hstop rfl

theorem withStar_star (atom : Atom) (h : text.head?.any isRepeat = false) :
    withStar atom ('*' :: text) = some (.star atom, text) := by
  simp [withStar, h]

theorem withStar_one (atom : Atom) (h : text.head?.any isRepeat = false) :
    withStar atom text = some (.one atom, text) := by
  have hstar : text.head? ≠ some '*' := by
    intro hstar
    rw [hstar] at h
    exact absurd h (by decide)
  simp [withStar, hstar, h]

end parsing

end NriSupplyChain.Lib.Regexp
