import NriSupplyChain.Lib.Unicode

/-!
Percent escapes. A text is read as a string of bytes, one character for each
byte, so that an escape stands for any byte. Escaping with any choice of
characters to keep is undone by unescaping.
-/

namespace NriSupplyChain.Lib

/-- The value of a hexadecimal digit. -/
def hexValue (c : Char) : Option Nat :=
  if '0' ≤ c ∧ c ≤ '9' then some (c.toNat - '0'.toNat)
  else if 'a' ≤ c ∧ c ≤ 'f' then some (c.toNat - 'a'.toNat + 10)
  else if 'A' ≤ c ∧ c ≤ 'F' then some (c.toNat - 'A'.toNat + 10)
  else none

/-- Undo percent escapes. An incomplete or invalid escape is an error. -/
def pathUnescape : Text → Option Text
  | [] => some []
  | '%' :: high :: low :: rest =>
    match hexValue high, hexValue low with
    | some h, some l => (pathUnescape rest).map (Char.ofNat (16 * h + l) :: ·)
    | _, _ => none
  | c :: rest => if c = '%' then none else (pathUnescape rest).map (c :: ·)

/-- The digits that escapes are written with. -/
def hexDigit : Nat → Char
  | 0 => '0'
  | 1 => '1'
  | 2 => '2'
  | 3 => '3'
  | 4 => '4'
  | 5 => '5'
  | 6 => '6'
  | 7 => '7'
  | 8 => '8'
  | 9 => '9'
  | 10 => 'A'
  | 11 => 'B'
  | 12 => 'C'
  | 13 => 'D'
  | 14 => 'E'
  | _ => 'F'

def escapeChar (keep : Char → Bool) (c : Char) : Text :=
  if keep c then [c] else ['%', hexDigit (c.toNat / 16), hexDigit (c.toNat % 16)]

/-- Escape all bytes but those to keep. -/
def escapeWith (keep : Char → Bool) (text : Text) : Text :=
  text.flatMap (escapeChar keep)

theorem hexValue_hexDigit {n : Nat} (h : n < 16) : hexValue (hexDigit n) = some n := by
  have hall : ∀ n : Fin 16, hexValue (hexDigit n.val) = some n.val := by decide
  exact hall ⟨n, h⟩

variable {c : Char}

theorem pathUnescape_cons (h : c ≠ '%') (rest : Text) :
    pathUnescape (c :: rest) = (pathUnescape rest).map (c :: ·) := by
  rw [pathUnescape]
  · rw [if_neg h]
  · intro high low tail heq _
    exact h heq

theorem pathUnescape_escape {high low : Nat} (hhigh : high < 16) (hlow : low < 16) (rest : Text) :
    pathUnescape ('%' :: hexDigit high :: hexDigit low :: rest) =
      (pathUnescape rest).map (Char.ofNat (16 * high + low) :: ·) := by
  rw [pathUnescape, hexValue_hexDigit hhigh, hexValue_hexDigit hlow]

variable {text : Text}

theorem pathUnescape_no_percent (h : '%' ∉ text) : pathUnescape text = some text := by
  induction text with
  | nil => rfl
  | cons c rest ih =>
    rw [List.mem_cons, not_or] at h
    rw [pathUnescape_cons (Ne.symm h.1), ih h.2]
    rfl

variable {keep : Char → Bool}

/-- Unescaping undoes escaping. -/
theorem pathUnescape_escapeWith (hkeep : keep '%' = false)
    (h : ∀ c ∈ text, keep c = true ∨ c.toNat < 256) :
    pathUnescape (escapeWith keep text) = some text := by
  induction text with
  | nil => rfl
  | cons c rest ih =>
    have hrest := ih fun d hd => h d (List.mem_cons_of_mem c hd)
    change pathUnescape (escapeChar keep c ++ escapeWith keep rest) = _
    unfold escapeChar
    cases hc : keep c with
    | true =>
      have hne : c ≠ '%' := by
        rintro rfl
        rw [hkeep] at hc
        cases hc
      change pathUnescape (c :: escapeWith keep rest) = _
      rw [pathUnescape_cons hne, hrest]
      rfl
    | false =>
      have hbyte : c.toNat < 256 := by
        rcases h c List.mem_cons_self with hkept | hbyte
        · rw [hc] at hkept
          cases hkept
        · exact hbyte
      have hhigh : c.toNat / 16 < 16 := by omega
      have hlow : c.toNat % 16 < 16 := Nat.mod_lt _ (by omega)
      have hcode : 16 * (c.toNat / 16) + c.toNat % 16 = c.toNat := Nat.div_add_mod c.toNat 16
      change pathUnescape ('%' :: hexDigit _ :: hexDigit _ :: escapeWith keep rest) = _
      rw [pathUnescape_escape hhigh hlow, hcode, Char.ofNat_toNat, hrest]
      rfl

theorem pathUnescape_ne_nil {decoded : Text} (h : pathUnescape text = some decoded)
    (hne : text ≠ []) : decoded ≠ [] := by
  rintro rfl
  unfold pathUnescape at h
  split at h
  · exact hne rfl
  · split at h
    · simp at h
    · cases h
  · split at h
    · cases h
    · simp at h

/-- The characters that escaping writes. -/
def isEscapeChar (c : Char) : Bool :=
  c = '%' || ('0' ≤ c && c ≤ '9') || ('A' ≤ c && c ≤ 'F')

theorem isEscapeChar_hexDigit (n : Nat) : isEscapeChar (hexDigit n) = true := by
  unfold hexDigit
  split <;> decide

/-- Escaped text is made of kept characters and those that escapes are made of. -/
theorem mem_escapeWith (h : c ∈ escapeWith keep text) : keep c = true ∨ isEscapeChar c = true := by
  obtain ⟨d, -, hd⟩ := List.mem_flatMap.mp h
  unfold escapeChar at hd
  split at hd
  · next hkeep =>
    rw [List.mem_singleton.mp hd]
    exact .inl hkeep
  · right
    simp only [List.mem_cons, List.not_mem_nil, or_false] at hd
    rcases hd with rfl | rfl | rfl
    · decide
    · exact isEscapeChar_hexDigit _
    · exact isEscapeChar_hexDigit _

theorem not_mem_escapeWith (hkeep : keep c = false) (hescape : isEscapeChar c = false)
    (text : Text) : c ∉ escapeWith keep text := by
  intro h
  rcases mem_escapeWith h with h | h
  · rw [hkeep] at h
    cases h
  · rw [hescape] at h
    cases h

theorem escapeWith_ne_nil (h : text ≠ []) : escapeWith keep text ≠ [] := by
  cases text with
  | nil => exact absurd rfl h
  | cons c rest =>
    change escapeChar keep c ++ _ ≠ []
    unfold escapeChar
    split <;> simp

end NriSupplyChain.Lib
