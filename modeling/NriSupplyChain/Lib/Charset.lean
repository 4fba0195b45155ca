import NriSupplyChain.Lib.Cuts
import NriSupplyChain.Lib.Unicode

/-!
Functions on byte strings that look at the characters they encode. The bytes of an
ASCII character are never part of the encoding of another one, so a text can be
lowered piece by piece between them. Other characters may be lowered to an ASCII
letter, but to no other ASCII character.
-/

namespace NriSupplyChain.Lib

section letters

variable {c : Char}

theorem toLower_of_foreign (h : 128 ≤ c.toNat) : c.toLower = c := by
  unfold Char.toLower
  rw [dif_neg]
  rintro ⟨-, hle⟩
  have hnat : c.toNat ≤ 90 := hle
  omega

/-- What holds of the first 128 characters holds of each ASCII character. -/
theorem ascii_induction {P : Char → Prop} (h : ∀ n : Fin 128, P (Char.ofNat n.val))
    (hc : c.toNat < 128) : P c := by
  have hof := h ⟨c.toNat, hc⟩
  rw [Char.ofNat_toNat] at hof
  exact hof

theorem toLower_toLower (c : Char) : c.toLower.toLower = c.toLower := by
  by_cases hc : c.toNat < 128
  · exact ascii_induction (P := fun c => c.toLower.toLower = c.toLower) (by decide) hc
  · have hforeign := toLower_of_foreign (Nat.le_of_not_lt hc)
    rw [hforeign, hforeign]

theorem toLower_ascii (hc : c.toNat < 128) : c.toLower.toNat < 128 :=
  ascii_induction (P := fun c => c.toLower.toNat < 128) (by decide) hc

/-- Lowering changes an ASCII character only into a letter. -/
theorem toLower_cases (hc : c.toNat < 128) : c.toLower = c ∨ c.toLower.isLower = true :=
  ascii_induction (P := fun c => c.toLower = c ∨ c.toLower.isLower = true) (by decide) hc

end letters

def isAscii (text : Text) : Prop :=
  ∀ c ∈ text, c.toNat < 128

/-- The functions that look at characters. On ASCII texts they are the usual ones. A
character outside of ASCII takes more than one byte, so a text that is as long as an
ASCII text and equals it up to case is an ASCII text. -/
structure Charset where
  lower : Text → Text
  upper : Text → Text
  trimSpace : Text → Text
  equalFold : Text → Text → Bool
  lower_nil : lower [] = []
  lower_ascii : ∀ before (c : Char) behind, c.toNat < 128 →
    lower (before ++ c :: behind) = lower before ++ c.toLower :: lower behind
  lower_foreign : ∀ text : Text, (∀ c ∈ text, 128 ≤ c.toNat) →
    ∀ d ∈ lower text, 128 ≤ d.toNat ∨ d.isLower = true
  lower_lower : ∀ text, lower (lower text) = lower text
  lower_ne_nil : ∀ text, text ≠ [] → lower text ≠ []
  trimSpace_ascii : ∀ text, isAscii text → trimSpace text = Lib.trimSpace text
  trimSpace_inner : ∀ (c d : Char) (middle behind : Text), c.toNat < 128 → isSpace c = false →
    d.toNat < 128 → isSpace d = false →
      ∃ tail, trimSpace (c :: middle ++ d :: behind) = c :: middle ++ d :: tail
  equalFold_ascii : ∀ a b, isAscii a → isAscii b →
    equalFold a b = decide (a.map Char.toLower = b.map Char.toLower)
  equalFold_short : ∀ a b, isAscii b → a.length ≤ b.length → equalFold a b = true → isAscii a

namespace Charset

/-- The functions that know the ASCII characters only. -/
def ascii : Charset where
  lower := List.map Char.toLower
  upper := List.map Char.toUpper
  trimSpace := Lib.trimSpace
  equalFold := fun a b => decide (a.map Char.toLower = b.map Char.toLower)
  lower_nil := rfl
  lower_ascii := fun before c behind _ => List.map_append
  lower_foreign := by
    intro text h d hd
    obtain ⟨c, hc, rfl⟩ := List.mem_map.mp hd
    rw [toLower_of_foreign (h c hc)]
    exact .inl (h c hc)
  lower_lower := by
    intro text
    rw [List.map_map]
    apply List.map_congr_left
    intro c _
    exact toLower_toLower c
  lower_ne_nil := by
    intro text hne hnil
    exact hne (List.map_eq_nil_iff.mp hnil)
  trimSpace_ascii := fun _ _ => rfl
  trimSpace_inner := by
    intro c d middle behind _ hc _ hd
    refine ⟨behind.rdropWhile isSpace, ?_⟩
    have hstart : (c :: middle ++ d :: behind).dropWhile isSpace = c :: middle ++ d :: behind := by
      simp [hc]
    rw [Lib.trimSpace, hstart]
    exact rdropWhile_append_cons hd (c :: middle) behind
  equalFold_ascii := fun _ _ _ _ => rfl
  equalFold_short := by
    intro a b hb _ heq c hc
    have hmap : a.map Char.toLower = b.map Char.toLower := of_decide_eq_true heq
    have hlow : c.toLower ∈ b.map Char.toLower := by
      rw [← hmap]
      exact List.mem_map_of_mem hc
    obtain ⟨d, hd, hsame⟩ := List.mem_map.mp hlow
    by_contra hforeign
    rw [toLower_of_foreign (Nat.le_of_not_lt hforeign)] at hsame
    have hascii := toLower_ascii (hb d hd)
    rw [hsame] at hascii
    exact hforeign hascii

variable (charset : Charset)

theorem lower_cons {c : Char} (hc : c.toNat < 128) (rest : Text) :
    charset.lower (c :: rest) = c.toLower :: charset.lower rest := by
  have h := charset.lower_ascii [] c rest hc
  rwa [charset.lower_nil, List.nil_append, List.nil_append] at h

/-- Text is a run of other characters, and then nothing or an ASCII character. -/
theorem foreign_run (text : Text) : ∃ run rest : Text, text = run ++ rest ∧
    (∀ c ∈ run, 128 ≤ c.toNat) ∧ (rest = [] ∨ ∃ c tail, rest = c :: tail ∧ c.toNat < 128) := by
  induction text with
  | nil => exact ⟨[], [], rfl, by simp, .inl rfl⟩
  | cons c text ih =>
    by_cases hc : c.toNat < 128
    · exact ⟨[], c :: text, rfl, by simp, .inr ⟨c, text, rfl, hc⟩⟩
    · obtain ⟨run, rest, rfl, hrun, hrest⟩ := ih
      refine ⟨c :: run, rest, rfl, ?_, hrest⟩
      intro d hd
      rcases List.mem_cons.mp hd with rfl | hd
      · omega
      · exact hrun d hd

variable {text : Text}

/-- No ASCII character but a letter comes from lowering. -/
theorem mem_of_mem_lower {d : Char} (hd : d.toNat < 128) (hletter : d.isLower = false)
    (h : d ∈ charset.lower text) : d ∈ text := by
  induction hlen : text.length using Nat.strong_induction_on generalizing text with
  | _ n ih =>
    obtain ⟨run, rest, rfl, hrun, hrest⟩ := foreign_run text
    have hforeign : d ∉ charset.lower run := by
      intro hmem
      rcases charset.lower_foreign run hrun d hmem with hlarge | hlower
      · omega
      · rw [hletter] at hlower
        cases hlower
    rcases hrest with rfl | ⟨c, tail, rfl, hc⟩
    · rw [List.append_nil] at h
      exact absurd h hforeign
    · rw [charset.lower_ascii run c tail hc, List.mem_append, List.mem_cons] at h
      rw [List.mem_append, List.mem_cons]
      rcases h with h | h | h
      · exact absurd h hforeign
      · rcases toLower_cases hc with hsame | hlower
        · exact .inr (.inl (h.trans hsame))
        · rw [← h, hletter] at hlower
          cases hlower
      · have hlt : tail.length < n := by
          rw [← hlen]
          simp
          omega
        exact .inr (.inr (ih tail.length hlt h rfl))

theorem lower_of_ascii (h : isAscii text) : charset.lower text = text.map Char.toLower := by
  induction text with
  | nil => exact charset.lower_nil
  | cons c rest ih =>
    rw [charset.lower_cons (h c List.mem_cons_self), ih fun d hd => h d (List.mem_cons_of_mem c hd)]
    rfl

/-- An ASCII text before another one is lowered on its own. -/
theorem lower_ascii_append {before : Text} (h : isAscii before) (behind : Text) :
    charset.lower (before ++ behind) = before.map Char.toLower ++ charset.lower behind := by
  induction before with
  | nil => rfl
  | cons c rest ih =>
    rw [List.cons_append, charset.lower_cons (h c List.mem_cons_self),
      ih fun d hd => h d (List.mem_cons_of_mem c hd)]
    rfl

/-- ASCII characters that are no capital letters stay where they are. -/
theorem mem_lower {c : Char} (hc : c.toNat < 128) (hlower : c.toLower = c) (h : c ∈ text) :
    c ∈ charset.lower text := by
  obtain ⟨before, behind, rfl⟩ := List.append_of_mem h
  rw [charset.lower_ascii _ _ _ hc, hlower]
  simp

/-- Letters may be lowered first. -/
theorem lower_map_toLower (text : Text) :
    charset.lower (text.map Char.toLower) = charset.lower text := by
  induction hlen : text.length using Nat.strong_induction_on generalizing text with
  | _ n ih =>
    obtain ⟨run, rest, rfl, hrun, hrest⟩ := foreign_run text
    have hsame : run.map Char.toLower = run := by
      have hid : ∀ c ∈ run, c.toLower = id c := fun c hc => toLower_of_foreign (hrun c hc)
      rw [List.map_congr_left hid, List.map_id]
    rcases hrest with rfl | ⟨c, tail, rfl, hc⟩
    · rw [List.append_nil, hsame]
    · have htail : charset.lower (tail.map Char.toLower) = charset.lower tail := by
        apply ih tail.length _ tail rfl
        rw [← hlen, List.length_append, List.length_cons]
        omega
      rw [List.map_append, List.map_cons, hsame, charset.lower_ascii _ _ _ (toLower_ascii hc),
        charset.lower_ascii _ _ _ hc, toLower_toLower, htail]

variable {sep : Char}

/-- The parts between two separators are lowered on their own. -/
theorem lower_splitOn (hsep : sep.toNat < 128) (hlower : sep.toLower = sep)
    (hletter : sep.isLower = false) (text : Text) :
    (charset.lower text).splitOn sep = (text.splitOn sep).map charset.lower := by
  have hno {part : Text} (h : sep ∉ part) : sep ∉ charset.lower part :=
    fun hmem => h (charset.mem_of_mem_lower hsep hletter hmem)
  induction hlen : text.length using Nat.strong_induction_on generalizing text with
  | _ n ih =>
    by_cases hmem : sep ∈ text
    · obtain ⟨before, behind, rfl, hbefore⟩ := List.eq_append_cons_of_mem hmem
      have hshort : behind.length < n := by
        rw [← hlen, List.length_append, List.length_cons]
        omega
      rw [charset.lower_ascii _ _ _ hsep, hlower,
        List.splitOn_append_cons_self_of_not_mem (hno hbefore),
        List.splitOn_append_cons_self_of_not_mem hbefore, ih _ hshort behind rfl]
      rfl
    · rw [List.splitOn_eq_singleton (hno hmem), List.splitOn_eq_singleton hmem]
      rfl

theorem lower_intercalate (hsep : sep.toNat < 128) (hlower : sep.toLower = sep)
    (parts : List Text) :
    charset.lower ([sep].intercalate parts) = [sep].intercalate (parts.map charset.lower) := by
  induction parts with
  | nil => exact charset.lower_nil
  | cons part parts ih =>
    cases parts with
    | nil => simp
    | cons next parts =>
      rw [List.intercalate_cons_cons, List.append_assoc, List.singleton_append,
        charset.lower_ascii _ _ _ hsep, ih, hlower]
      simp

end Charset

end NriSupplyChain.Lib
