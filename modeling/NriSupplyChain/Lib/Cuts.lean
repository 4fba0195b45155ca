import Mathlib.Data.List.DropRight
import Mathlib.Tactic

/-!
Cutting a list at a separator, from either end, and dropping neighbours that are
equal. Each cut undoes putting two lists together around the separator.
-/

namespace NriSupplyChain.Lib

variable {α : Type*}

section cuts

variable [DecidableEq α]

/-- The parts before and behind the first separator. -/
def cut (sep : α) : List α → Option (List α × List α)
  | [] => none
  | c :: rest =>
    if c = sep then some ([], rest)
    else (cut sep rest).map fun (before, behind) => (c :: before, behind)

/-- The parts before and behind the first separator, or all of the list and nothing. -/
def cutOr (sep : α) (list : List α) : List α × List α :=
  (cut sep list).getD (list, [])

/-- The parts before and behind the last separator. -/
def cutLast (sep : α) : List α → Option (List α × List α)
  | [] => none
  | c :: rest =>
    match cutLast sep rest with
    | some (before, behind) => some (c :: before, behind)
    | none => if c = sep then some ([], rest) else none

/-- A list without the elements that equal the one before. -/
def compact : List α → List α
  | a :: b :: rest => if a = b then compact (b :: rest) else a :: compact (b :: rest)
  | list => list

variable {list : List α} {sep : α}

theorem cut_eq_none (h : sep ∉ list) : cut sep list = none := by
  induction list with
  | nil => rfl
  | cons c rest ih =>
    have hc : c ≠ sep := fun heq => h (by simp [heq])
    have hrest : sep ∉ rest := fun hmem => h (List.mem_cons_of_mem c hmem)
    simp [cut, hc, ih hrest]

variable {before : List α}

theorem cut_append (h : sep ∉ before) (behind : List α) :
    cut sep (before ++ sep :: behind) = some (before, behind) := by
  induction before with
  | nil => simp [cut]
  | cons c rest ih =>
    have hc : c ≠ sep := fun heq => h (by simp [heq])
    have hrest : sep ∉ rest := fun hmem => h (List.mem_cons_of_mem c hmem)
    simp [cut, hc, ih hrest]

variable {behind : List α}

theorem cut_eq_some (h : cut sep list = some (before, behind)) :
    list = before ++ sep :: behind ∧ sep ∉ before := by
  induction list generalizing before with
  | nil => cases h
  | cons c rest ih =>
    rw [cut] at h
    by_cases hc : c = sep
    · rw [if_pos hc] at h
      obtain ⟨rfl, rfl⟩ := Prod.mk.inj (Option.some.inj h)
      exact ⟨by simp [hc], by simp⟩
    · rw [if_neg hc] at h
      obtain ⟨⟨start, tail⟩, hcut, hpair⟩ := Option.map_eq_some_iff.mp h
      obtain ⟨rfl, rfl⟩ := Prod.mk.inj hpair
      obtain ⟨rfl, hstart⟩ := ih hcut
      exact ⟨rfl, by simp [hstart, Ne.symm hc]⟩

theorem cutOr_of_not_mem (h : sep ∉ list) : cutOr sep list = (list, []) := by
  rw [cutOr, cut_eq_none h]
  rfl

theorem cutOr_append (h : sep ∉ before) (list : List α) :
    cutOr sep (before ++ list) = (before ++ (cutOr sep list).1, (cutOr sep list).2) := by
  cases hcut : cut sep list with
  | none =>
    have hlist : sep ∉ list := by
      intro hmem
      obtain ⟨start, tail, rfl, hstart⟩ := List.eq_append_cons_of_mem hmem
      rw [cut_append hstart] at hcut
      cases hcut
    rw [cutOr_of_not_mem hlist, cutOr_of_not_mem (by simp [h, hlist])]
  | some pair =>
    obtain ⟨start, tail⟩ := pair
    obtain ⟨rfl, hstart⟩ := cut_eq_some hcut
    have hbefore : sep ∉ before ++ start := by simp [h, hstart]
    rw [cutOr, cutOr, hcut, ← List.append_assoc, cut_append hbefore]
    rfl

theorem cutOr_fst_prefix (sep : α) (list : List α) : (cutOr sep list).1 <+: list := by
  unfold cutOr
  cases hcut : cut sep list with
  | none => exact List.prefix_rfl
  | some pair =>
    obtain ⟨before, behind⟩ := pair
    rw [(cut_eq_some hcut).1]
    exact List.prefix_append before (sep :: behind)

/-- Something stands behind the first separator only where there is one. -/
theorem cutOr_snd_ne_nil (h : (cutOr sep list).2 ≠ []) :
    list = (cutOr sep list).1 ++ sep :: (cutOr sep list).2 := by
  unfold cutOr at h ⊢
  cases hcut : cut sep list with
  | none =>
    rw [hcut] at h
    exact absurd rfl h
  | some pair => exact (cut_eq_some hcut).1

theorem cutLast_eq_none_iff : cutLast sep list = none ↔ sep ∉ list := by
  induction list with
  | nil => simp [cutLast]
  | cons c rest ih =>
    rw [cutLast]
    cases hrest : cutLast sep rest with
    | some pair =>
      have hmem : sep ∈ rest := by
        by_contra hmem
        rw [ih.mpr hmem] at hrest
        cases hrest
      simp [hmem]
    | none =>
      have hmem : sep ∉ rest := ih.mp hrest
      by_cases hc : c = sep
      · simp [hc]
      · simp [hc, hmem, Ne.symm hc]

theorem cutLast_append (sep : α) (before : List α) (h : sep ∉ behind) :
    cutLast sep (before ++ sep :: behind) = some (before, behind) := by
  induction before with
  | nil => simp [cutLast, cutLast_eq_none_iff.mpr h]
  | cons c rest ih => simp [cutLast, ih]

theorem cutLast_eq_some (h : cutLast sep list = some (before, behind)) :
    list = before ++ sep :: behind ∧ sep ∉ behind := by
  induction list generalizing before with
  | nil => cases h
  | cons c rest ih =>
    rw [cutLast] at h
    cases hrest : cutLast sep rest with
    | some pair =>
      obtain ⟨start, tail⟩ := pair
      rw [hrest] at h
      obtain ⟨rfl, rfl⟩ := Prod.mk.inj (Option.some.inj h)
      obtain ⟨rfl, htail⟩ := ih hrest
      exact ⟨rfl, htail⟩
    | none =>
      have hmem : sep ∉ rest := cutLast_eq_none_iff.mp hrest
      by_cases hc : c = sep
      · simp only [hrest, hc, if_true] at h
        obtain ⟨rfl, rfl⟩ := Prod.mk.inj (Option.some.inj h)
        exact ⟨by rw [hc, List.nil_append], hmem⟩
      · simp [hrest, hc] at h

theorem mem_compact {a : α} : a ∈ compact list ↔ a ∈ list := by
  fun_induction compact list with
  | case1 b rest ih =>
    rw [ih]
    simp
  | case2 b c rest hne ih => simp only [List.mem_cons, ih]
  | case3 list hshort => rfl

end cuts

/-- Behind an element that stays, dropping from the end stops. -/
theorem rdropWhile_append_cons {p : α → Bool} {c : α} (hc : p c = false) (before behind : List α) :
    (before ++ c :: behind).rdropWhile p = before ++ c :: behind.rdropWhile p := by
  induction behind using List.reverseRecOn with
  | nil =>
    rw [List.rdropWhile_concat_neg _ _ _ (by simp [hc])]
    rfl
  | append_singleton behind d ih =>
    rw [← List.cons_append, ← List.append_assoc]
    cases hd : p d with
    | true => rw [List.rdropWhile_concat_pos _ _ _ hd, List.rdropWhile_concat_pos _ _ _ hd, ih]
    | false =>
      have hkeep : ¬ p d = true := by simp [hd]
      rw [List.rdropWhile_concat_neg _ _ _ hkeep, List.rdropWhile_concat_neg _ _ _ hkeep]
      simp

/-- Dropping from the end stops before a part that something is left of. -/
theorem rdropWhile_append_of_ne_nil {p : α → Bool} {behind : List α}
    (h : behind.rdropWhile p ≠ []) (before : List α) :
    (before ++ behind).rdropWhile p = before ++ behind.rdropWhile p := by
  induction behind using List.reverseRecOn with
  | nil => exact absurd rfl h
  | append_singleton behind d ih =>
    rw [← List.append_assoc]
    cases hd : p d with
    | true =>
      rw [List.rdropWhile_concat_pos _ _ _ hd] at h ⊢
      rw [List.rdropWhile_concat_pos _ _ _ hd, ih h]
    | false =>
      have hkeep : ¬ p d = true := by simp [hd]
      rw [List.rdropWhile_concat_neg _ _ _ hkeep, List.rdropWhile_concat_neg _ _ _ hkeep]
      simp

variable {sep : α}

theorem mem_intercalate {parts : List (List α)} {part : List α} (h : part ∈ parts) :
    ∃ before behind, sep :: [sep].intercalate parts = before ++ sep :: part ++ behind := by
  induction parts with
  | nil => cases h
  | cons first rest ih =>
    cases rest with
    | nil =>
      rw [List.mem_singleton.mp h]
      exact ⟨[], [], by simp⟩
    | cons second rest =>
      have hjoin : [sep].intercalate (first :: second :: rest) =
          first ++ sep :: [sep].intercalate (second :: rest) := by simp
      rw [hjoin]
      rcases List.mem_cons.mp h with rfl | h
      · exact ⟨[], sep :: [sep].intercalate (second :: rest), by simp⟩
      · obtain ⟨before, behind, heq⟩ := ih h
        refine ⟨sep :: first ++ before, behind, ?_⟩
        rw [heq]
        simp

theorem intercalate_append (sep : α) {first : List (List α)} (h : first ≠ [])
    (rest : List (List α)) :
    [sep].intercalate (first ++ rest) =
      [sep].intercalate first ++ if rest = [] then [] else sep :: [sep].intercalate rest := by
  induction first with
  | nil => exact absurd rfl h
  | cons part first ih =>
    cases first with
    | nil => cases rest <;> simp
    | cons next first =>
      have hrest := ih (by simp)
      simp only [List.cons_append, List.intercalate_cons_cons, List.append_assoc] at hrest ⊢
      rw [hrest]

variable {list : List α}

/-- A part of a split list stands behind a separator, if one is put before the list. -/
theorem mem_splitOn [DecidableEq α] {part : List α} (h : part ∈ list.splitOn sep) :
    ∃ before behind, sep :: list = before ++ sep :: part ++ behind := by
  have hmem : ∃ before behind, sep :: [sep].intercalate (list.splitOn sep) =
      before ++ sep :: part ++ behind := mem_intercalate h
  rwa [List.intercalate_splitOn] at hmem

variable {β : Type*}

theorem mapM_cons_eq_some {f : α → Option β} {a : α} {result : List β} :
    (a :: list).mapM f = some result ↔
      ∃ b rest, f a = some b ∧ list.mapM f = some rest ∧ result = b :: rest := by
  rw [List.mapM_cons]
  simp only [Option.bind_eq_bind, Option.bind_eq_some_iff]
  constructor
  · rintro ⟨b, hb, rest, hrest, hresult⟩
    cases hresult
    exact ⟨b, rest, hb, hrest, rfl⟩
  · rintro ⟨b, rest, hb, hrest, rfl⟩
    exact ⟨b, hb, rest, hrest, rfl⟩

theorem mem_of_mapM_eq_some {f : α → Option β} {result : List β} (h : list.mapM f = some result)
    {b : β} (hb : b ∈ result) : ∃ a ∈ list, f a = some b := by
  induction list generalizing result with
  | nil =>
    cases h
    cases hb
  | cons a list ih =>
    obtain ⟨c, rest, hc, hrest, rfl⟩ := mapM_cons_eq_some.mp h
    rcases List.mem_cons.mp hb with rfl | hb
    · exact ⟨a, List.mem_cons_self, hc⟩
    · obtain ⟨d, hd, hfd⟩ := ih hrest hb
      exact ⟨d, List.mem_cons_of_mem a hd, hfd⟩

theorem exists_of_mapM_eq_some {f : α → Option β} {result : List β} (h : list.mapM f = some result)
    {a : α} (ha : a ∈ list) : ∃ b, f a = some b := by
  induction list generalizing result with
  | nil => cases ha
  | cons c list ih =>
    obtain ⟨b, rest, hb, hrest, rfl⟩ := mapM_cons_eq_some.mp h
    rcases List.mem_cons.mp ha with rfl | ha
    · exact ⟨b, hb⟩
    · exact ih hrest ha

theorem mem_of_mem_intercalate {c : α} {parts : List (List α)} (hc : c ≠ sep)
    (h : c ∈ [sep].intercalate parts) : ∃ part ∈ parts, c ∈ part := by
  induction parts with
  | nil => simp at h
  | cons first rest ih =>
    cases rest with
    | nil => exact ⟨first, List.mem_cons_self, by simpa using h⟩
    | cons second rest =>
      have hjoin : [sep].intercalate (first :: second :: rest) =
          first ++ sep :: [sep].intercalate (second :: rest) := by simp
      rw [hjoin, List.mem_append, List.mem_cons] at h
      rcases h with h | h | h
      · exact ⟨first, List.mem_cons_self, h⟩
      · exact absurd h hc
      · obtain ⟨part, hpart, hmem⟩ := ih h
        exact ⟨part, List.mem_cons_of_mem first hpart, hmem⟩

end NriSupplyChain.Lib
