import Mathlib.Data.List.AList
import Mathlib.Tactic

/-!
Maps that are filled from a list. An element replaces an earlier one with the same
key, or joins those with the same key. A map has its entries in some order; what is
computed from all of them is compared key by key.
-/

namespace NriSupplyChain.Lib

variable {α κ : Type*} [DecidableEq κ]

/-- The last element for each key. -/
def indexBy (key : α → κ) (list : List α) : AList fun _ : κ => α :=
  list.foldl (fun index a => index.insert (key a) a) ∅

/-- All elements for each key, in their order. -/
def groupBy (key : α → κ) (list : List α) : AList fun _ : κ => List α :=
  list.foldl (fun index a => index.insert (key a) (((index.lookup (key a)).getD []) ++ [a])) ∅

theorem lookup_indexBy (key : α → κ) (list : List α) (k : κ) :
    (indexBy key list).lookup k = (list.filter fun a => key a = k).getLast? := by
  induction list using List.reverseRecOn with
  | nil => rfl
  | append_singleton list a ih =>
    have hstep : indexBy key (list ++ [a]) = (indexBy key list).insert (key a) a := by
      simp [indexBy]
    rw [hstep]
    by_cases hk : key a = k
    · rw [hk, AList.lookup_insert]
      simp [hk]
    · rw [AList.lookup_insert_ne (Ne.symm hk), ih]
      simp [hk]

theorem lookup_groupBy (key : α → κ) (list : List α) (k : κ) :
    (groupBy key list).lookup k =
      if (list.filter fun a => key a = k) = [] then none
      else some (list.filter fun a => key a = k) := by
  induction list using List.reverseRecOn with
  | nil => rfl
  | append_singleton list a ih =>
    have hstep : groupBy key (list ++ [a]) =
        (groupBy key list).insert (key a) (((groupBy key list).lookup (key a)).getD [] ++ [a]) := by
      simp [groupBy]
    rw [hstep]
    by_cases hk : key a = k
    · rw [hk, AList.lookup_insert, ih]
      simp only [List.filter_append, List.filter_cons, hk, decide_true, if_true, List.filter_nil,
        List.append_eq_nil_iff, List.cons_ne_nil, and_false, if_false]
      congr 2
      split
      · next hnil => simp [hnil]
      · rfl
    · rw [AList.lookup_insert_ne (Ne.symm hk), ih]
      simp [hk]

/-- The elements of a map. -/
def values {β : Type*} (index : AList fun _ : κ => β) : List β :=
  index.entries.map fun entry => entry.2

variable {β : Type*}

theorem mem_values {index : AList fun _ : κ => β} {b : β} :
    b ∈ values index ↔ ∃ k, index.lookup k = some b := by
  unfold values
  rw [List.mem_map]
  constructor
  · rintro ⟨⟨k, b⟩, hmem, rfl⟩
    exact ⟨k, AList.mem_lookup_iff.mpr hmem⟩
  · rintro ⟨k, hlookup⟩
    exact ⟨⟨k, b⟩, AList.mem_lookup_iff.mp hlookup, rfl⟩

theorem mem_values_indexBy {key : α → κ} {list : List α} {a : α} :
    a ∈ values (indexBy key list) ↔ (indexBy key list).lookup (key a) = some a := by
  rw [mem_values]
  constructor
  · rintro ⟨k, hlookup⟩
    have hmem := hlookup
    rw [lookup_indexBy] at hmem
    have hkey : key a = k := by
      have ha := List.mem_of_getLast? hmem
      exact of_decide_eq_true (List.mem_filter.mp ha).2
    rw [hkey]
    exact hlookup
  · intro hlookup
    exact ⟨key a, hlookup⟩

/-- Change the elements of a map, or remove them. -/
def filterMapValues {β γ : Type*} (f : κ → β → Option γ) (index : AList fun _ : κ => β) :
    AList fun _ : κ => γ where
  entries := index.entries.filterMap fun entry => (f entry.1 entry.2).map fun c => ⟨entry.1, c⟩
  nodupKeys := by
    rw [List.nodupKeys_iff_pairwise, List.pairwise_filterMap]
    refine (List.nodupKeys_iff_pairwise.mp index.nodupKeys).imp ?_
    rintro a b hne _ ha _ hb
    obtain ⟨c, _, rfl⟩ := Option.map_eq_some_iff.mp ha
    obtain ⟨d, _, rfl⟩ := Option.map_eq_some_iff.mp hb
    exact hne

variable {γ : Type*}

theorem lookup_filterMapValues (f : κ → β → Option γ) (index : AList fun _ : κ => β) (k : κ) :
    (filterMapValues f index).lookup k = (index.lookup k).bind (f k) := by
  apply Option.ext
  intro c
  have hentry : (filterMapValues f index).lookup k = some c ↔
      ⟨k, c⟩ ∈ (filterMapValues f index).entries := AList.mem_lookup_iff
  rw [hentry, Option.bind_eq_some_iff]
  simp only [filterMapValues, List.mem_filterMap, Option.map_eq_some_iff]
  constructor
  · rintro ⟨⟨k', b⟩, hmem, c', hc, heq⟩
    cases heq
    exact ⟨b, AList.mem_lookup_iff.mpr hmem, hc⟩
  · rintro ⟨b, hb, hc⟩
    exact ⟨⟨k, b⟩, AList.mem_lookup_iff.mp hb, c, hc, rfl⟩

omit [DecidableEq κ] in
theorem values_filterMapValues_some (f : β → γ) (index : AList fun _ : κ => β) :
    values (filterMapValues (fun _ b => some (f b)) index) = (values index).map f := by
  simp [values, filterMapValues, Function.comp_def]

/-- Maps that agree at every key have the same elements, up to their order. -/
theorem values_map_perm {β' : Type*} {left : AList fun _ : κ => β} {right : AList fun _ : κ => β'}
    {f : β → γ} {f' : β' → γ} (h : ∀ k, (left.lookup k).map f = (right.lookup k).map f') :
    ((values left).map f).Perm ((values right).map f') := by
  rw [← values_filterMapValues_some, ← values_filterMapValues_some]
  refine List.Perm.map _ (List.lookup_ext (AList.nodupKeys _) (AList.nodupKeys _) ?_)
  intro k c
  have hleft : (filterMapValues (fun _ b => some (f b)) left).lookup k = (left.lookup k).map f := by
    rw [lookup_filterMapValues, Option.map_eq_bind]
    rfl
  have hright : (filterMapValues (fun _ b => some (f' b)) right).lookup k =
      (right.lookup k).map f' := by
    rw [lookup_filterMapValues, Option.map_eq_bind]
    rfl
  exact iff_of_eq (congrArg (c ∈ ·) (hleft.trans ((h k).trans hright.symm)))

/-- An element that belongs to one of several keys may be put in front of all. -/
theorem flatMap_cons_perm {ks : List κ} (hnodup : ks.Nodup) {k : κ} (hk : k ∈ ks) (a : α)
    (f : κ → List α) :
    (ks.flatMap fun k' => if k' = k then a :: f k' else f k').Perm (a :: ks.flatMap f) := by
  induction ks with
  | nil => cases hk
  | cons first rest ih =>
    rw [List.nodup_cons] at hnodup
    rw [List.flatMap_cons, List.flatMap_cons]
    rcases List.mem_cons.mp hk with rfl | hrest
    · have hothers : (rest.flatMap fun k' => if k' = k then a :: f k' else f k') =
          rest.flatMap f := by
        apply List.flatMap_congr
        intro k' hk'
        rw [if_neg]
        rintro rfl
        exact hnodup.1 hk'
      rw [if_pos rfl, hothers]
      exact .refl _
    · have hne : first ≠ k := by
        rintro rfl
        exact hnodup.1 hrest
      rw [if_neg hne]
      exact ((ih hnodup.2 hrest).append_left (f first)).trans List.perm_middle

/-- Taking the elements key by key takes each of them once. -/
theorem flatMap_filter_perm {key : α → κ} {ks : List κ} (hnodup : ks.Nodup) (list : List α)
    (hcover : ∀ a ∈ list, key a ∈ ks) :
    (ks.flatMap fun k => list.filter fun a => key a = k).Perm list := by
  induction list with
  | nil => simp
  | cons a rest ih =>
    have hsplit : (fun k => (a :: rest).filter fun b => key b = k) =
        fun k => if k = key a then a :: (rest.filter fun b => key b = k)
          else rest.filter fun b => key b = k := by
      funext k
      by_cases hk : k = key a
      · simp [hk]
      · simp [hk, Ne.symm hk]
    rw [hsplit]
    refine (flatMap_cons_perm hnodup (hcover a List.mem_cons_self) a _).trans (.cons a ?_)
    exact ih fun b hb => hcover b (List.mem_cons_of_mem a hb)

/-- Elements that are replaced may be put behind those that stay. -/
theorem filterMap_ite_perm (p : α → Bool) (f : α → Option α) (list : List α) :
    (list.filterMap fun a => if p a then f a else some a).Perm
      ((list.filter fun a => !p a) ++ (list.filter p).filterMap f) := by
  induction list with
  | nil => exact .refl _
  | cons a rest ih =>
    cases hp : p a with
    | false => simpa [hp] using ih
    | true =>
      cases hf : f a with
      | none => simpa [hp, hf] using ih
      | some b => simpa [hp, hf] using (ih.cons b).trans List.perm_middle.symm

end NriSupplyChain.Lib
