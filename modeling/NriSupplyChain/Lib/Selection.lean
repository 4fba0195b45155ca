import Mathlib.Data.List.Perm.Basic
import Mathlib.Data.List.Pairwise
import Mathlib.Data.List.Sort

/-!
A list in which keys occur several times, and one position picked for each key. What is
picked is put together in the order of the positions. The result depends on the pick only
where occurrences of two keys interleave.
-/

namespace NriSupplyChain.Lib

variable {κ α : Type}

/-- The keys at the positions picked for them, in order. -/
def pickedKeys (pick : κ → Nat) (keys : List κ) : List κ :=
  (List.range keys.length).filterMap fun i => keys[i]?.filter fun k => pick k = i

/-- Every key of the list is picked at one of its positions. -/
def Picks (pick : κ → Nat) (keys : List κ) : Prop :=
  ∀ k ∈ keys, keys[pick k]? = some k

variable {keys : List κ} {pick : κ → Nat}

theorem mem_pickedKeys {k : κ} : k ∈ pickedKeys pick keys ↔ keys[pick k]? = some k := by
  simp only [pickedKeys, List.mem_filterMap, List.mem_range, Option.filter_eq_some_iff,
    decide_eq_true_eq]
  constructor
  · rintro ⟨i, -, hkey, rfl⟩
    exact hkey
  · intro hkey
    obtain ⟨hlt, -⟩ := List.getElem?_eq_some_iff.mp hkey
    exact ⟨pick k, hlt, hkey, rfl⟩

theorem pairwise_pickedKeys (pick : κ → Nat) (keys : List κ) :
    (pickedKeys pick keys).Pairwise fun k e => pick k < pick e := by
  rw [pickedKeys, List.pairwise_filterMap]
  apply List.pairwise_lt_range.imp
  intro i j hlt k hk e he
  obtain ⟨-, hi⟩ := Option.filter_eq_some_iff.mp hk
  obtain ⟨-, hj⟩ := Option.filter_eq_some_iff.mp he
  simp only [decide_eq_true_eq] at hi hj
  omega

/-- Slots filled at the picked positions hold the values of the picked keys. -/
theorem filterMap_slots {value : κ → Option α}
    {slots : List (Option α)} (hlength : slots.length = keys.length)
    (hslots : ∀ i k, keys[i]? = some k →
      slots[i]? = some (if pick k = i then value k else none)) :
    slots.filterMap id = (pickedKeys pick keys).filterMap value := by
  have hrange : slots = (List.range slots.length).map fun i => (slots[i]?).join := by
    apply List.ext_getElem?
    intro i
    by_cases hi : i < slots.length <;> simp [hi]
  rw [hrange, List.filterMap_map, pickedKeys, List.filterMap_filterMap, hlength]
  apply List.filterMap_congr
  intro i hi
  have hlt := List.mem_range.mp hi
  have hkey : keys[i]? = some keys[i] := List.getElem?_eq_getElem hlt
  have hslot := hslots i keys[i] hkey
  by_cases hpick : pick keys[i] = i <;> simp [hkey, hslot, hpick, Option.filter]

section Values

variable {pick pick' : κ → Nat} {keys : List κ} {value : κ → Option α}

/-- Two picks that order the keys with values alike give the same list. -/
theorem filterMap_pickedKeys_eq (h : Picks pick keys) (h' : Picks pick' keys)
    (hagree : ∀ k ∈ keys, ∀ e ∈ keys, value k ≠ none → value e ≠ none → pick k < pick e →
      pick' k < pick' e) :
    (pickedKeys pick keys).filterMap value = (pickedKeys pick' keys).filterMap value := by
  have hvalued (p : κ → Nat) : (pickedKeys p keys).filterMap value =
      ((pickedKeys p keys).filter fun k => (value k).isSome).filterMap value := by
    rw [List.filterMap_filter]
    apply List.filterMap_congr
    intro k _
    cases value k <;> rfl
  have hmem {p : κ → Nat} (hp : Picks p keys) (k : κ) :
      (k ∈ (pickedKeys p keys).filter fun k => (value k).isSome) ↔ k ∈ keys ∧ value k ≠ none := by
    rw [List.mem_filter, mem_pickedKeys, Option.isSome_iff_ne_none]
    refine and_congr_left fun _ => ⟨List.mem_of_getElem?, hp k⟩
  rw [hvalued, hvalued pick']
  congr 1
  have hsorted' := (pairwise_pickedKeys pick' keys).filter fun k => (value k).isSome
  have hsorted : ((pickedKeys pick keys).filter fun k => (value k).isSome).Pairwise
      fun k e => pick' k < pick' e := by
    apply ((pairwise_pickedKeys pick keys).filter fun k => (value k).isSome).imp_of_mem
    intro k e hk he hlt
    obtain ⟨hkey, hsome⟩ := (hmem h k).mp hk
    obtain ⟨hkey', hsome'⟩ := (hmem h e).mp he
    exact hagree k hkey e hkey' hsome hsome' hlt
  have hperm := (List.perm_ext_iff_of_nodup (hsorted.imp fun hlt heq => ?_)
    (hsorted'.imp fun hlt heq => ?_)).mpr fun k => (hmem h k).trans (hmem h' k).symm
  · apply hperm.eq_of_pairwise ?_ hsorted hsorted'
    intro k e _ _ hlt hgt
    omega
  · rw [heq] at hlt
    omega
  · rw [heq] at hlt
    omega

/-- When values tell the keys apart, the list of values shows the order of the picks. -/
theorem pairwise_filterMap_pickedKeys (pick : κ → Nat)
    (hinj : ∀ k ∈ keys, ∀ e ∈ keys, value k ≠ none → value k = value e → k = e) :
    ((pickedKeys pick keys).filterMap value).Pairwise fun a b => ∀ k ∈ keys, ∀ e ∈ keys,
      value k = some a → value e = some b → pick k < pick e := by
  rw [List.pairwise_filterMap]
  apply (pairwise_pickedKeys pick keys).imp_of_mem
  intro k e hk he hlt a ha b hb k' hk' e' he' ha' hb'
  have hkey : k' = k := by
    apply hinj k' hk' k (List.mem_of_getElem? (mem_pickedKeys.mp hk))
    · rw [ha']
      exact Option.some_ne_none a
    · rw [ha', ha]
  have hkey' : e' = e := by
    apply hinj e' he' e (List.mem_of_getElem? (mem_pickedKeys.mp he))
    · rw [hb']
      exact Option.some_ne_none b
    · rw [hb', hb]
  rw [hkey, hkey']
  exact hlt

/-- Two picks that give the same list order two keys with values alike. -/
theorem lt_of_filterMap_pickedKeys_eq (h : Picks pick keys)
    (hinj : ∀ k ∈ keys, ∀ e ∈ keys, value k ≠ none → value k = value e → k = e)
    (heq : (pickedKeys pick keys).filterMap value = (pickedKeys pick' keys).filterMap value)
    {k e : κ} (hk : k ∈ keys) (he : e ∈ keys) (hkSome : value k ≠ none) (heSome : value e ≠ none)
    (hlt : pick k < pick e) : pick' k < pick' e := by
  obtain ⟨a, ha⟩ := Option.ne_none_iff_exists'.mp hkSome
  obtain ⟨b, hb⟩ := Option.ne_none_iff_exists'.mp heSome
  have hmem (k : κ) (hk : k ∈ keys) (a : α) (ha : value k = some a) :
      a ∈ (pickedKeys pick keys).filterMap value :=
    List.mem_filterMap.mpr ⟨k, mem_pickedKeys.mpr (h k hk), ha⟩
  obtain ⟨x, hx, hax⟩ := List.getElem_of_mem (hmem k hk a ha)
  obtain ⟨y, hy, hby⟩ := List.getElem_of_mem (hmem e he b hb)
  have horder := List.pairwise_iff_getElem.mp (pairwise_filterMap_pickedKeys pick hinj)
  have horder' := pairwise_filterMap_pickedKeys pick' hinj
  rw [← heq] at horder'
  rcases Nat.lt_trichotomy x y with hxy | hxy | hxy
  · apply List.pairwise_iff_getElem.mp horder' x y hx hy hxy k hk e he
    · rw [hax, ha]
    · rw [hby, hb]
  · subst hxy
    have hsame : value k = value e := by
      rw [ha, hb, ← hax, ← hby]
    rw [hinj k hk e he hkSome hsame] at hlt
    omega
  · have hgt := horder y x hy hx hxy e he k hk (by rw [hby, hb]) (by rw [hax, ha])
    omega

end Values

/-- Fewer than `limit` occurrences of its key are in front of the position. -/
def Early [DecidableEq κ] (limit : Nat) (keys : List κ) (i : Nat) : Prop :=
  ∀ k, keys[i]? = some k → (keys.take i).count k < limit

/-- Among the early occurrences of two keys with a property, one of a key lies between two of
the other. -/
def Interleaved [DecidableEq κ] (limit : Nat) (P : κ → Prop) (keys : List κ) : Prop :=
  ∃ i m j k e, i < m ∧ m < j ∧ keys[i]? = some k ∧ keys[m]? = some e ∧ keys[j]? = some k ∧
    e ≠ k ∧ P k ∧ P e ∧ Early limit keys m ∧ Early limit keys j

/-- Early picks of keys that do not interleave put them into the same order. -/
theorem pick_lt_of_not_interleaved [DecidableEq κ] {limit : Nat} {P : κ → Prop} {pick' : κ → Nat}
    (hnot : ¬Interleaved limit P keys) (h : Picks pick keys) (h' : Picks pick' keys)
    (hearly : ∀ k ∈ keys, Early limit keys (pick k))
    (hearly' : ∀ k ∈ keys, Early limit keys (pick' k)) {k e : κ} (hk : k ∈ keys) (he : e ∈ keys)
    (hPk : P k) (hPe : P e) (hlt : pick k < pick e) : pick' k < pick' e := by
  by_contra hge
  have hne : e ≠ k := by
    rintro rfl
    omega
  have hapart (p q : κ → Nat) (hp : Picks p keys) (hq : Picks q keys) : p k ≠ q e := by
    intro heq
    have hsame := (hp k hk).symm.trans (heq ▸ hq e he)
    exact hne (Option.some.inj hsame).symm
  have hcross := hapart pick' pick' h' h'
  rcases Nat.lt_or_gt_of_ne (hapart pick pick' h h') with hfirst | hfirst
  · exact hnot ⟨pick k, pick' e, pick' k, k, e, hfirst, by omega, h k hk, h' e he, h' k hk, hne,
      hPk, hPe, hearly' e he, hearly' k hk⟩
  · exact hnot ⟨pick' e, pick k, pick e, e, k, hfirst, hlt, h' e he, h k hk, h e he, hne.symm,
      hPe, hPk, hearly k hk, hearly e he⟩

/-- Counting in front of a position, when each counted entry of one list faces a counted
entry of the other. -/
theorem countP_take_le {β : Type} {p : α → Bool} {q : β → Bool} {xs : List α} {ys : List β}
    {i : Nat} (h : ∀ m < i, ∀ x, xs[m]? = some x → p x = true → ∃ y, ys[m]? = some y ∧ q y = true) :
    (xs.take i).countP p ≤ (ys.take i).countP q := by
  induction i generalizing xs ys with
  | zero => simp
  | succ i ih =>
    cases xs with
    | nil => simp
    | cons x xs =>
      cases ys with
      | nil =>
        have hzero : ((x :: xs).take (i + 1)).countP p = 0 := by
          rw [List.countP_eq_zero]
          intro a ha hp
          obtain ⟨m, hm⟩ := List.getElem?_of_mem ha
          rw [List.getElem?_take] at hm
          split at hm
          · next hlt =>
            obtain ⟨y, hy, -⟩ := h m hlt a hm hp
            cases hy
          · cases hm
        omega
      | cons y ys =>
        have hrest : (xs.take i).countP p ≤ (ys.take i).countP q := by
          apply ih
          intro m hm a ha hp
          exact h (m + 1) (by omega) a ha hp
        simp only [List.take_succ_cons, List.countP_cons]
        by_cases hx : p x = true
        · obtain ⟨y', hy', hq⟩ := h 0 (by omega) x rfl hx
          cases hy'
          simp only [hx, hq, if_true]
          omega
        · simp only [hx, Bool.false_eq_true, if_false]
          omega

theorem set_eq_self {list : List α} {i : Nat} {a : α} (h : list[i]? = some a) :
    list.set i a = list := by
  obtain ⟨hlt, rfl⟩ := List.getElem?_eq_some_iff.mp h
  exact List.set_getElem_self hlt

end NriSupplyChain.Lib
