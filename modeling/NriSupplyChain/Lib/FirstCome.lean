import Mathlib.Data.List.Perm.Basic
import Mathlib.Data.List.Perm.Lattice

/-!
Items that arrive one after the other and go to the first slot that takes them. The
first item that an empty slot takes leaves a record there, and the slot takes later
ones only if they agree with it. An item that concerns a slot and is taken by none is
refused. Which verdicts the orders of arrival can have depends only on which item
comes first in each empty slot.
-/

namespace NriSupplyChain.Lib

/-- What the items of a list map to can be rearranged together with them. -/
theorem exists_perm_of_filterMap_perm {α β : Type*} {f : α → Option β} {target : List β}
    {items : List α} (h : target.Perm (items.filterMap f)) :
    ∃ order : List α, order.Perm items ∧ order.filterMap f = target := by
  induction target generalizing items with
  | nil => exact ⟨items, .refl items, List.nil_perm.mp h⟩
  | cons b target ih =>
    have hmem : b ∈ items.filterMap f := h.subset List.mem_cons_self
    obtain ⟨a, ha, hab⟩ := List.mem_filterMap.mp hmem
    obtain ⟨before, behind, rfl⟩ := List.append_of_mem ha
    have hfront : (before ++ a :: behind).Perm (a :: (before ++ behind)) := List.perm_middle
    have hrest : (b :: target).Perm (b :: (before ++ behind).filterMap f) := by
      refine h.trans ?_
      refine (hfront.filterMap f).trans ?_
      rw [List.filterMap_cons_some hab]
    obtain ⟨order, horder, htarget⟩ := ih hrest.cons_inv
    refine ⟨a :: order, (horder.cons a).trans hfront.symm, ?_⟩
    rw [List.filterMap_cons_some hab, htarget]

structure FirstCome (S X R : Type*) where
  concerns : S → X → Bool
  fits : S → X → Bool
  agrees : S → R → X → Bool
  record : X → R

namespace FirstCome

variable {S X R : Type*} (rules : FirstCome S X R)

/-- A slot with what the first item left there. -/
abbrev Slot (S R : Type*) := S × Option R

def takes (slot : Slot S R) (x : X) : Bool :=
  rules.concerns slot.1 x && rules.fits slot.1 x && slot.2.all fun r => rules.agrees slot.1 r x

def put (slot : Slot S R) (x : X) : Slot S R :=
  (slot.1, slot.2.or (some (rules.record x)))

/-- Offer an item to the slots. The flag tells whether it concerns a slot before them. -/
def place : List (Slot S R) → Bool × X → Option (List (Slot S R))
  | [], (concerned, _) => if concerned then none else some []
  | slot :: more, (concerned, x) =>
    if rules.takes slot x then some (rules.put slot x :: more)
    else (place more (concerned || rules.concerns slot.1 x, x)).map (slot :: ·)

def placeAll (slots : List (Slot S R)) (items : List (Bool × X)) : Option (List (Slot S R)) :=
  items.foldlM rules.place slots

def accepted (slots : List (Slot S R)) (items : List (Bool × X)) : Bool :=
  (rules.placeAll slots items).isSome

/-- The items that a slot leaves to the ones behind it. -/
def left : Slot S R → List (Bool × X) → List (Bool × X)
  | _, [] => []
  | slot, (concerned, x) :: items =>
    if rules.takes slot x then left (rules.put slot x) items
    else (concerned || rules.concerns slot.1 x, x) :: left slot items

theorem accepted_nil (items : List (Bool × X)) :
    rules.accepted [] items = items.all fun item => !item.1 := by
  induction items with
  | nil => rfl
  | cons item items ih =>
    obtain ⟨concerned, x⟩ := item
    cases concerned with
    | true => rfl
    | false => exact ih

/-- A slot can be served before the ones behind it. -/
theorem accepted_cons (slot : Slot S R) (more : List (Slot S R)) (items : List (Bool × X)) :
    rules.accepted (slot :: more) items = rules.accepted more (rules.left slot items) := by
  induction items generalizing slot more with
  | nil => rfl
  | cons item items ih =>
    obtain ⟨concerned, x⟩ := item
    by_cases htakes : rules.takes slot x = true
    · have hstep : rules.accepted (slot :: more) ((concerned, x) :: items) =
          rules.accepted (rules.put slot x :: more) items := by
        simp [accepted, placeAll, place, htakes]
      rw [hstep, ih, left, if_pos htakes]
    · rw [left, if_neg htakes]
      have hplace : rules.place (slot :: more) (concerned, x) =
          (rules.place more (concerned || rules.concerns slot.1 x, x)).map (slot :: ·) := by
        rw [place, if_neg htakes]
      unfold accepted placeAll at ih ⊢
      rw [List.foldlM_cons, List.foldlM_cons, hplace]
      cases rules.place more (concerned || rules.concerns slot.1 x, x) with
      | none => rfl
      | some next => exact ih slot next

/-- What a slot with a record does with one item. -/
def leave (s : S) (r : R) (item : Bool × X) : Option (Bool × X) :=
  if rules.takes (s, some r) item.2 then none else some (item.1 || rules.concerns s item.2, item.2)

theorem left_some (s : S) (r : R) (items : List (Bool × X)) :
    rules.left (s, some r) items = items.filterMap (rules.leave s r) := by
  induction items with
  | nil => rfl
  | cons item items ih =>
    obtain ⟨concerned, x⟩ := item
    by_cases htakes : rules.takes (s, some r) x = true
    · have hput : rules.put (s, some r) x = (s, some r) := rfl
      have hleave : rules.leave s r (concerned, x) = none := if_pos htakes
      rw [left, if_pos htakes, hput, ih, List.filterMap_cons_none hleave]
    · have hleave : rules.leave s r (concerned, x) =
          some (concerned || rules.concerns s x, x) := if_neg htakes
      rw [left, if_neg htakes, ih, List.filterMap_cons_some hleave]

/-- An item that an empty slot does not take is not taken with a record either. -/
theorem leave_of_not_takes {s : S} {item : Bool × X}
    (h : rules.takes (s, none) item.2 = false) (r : R) :
    rules.leave s r item = some (item.1 || rules.concerns s item.2, item.2) := by
  apply if_neg
  simp only [takes, Option.all_none, Bool.and_true] at h
  simp [takes, h]

/-- An empty slot passes on all items if it takes none of them. Otherwise it behaves
like a slot that has the record of the first one it takes. -/
theorem left_none (s : S) (items : List (Bool × X)) :
    ((∀ item ∈ items, rules.takes (s, none) item.2 = false) ∧
      rules.left (s, none) items =
        items.map fun item => (item.1 || rules.concerns s item.2, item.2)) ∨
    ∃ seed rest, items.Perm (seed :: rest) ∧ rules.takes (s, none) seed.2 = true ∧
      rules.left (s, none) items = rules.left (s, some (rules.record seed.2)) rest := by
  induction items with
  | nil =>
    left
    refine ⟨?_, rfl⟩
    intro item hitem
    exact absurd hitem List.not_mem_nil
  | cons item items ih =>
    obtain ⟨concerned, x⟩ := item
    by_cases htakes : rules.takes (s, none) x = true
    · right
      refine ⟨(concerned, x), items, .refl _, htakes, ?_⟩
      rw [left, if_pos htakes]
      rfl
    · have hfalse : rules.takes (s, none) x = false := Bool.eq_false_iff.mpr htakes
      rw [left, if_neg htakes]
      rcases ih with ⟨hnone, hleft⟩ | ⟨seed, rest, hperm, hseed, hleft⟩
      · left
        refine ⟨List.forall_mem_cons.mpr ⟨hfalse, hnone⟩, ?_⟩
        rw [hleft, List.map_cons]
      · right
        refine ⟨seed, (concerned, x) :: rest, ?_, hseed, ?_⟩
        · exact (hperm.cons _).trans (.swap _ _ _)
        · have hleave : rules.leave s (rules.record seed.2) (concerned, x) = _ :=
            rules.leave_of_not_takes hfalse (rules.record seed.2)
          rw [hleft, left_some, left_some, List.filterMap_cons_some hleave]

/-- The verdicts that the choices of the items that come first in the empty slots allow. -/
inductive Verdict : List (Slot S R) → List (Bool × X) → Bool → Prop
  | done (items) : Verdict [] items (items.all fun item => !item.1)
  | recorded {s r more items verdict} :
      Verdict more (items.filterMap (rules.leave s r)) verdict →
        Verdict ((s, some r) :: more) items verdict
  | unused {s more items verdict} :
      (∀ item ∈ items, rules.takes (s, none) item.2 = false) →
        Verdict more (items.map fun item => (item.1 || rules.concerns s item.2, item.2)) verdict →
          Verdict ((s, none) :: more) items verdict
  | seeded {s more items verdict} (seed rest) : items.Perm (seed :: rest) →
      rules.takes (s, none) seed.2 = true →
        Verdict more (rest.filterMap (rules.leave s (rules.record seed.2))) verdict →
          Verdict ((s, none) :: more) items verdict

variable {rules}

variable {items : List (Bool × X)} {slots : List (Slot S R)}

theorem Verdict.perm {verdict : Bool} (h : rules.Verdict slots items verdict)
    {order : List (Bool × X)} (hperm : order.Perm items) : rules.Verdict slots order verdict := by
  induction h generalizing order with
  | done items =>
    rw [← hperm.all_eq]
    exact .done order
  | recorded _ ih => exact .recorded (ih (hperm.filterMap _))
  | unused hnone _ ih =>
    refine .unused ?_ (ih (hperm.map _))
    intro item hitem
    exact hnone item (hperm.subset hitem)
  | seeded seed rest hfirst htakes _ ih =>
    exact .seeded seed rest (hperm.trans hfirst) htakes (ih (.refl _))

theorem verdict_accepted (slots : List (Slot S R)) (items : List (Bool × X)) :
    rules.Verdict slots items (rules.accepted slots items) := by
  induction slots generalizing items with
  | nil =>
    rw [accepted_nil]
    exact .done items
  | cons slot more ih =>
    obtain ⟨s, record⟩ := slot
    rw [accepted_cons]
    cases record with
    | some r =>
      rw [left_some]
      exact .recorded (ih _)
    | none =>
      rcases rules.left_none s items with ⟨hnone, hleft⟩ | ⟨seed, rest, hperm, htakes, hleft⟩
      · rw [hleft]
        exact .unused hnone (ih _)
      · rw [hleft, left_some]
        exact .seeded seed rest hperm htakes (ih _)

theorem Verdict.exists_order {verdict : Bool} (h : rules.Verdict slots items verdict) :
    ∃ order : List (Bool × X), order.Perm items ∧ rules.accepted slots order = verdict := by
  induction h with
  | done items => exact ⟨items, .refl items, rules.accepted_nil items⟩
  | recorded _ ih =>
    obtain ⟨target, htarget, hverdict⟩ := ih
    obtain ⟨order, horder, rfl⟩ := exists_perm_of_filterMap_perm htarget
    refine ⟨order, horder, ?_⟩
    rw [accepted_cons, left_some, hverdict]
  | @unused s more items verdict hnone _ ih =>
    obtain ⟨target, htarget, hverdict⟩ := ih
    rw [← List.filterMap_eq_map] at htarget
    obtain ⟨order, horder, rfl⟩ := exists_perm_of_filterMap_perm htarget
    refine ⟨order, horder, ?_⟩
    rw [accepted_cons]
    rcases rules.left_none s order with ⟨_, hleft⟩ | ⟨seed, rest, hperm, htakes, _⟩
    · rw [hleft, ← hverdict, List.filterMap_eq_map]
    · have hseed : seed ∈ items := (hperm.symm.trans horder).subset List.mem_cons_self
      rw [hnone seed hseed] at htakes
      exact absurd htakes Bool.false_ne_true
  | @seeded s more items verdict seed rest hfirst htakes _ ih =>
    obtain ⟨target, htarget, hverdict⟩ := ih
    obtain ⟨order, horder, rfl⟩ := exists_perm_of_filterMap_perm htarget
    refine ⟨seed :: order, (horder.cons seed).trans hfirst.symm, ?_⟩
    obtain ⟨concerned, x⟩ := seed
    have hput : rules.put (s, none) x = (s, some (rules.record x)) := rfl
    rw [accepted_cons, left, if_pos htakes, hput, left_some, hverdict]

/-- The order of arrival does not matter exactly if the choices of the items that come
first in the empty slots do not. -/
theorem order_free_iff :
    (∀ order, order.Perm items → rules.accepted slots order = rules.accepted slots items) ↔
      ∀ v w, rules.Verdict slots items v → rules.Verdict slots items w → v = w := by
  constructor
  · intro hfree v w hv hw
    obtain ⟨first, hfirst, rfl⟩ := hv.exists_order
    obtain ⟨second, hsecond, rfl⟩ := hw.exists_order
    rw [hfree first hfirst, hfree second hsecond]
  · intro hsame order horder
    apply hsame
    · exact (verdict_accepted slots order).perm horder.symm
    · exact verdict_accepted slots items

/-- The order of arrival does not matter for slots that all have a record. -/
theorem accepted_perm_of_recorded (hslots : ∀ slot ∈ slots, slot.2 ≠ none)
    {order : List (Bool × X)} (h : order.Perm items) :
    rules.accepted slots order = rules.accepted slots items := by
  induction slots generalizing order items with
  | nil => rw [accepted_nil, accepted_nil, h.all_eq]
  | cons slot more ih =>
    obtain ⟨hslot, hmore⟩ := List.forall_mem_cons.mp hslots
    obtain ⟨s, record⟩ := slot
    cases record with
    | none => exact absurd rfl hslot
    | some r =>
      rw [accepted_cons, accepted_cons, left_some, left_some]
      exact ih hmore (h.filterMap _)

/-- Two items that each agree with the record of the other one. -/
def Compatible (rules : FirstCome S X R) (s : S) (x y : X) : Prop :=
  rules.agrees s (rules.record x) y = true ∧ rules.agrees s (rules.record y) x = true

/-- A single empty slot accepts every order of arrival exactly if the items that concern it
all fit and are compatible in pairs. -/
theorem accepted_single_iff (s : S) (xs : List X) :
    (∀ order : List X, order.Perm xs → rules.accepted [(s, none)] (order.map (false, ·)) = true) ↔
      (∀ x ∈ xs, rules.concerns s x = true → rules.fits s x = true) ∧
        (xs.filter (rules.concerns s)).Pairwise (rules.Compatible s) := by
  have hread (x : X) (rest : List X) : rules.accepted [(s, none)] ((x :: rest).map (false, ·)) =
      (rules.left (s, none) ((false, x) :: rest.map (false, ·))).all fun item => !item.1 := by
    rw [accepted_cons, accepted_nil, List.map_cons]
  -- an item that comes first is compared with all that concern the slot
  have hfirst (x : X) (rest : List X) (hx : rules.takes (s, none) x = true) :
      rules.accepted [(s, none)] ((x :: rest).map (false, ·)) = true ↔
        ∀ y ∈ rest, rules.concerns s y = true →
          rules.fits s y = true ∧ rules.agrees s (rules.record x) y = true := by
    have hput : rules.put (s, none) x = (s, some (rules.record x)) := rfl
    rw [hread, left, if_pos hx, hput, left_some]
    simp only [List.all_filterMap, List.all_map, List.all_eq_true, leave, takes, Function.comp]
    refine forall₂_congr fun y _ => ?_
    grind
  constructor
  · intro hall
    have hfits : ∀ x ∈ xs, rules.concerns s x = true → rules.fits s x = true := by
      intro x hx hconcerns
      by_contra hmisfit
      obtain ⟨rest, hrest⟩ := (List.singleton_sublist.mpr hx).exists_perm_append
      have haccepted := hall (x :: rest) hrest.symm
      rw [hread, left, if_neg (by simp [takes, hmisfit])] at haccepted
      simp [hconcerns] at haccepted
    refine ⟨hfits, List.pairwise_iff_forall_sublist.mpr ?_⟩
    intro x y hsub
    have hmem {z : X} (hz : z ∈ [x, y]) : rules.concerns s z = true ∧ rules.fits s z = true := by
      obtain ⟨hz, hconcerns⟩ := List.mem_filter.mp (hsub.subset hz)
      exact ⟨hconcerns, hfits z hz hconcerns⟩
    have hx := hmem (z := x) (by simp)
    have hy := hmem (z := y) (by simp)
    obtain ⟨rest, hrest⟩ := (hsub.trans List.filter_sublist).exists_perm_append
    have hxy := hall (x :: y :: rest) hrest.symm
    have hyx := hall (y :: x :: rest) ((List.Perm.swap x y rest).trans hrest.symm)
    rw [hfirst x _ (by simp [takes, hx])] at hxy
    rw [hfirst y _ (by simp [takes, hy])] at hyx
    exact ⟨(hxy y (by simp) hy.1).2, (hyx x (by simp) hx.1).2⟩
  · rintro ⟨hfits, hpairs⟩ order horder
    have hpairs := (List.Perm.pairwise_iff (R := rules.Compatible s) (fun h => ⟨h.2, h.1⟩)
      (horder.filter _)).mpr hpairs
    have hfits : ∀ x ∈ order, rules.concerns s x = true → rules.fits s x = true :=
      fun x hx => hfits x (horder.subset hx)
    clear horder
    induction order with
    | nil => rfl
    | cons x order ih =>
      obtain ⟨hx, hrest⟩ := List.forall_mem_cons.mp hfits
      cases hconcerns : rules.concerns s x with
      | false =>
        rw [List.filter_cons_of_neg (by simp [hconcerns])] at hpairs
        have haccepted := ih hpairs hrest
        rw [accepted_cons, accepted_nil] at haccepted
        rw [hread, left, if_neg (by simp [takes, hconcerns])]
        simpa [hconcerns] using haccepted
      | true =>
        rw [List.filter_cons_of_pos hconcerns, List.pairwise_cons] at hpairs
        rw [hfirst x order (by simp [takes, hconcerns, hx hconcerns])]
        intro y hy hy'
        exact ⟨hrest y hy hy', (hpairs.1 y (List.mem_filter.mpr ⟨hy, hy'⟩)).1⟩

end FirstCome

end NriSupplyChain.Lib
