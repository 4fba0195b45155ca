import NriSupplyChain.Lib.BinaryHeap

/-!
The expiry heap of the result cache. A heap entry is reached both through the
heap and through the heap index of the cache, and exchanging two positions
writes the position into the entries, so entries live in cells and the heap is
a list of pointers.
-/

namespace NriSupplyChain.Cache

open Lib

/-- A Go string: a sequence of bytes. -/
abbrev GoString := List UInt8

structure Key where
  digest : GoString
  nameSpace : GoString
deriving DecidableEq, Repr

structure HeapEntry where
  cacheKey : Key
  expiresAt : Int
  index : Int
deriving DecidableEq, Repr

structure ExpiryHeap where
  cells : Nat → HeapEntry
  expHeap : List Nat
  /-- The first pointer that was never allocated. -/
  next : Nat

namespace ExpiryHeap

def setIndex (cells : Nat → HeapEntry) (p : Nat) (index : Int) : Nat → HeapEntry :=
  Function.update cells p { cells p with index := index }

@[simp] theorem setIndex_cacheKey (cells : Nat → HeapEntry) (p : Nat) (index : Int) (q : Nat) :
    (setIndex cells p index q).cacheKey = (cells q).cacheKey := by
  by_cases h : q = p
  · subst h
    simp [setIndex]
  · simp [setIndex, Function.update_of_ne h]

@[simp] theorem setIndex_expiresAt (cells : Nat → HeapEntry) (p : Nat) (index : Int) (q : Nat) :
    (setIndex cells p index q).expiresAt = (cells q).expiresAt := by
  by_cases h : q = p
  · subst h
    simp [setIndex]
  · simp [setIndex, Function.update_of_ne h]

@[simp] theorem setIndex_self (cells : Nat → HeapEntry) (p : Nat) (index : Int) :
    (setIndex cells p index p).index = index := by
  simp [setIndex]

variable {p : Nat}

theorem setIndex_of_ne {cells : Nat → HeapEntry} {q : Nat} (h : q ≠ p) (index : Int) :
    setIndex cells p index q = cells q :=
  Function.update_of_ne h _ cells

def len (h : ExpiryHeap) : Nat := h.expHeap.length

/-- The expiry at a position. The heap algorithms ask for positions of the heap
only. -/
def expiresAt (h : ExpiryHeap) (i : Nat) : Int :=
  match h.expHeap[i]? with
  | some p => (h.cells p).expiresAt
  | none => 0

def swap (h : ExpiryHeap) (i j : Nat) : ExpiryHeap :=
  match h.expHeap[i]?, h.expHeap[j]? with
  | some p, some q =>
    { h with
      expHeap := (h.expHeap.set i q).set j p
      cells := setIndex (setIndex h.cells q i) p j }
  | _, _ => h

variable {h : ExpiryHeap} {i j : Nat}

theorem swap_eq {q : Nat} (hi : h.expHeap[i]? = some p) (hj : h.expHeap[j]? = some q) :
    h.swap i j = { h with
      expHeap := (h.expHeap.set i q).set j p
      cells := setIndex (setIndex h.cells q i) p j } := by
  simp [swap, hi, hj]

theorem exists_pointer (hi : i < h.len) : ∃ p, h.expHeap[i]? = some p :=
  ⟨h.expHeap.get ⟨i, hi⟩, List.getElem?_eq_getElem hi⟩

theorem swap_getElem? (hi : i < h.len) (hj : j < h.len) (k : Nat) :
    (h.swap i j).expHeap[k]? = h.expHeap[Equiv.swap i j k]? := by
  obtain ⟨p, hp⟩ := exists_pointer hi
  obtain ⟨q, hq⟩ := exists_pointer hj
  unfold len at hi hj
  rw [swap_eq hp hq]
  by_cases hkj : k = j
  · subst hkj
    simp [hj, hp]
  · by_cases hki : k = i
    · subst hki
      simp [Ne.symm hkj, hi, hq]
    · simp [Ne.symm hkj, Ne.symm hki, Equiv.swap_apply_of_ne_of_ne hki hkj]

theorem swap_expiresAt_cell (h : ExpiryHeap) (i j p : Nat) :
    ((h.swap i j).cells p).expiresAt = (h.cells p).expiresAt := by
  unfold swap
  split <;> simp

theorem swap_cacheKey_cell (h : ExpiryHeap) (i j p : Nat) :
    ((h.swap i j).cells p).cacheKey = (h.cells p).cacheKey := by
  unfold swap
  split <;> simp

theorem swap_len (h : ExpiryHeap) (i j : Nat) : (h.swap i j).len = h.len := by
  unfold swap len
  split <;> simp

/-- What the heap algorithms see of the expiry heap. -/
def view : HeapView ExpiryHeap Int where
  len := len
  key := expiresAt
  swap := swap
  len_swap := fun h i j _ _ => swap_len h i j
  key_swap := by
    intro h i j hi hj k
    simp only [expiresAt, swap_getElem? hi hj, swap_expiresAt_cell]

/-- Every entry of the heap records its real position. -/
def WellPlaced (h : ExpiryHeap) : Prop :=
  ∀ i p : Nat, h.expHeap[i]? = some p → (h.cells p).index = i

/-- The heap is ordered by expiry. -/
def Ordered (h : ExpiryHeap) : Prop :=
  HeapView.OrderedTo h.expiresAt h.len

theorem WellPlaced.position_unique (hw : h.WellPlaced) (hi : h.expHeap[i]? = some p)
    (hj : h.expHeap[j]? = some p) : i = j := by
  have heq := (hw i p hi).symm.trans (hw j p hj)
  omega

theorem swap_wellPlaced (hw : h.WellPlaced) (hi : i < h.len) (hj : j < h.len) :
    (h.swap i j).WellPlaced := by
  obtain ⟨p, hp⟩ := exists_pointer hi
  obtain ⟨q, hq⟩ := exists_pointer hj
  intro k r hk
  rw [swap_getElem? hi hj] at hk
  rw [swap_eq hp hq]
  dsimp only
  by_cases hkj : k = j
  · subst hkj
    rw [Equiv.swap_apply_right, hp] at hk
    cases hk
    simp
  · have hrp : r ≠ p := by
      rintro rfl
      have hpos := hw.position_unique hk hp
      rw [Equiv.swap_apply_eq_iff, Equiv.swap_apply_left] at hpos
      exact hkj hpos
    rw [setIndex_of_ne hrp]
    by_cases hki : k = i
    · subst hki
      rw [Equiv.swap_apply_left, hq] at hk
      cases hk
      simp
    · rw [Equiv.swap_apply_of_ne_of_ne hki hkj] at hk
      have hrq : r ≠ q := by
        rintro rfl
        exact hkj (hw.position_unique hk hq)
      rw [setIndex_of_ne hrq]
      exact hw k r hk

/-- The heap algorithms rearrange entries: the same entries, well placed, with
positions from `n` on as they were. -/
structure Rearranged (n : Nat) (s t : ExpiryHeap) : Prop where
  mem : ∀ p, p ∈ t.expHeap ↔ p ∈ s.expHeap
  length : t.len = s.len
  cacheKey : ∀ p, (t.cells p).cacheKey = (s.cells p).cacheKey
  expiresAt : ∀ p, (t.cells p).expiresAt = (s.cells p).expiresAt
  frame : ∀ p, p ∉ s.expHeap → t.cells p = s.cells p
  next : t.next = s.next
  beyond : ∀ k, n ≤ k → t.expHeap[k]? = s.expHeap[k]?
  placed : t.WellPlaced

variable {s : ExpiryHeap}

theorem Rearranged.refl (n : Nat) (hs : s.WellPlaced) : Rearranged n s s where
  mem := fun _ => Iff.rfl
  length := rfl
  cacheKey := fun _ => rfl
  expiresAt := fun _ => rfl
  frame := fun _ _ => rfl
  next := rfl
  beyond := fun _ _ => rfl
  placed := hs

theorem mem_swap (hi : i < h.len) (hj : j < h.len) (p : Nat) :
    p ∈ (h.swap i j).expHeap ↔ p ∈ h.expHeap := by
  simp only [List.mem_iff_getElem?, swap_getElem? hi hj]
  constructor
  · rintro ⟨k, hk⟩
    exact ⟨_, hk⟩
  · rintro ⟨k, hk⟩
    exact ⟨Equiv.swap i j k, by simpa using hk⟩

theorem swap_frame (hi : i < h.len) (hj : j < h.len) (hp : p ∉ h.expHeap) :
    (h.swap i j).cells p = h.cells p := by
  obtain ⟨q, hq⟩ := exists_pointer hi
  obtain ⟨r, hr⟩ := exists_pointer hj
  have hpq : p ≠ q := fun heq => hp (heq ▸ List.mem_of_getElem? hq)
  have hpr : p ≠ r := fun heq => hp (heq ▸ List.mem_of_getElem? hr)
  rw [swap_eq hq hr]
  dsimp only
  rw [setIndex_of_ne hpq, setIndex_of_ne hpr]

variable {n : Nat}

theorem Rearranged.swap {t : ExpiryHeap} (h : Rearranged n s t) (hn : n ≤ s.len) (hi : i < n)
    (hj : j < n) : Rearranged n s (t.swap i j) := by
  have hlen := h.length
  have hi' : i < t.len := by omega
  have hj' : j < t.len := by omega
  constructor
  · intro p
    rw [mem_swap hi' hj', h.mem]
  · rw [swap_len, h.length]
  · intro p
    rw [swap_cacheKey_cell, h.cacheKey]
  · intro p
    rw [swap_expiresAt_cell, h.expiresAt]
  · intro p hp
    rw [swap_frame hi' hj' (fun hmem => hp ((h.mem p).mp hmem)), h.frame p hp]
  · rw [← h.next]
    unfold ExpiryHeap.swap
    split <;> rfl
  · intro k hk
    rw [swap_getElem? hi' hj', Equiv.swap_apply_of_ne_of_ne (by omega) (by omega), h.beyond k hk]
  · exact swap_wellPlaced h.placed hi' hj'

theorem rearranged_stable (hn : n ≤ s.len) : view.Stable n (Rearranged n s) :=
  fun _ _ _ ht hi hj => ht.swap hn hi hj

/-- `expiryHeap.Push` of a new entry. -/
def append (h : ExpiryHeap) (cacheKey : Key) (expiresAt : Int) : ExpiryHeap where
  cells := Function.update h.cells h.next ⟨cacheKey, expiresAt, h.len⟩
  expHeap := h.expHeap ++ [h.next]
  next := h.next + 1

/-- `expiryHeap.Pop`. -/
def popLast (h : ExpiryHeap) : Option (Nat × ExpiryHeap) :=
  match h.expHeap.getLast? with
  | some p => some (p, { h with
      cells := setIndex h.cells p (-1)
      expHeap := h.expHeap.dropLast })
  | none => none

/-- `heap.Push` with a fresh entry. -/
def heapPush (h : ExpiryHeap) (cacheKey : Key) (expiresAt : Int) : ExpiryHeap :=
  view.pushed (h.append cacheKey expiresAt)

def heapPop (h : ExpiryHeap) : Option (Nat × ExpiryHeap) := (view.popReady h).popLast

def heapRemove (h : ExpiryHeap) (i : Nat) : Option (Nat × ExpiryHeap) :=
  (view.removeReady h i).popLast

/-- A new expiry for the entry at pointer `p`, and `heap.Fix` at its position. -/
def heapFix (h : ExpiryHeap) (p : Nat) (expiresAt : Int) : ExpiryHeap :=
  view.fix { h with cells := Function.update h.cells p { h.cells p with expiresAt := expiresAt } }
    (h.cells p).index.toNat

/-- Positions are real, the order holds, and only allocated pointers occur. -/
structure Valid (h : ExpiryHeap) : Prop where
  placed : h.WellPlaced
  ordered : h.Ordered
  allocated : ∀ p ∈ h.expHeap, p < h.next

theorem Rearranged.trans {m : Nat} {t u : ExpiryHeap} (hst : Rearranged m s t)
    (htu : Rearranged n t u) (hnm : n ≤ m) : Rearranged m s u where
  mem := fun p => (htu.mem p).trans (hst.mem p)
  length := htu.length.trans hst.length
  cacheKey := fun p => (htu.cacheKey p).trans (hst.cacheKey p)
  expiresAt := fun p => (htu.expiresAt p).trans (hst.expiresAt p)
  frame := fun p hp =>
    (htu.frame p (fun hmem => hp ((hst.mem p).mp hmem))).trans (hst.frame p hp)
  next := htu.next.trans hst.next
  beyond := fun k hk => (htu.beyond k (hnm.trans hk)).trans (hst.beyond k hk)
  placed := htu.placed

/-- The heap without the entry at pointer `p`, which is marked as popped. -/
structure Dropped (h : ExpiryHeap) (p : Nat) (t : ExpiryHeap) : Prop where
  valid : t.Valid
  mem : ∀ q, q ∈ t.expHeap ↔ q ∈ h.expHeap ∧ q ≠ p
  length : t.len + 1 = h.len
  index : (t.cells p).index = -1
  cacheKey : ∀ q, (t.cells q).cacheKey = (h.cells q).cacheKey
  expiresAt : ∀ q, (t.cells q).expiresAt = (h.cells q).expiresAt
  frame : ∀ q, q ∉ h.expHeap → t.cells q = h.cells q
  next : t.next = h.next

/-- `expiryHeap.Pop` after the algorithm has moved pointer `p` to the end. -/
theorem popLast_spec {u : ExpiryHeap} {m : Nat} (hallocated : ∀ q ∈ h.expHeap, q < h.next)
    (hu : Rearranged m h u) (hordered : HeapView.OrderedTo u.expiresAt (u.len - 1))
    (hlast : u.expHeap[u.len - 1]? = some p) : ∃ t, u.popLast = some (p, t) ∧ Dropped h p t := by
  have hget : u.expHeap.getLast? = some p := by
    rw [List.getLast?_eq_getElem?]
    exact hlast
  have hdrop : ∀ k q, u.expHeap.dropLast[k]? = some q →
      k < u.len - 1 ∧ u.expHeap[k]? = some q := by
    intro k q hk
    rw [List.getElem?_dropLast] at hk
    split at hk
    · next hlt => exact ⟨hlt, hk⟩
    · cases hk
  have hne {k q : Nat} (hk : k < u.len - 1) (hq : u.expHeap[k]? = some q) : q ≠ p := by
    rintro rfl
    have heq := hu.placed.position_unique hq hlast
    omega
  have hpop : u.popLast = some (p, { u with
      cells := setIndex u.cells p (-1), expHeap := u.expHeap.dropLast }) := by
    simp only [popLast, hget]
  refine ⟨_, hpop, ?_⟩
  have hmem : ∀ q, q ∈ u.expHeap.dropLast ↔ q ∈ h.expHeap ∧ q ≠ p := by
    intro q
    rw [← hu.mem q]
    constructor
    · intro hq
      obtain ⟨k, hk⟩ := List.mem_iff_getElem?.mp hq
      obtain ⟨hlt, hk⟩ := hdrop k q hk
      exact ⟨List.mem_of_getElem? hk, hne hlt hk⟩
    · rintro ⟨hq, hqp⟩
      obtain ⟨k, hk⟩ := List.mem_iff_getElem?.mp hq
      have hlt : k < u.len := (List.getElem?_eq_some_iff.mp hk).1
      have hkl : k ≠ u.len - 1 := by
        rintro rfl
        rw [hlast] at hk
        exact hqp (Option.some.inj hk).symm
      have hkeep : u.expHeap.dropLast[k]? = some q := by
        have hlt' : k < u.expHeap.length - 1 := by
          unfold len at hlt hkl
          omega
        rw [List.getElem?_dropLast, if_pos hlt']
        exact hk
      exact List.mem_of_getElem? hkeep
  constructor
  · constructor
    · intro k q hk
      obtain ⟨hlt, hk⟩ := hdrop k q hk
      dsimp only
      rw [setIndex_of_ne (hne hlt hk)]
      exact hu.placed k q hk
    · intro k hpos hk
      have hk' : k < u.len - 1 := by simpa [len] using hk
      have hparent := HeapView.parent_lt hpos
      have hsame (i : Nat) (hi : i < u.len - 1) :
          expiresAt { u with
            cells := setIndex u.cells p (-1), expHeap := u.expHeap.dropLast } i =
              u.expiresAt i := by
        unfold len at hi
        simp only [expiresAt, List.getElem?_dropLast, if_pos hi, setIndex_expiresAt]
      rw [hsame k hk', hsame _ (by omega)]
      exact hordered k hpos hk'
    · intro q hq
      dsimp only
      rw [hu.next]
      exact hallocated q ((hmem q).mp hq).1
  · exact hmem
  · have hpos : 0 < u.expHeap.length := List.length_pos_of_mem (List.mem_of_getElem? hlast)
    rw [← hu.length]
    simp only [len, List.length_dropLast]
    omega
  · simp
  · intro q
    simp [hu.cacheKey q]
  · intro q
    simp [hu.expiresAt q]
  · intro q hq
    have hp : p ∈ h.expHeap := (hu.mem p).mp (List.mem_of_getElem? hlast)
    have hqp : q ≠ p := fun heq => hq (heq ▸ hp)
    dsimp only
    rw [setIndex_of_ne hqp, hu.frame q hq]
  · exact hu.next

/-- The pointer at position `i`, exchanged with the last one. -/
theorem swap_last_spec (hv : h.Valid) (hi : h.expHeap[i]? = some p) :
    Rearranged h.len h (h.swap i (h.len - 1)) ∧
      (h.swap i (h.len - 1)).expHeap[h.len - 1]? = some p := by
  have hlt : i < h.len := (List.getElem?_eq_some_iff.mp hi).1
  refine ⟨(Rearranged.refl h.len hv.placed).swap (Nat.le_refl _) hlt (by omega), ?_⟩
  rw [swap_getElem? hlt (by omega), Equiv.swap_apply_right]
  exact hi

theorem heapPop_spec (hv : h.Valid) (hp : h.expHeap[0]? = some p) :
    ∃ t, h.heapPop = some (p, t) ∧ Dropped h p t := by
  have hpos : 0 < h.len := (List.getElem?_eq_some_iff.mp hp).1
  obtain ⟨hswap, hlast⟩ := swap_last_spec hv hp
  have hstable : view.Stable (h.len - 1) (Rearranged (h.len - 1) (h.swap 0 (h.len - 1))) :=
    rearranged_stable (by rw [swap_len]; omega)
  have hdown : Rearranged (h.len - 1) (h.swap 0 (h.len - 1)) (view.popReady h) :=
    hstable.down (Rearranged.refl _ hswap.placed)
  have hready := hswap.trans hdown (Nat.sub_le _ 1)
  have hordered := HeapView.popReady_ordered (v := view) hv.ordered hpos
  apply popLast_spec hv.allocated hready
  · rw [hready.length]
    exact hordered
  · rw [hready.length, hdown.beyond _ (Nat.le_refl _)]
    exact hlast

theorem heapRemove_spec (hv : h.Valid) (hp : h.expHeap[i]? = some p) :
    ∃ t, h.heapRemove i = some (p, t) ∧ Dropped h p t := by
  have hlt : i < h.len := (List.getElem?_eq_some_iff.mp hp).1
  have hordered := HeapView.removeReady_ordered (v := view) hv.ordered hlt
  have hready : Rearranged h.len h (view.removeReady h i) ∧
      (view.removeReady h i).expHeap[h.len - 1]? = some p := by
    unfold HeapView.removeReady
    by_cases hend : h.len - 1 = i
    · rw [if_neg (by simpa [view] using hend), hend]
      exact ⟨Rearranged.refl _ hv.placed, hp⟩
    · rw [if_pos (show view.len h - 1 ≠ i from hend)]
      obtain ⟨hswap, hlast⟩ := swap_last_spec hv hp
      have hstable : view.Stable (h.len - 1)
          (Rearranged (h.len - 1) (h.swap i (h.len - 1))) :=
        rearranged_stable (by rw [swap_len]; omega)
      have hsettle := hstable.settle (i := i) (Rearranged.refl _ hswap.placed) (by omega)
      exact ⟨hswap.trans hsettle (Nat.sub_le _ 1),
        (hsettle.beyond _ (Nat.le_refl _)).trans hlast⟩
  apply popLast_spec hv.allocated hready.1
  · rw [hready.1.length]
    exact hordered
  · rw [hready.1.length]
    exact hready.2

/-- The heap with one more entry, at the pointer that was free. -/
structure Pushed (h : ExpiryHeap) (cacheKey : Key) (expiresAt : Int) (t : ExpiryHeap) : Prop where
  valid : t.Valid
  mem : ∀ q, q ∈ t.expHeap ↔ q ∈ h.expHeap ∨ q = h.next
  new_cacheKey : (t.cells h.next).cacheKey = cacheKey
  new_expiresAt : (t.cells h.next).expiresAt = expiresAt
  old_cacheKey : ∀ q, q ≠ h.next → (t.cells q).cacheKey = (h.cells q).cacheKey
  old_expiresAt : ∀ q, q ≠ h.next → (t.cells q).expiresAt = (h.cells q).expiresAt
  next : t.next = h.next + 1

theorem append_wellPlaced (hv : h.Valid) (cacheKey : Key) (expiresAt : Int) :
    (h.append cacheKey expiresAt).WellPlaced := by
  intro k q hk
  simp only [append, List.getElem?_append] at hk ⊢
  split at hk
  · have hq := hv.allocated q (List.mem_of_getElem? hk)
    rw [Function.update_of_ne (by omega)]
    exact hv.placed k q hk
  · next hge =>
    obtain ⟨hlt, heq⟩ := List.getElem?_eq_some_iff.mp hk
    have hk0 : k = h.expHeap.length := by
      simp only [List.length_singleton] at hlt
      omega
    simp only [hk0, Nat.sub_self, List.getElem_cons_zero] at heq
    subst heq
    rw [Function.update_self]
    simp [len, hk0]

theorem append_ordered (hv : h.Valid) (cacheKey : Key) (expiresAt : Int) :
    HeapView.OrderedTo (h.append cacheKey expiresAt).expiresAt
      ((h.append cacheKey expiresAt).len - 1) := by
  have hlen : (h.append cacheKey expiresAt).len - 1 = h.len := by simp [append, len]
  rw [hlen]
  have hsame (i : Nat) (hi : i < h.len) :
      (h.append cacheKey expiresAt).expiresAt i = h.expiresAt i := by
    obtain ⟨p, hp⟩ := exists_pointer hi
    have hlt := hv.allocated p (List.mem_of_getElem? hp)
    unfold len at hi
    simp only [ExpiryHeap.expiresAt, append, List.getElem?_append_left hi, hp]
    rw [Function.update_of_ne (by omega)]
  intro k hpos hk
  have hparent := HeapView.parent_lt hpos
  rw [hsame k hk, hsame _ (by omega)]
  exact hv.ordered k hpos hk

theorem heapPush_spec (hv : h.Valid) (cacheKey : Key) (expiresAt : Int) :
    Pushed h cacheKey expiresAt (h.heapPush cacheKey expiresAt) := by
  let u := h.append cacheKey expiresAt
  have hpos : 0 < u.len := by simp [u, append, len]
  have hup : Rearranged u.len u (view.pushed u) :=
    (rearranged_stable (s := u) (Nat.le_refl u.len)).up
      (Rearranged.refl _ (append_wellPlaced hv cacheKey expiresAt)) (by
        change u.len - 1 < u.len
        omega)
  have hordered := HeapView.pushed_ordered (v := view) (s := u)
    (append_ordered hv cacheKey expiresAt) hpos
  have hmem : ∀ q, q ∈ (view.pushed u).expHeap ↔ q ∈ h.expHeap ∨ q = h.next := by
    intro q
    rw [hup.mem q]
    simp [u, append]
  constructor
  · constructor
    · exact hup.placed
    · unfold Ordered
      rw [show (h.heapPush cacheKey expiresAt).len = u.len from hup.length]
      exact hordered
    · intro q hq
      have hnext : (h.heapPush cacheKey expiresAt).next = h.next + 1 := hup.next
      rw [hnext]
      rcases (hmem q).mp hq with hold | rfl
      · have hlt := hv.allocated q hold
        omega
      · omega
  · exact hmem
  · exact (hup.cacheKey _).trans (by simp [u, append])
  · exact (hup.expiresAt _).trans (by simp [u, append])
  · intro q hq
    exact (hup.cacheKey q).trans (by simp [u, append, Function.update_of_ne hq])
  · intro q hq
    exact (hup.expiresAt q).trans (by simp [u, append, Function.update_of_ne hq])
  · exact hup.next

/-- The heap with a new expiry for the entry at pointer `p`. -/
structure Fixed (h : ExpiryHeap) (p : Nat) (expiresAt : Int) (t : ExpiryHeap) : Prop where
  valid : t.Valid
  mem : ∀ q, q ∈ t.expHeap ↔ q ∈ h.expHeap
  cacheKey : ∀ q, (t.cells q).cacheKey = (h.cells q).cacheKey
  new_expiresAt : (t.cells p).expiresAt = expiresAt
  old_expiresAt : ∀ q, q ≠ p → (t.cells q).expiresAt = (h.cells q).expiresAt
  next : t.next = h.next

theorem heapFix_spec (hv : h.Valid) (hp : p ∈ h.expHeap) (expiresAt : Int) :
    Fixed h p expiresAt (h.heapFix p expiresAt) := by
  obtain ⟨i, hi⟩ := List.mem_iff_getElem?.mp hp
  have hlt : i < h.len := (List.getElem?_eq_some_iff.mp hi).1
  have hindex : (h.cells p).index.toNat = i := by
    rw [hv.placed i p hi]
    simp
  let u : ExpiryHeap :=
    { h with cells := Function.update h.cells p { h.cells p with expiresAt := expiresAt } }
  have hcell (q : Nat) (hq : q ≠ p) : u.cells q = h.cells q := Function.update_of_ne hq _ _
  have hself : u.cells p = { h.cells p with expiresAt := expiresAt } :=
    Function.update_self p _ h.cells
  have hplaced : u.WellPlaced := by
    intro k q hk
    by_cases hqp : q = p
    · subst hqp
      rw [hself]
      exact hv.placed k q hk
    · rw [hcell q hqp]
      exact hv.placed k q hk
  have hhole : HeapView.HoleReady u.expiresAt h.len i := by
    apply HeapView.OrderedTo.holeReady hv.ordered
    intro k hk hki
    obtain ⟨q, hq⟩ := exists_pointer hk
    have hqp : q ≠ p := by
      rintro rfl
      exact hki (hv.placed.position_unique hq hi)
    have hq' : u.expHeap[k]? = some q := hq
    simp only [ExpiryHeap.expiresAt, hq, hq', hcell q hqp]
  have hfix : Rearranged h.len u (view.fix u i) :=
    (rearranged_stable (s := u) (Nat.le_refl _)).settle (Rearranged.refl _ hplaced) hlt
  have hordered := HeapView.fix_ordered (v := view) (s := u) hhole hlt
  have heq : h.heapFix p expiresAt = view.fix u i := by
    unfold heapFix
    rw [hindex]
  rw [heq]
  constructor
  · constructor
    · exact hfix.placed
    · unfold Ordered
      rw [hfix.length]
      exact hordered
    · intro q hq
      rw [hfix.next]
      exact hv.allocated q ((hfix.mem q).mp hq)
  · exact hfix.mem
  · intro q
    rw [hfix.cacheKey q]
    by_cases hqp : q = p
    · rw [hqp, hself]
    · rw [hcell q hqp]
  · rw [hfix.expiresAt p, hself]
  · intro q hq
    rw [hfix.expiresAt q, hcell q hq]
  · exact hfix.next

end ExpiryHeap

end NriSupplyChain.Cache
