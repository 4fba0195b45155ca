import Mathlib.Logic.Equiv.Basic
import Mathlib.Order.Lattice
import Mathlib.Tactic

/-!
Binary heaps over an abstract container. The heap algorithms see a container
only through its length, the keys at its positions and an exchange of two
positions, as the `heap.Interface` of Go's standard library prescribes. A
container is free to do bookkeeping of its own when it exchanges positions;
the rules at the end say that whatever an exchange preserves, the algorithms
preserve.

The loops count down a bound that their position makes sufficient: a position
is moved up at most as often as its number, and down at most to the end.
-/

namespace NriSupplyChain.Lib

structure HeapView (σ : Type*) (τ : Type*) [LinearOrder τ] where
  len : σ → Nat
  key : σ → Nat → τ
  swap : σ → Nat → Nat → σ
  len_swap : ∀ s i j, i < len s → j < len s → len (swap s i j) = len s
  key_swap : ∀ s i j, i < len s → j < len s →
    ∀ k, key (swap s i j) k = key s (Equiv.swap i j k)

namespace HeapView

def parent (k : Nat) : Nat := (k - 1) / 2

section Order

variable {τ : Type*} [LinearOrder τ] {f : Nat → τ} {n i j : Nat}

/-- The first `n` positions are in heap order. -/
def OrderedTo (f : Nat → τ) (n : Nat) : Prop :=
  ∀ k, 0 < k → k < n → f (parent k) ≤ f k

/-- In order except between `j` and its parent. -/
structure UpReady (f : Nat → τ) (n j : Nat) : Prop where
  off : ∀ k, 0 < k → k < n → k ≠ j → f (parent k) ≤ f k
  grand : 0 < j → ∀ k, 0 < k → k < n → parent k = j → f (parent j) ≤ f k

/-- In order except between `i` and its children. -/
structure DownReady (f : Nat → τ) (n i : Nat) : Prop where
  off : ∀ k, 0 < k → k < n → parent k ≠ i → f (parent k) ≤ f k
  grand : 0 < i → ∀ k, 0 < k → k < n → parent k = i → f (parent i) ≤ f k

/-- In order except around `i`, whose key may be anything. -/
structure HoleReady (f : Nat → τ) (n i : Nat) : Prop where
  off : ∀ k, 0 < k → k < n → k ≠ i → parent k ≠ i → f (parent k) ≤ f k
  grand : 0 < i → ∀ k, 0 < k → k < n → parent k = i → f (parent i) ≤ f k

theorem parent_lt (h : 0 < j) : parent j < j := by
  unfold parent
  omega

theorem OrderedTo.mono (h : OrderedTo f n) {m : Nat} (hm : m ≤ n) : OrderedTo f m :=
  fun k hpos hk => h k hpos (Nat.lt_of_lt_of_le hk hm)

/-- The root of an ordered heap has a least key. -/
theorem OrderedTo.root_le (h : OrderedTo f n) {k : Nat} (hk : k < n) : f 0 ≤ f k := by
  induction k using Nat.strong_induction_on with
  | h k ih =>
    rcases Nat.eq_zero_or_pos k with rfl | hpos
    · exact le_rfl
    · have hparent := parent_lt hpos
      calc f 0 ≤ f (parent k) := ih (parent k) hparent (by omega)
        _ ≤ f k := h k hpos hk

/-- Along two edges of an ordered heap. -/
theorem OrderedTo.grandparent_le (h : OrderedTo f n) {k : Nat} (hpos : 0 < parent k)
    (hk : k < n) : f (parent (parent k)) ≤ f k := by
  have hk0 : 0 < k := by
    unfold parent at hpos
    omega
  have hlt := parent_lt hk0
  exact (h (parent k) hpos (by omega)).trans (h k hk0 hk)

/-- Changing the key at one position leaves a hole there. -/
theorem OrderedTo.holeReady {g : Nat → τ} (h : OrderedTo f n)
    (hg : ∀ k, k < n → k ≠ i → g k = f k) : HoleReady g n i where
  off := by
    intro k hpos hk hki hparent
    have hlt := parent_lt hpos
    rw [hg k hk hki, hg (parent k) (by omega) hparent]
    exact h k hpos hk
  grand := by
    intro hi k hpos hk hparent
    have hlt := parent_lt hpos
    have hlti := parent_lt hi
    rw [hg k hk (by omega), hg (parent i) (by omega) (by omega)]
    have hgrand := h.grandparent_le (k := k) (by omega) hk
    rw [hparent] at hgrand
    exact hgrand

/-- A key added behind an ordered heap. -/
theorem OrderedTo.upReady_last (h : OrderedTo f n) : UpReady f (n + 1) n where
  off := by
    intro k hpos hk hkn
    exact h k hpos (by omega)
  grand := by
    intro _ k hpos hk hparent
    have hlt := parent_lt hpos
    omega

theorem UpReady.ordered (h : UpReady f n j) (hj : 0 < j → f (parent j) ≤ f j) :
    OrderedTo f n := by
  intro k hpos hk
  by_cases hkj : k = j
  · subst hkj
    exact hj hpos
  · exact h.off k hpos hk hkj

/-- Exchanging a key with its larger parent moves the defect up. -/
theorem UpReady.step (h : UpReady f n j) (hj : 0 < j) (hjn : j < n)
    (hlt : f j < f (parent j)) :
    UpReady (fun k => f (Equiv.swap (parent j) j k)) n (parent j) := by
  have hpj := parent_lt hj
  constructor
  · intro k hpos hk hkp
    have hkparent := parent_lt hpos
    by_cases hkj : k = j
    · subst hkj
      simpa using hlt.le
    · rw [Equiv.swap_apply_of_ne_of_ne hkp hkj]
      by_cases hparentj : parent k = j
      · rw [hparentj, Equiv.swap_apply_right]
        exact h.grand hj k hpos hk hparentj
      · by_cases hparentp : parent k = parent j
        · rw [hparentp, Equiv.swap_apply_left]
          have hold := h.off k hpos hk hkj
          rw [hparentp] at hold
          exact hlt.le.trans hold
        · rw [Equiv.swap_apply_of_ne_of_ne hparentp hparentj]
          exact h.off k hpos hk hkj
  · intro hp k hpos hk hparent
    have hkparent := parent_lt hpos
    have hpp := parent_lt hp
    have hedge := h.off (parent j) hp (by omega) (by omega)
    rw [Equiv.swap_apply_of_ne_of_ne (by omega) (by omega)]
    by_cases hkj : k = j
    · subst hkj
      rw [Equiv.swap_apply_right]
      exact hedge
    · rw [Equiv.swap_apply_of_ne_of_ne (by omega) hkj]
      have hold := h.off k hpos hk hkj
      rw [hparent] at hold
      exact hedge.trans hold

theorem DownReady.ordered (h : DownReady f n i)
    (hi : ∀ k, 0 < k → k < n → parent k = i → f i ≤ f k) : OrderedTo f n := by
  intro k hpos hk
  by_cases hparent : parent k = i
  · rw [hparent]
    exact hi k hpos hk hparent
  · exact h.off k hpos hk hparent

theorem HoleReady.upReady (h : HoleReady f n i)
    (hi : ∀ k, 0 < k → k < n → parent k = i → f i ≤ f k) : UpReady f n i where
  off := by
    intro k hpos hk hki
    by_cases hparent : parent k = i
    · rw [hparent]
      exact hi k hpos hk hparent
    · exact h.off k hpos hk hki hparent
  grand := h.grand

theorem HoleReady.downReady_root (h : HoleReady f n 0) : DownReady f n 0 where
  off := fun k hpos hk hparent => h.off k hpos hk (by omega) hparent
  grand := fun hpos => absurd hpos (Nat.lt_irrefl 0)

theorem DownReady.holeReady (h : DownReady f n i) : HoleReady f n i :=
  ⟨fun k hpos hk _ hparent => h.off k hpos hk hparent, h.grand⟩

/-- Exchanging a key with a least child moves the defect down. -/
theorem HoleReady.step (h : HoleReady f n i) (hj : 0 < j) (hjn : j < n)
    (hparent : parent j = i) (hlt : f j < f i)
    (hleast : ∀ k, 0 < k → k < n → parent k = i → f j ≤ f k) :
    DownReady (fun k => f (Equiv.swap i j k)) n j := by
  have hij : i < j := hparent ▸ parent_lt hj
  constructor
  · intro k hpos hk hkparent
    have hklt := parent_lt hpos
    by_cases hkj : k = j
    · subst hkj
      rw [hparent, Equiv.swap_apply_left, Equiv.swap_apply_right]
      exact hlt.le
    · by_cases hki : k = i
      · subst hki
        rw [Equiv.swap_apply_left, Equiv.swap_apply_of_ne_of_ne (by omega) (by omega)]
        exact h.grand hpos j hj hjn hparent
      · rw [Equiv.swap_apply_of_ne_of_ne hki hkj]
        by_cases hparenti : parent k = i
        · rw [hparenti, Equiv.swap_apply_left]
          exact hleast k hpos hk hparenti
        · rw [Equiv.swap_apply_of_ne_of_ne hparenti hkparent]
          exact h.off k hpos hk hki hparenti
  · intro _ k hpos hk hkparent
    have hklt := parent_lt hpos
    rw [hparent, Equiv.swap_apply_left, Equiv.swap_apply_of_ne_of_ne (by omega) (by omega)]
    have hold := h.off k hpos hk (by omega) (by omega)
    rw [hkparent] at hold
    exact hold

end Order

section Loops

variable {σ τ : Type*} [LinearOrder τ] (v : HeapView σ τ)

def less (s : σ) (i j : Nat) : Bool := v.key s i < v.key s j

def upLoop : Nat → σ → Nat → σ
  | 0, s, _ => s
  | bound + 1, s, j =>
    if parent j = j || !v.less s j (parent j) then s
    else upLoop bound (v.swap s (parent j) j) (parent j)

def up (s : σ) (j : Nat) : σ := v.upLoop j s j

/-- The child that `down` compares with: the second one if it is smaller. -/
def leastChild (s : σ) (i n : Nat) : Nat :=
  if 2 * i + 2 < n && v.less s (2 * i + 2) (2 * i + 1) then 2 * i + 2 else 2 * i + 1

def downLoop : Nat → σ → Nat → Nat → σ × Nat
  | 0, s, i, _ => (s, i)
  | bound + 1, s, i, n =>
    if 2 * i + 1 ≥ n then (s, i)
    else if !v.less s (v.leastChild s i n) i then (s, i)
    else downLoop bound (v.swap s i (v.leastChild s i n)) (v.leastChild s i n) n

/-- The Boolean reports whether the element moved. -/
def down (s : σ) (i n : Nat) : σ × Bool :=
  ((v.downLoop (n - i) s i n).1, i < (v.downLoop (n - i) s i n).2)

/-- `heap.Fix`, after the key at `i` changed. -/
def fix (s : σ) (i : Nat) : σ :=
  if (v.down s i (v.len s)).2 then (v.down s i (v.len s)).1
  else v.up (v.down s i (v.len s)).1 i

/-- `heap.Push`, after the container appended the new element. -/
def pushed (s : σ) : σ := v.up s (v.len s - 1)

/-- `heap.Pop`, before the container drops its last element. -/
def popReady (s : σ) : σ :=
  (v.down (v.swap s 0 (v.len s - 1)) 0 (v.len s - 1)).1

/-- `heap.Remove`, before the container drops its last element. -/
def removeReady (s : σ) (i : Nat) : σ :=
  if v.len s - 1 ≠ i then
    let swapped := v.swap s i (v.len s - 1)
    if (v.down swapped i (v.len s - 1)).2 then (v.down swapped i (v.len s - 1)).1
    else v.up (v.down swapped i (v.len s - 1)).1 i
  else s

variable {v} {s : σ} {n i j : Nat}

theorem key_swap_eq (hi : i < v.len s) (hj : j < v.len s) :
    v.key (v.swap s i j) = fun k => v.key s (Equiv.swap i j k) :=
  funext (v.key_swap s i j hi hj)

variable {bound : Nat}

theorem upLoop_ordered (h : UpReady (v.key s) n j) (hj : j < n) (hn : n ≤ v.len s)
    (hbound : j ≤ bound) : OrderedTo (v.key (v.upLoop bound s j)) n := by
  induction bound generalizing s j with
  | zero => exact h.ordered (fun hpos => by omega)
  | succ bound ih =>
    unfold upLoop
    rcases Nat.eq_zero_or_pos j with rfl | hpos
    · rw [if_pos (by simp [parent])]
      exact h.ordered (fun hpos => by omega)
    · have hparent := parent_lt hpos
      by_cases hless : v.key s j < v.key s (parent j)
      · rw [if_neg (by simp [less, hless, hparent.ne])]
        apply ih
        · rw [key_swap_eq (by omega) (by omega)]
          exact h.step hpos hj hless
        · omega
        · rw [v.len_swap s _ _ (by omega) (by omega)]
          exact hn
        · omega
      · rw [if_pos (by simp [less, hless])]
        exact h.ordered (fun _ => le_of_not_gt hless)

theorem up_ordered (h : UpReady (v.key s) n j) (hj : j < n) (hn : n ≤ v.len s) :
    OrderedTo (v.key (v.up s j)) n :=
  upLoop_ordered h hj hn (Nat.le_refl j)

theorem leastChild_cases : v.leastChild s i n = 2 * i + 1 ∨
    (v.leastChild s i n = 2 * i + 2 ∧ 2 * i + 2 < n) := by
  unfold leastChild
  split
  · next h =>
    simp only [Bool.and_eq_true, decide_eq_true_eq] at h
    exact Or.inr ⟨rfl, h.1⟩
  · exact Or.inl rfl

theorem parent_leastChild : parent (v.leastChild s i n) = i := by
  rcases leastChild_cases (v := v) (s := s) (i := i) (n := n) with h | ⟨h, _⟩ <;>
    rw [h] <;> unfold parent <;> omega

theorem leastChild_lt (h : 2 * i + 1 < n) : v.leastChild s i n < n := by
  rcases leastChild_cases (v := v) (s := s) (i := i) (n := n) with heq | ⟨heq, hlt⟩ <;> omega

theorem lt_leastChild : i < v.leastChild s i n := by
  rcases leastChild_cases (v := v) (s := s) (i := i) (n := n) with heq | ⟨heq, hlt⟩ <;> omega

theorem leastChild_le {k : Nat} (hpos : 0 < k) (hk : k < n) (hparent : parent k = i) :
    v.key s (v.leastChild s i n) ≤ v.key s k := by
  have hchild : k = 2 * i + 1 ∨ k = 2 * i + 2 := by
    unfold parent at hparent
    omega
  unfold leastChild
  by_cases hsecond : 2 * i + 2 < n ∧ v.key s (2 * i + 2) < v.key s (2 * i + 1)
  · rw [if_pos (by simp [less, hsecond.1, hsecond.2])]
    rcases hchild with rfl | rfl
    · exact hsecond.2.le
    · exact le_rfl
  · rw [if_neg (by simpa [less] using hsecond)]
    rcases hchild with rfl | rfl
    · exact le_rfl
    · exact le_of_not_gt (fun hlt => hsecond ⟨hk, hlt⟩)

/-- One round of `down`: it stops in order with the children, or it exchanges
with the least child and leaves the defect there. -/
theorem downLoop_succ_cases (bound : Nat) (h : HoleReady (v.key s) n i) (hn : n ≤ v.len s) :
    (v.downLoop (bound + 1) s i n = (s, i) ∧
      ∀ k, 0 < k → k < n → parent k = i → v.key s i ≤ v.key s k) ∨
    (v.leastChild s i n < n ∧
      v.downLoop (bound + 1) s i n =
        v.downLoop bound (v.swap s i (v.leastChild s i n)) (v.leastChild s i n) n ∧
      DownReady (v.key (v.swap s i (v.leastChild s i n))) n (v.leastChild s i n)) := by
  rw [downLoop]
  by_cases hend : 2 * i + 1 ≥ n
  · left
    rw [if_pos hend]
    refine ⟨rfl, ?_⟩
    intro k hpos hk hparent
    unfold parent at hparent
    omega
  · rw [if_neg hend]
    have hchild : v.leastChild s i n < n := leastChild_lt (by omega)
    have hgt : i < v.leastChild s i n := lt_leastChild
    by_cases hless : v.key s (v.leastChild s i n) < v.key s i
    · right
      rw [if_neg (by simp [less, hless])]
      refine ⟨hchild, rfl, ?_⟩
      rw [key_swap_eq (by omega) (by omega)]
      exact h.step (by omega) hchild parent_leastChild hless
        (fun k hpos hk hparent => leastChild_le hpos hk hparent)
    · left
      rw [if_pos (by simp [less, hless])]
      refine ⟨rfl, ?_⟩
      intro k hpos hk hparent
      exact (le_of_not_gt hless).trans (leastChild_le hpos hk hparent)

theorem downLoop_ordered (bound : Nat) (h : DownReady (v.key s) n i) (hn : n ≤ v.len s)
    (hbound : n ≤ i + bound) :
    OrderedTo (v.key (v.downLoop bound s i n).1) n ∧ i ≤ (v.downLoop bound s i n).2 := by
  induction bound generalizing s i with
  | zero =>
    refine ⟨h.ordered ?_, Nat.le_refl i⟩
    intro k hpos hk hparent
    have hlt := parent_lt hpos
    omega
  | succ bound ih =>
    rcases downLoop_succ_cases bound h.holeReady hn with
      ⟨heq, hle⟩ | ⟨hchild, heq, hready⟩
    · rw [heq]
      exact ⟨h.ordered hle, Nat.le_refl i⟩
    · have hgt : i < v.leastChild s i n := lt_leastChild
      rw [heq]
      obtain ⟨hordered, hge⟩ := ih hready
        (by rw [v.len_swap s _ _ (by omega) (by omega)]; exact hn) (by omega)
      exact ⟨hordered, by omega⟩

/-- `down` on a heap with a hole: the element moved and the heap is in order,
or nothing changed and at most the edge above the hole is out of order. -/
theorem down_cases (h : HoleReady (v.key s) n i) (hi : i < n) (hn : n ≤ v.len s) :
    ((v.down s i n).2 = true ∧ OrderedTo (v.key (v.down s i n).1) n) ∨
      ((v.down s i n).2 = false ∧ (v.down s i n).1 = s ∧ UpReady (v.key s) n i) := by
  obtain ⟨bound, hbound⟩ : ∃ bound, n - i = bound + 1 := ⟨n - i - 1, by omega⟩
  unfold down
  rw [hbound]
  rcases downLoop_succ_cases bound h hn with ⟨heq, hle⟩ | ⟨hchild, heq, hready⟩
  · right
    rw [heq]
    exact ⟨by simp, rfl, h.upReady hle⟩
  · left
    have hgt : i < v.leastChild s i n := lt_leastChild
    obtain ⟨hordered, hge⟩ := downLoop_ordered bound hready
      (by rw [v.len_swap s _ _ (by omega) (by omega)]; exact hn) (by omega)
    rw [heq]
    exact ⟨by simp; omega, hordered⟩

/-- `down`, and `up` if `down` did not move the element, close a hole. -/
theorem settle_ordered (h : HoleReady (v.key s) n i) (hi : i < n) (hn : n ≤ v.len s) :
    OrderedTo (v.key (if (v.down s i n).2 then (v.down s i n).1
      else v.up (v.down s i n).1 i)) n := by
  rcases down_cases h hi hn with ⟨hmoved, hordered⟩ | ⟨hmoved, hsame, hready⟩
  · rw [if_pos hmoved]
    exact hordered
  · rw [if_neg (by simp [hmoved]), hsame]
    exact up_ordered hready hi hn

theorem fix_ordered (h : HoleReady (v.key s) (v.len s) i) (hi : i < v.len s) :
    OrderedTo (v.key (v.fix s i)) (v.len s) :=
  settle_ordered h hi (Nat.le_refl _)

theorem pushed_ordered (h : OrderedTo (v.key s) (v.len s - 1)) (hpos : 0 < v.len s) :
    OrderedTo (v.key (v.pushed s)) (v.len s) := by
  have hready := h.upReady_last
  rw [Nat.sub_add_cancel hpos] at hready
  exact up_ordered hready (by omega) (Nat.le_refl _)

/-- After the last position was exchanged with `i`, the positions before it
have a hole at `i`. -/
theorem swap_last_holeReady (h : OrderedTo (v.key s) (v.len s)) (hi : i < v.len s) :
    HoleReady (v.key (v.swap s i (v.len s - 1))) (v.len s - 1) i := by
  apply (h.mono (Nat.sub_le _ 1)).holeReady
  intro k hk hki
  rw [v.key_swap s _ _ hi (by omega), Equiv.swap_apply_of_ne_of_ne hki (by omega)]

theorem popReady_ordered (h : OrderedTo (v.key s) (v.len s)) (hpos : 0 < v.len s) :
    OrderedTo (v.key (v.popReady s)) (v.len s - 1) := by
  have hhole := swap_last_holeReady h hpos
  unfold popReady down
  refine (downLoop_ordered _ hhole.downReady_root ?_ (by omega)).1
  rw [v.len_swap s _ _ hpos (by omega)]
  omega

theorem removeReady_ordered (h : OrderedTo (v.key s) (v.len s)) (hi : i < v.len s) :
    OrderedTo (v.key (v.removeReady s i)) (v.len s - 1) := by
  unfold removeReady
  by_cases hlast : v.len s - 1 = i
  · rw [if_neg (by simp [hlast])]
    exact h.mono (Nat.sub_le _ 1)
  · rw [if_pos hlast]
    apply settle_ordered (swap_last_holeReady h hi) (by omega)
    rw [v.len_swap s _ _ hi (by omega)]
    omega

/-- What every exchange of two positions below `n` preserves. -/
def Stable (v : HeapView σ τ) (n : Nat) (P : σ → Prop) : Prop :=
  ∀ s i j, P s → i < n → j < n → P (v.swap s i j)

variable {P : σ → Prop}

theorem Stable.upLoop (h : v.Stable n P) (hs : P s) (hj : j < n) : P (v.upLoop bound s j) := by
  induction bound generalizing s j with
  | zero => exact hs
  | succ bound ih =>
    unfold HeapView.upLoop
    split
    · exact hs
    · have hparent : parent j < n := by
        unfold parent
        omega
      exact ih (h s _ _ hs hparent hj) hparent

theorem Stable.up (h : v.Stable n P) (hs : P s) (hj : j < n) : P (v.up s j) :=
  h.upLoop hs hj

theorem Stable.downLoop (h : v.Stable n P) (hs : P s) : P (v.downLoop bound s i n).1 := by
  induction bound generalizing s i with
  | zero => exact hs
  | succ bound ih =>
    unfold HeapView.downLoop
    split
    · exact hs
    · next hend =>
      split
      · exact hs
      · exact ih (h s _ _ hs (by omega) (leastChild_lt (by omega)))

theorem Stable.down (h : v.Stable n P) (hs : P s) : P (v.down s i n).1 :=
  h.downLoop hs

theorem Stable.settle (h : v.Stable n P) (hs : P s) (hi : i < n) :
    P (if (v.down s i n).2 then (v.down s i n).1 else v.up (v.down s i n).1 i) := by
  split
  · exact h.down hs
  · exact h.up (h.down hs) hi

end Loops

end HeapView

end NriSupplyChain.Lib
