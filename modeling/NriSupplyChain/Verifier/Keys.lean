import Mathlib.Data.Nat.Digits.Lemmas
import NriSupplyChain.Cache.Runs

/-!
The keys of the result cache and of the flights. A key is built by joining its
parts with zero bytes, so parts without a zero byte can be read back from it.
-/

namespace NriSupplyChain.Verifier

open Cache

/-- `strconv.FormatUint(n, 10)`. -/
def formatUint (n : Nat) : GoString :=
  if n = 0 then [48] else (Nat.digits 10 n).reverse.map (fun d => UInt8.ofNat (d + 48))

/-- The namespace part of a result cache key. -/
def cacheNamespaceKey (nameSpace imageRef : GoString) (ruleIdx : Int) : GoString :=
  let key := nameSpace ++ 0 :: imageRef
  if ruleIdx < 0 then key else key ++ 0 :: 114 :: formatUint ruleIdx.toNat

/-- The key under which `verifyOnce` deduplicates verifications. -/
def flightKey (generation epoch : Nat) (digest cacheNS : GoString) : GoString :=
  formatUint generation ++ 0 :: (formatUint epoch ++ 0 :: (digest ++ 0 :: cacheNS))

theorem digit_byte {d : Nat} (h : d < 10) : (UInt8.ofNat (d + 48)).toNat = d + 48 := by
  rw [UInt8.toNat_ofNat']
  omega

theorem formatUint_no_zero (n : Nat) : (0 : UInt8) ∉ formatUint n := by
  unfold formatUint
  split
  · decide
  · simp only [List.mem_map, List.mem_reverse, not_exists, not_and]
    intro d hd heq
    have hbyte := digit_byte (Nat.digits_lt_base (by omega) hd)
    rw [heq] at hbyte
    simp at hbyte

/-- Reading the digits back. -/
theorem ofDigits_formatUint (n : Nat) :
    Nat.ofDigits 10 ((formatUint n).reverse.map (fun b => b.toNat - 48)) = n := by
  unfold formatUint
  split
  · next hzero =>
    subst hzero
    rfl
  · have hread : ((Nat.digits 10 n).map (fun d => UInt8.ofNat (d + 48))).map
        (fun b => b.toNat - 48) = Nat.digits 10 n := by
      rw [List.map_map]
      calc (Nat.digits 10 n).map ((fun b => b.toNat - 48) ∘ fun d => UInt8.ofNat (d + 48))
          = (Nat.digits 10 n).map id := by
            apply List.map_congr_left
            intro d hd
            have hbyte := digit_byte (Nat.digits_lt_base (by omega) hd)
            simp only [Function.comp_apply, hbyte, Nat.add_sub_cancel, id]
        _ = Nat.digits 10 n := List.map_id _
    rw [← List.map_reverse, List.reverse_reverse, hread, Nat.ofDigits_digits]

theorem formatUint_injective : Function.Injective formatUint := by
  intro m n h
  rw [← ofDigits_formatUint m, h, ofDigits_formatUint n]

/-- Two strings split at their first zero byte. -/
theorem split_at_zero {x₁ x₂ z₁ z₂ : GoString} (h₁ : (0 : UInt8) ∉ x₁) (h₂ : (0 : UInt8) ∉ x₂)
    (h : x₁ ++ 0 :: z₁ = x₂ ++ 0 :: z₂) : x₁ = x₂ ∧ z₁ = z₂ := by
  induction x₁ generalizing x₂ with
  | nil =>
    cases x₂ with
    | nil => exact ⟨rfl, by simpa using h⟩
    | cons b tail =>
      simp only [List.nil_append, List.cons_append, List.cons.injEq] at h
      exact absurd (h.1 ▸ List.mem_cons_self) h₂
  | cons b tail ih =>
    cases x₂ with
    | nil =>
      simp only [List.nil_append, List.cons_append, List.cons.injEq] at h
      exact absurd (h.1 ▸ List.mem_cons_self) h₁
    | cons b' tail' =>
      simp only [List.cons_append, List.cons.injEq] at h
      obtain ⟨rfl, hz⟩ := ih (fun hm => h₁ (List.mem_cons_of_mem b hm))
        (fun hm => h₂ (List.mem_cons_of_mem b' hm)) h.2
      exact ⟨by rw [h.1], hz⟩

/-- For digests without a zero byte, as every digest is, a flight key names its
generation, its epoch and its cache key. -/
theorem flightKey_injective {g₁ g₂ e₁ e₂ : Nat} {d₁ d₂ n₁ n₂ : GoString}
    (h₁ : (0 : UInt8) ∉ d₁) (h₂ : (0 : UInt8) ∉ d₂)
    (h : flightKey g₁ e₁ d₁ n₁ = flightKey g₂ e₂ d₂ n₂) :
    g₁ = g₂ ∧ e₁ = e₂ ∧ d₁ = d₂ ∧ n₁ = n₂ := by
  obtain ⟨hg, hrest⟩ := split_at_zero (formatUint_no_zero g₁) (formatUint_no_zero g₂) h
  obtain ⟨he, hrest⟩ := split_at_zero (formatUint_no_zero e₁) (formatUint_no_zero e₂) hrest
  obtain ⟨hd, hn⟩ := split_at_zero h₁ h₂ hrest
  exact ⟨formatUint_injective hg, formatUint_injective he, hd, hn⟩

/-- Namespaces and image references without a zero byte can be read back from a
cache key. -/
theorem cacheNamespaceKey_injective {n₁ n₂ r₁ r₂ : GoString} {i₁ i₂ : Int}
    (hn₁ : (0 : UInt8) ∉ n₁) (hn₂ : (0 : UInt8) ∉ n₂) (hr₁ : (0 : UInt8) ∉ r₁)
    (hr₂ : (0 : UInt8) ∉ r₂) (h : cacheNamespaceKey n₁ r₁ i₁ = cacheNamespaceKey n₂ r₂ i₂) :
    n₁ = n₂ ∧ r₁ = r₂ := by
  unfold cacheNamespaceKey at h
  dsimp only at h
  split at h
  · split at h
    · exact split_at_zero hn₁ hn₂ h
    · rw [List.append_assoc] at h
      obtain ⟨_, hr⟩ := split_at_zero hn₁ hn₂ h
      exact absurd (hr ▸ by simp : (0 : UInt8) ∈ r₁) hr₁
  · rw [List.append_assoc] at h
    split at h
    · obtain ⟨_, hr⟩ := split_at_zero hn₁ hn₂ h
      exact absurd (hr ▸ by simp : (0 : UInt8) ∈ r₂) hr₂
    · rw [List.append_assoc] at h
      obtain ⟨hn, hrest⟩ := split_at_zero hn₁ hn₂ h
      exact ⟨hn, (split_at_zero hr₁ hr₂ hrest).1⟩

/-- `DeleteAll` of a namespace covers every key built for it. -/
theorem cacheNamespaceKey_inNamespace (nameSpace imageRef : GoString) (ruleIdx : Int) :
    InNamespace (cacheNamespaceKey nameSpace imageRef ruleIdx) nameSpace := by
  unfold cacheNamespaceKey
  dsimp only
  split
  · exact Or.inr ⟨imageRef, rfl⟩
  · exact Or.inr ⟨imageRef ++ 0 :: 114 :: formatUint ruleIdx.toNat, by simp⟩

end NriSupplyChain.Verifier
