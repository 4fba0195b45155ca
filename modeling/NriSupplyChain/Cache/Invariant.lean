import NriSupplyChain.Cache.Store
import NriSupplyChain.Lib.Machine

/-!
The four structures of the cache agree. The two ways in which an entry leaves
the heap (popped first, or removed at its recorded position) end in the same
state, `without`, so one lemma covers expiry, capacity eviction, a late `Get`
and invalidation.
-/

namespace NriSupplyChain.Cache

variable {ρ : Type}

/-- The entry map, the heap index, the expiry heap and the digest index hold
the same keys, and the size limit is kept. -/
structure Consistent (c : Cache ρ) : Prop where
  /-- Recorded positions are real, and the heap is ordered. -/
  heap : c.heap.Valid
  index_iff : ∀ k p, c.heapIndex.lookup k = some p ↔
    p ∈ c.heap.expHeap ∧ (c.heap.cells p).cacheKey = k
  /-- The heap entry of a key carries the expiry stored in the entry map. -/
  expiry : ∀ k p, c.heapIndex.lookup k = some p →
    ∃ e, c.entries.lookup k = some e ∧ e.expiresAt = (c.heap.cells p).expiresAt
  entries_iff : ∀ k, k ∈ c.entries ↔ k ∈ c.heapIndex
  digest_iff : ∀ k, k ∈ c.entries ↔ k ∈ c.digestKeys k.digest
  digest_own : ∀ d k, k ∈ c.digestKeys d → k.digest = d
  digest_nonempty : ∀ d, c.digestIndex.lookup d ≠ some ∅
  maxSize_pos : 0 < c.maxSize
  size_le : c.size ≤ c.maxSize

theorem exists_lookup {α : Type} [DecidableEq α] {β : α → Type} {s : AList β} {a : α}
    (h : a ∈ s) : ∃ b, s.lookup a = some b :=
  Option.isSome_iff_exists.mp (AList.lookup_isSome.mpr h)

theorem mem_of_lookup {α : Type} [DecidableEq α] {β : α → Type} {s : AList β} {a : α} {b : β a}
    (h : s.lookup a = some b) : a ∈ s :=
  AList.lookup_isSome.mp (by rw [h]; rfl)

theorem new_consistent (maxSize : Int) : Consistent (Cache.new (ρ := ρ) maxSize) where
  heap := by
    refine ⟨?_, ?_, ?_⟩
    · intro i p h
      simp [Cache.new] at h
    · intro k _ hk
      simp [Cache.new, ExpiryHeap.len] at hk
    · intro p hp
      simp [Cache.new] at hp
  index_iff := by
    intro k p
    simp [Cache.new]
  expiry := by
    intro k p h
    simp [Cache.new] at h
  entries_iff := by
    intro k
    simp [Cache.new]
  digest_iff := by
    intro k
    simp [Cache.new, digestKeys]
  digest_own := by
    intro d k h
    simp [Cache.new, digestKeys] at h
  digest_nonempty := by
    intro d h
    simp [Cache.new] at h
  maxSize_pos := by
    simp only [Cache.new, defaultMaxSize]
    split <;> omega
  size_le := by
    simp [Cache.new, size]

variable {c : Cache ρ}

/-- What the gauge shows is no part of the agreement. -/
theorem Consistent.updateGauge (h : c.Consistent) : c.updateGaugeLocked.Consistent := by
  unfold updateGaugeLocked
  split
  · exact h
  · exact { h with }

@[simp] theorem updateGauge_entries (c : Cache ρ) :
    c.updateGaugeLocked.entries = c.entries := by
  unfold updateGaugeLocked
  split <;> rfl

theorem digestKeys_unindex (c : Cache ρ) (k : Key) (d : GoString) :
    ((unindex c.digestIndex k).lookup d).getD ∅ =
      if d = k.digest then (c.digestKeys d).erase k else c.digestKeys d := by
  unfold unindex digestKeys
  cases hlookup : c.digestIndex.lookup k.digest with
  | none =>
    by_cases hd : d = k.digest
    · subst hd
      simp [hlookup]
    · simp [hd]
  | some keys =>
    by_cases hd : d = k.digest
    · subst hd
      by_cases hempty : keys.erase k = ∅ <;> simp [hempty, hlookup]
    · by_cases hempty : keys.erase k = ∅
      · simp [hempty, hd, AList.lookup_erase_ne hd]
      · simp [hempty, hd, AList.lookup_insert_ne hd]

theorem unindex_nonempty {index : AList (fun _ : GoString => Finset Key)}
    (h : ∀ d, index.lookup d ≠ some ∅) (k : Key) (d : GoString) :
    (unindex index k).lookup d ≠ some ∅ := by
  unfold unindex
  cases hlookup : index.lookup k.digest with
  | none => exact h d
  | some keys =>
    dsimp only
    by_cases hempty : keys.erase k = ∅
    · rw [if_pos hempty]
      by_cases hd : d = k.digest
      · subst hd
        simp
      · rw [AList.lookup_erase_ne hd]
        exact h d
    · rw [if_neg hempty]
      by_cases hd : d = k.digest
      · subst hd
        simpa using hempty
      · rw [AList.lookup_insert_ne hd]
        exact h d

/-- The cache without key `k`, whose heap entry has left the heap. -/
def without (c : Cache ρ) (k : Key) (heap : ExpiryHeap) : Cache ρ :=
  { c with
    entries := c.entries.erase k
    heap := heap
    heapIndex := c.heapIndex.erase k
    digestIndex := unindex c.digestIndex k }

theorem without_lookup (c : Cache ρ) (k k' : Key) (heap : ExpiryHeap) :
    (c.without k heap).entries.lookup k' = if k' = k then none else c.entries.lookup k' := by
  by_cases hk : k' = k
  · subst hk
    simp [without]
  · simp [without, hk, AList.lookup_erase_ne hk]

variable {k : Key}

theorem without_size (hk : k ∈ c.entries) (heap : ExpiryHeap) :
    (c.without k heap).size + 1 = c.size := by
  have hmem : k ∈ c.entries.keys := hk
  have hpos := List.length_pos_of_mem hmem
  simp only [size, without, AList.keys_erase, List.length_erase_of_mem hmem]
  omega

variable {p : Nat}

/-- Removing a key from all four structures keeps them in agreement. -/
theorem Consistent.without (h : c.Consistent) (hp : c.heapIndex.lookup k = some p)
    {heap : ExpiryHeap} (hdrop : ExpiryHeap.Dropped c.heap p heap) :
    (c.without k heap).Consistent := by
  have hkey : (c.heap.cells p).cacheKey = k := ((h.index_iff k p).mp hp).2
  have hentry : k ∈ c.entries := (h.entries_iff k).mpr (mem_of_lookup hp)
  constructor
  · exact hdrop.valid
  · intro k' q
    by_cases hk : k' = k
    · subst hk
      simp only [Cache.without, AList.lookup_erase, hdrop.mem, hdrop.cacheKey]
      refine ⟨(fun hnone => by cases hnone), ?_⟩
      rintro ⟨⟨hq, hne⟩, hqk⟩
      have hlookup := (h.index_iff k' q).mpr ⟨hq, hqk⟩
      rw [hp] at hlookup
      exact absurd (Option.some.inj hlookup).symm hne
    · simp only [Cache.without, AList.lookup_erase_ne hk, hdrop.mem, hdrop.cacheKey, h.index_iff]
      constructor
      · rintro ⟨hq, hqk⟩
        refine ⟨⟨hq, ?_⟩, hqk⟩
        rintro rfl
        exact hk (hqk.symm.trans hkey)
      · rintro ⟨⟨hq, _⟩, hqk⟩
        exact ⟨hq, hqk⟩
  · intro k' q hq
    have hk : k' ≠ k := by
      rintro rfl
      simp [Cache.without] at hq
    simp only [Cache.without, AList.lookup_erase_ne hk, hdrop.expiresAt] at hq ⊢
    exact h.expiry k' q hq
  · intro k'
    simp only [Cache.without, AList.mem_erase, h.entries_iff k']
  · intro k'
    have hkeys := digestKeys_unindex c k k'.digest
    simp only [Cache.without, digestKeys, AList.mem_erase] at hkeys ⊢
    rw [hkeys]
    by_cases hk : k' = k
    · subst hk
      simp
    · by_cases hd : k'.digest = k.digest
      · rw [if_pos hd, Finset.mem_erase]
        exact and_congr_right (fun _ => h.digest_iff k')
      · rw [if_neg hd]
        exact ⟨fun hmem => (h.digest_iff k').mp hmem.2, fun hmem =>
          ⟨hk, (h.digest_iff k').mpr hmem⟩⟩
  · intro d k' hk'
    have hkeys := digestKeys_unindex c k d
    simp only [Cache.without, digestKeys] at hkeys hk'
    rw [hkeys] at hk'
    split at hk'
    · exact h.digest_own d k' (Finset.mem_of_mem_erase hk')
    · exact h.digest_own d k' hk'
  · exact unindex_nonempty h.digest_nonempty k
  · exact h.maxSize_pos
  · have hsize := without_size hentry heap
    have hle := h.size_le
    change (c.without k heap).size ≤ c.maxSize
    omega

/-- `removeLocked` of a key whose heap entry is still in the heap. -/
theorem removeLocked_present (h : c.Consistent) (hp : c.heapIndex.lookup k = some p) :
    ∃ heap, ExpiryHeap.Dropped c.heap p heap ∧ c.removeLocked k = c.without k heap := by
  have hmem : p ∈ c.heap.expHeap := ((h.index_iff k p).mp hp).1
  obtain ⟨i, hi⟩ := List.mem_iff_getElem?.mp hmem
  have hindex := h.heap.placed i p hi
  obtain ⟨heap, hremove, hdrop⟩ := ExpiryHeap.heapRemove_spec h.heap hi
  refine ⟨heap, hdrop, ?_⟩
  simp [removeLocked, Cache.without, hp, unheap, hindex, hremove]

/-- `removeLocked` of a key whose heap entry was popped before. -/
theorem removeLocked_popped (hp : c.heapIndex.lookup k = some p) {heap : ExpiryHeap}
    (hdrop : ExpiryHeap.Dropped c.heap p heap) :
    removeLocked { c with heap := heap } k = c.without k heap := by
  simp [removeLocked, Cache.without, hp, unheap, hdrop.index]

/-- Entries found through the heap and entries found through the map are the
same. -/
theorem Consistent.entry_of_pointer (h : c.Consistent) (hp : p ∈ c.heap.expHeap) :
    c.heapIndex.lookup (c.heap.cells p).cacheKey = some p ∧
      ∃ e, c.entries.lookup (c.heap.cells p).cacheKey = some e ∧
        e.expiresAt = (c.heap.cells p).expiresAt := by
  have hlookup := (h.index_iff (c.heap.cells p).cacheKey p).mpr ⟨hp, rfl⟩
  exact ⟨hlookup, h.expiry _ p hlookup⟩

theorem Consistent.pointer_of_entry (h : c.Consistent) {e : Entry ρ}
    (he : c.entries.lookup k = some e) :
    ∃ p, c.heapIndex.lookup k = some p ∧ p ∈ c.heap.expHeap ∧
      (c.heap.cells p).cacheKey = k ∧ (c.heap.cells p).expiresAt = e.expiresAt := by
  obtain ⟨p, hp⟩ := exists_lookup ((h.entries_iff k).mp (mem_of_lookup he))
  obtain ⟨hmem, hkey⟩ := (h.index_iff k p).mp hp
  obtain ⟨e', he', hexp⟩ := h.expiry k p hp
  rw [he] at he'
  cases he'
  exact ⟨p, hp, hmem, hkey, hexp.symm⟩

/-- The root of the heap expires no later than any entry. -/
theorem Consistent.root_earliest (h : c.Consistent) {e : Entry ρ}
    (he : c.entries.lookup k = some e) : c.heap.expiresAt 0 ≤ e.expiresAt := by
  obtain ⟨p, _, hmem, _, hexp⟩ := h.pointer_of_entry he
  obtain ⟨i, hi⟩ := List.mem_iff_getElem?.mp hmem
  have hlt : i < c.heap.len := (List.getElem?_eq_some_iff.mp hi).1
  have hroot := h.heap.ordered.root_le hlt
  simp only [ExpiryHeap.expiresAt, hi, hexp] at hroot
  exact hroot

/-- Evicting the soonest expiring entry removes one key, whose entry expires
no later than any other. -/
theorem evictSoonest_spec (h : c.Consistent) (hpos : 0 < c.heap.len) :
    ∃ k e heap, c.entries.lookup k = some e ∧ e.expiresAt = c.heap.expiresAt 0 ∧
      heap.len + 1 = c.heap.len ∧
      c.evictSoonestExpiringLocked = c.without k heap ∧ (c.without k heap).Consistent := by
  obtain ⟨p, hp⟩ := ExpiryHeap.exists_pointer hpos
  obtain ⟨heap, hpop, hdrop⟩ := ExpiryHeap.heapPop_spec h.heap hp
  obtain ⟨hlookup, e, he, hexp⟩ := h.entry_of_pointer (List.mem_of_getElem? hp)
  refine ⟨(c.heap.cells p).cacheKey, e, heap, he, ?_, hdrop.length, ?_, h.without hlookup hdrop⟩
  · simp only [ExpiryHeap.expiresAt, hp]
    exact hexp
  · simp only [evictSoonestExpiringLocked, hpop, hdrop.cacheKey]
    exact removeLocked_popped hlookup hdrop

theorem heap_len_pos (h : c.Consistent) (hk : k ∈ c.entries) : 0 < c.heap.len := by
  obtain ⟨p, hp⟩ := exists_lookup ((h.entries_iff k).mp hk)
  exact List.length_pos_of_mem ((h.index_iff k p).mp hp).1

/-- Keep an entry that has not expired. -/
def live (now : Int) (e : Option (Entry ρ)) : Option (Entry ρ) :=
  e.filter (fun e => !decide (e.expiresAt < now))

theorem live_of_not_expired {now : Int} {e : Option (Entry ρ)}
    (h : ∀ x, e = some x → ¬ x.expiresAt < now) : live now e = e := by
  cases e with
  | none => rfl
  | some x => simp [live, not_lt.mp (h x rfl)]

theorem live_of_expired {now : Int} {x : Entry ρ} (h : x.expiresAt < now) :
    live now (some x) = none := by
  simp [live, h]

/-- The expiry loop removes exactly the entries that have expired. -/
theorem evictExpiredLoop_spec (h : c.Consistent) (now : Int) {rounds : Nat}
    (hrounds : c.heap.len ≤ rounds) :
    (evictExpiredLoop now rounds c).Consistent ∧
      (∀ k, (evictExpiredLoop now rounds c).entries.lookup k =
        live now (c.entries.lookup k)) ∧
      (evictExpiredLoop now rounds c).maxSize = c.maxSize ∧
      (evictExpiredLoop now rounds c).epochs = c.epochs := by
  induction rounds generalizing c with
  | zero =>
    refine ⟨h, ?_, rfl, rfl⟩
    intro k
    symm
    apply live_of_not_expired
    intro e he
    have hpos := heap_len_pos h (mem_of_lookup he)
    omega
  | succ rounds ih =>
    unfold evictExpiredLoop
    by_cases hcond : 0 < c.heap.len ∧ c.heap.expiresAt 0 < now
    · rw [if_pos hcond]
      obtain ⟨k, e, heap, he, hexp, hlen, hevict, hnext⟩ := evictSoonest_spec h hcond.1
      rw [hevict]
      obtain ⟨hconsistent, hlookup, hmax, hepochs⟩ := ih hnext (by
        change heap.len ≤ rounds
        omega)
      refine ⟨hconsistent, ?_, hmax, hepochs⟩
      intro k'
      rw [hlookup k', without_lookup]
      split
      · next hk =>
        rw [hk, he, live_of_expired (by omega)]
        rfl
      · rfl
    · rw [if_neg hcond]
      refine ⟨h, ?_, rfl, rfl⟩
      intro k
      symm
      apply live_of_not_expired
      intro e he hlt
      have hroot := h.root_earliest he
      exact hcond ⟨heap_len_pos h (mem_of_lookup he), by omega⟩

theorem evictExpired_spec (h : c.Consistent) (now : Int) :
    (c.evictExpiredLocked now).Consistent ∧
      (∀ k, (c.evictExpiredLocked now).entries.lookup k = live now (c.entries.lookup k)) ∧
      (c.evictExpiredLocked now).maxSize = c.maxSize ∧
      (c.evictExpiredLocked now).epochs = c.epochs :=
  evictExpiredLoop_spec h now (Nat.le_refl _)

/-- What a capacity eviction does to the entry map: an entry that expires no
later than any other is gone, and nothing else changed. -/
def EvictsEarliest (before after : Cache ρ) : Prop :=
  ∃ victim e, before.entries.lookup victim = some e ∧
    (∀ k e', before.entries.lookup k = some e' → e.expiresAt ≤ e'.expiresAt) ∧
    ∀ k, after.entries.lookup k = if k = victim then none else before.entries.lookup k

theorem evictSoonest_earliest (h : c.Consistent) (hpos : 0 < c.size) :
    EvictsEarliest c c.evictSoonestExpiringLocked ∧
      c.evictSoonestExpiringLocked.Consistent ∧
      c.evictSoonestExpiringLocked.size + 1 = c.size ∧
      c.evictSoonestExpiringLocked.maxSize = c.maxSize ∧
      c.evictSoonestExpiringLocked.epochs = c.epochs := by
  obtain ⟨k', hk'⟩ := List.exists_mem_of_length_pos hpos
  obtain ⟨k, e, heap, he, hexp, _, hevict, hnext⟩ := evictSoonest_spec h (heap_len_pos h hk')
  rw [hevict]
  refine ⟨⟨k, e, he, ?_, ?_⟩, hnext, without_size (mem_of_lookup he) heap, rfl, rfl⟩
  · intro k₂ e₂ he₂
    rw [hexp]
    exact h.root_earliest he₂
  · intro k₂
    exact without_lookup c k k₂ heap

/-- After `makeRoom` the key is present already or there is room for it. -/
theorem makeRoom_spec (h : c.Consistent) (k : Key) (now : Int) :
    (c.makeRoom k now).Consistent ∧
      (k ∈ (c.makeRoom k now).entries ∨
        (c.makeRoom k now).size < (c.makeRoom k now).maxSize) ∧
      (c.makeRoom k now).maxSize = c.maxSize ∧
      (c.makeRoom k now).epochs = c.epochs := by
  unfold makeRoom
  by_cases hfull : k ∉ c.entries ∧ c.maxSize ≤ c.size
  · rw [if_pos hfull]
    obtain ⟨hevicted, _, hmax, hepochs⟩ := evictExpired_spec h now
    have hpos := hevicted.maxSize_pos
    dsimp only
    by_cases hstill : (c.evictExpiredLocked now).maxSize ≤ (c.evictExpiredLocked now).size
    · rw [if_pos hstill]
      obtain ⟨_, hnext, hsize, hmax', hepochs'⟩ := evictSoonest_earliest hevicted (by omega)
      have hle := hevicted.size_le
      exact ⟨hnext, Or.inr (by omega), hmax'.trans hmax, hepochs'.trans hepochs⟩
    · rw [if_neg hstill]
      exact ⟨hevicted, Or.inr (by omega), hmax, hepochs⟩
  · rw [if_neg hfull]
    refine ⟨h, ?_, rfl, rfl⟩
    by_cases hk : k ∈ c.entries
    · exact Or.inl hk
    · right
      have hnot : ¬ c.maxSize ≤ c.size := fun hle => hfull ⟨hk, hle⟩
      omega

theorem digestKeys_insert (c : Cache ρ) (k : Key) (d : GoString) :
    ((c.indexLocked k).digestIndex.lookup d).getD ∅ =
      if d = k.digest then insert k (c.digestKeys d) else c.digestKeys d := by
  unfold indexLocked digestKeys
  by_cases hd : d = k.digest
  · subst hd
    simp
  · simp [hd, AList.lookup_insert_ne hd]

theorem indexLocked_nonempty (h : c.Consistent) (k : Key) (d : GoString) :
    (c.indexLocked k).digestIndex.lookup d ≠ some ∅ := by
  unfold indexLocked
  by_cases hd : d = k.digest
  · subst hd
    simp
  · simp only [AList.lookup_insert_ne hd]
    exact h.digest_nonempty d

theorem indexLocked_iff (h : c.Consistent) (k k' : Key) :
    k' = k ∨ k' ∈ c.entries ↔
      k' ∈ ((c.indexLocked k).digestIndex.lookup k'.digest).getD ∅ := by
  rw [digestKeys_insert]
  by_cases hd : k'.digest = k.digest
  · rw [if_pos hd, Finset.mem_insert, h.digest_iff k']
  · rw [if_neg hd, h.digest_iff k']
    refine ⟨?_, Or.inr⟩
    rintro (rfl | hmem)
    · exact absurd rfl hd
    · exact hmem

theorem indexLocked_own (h : c.Consistent) (k : Key) (d : GoString) (k' : Key)
    (hk' : k' ∈ ((c.indexLocked k).digestIndex.lookup d).getD ∅) : k'.digest = d := by
  rw [digestKeys_insert] at hk'
  split at hk'
  · next hd =>
    rcases Finset.mem_insert.mp hk' with rfl | hmem
    · exact hd.symm
    · exact h.digest_own d k' hmem
  · exact h.digest_own d k' hk'

theorem insert_size_le (h : c.Consistent) (e : Entry ρ)
    (hroom : k ∈ c.entries ∨ c.size < c.maxSize) :
    (c.entries.insert k e).keys.length ≤ c.maxSize := by
  have hle := h.size_le
  unfold size at hle hroom
  rw [AList.keys_insert, List.length_cons]
  by_cases hk : k ∈ c.entries
  · have hpos := List.length_pos_of_mem (show k ∈ c.entries.keys from hk)
    rw [List.length_erase_of_mem hk]
    omega
  · rw [List.erase_of_not_mem hk]
    rcases hroom with hmem | hlt
    · exact absurd hmem hk
    · omega

theorem store_lookup (c : Cache ρ) (k k' : Key) (result : ρ) (expiresAt : Int) :
    (c.store k result expiresAt).entries.lookup k' =
      if k' = k then some ⟨result, expiresAt⟩ else c.entries.lookup k' := by
  have hinsert : (c.store k result expiresAt).entries =
      c.entries.insert k ⟨result, expiresAt⟩ := by
    unfold store
    split <;> rfl
  rw [hinsert]
  by_cases hk : k' = k
  · subst hk
    simp
  · rw [AList.lookup_insert_ne hk, if_neg hk]

/-- Overwriting a present key. -/
theorem Consistent.store_present (h : c.Consistent) (hp : c.heapIndex.lookup k = some p)
    (result : ρ) (expiresAt : Int) : (c.store k result expiresAt).Consistent := by
  obtain ⟨hmem, hkey⟩ := (h.index_iff k p).mp hp
  have hfix := ExpiryHeap.heapFix_spec h.heap hmem expiresAt
  have hk : k ∈ c.entries := (h.entries_iff k).mpr (mem_of_lookup hp)
  have heq : c.store k result expiresAt = { c.indexLocked k with
      entries := c.entries.insert k ⟨result, expiresAt⟩
      heap := c.heap.heapFix p expiresAt } := by
    simp only [store, hp]
  rw [heq]
  constructor
  · exact hfix.valid
  · intro k' q
    simp only [hfix.mem, hfix.cacheKey]
    exact h.index_iff k' q
  · intro k' q hq
    have hq' : c.heapIndex.lookup k' = some q := hq
    obtain ⟨_, hqkey⟩ := (h.index_iff k' q).mp hq'
    by_cases hkk : k' = k
    · subst hkk
      obtain rfl : p = q := Option.some.inj (hp.symm.trans hq')
      exact ⟨_, AList.lookup_insert _, hfix.new_expiresAt.symm⟩
    · have hqp : q ≠ p := by
        rintro rfl
        exact hkk (hqkey.symm.trans hkey)
      obtain ⟨e, he, hexp⟩ := h.expiry k' q hq'
      refine ⟨e, (AList.lookup_insert_ne hkk).trans he, ?_⟩
      rw [hexp, hfix.old_expiresAt q hqp]
  · intro k'
    change k' ∈ c.entries.insert k _ ↔ k' ∈ c.heapIndex
    rw [AList.mem_insert, ← h.entries_iff k']
    refine ⟨?_, Or.inr⟩
    rintro (rfl | hmem')
    · exact hk
    · exact hmem'
  · intro k'
    change k' ∈ c.entries.insert k _ ↔ _
    rw [AList.mem_insert]
    exact indexLocked_iff h k k'
  · exact indexLocked_own h k
  · exact indexLocked_nonempty h k
  · exact h.maxSize_pos
  · exact insert_size_le h _ (Or.inl hk)

/-- Storing a new key when there is room for it. -/
theorem Consistent.store_new (h : c.Consistent) (hnone : c.heapIndex.lookup k = none)
    (hroom : c.size < c.maxSize) (result : ρ) (expiresAt : Int) :
    (c.store k result expiresAt).Consistent := by
  have hpush := ExpiryHeap.heapPush_spec h.heap k expiresAt
  have hfresh {q : Nat} (hq : q ∈ c.heap.expHeap) : q ≠ c.heap.next := by
    have hlt := h.heap.allocated q hq
    omega
  have heq : c.store k result expiresAt = { c.indexLocked k with
      entries := c.entries.insert k ⟨result, expiresAt⟩
      heap := c.heap.heapPush k expiresAt
      heapIndex := c.heapIndex.insert k c.heap.next } := by
    simp only [store, hnone]
  rw [heq]
  constructor
  · exact hpush.valid
  · intro k' q
    by_cases hkk : k' = k
    · subst hkk
      simp only [AList.lookup_insert, hpush.mem, Option.some.injEq]
      constructor
      · rintro rfl
        exact ⟨Or.inr rfl, hpush.new_cacheKey⟩
      · rintro ⟨hq | rfl, hqk⟩
        · rw [hpush.old_cacheKey q (hfresh hq)] at hqk
          have hlookup := (h.index_iff k' q).mpr ⟨hq, hqk⟩
          rw [hnone] at hlookup
          cases hlookup
        · rfl
    · simp only [AList.lookup_insert_ne hkk, hpush.mem, h.index_iff]
      constructor
      · rintro ⟨hq, hqk⟩
        exact ⟨Or.inl hq, (hpush.old_cacheKey q (hfresh hq)).trans hqk⟩
      · rintro ⟨hq | rfl, hqk⟩
        · rw [hpush.old_cacheKey q (hfresh hq)] at hqk
          exact ⟨hq, hqk⟩
        · rw [hpush.new_cacheKey] at hqk
          exact absurd hqk.symm hkk
  · intro k' q hq
    by_cases hkk : k' = k
    · subst hkk
      obtain rfl : c.heap.next = q := Option.some.inj ((AList.lookup_insert _).symm.trans hq)
      exact ⟨_, AList.lookup_insert _, hpush.new_expiresAt.symm⟩
    · have hq' : c.heapIndex.lookup k' = some q := (AList.lookup_insert_ne hkk).symm.trans hq
      obtain ⟨e, he, hexp⟩ := h.expiry k' q hq'
      refine ⟨e, (AList.lookup_insert_ne hkk).trans he, ?_⟩
      rw [hexp, hpush.old_expiresAt q (hfresh ((h.index_iff k' q).mp hq').1)]
  · intro k'
    change k' ∈ c.entries.insert k _ ↔ k' ∈ c.heapIndex.insert k _
    rw [AList.mem_insert, AList.mem_insert, h.entries_iff k']
  · intro k'
    change k' ∈ c.entries.insert k _ ↔ _
    rw [AList.mem_insert]
    exact indexLocked_iff h k k'
  · exact indexLocked_own h k
  · exact indexLocked_nonempty h k
  · exact h.maxSize_pos
  · exact insert_size_le h _ (Or.inr hroom)

theorem Consistent.store (h : c.Consistent) (hroom : k ∈ c.entries ∨ c.size < c.maxSize)
    (result : ρ) (expiresAt : Int) : (c.store k result expiresAt).Consistent := by
  cases hp : c.heapIndex.lookup k with
  | some p => exact h.store_present hp result expiresAt
  | none =>
    have hk : k ∉ c.entries := fun hmem =>
      AList.lookup_eq_none.mp hp ((h.entries_iff k).mp hmem)
    exact h.store_new hp (hroom.resolve_left hk) result expiresAt

theorem setLocked_consistent (h : c.Consistent) (k : Key) (result : ρ) (ttl : Int)
    (choices : SetChoices) : (c.setLocked k result ttl choices).Consistent := by
  obtain ⟨hroom, hspace, _, _⟩ := makeRoom_spec h k choices.evictNow
  exact (hroom.store hspace result (expiry ttl choices)).updateGauge

end NriSupplyChain.Cache
