import NriSupplyChain.Cache.Invariant

/-!
Whole runs of the result cache. Each label is one critical section, so a run
is any interleaving of `Get`, `SetWithTTLAtEpoch`, `DeleteAll`, the background
eviction and `Stop`.
-/

namespace NriSupplyChain.Cache

open Lib

variable {ρ : Type}

/-- The namespace keys `DeleteAll` is documented to remove: the namespace
itself, and its extensions behind the separator. -/
def InNamespace (keyNamespace nameSpace : GoString) : Prop :=
  keyNamespace = nameSpace ∨ ∃ rest, keyNamespace = nameSpace ++ 0 :: rest

theorem namespaceKeyMatches_iff (keyNamespace nameSpace : GoString) :
    namespaceKeyMatches keyNamespace nameSpace = true ↔ InNamespace keyNamespace nameSpace := by
  unfold namespaceKeyMatches cutPrefix InNamespace
  by_cases hpre : nameSpace <+: keyNamespace
  · obtain ⟨rest, rfl⟩ := hpre
    rw [if_pos (by simp [List.isPrefixOf_iff_prefix])]
    cases rest with
    | nil => simp
    | cons b tail => simp [eq_comm]
  · rw [if_neg (by simpa [List.isPrefixOf_iff_prefix] using hpre)]
    constructor
    · intro hfalse
      cases hfalse
    · rintro (rfl | ⟨rest, rfl⟩)
      · exact absurd List.prefix_rfl hpre
      · exact absurd (List.prefix_append _ _) hpre

/-- The loop of `DeleteAll` over distinct present keys removes the matching
ones and nothing else. -/
theorem foldl_deleteMatching_spec (nameSpace : GoString) {order : List Key}
    (hnodup : order.Nodup) (acc : Cache ρ × Nat) (hacc : acc.1.Consistent)
    (hpresent : ∀ k ∈ order, k ∈ acc.1.entries) :
    (order.foldl (deleteMatching nameSpace) acc).1.Consistent ∧
      (∀ k, (order.foldl (deleteMatching nameSpace) acc).1.entries.lookup k =
        if k ∈ order ∧ namespaceKeyMatches k.nameSpace nameSpace = true then none
        else acc.1.entries.lookup k) ∧
      (order.foldl (deleteMatching nameSpace) acc).1.epochs = acc.1.epochs := by
  induction order generalizing acc with
  | nil => exact ⟨hacc, fun k => by simp, rfl⟩
  | cons k rest ih =>
    obtain ⟨hk, hrest⟩ := List.nodup_cons.mp hnodup
    rw [List.foldl_cons]
    by_cases hmatch : namespaceKeyMatches k.nameSpace nameSpace = true
    · obtain ⟨p, hp⟩ := exists_lookup ((hacc.entries_iff k).mp (hpresent k (by simp)))
      obtain ⟨heap, hdrop, hremove⟩ := removeLocked_present hacc hp
      have hround : deleteMatching nameSpace acc k = (acc.1.without k heap, acc.2 + 1) := by
        rw [deleteMatching, if_pos hmatch, hremove]
      rw [hround]
      obtain ⟨hcons, hlookup, hepochs⟩ := ih hrest (acc.1.without k heap, acc.2 + 1)
        (hacc.without hp hdrop) (by
          intro k' hk'
          have hne : k' ≠ k := fun heq => hk (heq ▸ hk')
          exact AList.mem_erase.mpr ⟨hne, hpresent k' (List.mem_cons_of_mem k hk')⟩)
      refine ⟨hcons, ?_, hepochs⟩
      intro k'
      rw [hlookup k', without_lookup]
      by_cases hkk : k' = k
      · subst hkk
        simp [hmatch]
      · simp [hkk]
    · have hround : deleteMatching nameSpace acc k = acc := by
        rw [deleteMatching, if_neg hmatch]
      rw [hround]
      obtain ⟨hcons, hlookup, hepochs⟩ := ih hrest acc hacc
        (fun k' hk' => hpresent k' (List.mem_cons_of_mem k hk'))
      refine ⟨hcons, ?_, hepochs⟩
      intro k'
      rw [hlookup k']
      by_cases hkk : k' = k
      · subst hkk
        simp [hk, hmatch]
      · simp [hkk]

/-- `order` lists the keys of the digest, each once. -/
def Enumerates (c : Cache ρ) (digest : GoString) (order : List Key) : Prop :=
  order.Nodup ∧ order.toFinset = c.digestKeys digest

instance (c : Cache ρ) (digest : GoString) (order : List Key) :
    Decidable (c.Enumerates digest order) :=
  inferInstanceAs (Decidable (_ ∧ _))

variable {c : Cache ρ}

/-- `DeleteAll`, in whatever order it ranges over the keys: the entries of the
digest in the namespace are gone, and the epoch has advanced. -/
theorem deleteAll_spec (h : c.Consistent) (digest nameSpace : GoString) {order : List Key}
    (horder : c.Enumerates digest order) :
    (c.deleteAll digest nameSpace order).1.Consistent ∧
      (∀ k, (k.digest = digest ∧ InNamespace k.nameSpace nameSpace →
          (c.deleteAll digest nameSpace order).1.entries.lookup k = none) ∧
        (¬ (k.digest = digest ∧ InNamespace k.nameSpace nameSpace) →
          (c.deleteAll digest nameSpace order).1.entries.lookup k = c.entries.lookup k)) ∧
      (c.deleteAll digest nameSpace order).1.epochs =
        Function.update c.epochs (shardOf digest) (c.epoch digest + 1) := by
  obtain ⟨hnodup, hset⟩ := horder
  have hmem (k : Key) : k ∈ order ↔ k ∈ c.digestKeys digest := by
    rw [← hset, List.mem_toFinset]
  have hpresent : ∀ k ∈ order, k ∈ c.entries := by
    intro k hk
    have hkeys := (hmem k).mp hk
    have hd := h.digest_own digest k hkeys
    rw [h.digest_iff k, hd]
    exact hkeys
  let bumped : Cache ρ := { c with
    epochs := Function.update c.epochs (shardOf digest) (c.epochs (shardOf digest) + 1) }
  have hbumped : bumped.Consistent := { h with }
  obtain ⟨hcons, hlookup, hepochs⟩ := foldl_deleteMatching_spec nameSpace hnodup
    (bumped, 0) hbumped hpresent
  have hdeleted : (c.deleteAll digest nameSpace order).1 =
        (order.foldl (deleteMatching nameSpace) (bumped, 0)).1.updateGaugeLocked ∨
      (c.deleteAll digest nameSpace order).1 =
        (order.foldl (deleteMatching nameSpace) (bumped, 0)).1 := by
    unfold deleteAll
    dsimp only
    split
    · exact Or.inl rfl
    · exact Or.inr rfl
  have hentries : (c.deleteAll digest nameSpace order).1.entries =
      (order.foldl (deleteMatching nameSpace) (bumped, 0)).1.entries := by
    rcases hdeleted with heq | heq <;> rw [heq]
    exact updateGauge_entries _
  refine ⟨?_, ?_, ?_⟩
  · rcases hdeleted with heq | heq <;> rw [heq]
    · exact hcons.updateGauge
    · exact hcons
  · intro k
    rw [hentries, hlookup k]
    have hmatch := namespaceKeyMatches_iff k.nameSpace nameSpace
    constructor
    · rintro ⟨hd, hns⟩
      by_cases hk : k ∈ order
      · rw [if_pos ⟨hk, hmatch.mpr hns⟩]
      · rw [if_neg (fun hboth => hk hboth.1)]
        apply AList.lookup_eq_none.mpr
        intro hentry
        rw [hmem, ← hd] at hk
        exact hk ((h.digest_iff k).mp hentry)
    · intro hnot
      rw [if_neg]
      rintro ⟨hk, hns⟩
      exact hnot ⟨h.digest_own digest k ((hmem k).mp hk), hmatch.mp hns⟩
  · have hgauge (c' : Cache ρ) : c'.updateGaugeLocked.epochs = c'.epochs := by
      unfold updateGaugeLocked
      split <;> rfl
    rcases hdeleted with heq | heq <;> rw [heq]
    · rw [hgauge, hepochs]
      rfl
    · rw [hepochs]
      rfl

/-- The cache lost entries at most, and no epoch moved. -/
structure Shrinks (before after : Cache ρ) : Prop where
  epochs : after.epochs = before.epochs
  entries : ∀ k e, after.entries.lookup k = some e → before.entries.lookup k = some e

theorem Shrinks.refl (c : Cache ρ) : Shrinks c c := ⟨rfl, fun _ _ he => he⟩

theorem Shrinks.trans {a b : Cache ρ} (hab : Shrinks a b) (hbc : Shrinks b c) : Shrinks a c :=
  ⟨hbc.epochs.trans hab.epochs, fun k e he => hab.entries k e (hbc.entries k e he)⟩

theorem updateGauge_shrinks (c : Cache ρ) : Shrinks c c.updateGaugeLocked := by
  refine ⟨?_, fun k e he => by rwa [updateGauge_entries] at he⟩
  unfold updateGaugeLocked
  split <;> rfl

theorem evictExpired_shrinks (h : c.Consistent) (now : Int) :
    Shrinks c (c.evictExpiredLocked now) := by
  obtain ⟨_, hlookup, _, hepochs⟩ := evictExpired_spec h now
  refine ⟨hepochs, ?_⟩
  intro k e he
  rw [hlookup k] at he
  exact (Option.filter_eq_some_iff.mp he).1

theorem makeRoom_shrinks (h : c.Consistent) (k : Key) (now : Int) :
    Shrinks c (c.makeRoom k now) := by
  unfold makeRoom
  split
  · obtain ⟨hevicted, _⟩ := evictExpired_spec h now
    have hshrinks := evictExpired_shrinks h now
    have hpos := hevicted.maxSize_pos
    dsimp only
    split
    · next hstill =>
      obtain ⟨⟨victim, _, _, _, hlookup⟩, _, _, _, hepochs⟩ :=
        evictSoonest_earliest hevicted (by omega)
      refine hshrinks.trans ⟨hepochs, ?_⟩
      intro k' e he
      rw [hlookup k'] at he
      split at he
      · cases he
      · exact he
    · exact hshrinks
  · exact Shrinks.refl c

/-- What `SetWithTTLAtEpoch` can do: nothing, or, at the current epoch, add the
one entry. -/
theorem set_spec (h : c.Consistent) (k : Key) (result : ρ) (ttl : Int) (epoch : Nat)
    (choices : SetChoices) :
    (c.setWithTTLAtEpoch k result ttl epoch choices).1 = c ∨
      (c.epoch k.digest = epoch ∧
        (c.setWithTTLAtEpoch k result ttl epoch choices).1.epochs = c.epochs ∧
        ∀ k' e, (c.setWithTTLAtEpoch k result ttl epoch choices).1.entries.lookup k' = some e →
          (k' = k ∧ e.result = result) ∨ c.entries.lookup k' = some e) := by
  unfold setWithTTLAtEpoch
  split
  · exact Or.inl rfl
  · split
    · exact Or.inl rfl
    · next hepoch =>
      right
      have hroom := makeRoom_shrinks h k choices.evictNow
      refine ⟨not_not.mp hepoch, ?_, ?_⟩
      · have hstore (c' : Cache ρ) (x : Int) : (c'.store k result x).epochs = c'.epochs := by
          unfold store
          split <;> rfl
        rw [setLocked, (updateGauge_shrinks _).epochs, hstore, hroom.epochs]
      · intro k' e he
        rw [setLocked, updateGauge_entries, store_lookup] at he
        split at he
        · next hk =>
          cases he
          exact Or.inl ⟨hk, rfl⟩
        · exact Or.inr (hroom.entries k' e he)

theorem set_consistent (h : c.Consistent) (k : Key) (result : ρ) (ttl : Int) (epoch : Nat)
    (choices : SetChoices) : (c.setWithTTLAtEpoch k result ttl epoch choices).1.Consistent := by
  unfold setWithTTLAtEpoch
  split
  · exact h
  · split
    · exact h
    · exact setLocked_consistent h k result ttl choices

inductive CacheOp (ρ : Type) where
  | getRead (k : Key) (now : Int)
  | getLocked (k : Key) (now : Int)
  | setWithTTLAtEpoch (k : Key) (result : ρ) (ttl : Int) (epoch : Nat) (choices : SetChoices)
  | deleteAll (digest nameSpace : GoString) (order : List Key)
  | backgroundEvict (now : Int)
  | stop

def step (c : Cache ρ) : CacheOp ρ → Option (Cache ρ)
  | .getRead _ _ => some c
  | .getLocked k now => some (c.getLocked k now).1
  | .setWithTTLAtEpoch k result ttl epoch choices =>
    some (c.setWithTTLAtEpoch k result ttl epoch choices).1
  | .deleteAll digest nameSpace order =>
    if c.Enumerates digest order then some (c.deleteAll digest nameSpace order).1 else none
  | .backgroundEvict now => some (c.backgroundEvict now)
  | .stop => some c.stop

def resultCache (ρ : Type) : Machine (Cache ρ) (CacheOp ρ) where
  initial c := ∃ maxSize, c = Cache.new maxSize
  step := step

theorem getLocked_consistent (h : c.Consistent) (k : Key) (now : Int) :
    (c.getLocked k now).1.Consistent := by
  unfold getLocked
  cases he : c.entries.lookup k with
  | none => exact h
  | some e =>
    dsimp only
    split
    · obtain ⟨p, hp, _⟩ := h.pointer_of_entry he
      obtain ⟨heap, hdrop, hremove⟩ := removeLocked_present h hp
      rw [hremove]
      exact (h.without hp hdrop).updateGauge
    · exact h

/-- The write-locked part of `Get` drops at most the entry it was asked for, and
what it returns was in the cache. -/
theorem getLocked_shrinks (h : c.Consistent) (k : Key) (now : Int) :
    Shrinks c (c.getLocked k now).1 ∧
      ∀ result, (c.getLocked k now).2 = some result →
        ∃ e, c.entries.lookup k = some e ∧ e.result = result := by
  unfold getLocked
  cases he : c.entries.lookup k with
  | none => exact ⟨Shrinks.refl c, fun result hresult => by cases hresult⟩
  | some e =>
    dsimp only
    split
    · refine ⟨?_, fun result hresult => by cases hresult⟩
      obtain ⟨p, hp, _⟩ := h.pointer_of_entry he
      obtain ⟨heap, _, hremove⟩ := removeLocked_present h hp
      rw [hremove]
      refine Shrinks.trans (b := c.without k heap) ⟨rfl, ?_⟩ (updateGauge_shrinks _)
      intro k' e' he'
      rw [without_lookup] at he'
      split at he'
      · cases he'
      · exact he'
    · refine ⟨Shrinks.refl c, ?_⟩
      rintro result ⟨⟩
      exact ⟨e, rfl, rfl⟩

theorem step_consistent (c : Cache ρ) (op : CacheOp ρ) (next : Cache ρ) (h : c.Consistent)
    (hstep : c.step op = some next) : next.Consistent := by
  cases op with
  | getRead k now =>
    cases hstep
    exact h
  | getLocked k now =>
    cases hstep
    exact getLocked_consistent h k now
  | setWithTTLAtEpoch k result ttl epoch choices =>
    cases hstep
    exact set_consistent h k result ttl epoch choices
  | deleteAll digest nameSpace order =>
    simp only [step] at hstep
    split at hstep
    · next horder =>
      cases hstep
      exact (deleteAll_spec h digest nameSpace horder).1
    · cases hstep
  | backgroundEvict now =>
    cases hstep
    exact (evictExpired_spec h now).1.updateGauge
  | stop =>
    cases hstep
    exact { h with }

theorem reachable_consistent (h : (resultCache ρ).Reachable c) : c.Consistent :=
  Machine.Reachable.invariant
    (by rintro _ ⟨maxSize, rfl⟩; exact new_consistent maxSize) step_consistent h

/-- A store into a full cache: the expired entries go first; if that leaves the
cache full, one more entry goes, and it expires no later than any other. -/
theorem setLocked_evicts_earliest (h : c.Consistent) {k : Key} (result : ρ) (ttl : Int)
    (choices : SetChoices) (hnew : k ∉ c.entries) (hfull : c.maxSize ≤ c.size)
    (hstill : c.maxSize ≤ (c.evictExpiredLocked choices.evictNow).size) :
    ∃ room, EvictsEarliest (c.evictExpiredLocked choices.evictNow) room ∧
      ∀ k', (c.setLocked k result ttl choices).entries.lookup k' =
        if k' = k then some ⟨result, expiry ttl choices⟩ else room.entries.lookup k' := by
  obtain ⟨hevicted, _, hmax, _⟩ := evictExpired_spec h choices.evictNow
  have hpos := h.maxSize_pos
  refine ⟨_, (evictSoonest_earliest hevicted (by omega)).1, ?_⟩
  intro k'
  have hroom : c.makeRoom k choices.evictNow =
      (c.evictExpiredLocked choices.evictNow).evictSoonestExpiringLocked := by
    unfold makeRoom
    rw [if_pos ⟨hnew, hfull⟩]
    dsimp only
    rw [if_pos (by rw [hmax]; exact hstill)]
  rw [setLocked, updateGauge_entries, store_lookup, hroom]

/-- In every state a run of the cache reaches: the four structures agree, a
capacity eviction removes an entry with the earliest expiry, and `DeleteAll`
removes exactly the entries of its digest and namespace. -/
theorem cache_structures_agree {c : Cache ρ} (h : (resultCache ρ).Reachable c) :
    c.Consistent ∧
    (∀ k result ttl epoch choices,
      (c.setWithTTLAtEpoch k result ttl epoch choices).2 = true → k ∉ c.entries →
        c.maxSize ≤ c.size → c.maxSize ≤ (c.evictExpiredLocked choices.evictNow).size →
        ∃ room, EvictsEarliest (c.evictExpiredLocked choices.evictNow) room ∧
          ∀ k', (c.setWithTTLAtEpoch k result ttl epoch choices).1.entries.lookup k' =
            if k' = k then some ⟨result, expiry ttl choices⟩ else room.entries.lookup k') ∧
    (∀ digest nameSpace order next, c.step (.deleteAll digest nameSpace order) = some next →
      ∀ k, (k.digest = digest ∧ InNamespace k.nameSpace nameSpace →
          next.entries.lookup k = none) ∧
        (¬ (k.digest = digest ∧ InNamespace k.nameSpace nameSpace) →
          next.entries.lookup k = c.entries.lookup k)) := by
  have hcons := reachable_consistent h
  refine ⟨hcons, ?_, ?_⟩
  · intro k result ttl epoch choices hstored hnew hfull hstill
    have hset : (c.setWithTTLAtEpoch k result ttl epoch choices).1 =
        c.setLocked k result ttl choices := by
      unfold setWithTTLAtEpoch at hstored ⊢
      split at hstored
      · cases hstored
      · next httl =>
        split at hstored
        · cases hstored
        · next hepoch => rw [if_neg httl, if_neg hepoch]
    rw [hset]
    exact setLocked_evicts_earliest hcons result ttl choices hnew hfull hstill
  · intro digest nameSpace order next hstep
    simp only [step] at hstep
    split at hstep
    · next horder =>
      cases hstep
      exact (deleteAll_spec hcons digest nameSpace horder).2.1
    · cases hstep

/-- Two keys of one digest fill a cache of size two; storing a third evicts the
one that expires first, and invalidating the first namespace removes the
matching one of the rest. -/
def fullCacheRun : List (CacheOp Nat) :=
  [.setWithTTLAtEpoch ⟨[1], [7]⟩ 10 100 0 ⟨0, 0, 0⟩,
    .setWithTTLAtEpoch ⟨[1], [7, 0, 8]⟩ 11 300 0 ⟨0, 0, 0⟩,
    .setWithTTLAtEpoch ⟨[1], [7, 8]⟩ 12 200 0 ⟨50, 50, 0⟩,
    .deleteAll [1] [7] [⟨[1], [7, 8]⟩, ⟨[1], [7, 0, 8]⟩]]

theorem fullCacheRun_reachable {c : Cache Nat}
    (h : (resultCache Nat).exec (Cache.new 2) fullCacheRun = some c) :
    (resultCache Nat).Reachable c :=
  Machine.Reachable.exec (Machine.ReachableVia.start ⟨2, rfl⟩) h

theorem fullCache_agrees :
    ∃ c, (resultCache Nat).exec (Cache.new 2) fullCacheRun = some c ∧ c.Consistent ∧
      c.entries.keys = [⟨[1], [7, 8]⟩] :=
  ⟨_, rfl, (cache_structures_agree (fullCacheRun_reachable rfl)).1, rfl⟩

/-- The calls that store an entry for a key, at the current epoch of its digest. -/
def Stores (k : Key) (e : Entry ρ) (c : Cache ρ) (op : CacheOp ρ) : Prop :=
  ∃ ttl choices, op = .setWithTTLAtEpoch k e.result ttl (c.epoch k.digest) choices ∧ 0 < ttl ∧
    e.expiresAt = expiry ttl choices

/-- The calls that neither store an entry for a key nor invalidate it. -/
def Keeps (k : Key) (c : Cache ρ) : CacheOp ρ → Prop
  | .setWithTTLAtEpoch k' result ttl epoch choices =>
    k' = k → (c.setWithTTLAtEpoch k' result ttl epoch choices).2 = false
  | .deleteAll digest nameSpace _ => ¬(k.digest = digest ∧ InNamespace k.nameSpace nameSpace)
  | _ => True

theorem step_entry {next : Cache ρ} {op : CacheOp ρ} {k : Key} {e : Entry ρ} (h : c.Consistent)
    (hstep : c.step op = some next) (he : next.entries.lookup k = some e) :
    c.entries.lookup k = some e ∧ c.Keeps k op ∨ c.Stores k e op := by
  cases op with
  | getRead _ _ | stop =>
    cases hstep
    exact .inl ⟨he, trivial⟩
  | getLocked k' now =>
    cases hstep
    exact .inl ⟨(getLocked_shrinks h k' now).1.entries k e he, trivial⟩
  | backgroundEvict now =>
    cases hstep
    have hshrinks := (evictExpired_shrinks h now).trans (updateGauge_shrinks _)
    exact .inl ⟨hshrinks.entries k e he, trivial⟩
  | deleteAll digest nameSpace order =>
    obtain ⟨horder, ⟨⟩⟩ := Option.ite_none_right_eq_some.mp hstep
    obtain ⟨hgone, hkept⟩ := (deleteAll_spec h digest nameSpace horder).2.1 k
    by_cases hcovered : k.digest = digest ∧ InNamespace k.nameSpace nameSpace
    · cases (hgone hcovered).symm.trans he
    · exact .inl ⟨hkept hcovered ▸ he, hcovered⟩
  | setWithTTLAtEpoch k' result ttl epoch choices =>
    cases hstep
    simp only [Keeps, setWithTTLAtEpoch] at he ⊢
    split_ifs at he ⊢ with httl hepoch
    · exact .inl ⟨he, fun _ => rfl⟩
    · exact .inl ⟨he, fun _ => rfl⟩
    · rw [setLocked, updateGauge_entries, store_lookup] at he
      split at he
      · next hk =>
        cases he
        subst hk
        exact .inr ⟨ttl, choices, by rw [← not_not.mp hepoch, Cache.epoch], by omega, rfl⟩
      · next hk =>
        exact .inl ⟨(makeRoom_shrinks h k' _).entries k e he, fun hsame => absurd hsame.symm hk⟩

/-- What `Get` returns for a key was stored for it and has not expired, and since then
nothing was stored for the key and no invalidation covered it. -/
theorem hit_stored {maxSize now : Int} {ops : List (CacheOp ρ)} {k : Key} {result : ρ}
    (hrun : (resultCache ρ).exec (Cache.new maxSize) ops = some c)
    (hhit : c.getRead k now = .valid result ∨ (c.getLocked k now).2 = some result) :
    ∃ e : Entry ρ, e.result = result ∧ now ≤ e.expiresAt ∧
      (resultCache ρ).Since (Stores k e) (Keeps k) (Cache.new maxSize) ops := by
  unfold getRead getLocked at hhit
  cases he : c.entries.lookup k with
  | none => simp [he] at hhit
  | some e =>
    by_cases hexpired : e.expiresAt < now
    · simp [he, hexpired] at hhit
    · refine ⟨e, by simpa [he, hexpired] using hhit, Int.not_lt.mp hexpired, ?_⟩
      refine (Machine.exec_since (P := fun c : Cache ρ => c.entries.lookup k = some e)
        step_consistent (fun _ _ _ h hstep => step_entry h hstep) (new_consistent maxSize) hrun
        he).resolve_left ?_
      rintro ⟨⟨⟩, -⟩

theorem hit_stored_full : ∃ e : Entry Nat, e.result = 12 ∧ 60 ≤ e.expiresAt ∧
    (resultCache Nat).Since (Stores ⟨[1], [7, 8]⟩ e) (Keeps ⟨[1], [7, 8]⟩) (Cache.new 2)
      fullCacheRun :=
  hit_stored rfl (.inl rfl)

end NriSupplyChain.Cache
