import NriSupplyChain.Lib.Machine

/-!
Rollback protection of OCI policies. The fetcher of the running poller holds the
creation time of the newest artifact that was applied and refuses older ones; a
reload stops the poller, builds a new fetcher from its time and starts a new poller
on success or the old one on failure.

A reload to a configuration that needs no fetcher (verification off, or local
policies) leaves no poller behind, and with it goes the time.

Times are nanoseconds after Go's zero time, which stands for a missing annotation.
-/

namespace NriSupplyChain.PolicyPoll

open Lib

/-- A signed and well-formed policy artifact. -/
structure Artifact where
  digest : List Char
  /-- The creation annotation, if there is one. -/
  annotated : Option Int

def zeroTime : Int := 0

/-- `artifactCreated`. -/
def Artifact.created (a : Artifact) : Int := a.annotated.getD zeroTime

structure OCIFetcher where
  newestCreated : Int

def newOCIFetcher : OCIFetcher := ⟨zeroTime⟩

def maxCreatedClockSkew : Int := 300000000000

inductive RollbackError where
  | inFuture (created : Int)
  | missingCreated (newest : Int)
  | older (created newest : Int)

namespace OCIFetcher

def seedNewestCreated (f : OCIFetcher) (created : Int) : OCIFetcher :=
  if f.newestCreated < created then ⟨created⟩ else f

def checkRollback (f : OCIFetcher) (now created : Int) : Except RollbackError Unit :=
  if now + maxCreatedClockSkew < created then .error (.inFuture created)
  else if f.newestCreated = zeroTime then .ok ()
  else if created = zeroTime then .error (.missingCreated f.newestCreated)
  else if created < f.newestCreated then .error (.older created f.newestCreated)
  else .ok ()

/-- The artifact that was pulled, unless pulling it failed or the guard refuses
it. -/
def fetchFromOCI (f : OCIFetcher) (now : Int) (pulled : Option Artifact) : Option Artifact :=
  match pulled with
  | none => none
  | some a =>
    match f.checkRollback now a.created with
    | .error _ => none
    | .ok _ => some a

end OCIFetcher

structure PolicyPoller where
  fetcher : OCIFetcher
  ociRef : List Char
  cachedDigest : List Char

inductive PolicySource where
  | file
  | oci
deriving DecidableEq

structure PolicyConfig where
  /-- Whether verification is enabled. -/
  enabled : Bool
  source : PolicySource
  ociRef : List Char

structure LoadedPolicies where
  policyFetcher : Option OCIFetcher
  ociDigest : List Char
  /-- The artifact the policies come from; no modelled function reads it. -/
  artifact : Option Artifact

def pollerRollbackSeed (current : Option PolicyPoller) (ociRef : List Char) : Int :=
  match current with
  | none => zeroTime
  | some p => if p.ociRef = ociRef then p.fetcher.newestCreated else zeroTime

/-- `valid` says whether local policies can be read and the policies pass
validation. -/
def loadAndHashPolicies (cfg : PolicyConfig) (rollbackSeed now : Int) (pulled : Option Artifact)
    (valid : Bool) : Option LoadedPolicies :=
  if !cfg.enabled then some ⟨none, [], none⟩
  else if cfg.source = .oci then
    let policyFetcher := newOCIFetcher.seedNewestCreated rollbackSeed
    match policyFetcher.fetchFromOCI now pulled with
    | none => none
    | some a =>
      if valid then some ⟨some (policyFetcher.seedNewestCreated a.created), a.digest, some a⟩
      else none
  else if valid then some ⟨none, [], none⟩ else none

def startPoller (cfg : PolicyConfig) (loaded : LoadedPolicies) : Option PolicyPoller :=
  if cfg.source = .oci then
    loaded.policyFetcher.map fun policyFetcher => ⟨policyFetcher, cfg.ociRef, loaded.ociDigest⟩
  else none

structure PolicyState where
  poller : Option PolicyPoller
  /-- The artifacts applied since startup, the last one first; no modelled function
  reads them. -/
  applied : List Artifact

inductive PolicyEvent where
  /-- One poll: the digest of the reference, the artifact behind it, and whether the
  update is accepted. -/
  | poll (head : Option (List Char)) (pulled : Option Artifact) (now : Int) (accepted : Bool)
  /-- A reload; `published` says whether everything after the policies succeeded. -/
  | reload (cfg : PolicyConfig) (pulled : Option Artifact) (now : Int) (valid published : Bool)

namespace PolicyState

def fetchAndApply (s : PolicyState) (p : PolicyPoller) (pulled : Option Artifact) (now : Int)
    (accepted : Bool) : PolicyState :=
  match p.fetcher.fetchFromOCI now pulled with
  | none => s
  | some a =>
    if a.digest = p.cachedDigest then s
    else if !accepted then s
    else
      { poller := some { p with
          fetcher := p.fetcher.seedNewestCreated a.created, cachedDigest := a.digest }
        applied := a :: s.applied }

def poll (s : PolicyState) (p : PolicyPoller) (head : Option (List Char))
    (pulled : Option Artifact) (now : Int) (accepted : Bool) : PolicyState :=
  match head with
  | none => s
  | some digest =>
    if digest = p.cachedDigest then s else s.fetchAndApply p pulled now accepted

/-- A failed reload resumes the poller it paused. -/
def reload (s : PolicyState) (cfg : PolicyConfig) (pulled : Option Artifact) (now : Int)
    (valid published : Bool) : PolicyState :=
  match loadAndHashPolicies cfg (pollerRollbackSeed s.poller cfg.ociRef) now pulled valid with
  | none => s
  | some loaded =>
    if published then ⟨startPoller cfg loaded, loaded.artifact.toList ++ s.applied⟩ else s

def step (s : PolicyState) : PolicyEvent → Option PolicyState
  | .poll head pulled now accepted => s.poller.map fun p => s.poll p head pulled now accepted
  | .reload cfg pulled now valid published => some (s.reload cfg pulled now valid published)

end PolicyState

/-- A verifier after startup: the policies were loaded, or the registry could not be
reached and the poller is to load them. -/
inductive Started (ref : List Char) : PolicyState → Prop where
  | loaded (cfg : PolicyConfig) (pulled : Option Artifact) (now : Int) (loaded : LoadedPolicies)
      (href : cfg.ociRef = ref)
      (hload : loadAndHashPolicies cfg zeroTime now pulled true = some loaded) :
      Started ref ⟨startPoller cfg loaded, loaded.artifact.toList⟩
  | pending : Started ref ⟨some ⟨newOCIFetcher, ref, []⟩, []⟩

/-- The runs during which the configured reference is `ref`. -/
def PolicyEvent.keepsRef (ref : List Char) : PolicyEvent → Bool
  | .poll _ _ _ _ => true
  | .reload cfg _ _ _ _ => cfg.ociRef = ref

def policyMachine (ref : List Char) : Machine PolicyState PolicyEvent where
  initial := Started ref
  step s e := if e.keepsRef ref then s.step e else none

/-- `later` may be applied after `earlier`: it is not older, and it is annotated if
`earlier` is. -/
def Artifact.Follows (later earlier : Artifact) : Prop :=
  ∀ t, earlier.annotated = some t → ∃ u, later.annotated = some u ∧ t ≤ u

/-- No artifact was applied after a newer or, without an annotation, after an
annotated one. -/
def PolicyState.NeverRolledBack (s : PolicyState) : Prop :=
  s.applied.Pairwise Artifact.Follows

/-- What the guard `newest` lets pass, apart from artifacts of the future. -/
def Permits (newest created : Int) : Prop :=
  newest = zeroTime ∨ (created ≠ zeroTime ∧ newest ≤ created)

theorem seedNewestCreated_eq (f : OCIFetcher) (created : Int) :
    f.seedNewestCreated created = ⟨max f.newestCreated created⟩ := by
  unfold OCIFetcher.seedNewestCreated
  split
  · next h => rw [max_eq_right (Int.le_of_lt h)]
  · next h => rw [max_eq_left (Int.not_lt.mp h)]

variable {seed : Int}

theorem newOCIFetcher_seed (h : 0 ≤ seed) : newOCIFetcher.seedNewestCreated seed = ⟨seed⟩ := by
  rw [seedNewestCreated_eq]
  congr 1
  exact max_eq_right h

theorem checkRollback_ok_iff (f : OCIFetcher) (now created : Int) :
    f.checkRollback now created = .ok () ↔
      created ≤ now + maxCreatedClockSkew ∧ Permits f.newestCreated created := by
  unfold OCIFetcher.checkRollback Permits
  split
  · next h => simp [Int.not_le.mpr h]
  · next h =>
    split
    · next hzero => simp [hzero, Int.not_lt.mp h]
    · next hzero =>
      split
      · next hmissing => simp [hzero, hmissing]
      · next hmissing =>
        split
        · next holder => simp [hzero, Int.not_le.mpr holder]
        · next holder => simp [hmissing, Int.not_lt.mp h, Int.not_lt.mp holder]

theorem fetchFromOCI_eq_some_iff (f : OCIFetcher) (now : Int) (pulled : Option Artifact)
    (a : Artifact) :
    f.fetchFromOCI now pulled = some a ↔
      pulled = some a ∧ a.created ≤ now + maxCreatedClockSkew ∧
        Permits f.newestCreated a.created := by
  rw [← checkRollback_ok_iff]
  unfold OCIFetcher.fetchFromOCI
  cases pulled with
  | none => simp
  | some b =>
    dsimp only
    cases hcheck : f.checkRollback now b.created with
    | error err =>
      refine iff_of_false (by simp) ?_
      rintro ⟨⟨⟩, hok⟩
      rw [hcheck] at hok
      cases hok
    | ok u =>
      constructor
      · rintro ⟨⟩
        exact ⟨rfl, hcheck⟩
      · rintro ⟨⟨⟩, _⟩
        rfl

/-- Loading OCI policies with a guard. -/
theorem loadAndHashPolicies_oci {cfg : PolicyConfig} (henabled : cfg.enabled = true)
    (hsource : cfg.source = .oci) (hseed : 0 ≤ seed) (now : Int) (pulled : Option Artifact)
    (valid : Bool) :
    loadAndHashPolicies cfg seed now pulled valid =
      match (OCIFetcher.mk seed).fetchFromOCI now pulled with
      | none => none
      | some a => if valid then some ⟨some ⟨max seed a.created⟩, a.digest, some a⟩ else none := by
  unfold loadAndHashPolicies
  rw [newOCIFetcher_seed hseed]
  simp only [henabled, hsource, Bool.not_true, Bool.false_eq_true, if_false, if_true,
    seedNewestCreated_eq]

/-- Without OCI policies there is no fetcher. -/
theorem loadAndHashPolicies_other {cfg : PolicyConfig}
    (h : ¬(cfg.enabled = true ∧ cfg.source = .oci)) {now : Int} {pulled : Option Artifact}
    {valid : Bool} {loaded : LoadedPolicies}
    (hload : loadAndHashPolicies cfg seed now pulled valid = some loaded) :
    loaded = ⟨none, [], none⟩ := by
  unfold loadAndHashPolicies at hload
  split at hload
  · exact (Option.some.inj hload).symm
  · next henabled =>
    have hsource : cfg.source ≠ .oci := fun hsource => h ⟨by simpa using henabled, hsource⟩
    rw [if_neg hsource] at hload
    obtain ⟨_, hloaded⟩ := Option.ite_none_right_eq_some.mp hload
    exact (Option.some.inj hloaded).symm

namespace PolicyState

/-- The time the next artifact is compared with. -/
def guardTime (s : PolicyState) (ref : List Char) : Int := pollerRollbackSeed s.poller ref

/-- The artifact a step applies unless the guard refuses it. -/
def Offers (s : PolicyState) (a : Artifact) : PolicyEvent → Prop
  | .poll head pulled now accepted =>
    (∃ p digest, s.poller = some p ∧ head = some digest ∧ digest ≠ p.cachedDigest ∧
      a.digest ≠ p.cachedDigest) ∧
    accepted = true ∧ pulled = some a ∧ a.created ≤ now + maxCreatedClockSkew
  | .reload cfg pulled now valid published =>
    (cfg.enabled = true ∧ cfg.source = .oci ∧ valid = true ∧ published = true) ∧
    pulled = some a ∧ a.created ≤ now + maxCreatedClockSkew

variable {e : PolicyEvent} {s : PolicyState}

theorem Offers.unique {a b : Artifact} (ha : s.Offers a e) (hb : s.Offers b e) : a = b := by
  cases e with
  | poll head pulled now accepted => exact Option.some.inj (ha.2.2.1.symm.trans hb.2.2.1)
  | reload cfg pulled now valid published => exact Option.some.inj (ha.2.1.symm.trans hb.2.1)

/-- What holds in every run: the guard of the running poller comes from an applied
artifact and covers the last one. -/
structure Guarding (ref : List Char) (s : PolicyState) : Prop where
  sameRef : ∀ p, s.poller = some p → p.ociRef = ref
  nonneg : ∀ p, s.poller = some p → 0 ≤ p.fetcher.newestCreated
  covers : ∀ p a rest, s.poller = some p → s.applied = a :: rest →
    a.created ≤ p.fetcher.newestCreated
  comesFrom : ∀ p, s.poller = some p → 0 < p.fetcher.newestCreated →
    ∃ a ∈ s.applied, a.annotated = some p.fetcher.newestCreated

variable {ref : List Char}

theorem Guarding.guardTime_eq (h : s.Guarding ref) {p : PolicyPoller} (hp : s.poller = some p) :
    s.guardTime ref = p.fetcher.newestCreated := by
  rw [guardTime, hp]
  exact if_pos (h.sameRef p hp)

theorem guardTime_stopped (h : s.poller = none) (ref : List Char) : s.guardTime ref = 0 := by
  rw [guardTime, h]
  rfl

theorem Guarding.guardTime_nonneg (h : s.Guarding ref) : 0 ≤ s.guardTime ref := by
  cases hp : s.poller with
  | none => rw [guardTime_stopped hp]
  | some p =>
    rw [h.guardTime_eq hp]
    exact h.nonneg p hp

/-- What a step does: it applies the artifact on offer and raises the guard, or it
applies nothing. -/
inductive Effect (ref : List Char) (s : PolicyState) (e : PolicyEvent) (t : PolicyState) :
    Prop where
  | applies (a : Artifact) (digest : List Char) (hoffers : s.Offers a e)
      (hpermits : Permits (s.guardTime ref) a.created)
      (ht : t = ⟨some ⟨⟨max (s.guardTime ref) a.created⟩, ref, digest⟩, a :: s.applied⟩)
  | keeps (hpoller : t.poller = s.poller ∨ t.poller = none) (happlied : t.applied = s.applied)
      (hrefused : ∀ a, s.Offers a e → ¬Permits (s.guardTime ref) a.created)

theorem Effect.unchanged (hrefused : ∀ a, s.Offers a e → ¬Permits (s.guardTime ref) a.created) :
    Effect ref s e s :=
  .keeps (.inl rfl) rfl hrefused

theorem poll_effect (h : s.Guarding ref) {p : PolicyPoller} (hp : s.poller = some p)
    (head : Option (List Char)) (pulled : Option Artifact) (now : Int) (accepted : Bool) :
    Effect ref s (.poll head pulled now accepted) (s.poll p head pulled now accepted) := by
  have hguard := h.guardTime_eq hp
  unfold PolicyState.poll
  cases head with
  | none => exact .unchanged (by grind [Offers])
  | some digest =>
    dsimp only
    split
    · exact .unchanged (by grind [Offers])
    · next hchanged =>
      unfold fetchAndApply
      cases hfetch : p.fetcher.fetchFromOCI now pulled with
      | none => exact .unchanged (by grind [Offers, fetchFromOCI_eq_some_iff])
      | some a =>
        obtain ⟨hpulled, hnow, hpermits⟩ := (fetchFromOCI_eq_some_iff _ _ _ a).mp hfetch
        dsimp only
        split
        · exact .unchanged (by grind [Offers])
        · next hnew =>
          split
          · exact .unchanged (by grind [Offers])
          · next haccepted =>
            refine .applies a a.digest ⟨⟨p, digest, hp, rfl, hchanged, hnew⟩,
              by simpa using haccepted, hpulled, hnow⟩ (hguard ▸ hpermits) ?_
            rw [seedNewestCreated_eq, hguard, ← h.sameRef p hp]

theorem reload_effect (h : s.Guarding ref) {cfg : PolicyConfig} (href : cfg.ociRef = ref)
    (pulled : Option Artifact) (now : Int) (valid published : Bool) :
    Effect ref s (.reload cfg pulled now valid published)
      (s.reload cfg pulled now valid published) := by
  have hreload : s.reload cfg pulled now valid published =
      match loadAndHashPolicies cfg (s.guardTime ref) now pulled valid with
      | none => s
      | some loaded =>
        if published then ⟨startPoller cfg loaded, loaded.artifact.toList ++ s.applied⟩
        else s := by
    rw [PolicyState.reload, href, guardTime]
  rw [hreload]
  by_cases hoci : cfg.enabled = true ∧ cfg.source = .oci
  · rw [loadAndHashPolicies_oci hoci.1 hoci.2 h.guardTime_nonneg]
    cases hfetch : (OCIFetcher.mk (s.guardTime ref)).fetchFromOCI now pulled with
    | none => exact .unchanged (by grind [Offers, fetchFromOCI_eq_some_iff])
    | some a =>
      obtain ⟨hpulled, hnow, hpermits⟩ := (fetchFromOCI_eq_some_iff _ _ _ a).mp hfetch
      by_cases hdone : valid = true ∧ published = true
      · simp only [hdone.1, hdone.2, if_true]
        refine .applies a a.digest ⟨⟨hoci.1, hoci.2, rfl, rfl⟩, hpulled, hnow⟩ hpermits ?_
        rw [startPoller, if_pos hoci.2, href]
        rfl
      · have hrefused : ∀ b, s.Offers b (.reload cfg pulled now valid published) →
            ¬Permits (s.guardTime ref) b.created := by grind [Offers]
        cases valid with
        | false => exact .unchanged hrefused
        | true =>
          cases published with
          | false => exact .unchanged hrefused
          | true => exact absurd ⟨rfl, rfl⟩ hdone
  · have hrefused : ∀ b, s.Offers b (.reload cfg pulled now valid published) →
        ¬Permits (s.guardTime ref) b.created := by grind [Offers]
    cases hload : loadAndHashPolicies cfg (s.guardTime ref) now pulled valid with
    | none => exact .unchanged hrefused
    | some loaded =>
      rw [loadAndHashPolicies_other hoci hload]
      cases published with
      | false => exact .unchanged hrefused
      | true =>
        refine .keeps (.inr ?_) rfl hrefused
        simp [startPoller]

theorem step_effect {t : PolicyState} (h : s.Guarding ref)
    (hstep : (policyMachine ref).step s e = some t) : Effect ref s e t := by
  obtain ⟨hkeeps, hstep⟩ := Option.ite_none_right_eq_some.mp hstep
  cases e with
  | poll head pulled now accepted =>
    obtain ⟨p, hp, rfl⟩ := Option.map_eq_some_iff.mp hstep
    exact poll_effect h hp head pulled now accepted
  | reload cfg pulled now valid published =>
    cases hstep
    exact reload_effect h (by simpa [PolicyEvent.keepsRef] using hkeeps) pulled now valid published

/-- The guard after an artifact was applied. -/
theorem guarding_of_applied (h : s.Guarding ref) (a : Artifact) (digest : List Char) :
    Guarding ref ⟨some ⟨⟨max (s.guardTime ref) a.created⟩, ref, digest⟩, a :: s.applied⟩ := by
  constructor
  · rintro p ⟨⟩
    rfl
  · rintro p ⟨⟩
    exact le_max_of_le_left h.guardTime_nonneg
  · rintro p b rest ⟨⟩ ⟨⟩
    exact le_max_right _ _
  · rintro p ⟨⟩ hpositive
    dsimp only at hpositive ⊢
    by_cases hraised : s.guardTime ref < a.created
    · rw [max_eq_right hraised.le] at hpositive ⊢
      refine ⟨a, List.mem_cons_self, ?_⟩
      cases hannotated : a.annotated with
      | none =>
        rw [Artifact.created, hannotated] at hpositive
        exact absurd hpositive (by decide)
      | some t => rw [Artifact.created, hannotated, Option.getD_some]
    · rw [max_eq_left (not_lt.mp hraised)] at hpositive ⊢
      cases hp : s.poller with
      | none =>
        rw [guardTime_stopped hp] at hpositive
        exact absurd hpositive (lt_irrefl 0)
      | some p =>
        rw [h.guardTime_eq hp] at hpositive ⊢
        obtain ⟨b, hb, hcreated⟩ := h.comesFrom p hp hpositive
        exact ⟨b, List.mem_cons_of_mem a hb, hcreated⟩

theorem guarding_of_stopped (h : s.poller = none) : s.Guarding ref := by
  constructor
  · intro p hp
    cases h.symm.trans hp
  · intro p hp
    cases h.symm.trans hp
  · intro p a rest hp
    cases h.symm.trans hp
  · intro p hp
    cases h.symm.trans hp

theorem step_guarding (s : PolicyState) (e : PolicyEvent) (t : PolicyState) (h : s.Guarding ref)
    (hstep : (policyMachine ref).step s e = some t) : t.Guarding ref := by
  cases step_effect h hstep with
  | applies a digest _ _ ht =>
    rw [ht]
    exact guarding_of_applied h a digest
  | keeps hpoller happlied _ =>
    rcases hpoller with hsame | hnone
    · refine ⟨?_, ?_, ?_, ?_⟩ <;> rw [hsame]
      · exact h.sameRef
      · exact h.nonneg
      · rw [happlied]
        exact h.covers
      · rw [happlied]
        exact h.comesFrom
    · exact guarding_of_stopped hnone

theorem guarding_of_started (h : Started ref s) : s.Guarding ref := by
  cases h with
  | pending =>
    constructor
    · rintro p ⟨⟩
      rfl
    · rintro p ⟨⟩
      exact le_refl 0
    · rintro p a rest ⟨⟩ hcons
      cases hcons
    · rintro p ⟨⟩ hpositive
      exact absurd hpositive (lt_irrefl 0)
  | loaded cfg pulled now loaded href hload =>
    by_cases hoci : cfg.enabled = true ∧ cfg.source = .oci
    · rw [loadAndHashPolicies_oci hoci.1 hoci.2 (le_refl zeroTime)] at hload
      split at hload
      · cases hload
      · next a _ =>
        cases hload
        rw [startPoller, if_pos hoci.2, href]
        -- as applied by a verifier that has no poller yet
        exact guarding_of_applied (s := ⟨none, []⟩) (guarding_of_stopped rfl) a a.digest
    · rw [loadAndHashPolicies_other hoci hload]
      refine guarding_of_stopped ?_
      simp [startPoller]

/-- An artifact created after Go's zero time was applied, and the poller that guards
it is running. -/
def Guarded (s : PolicyState) : Prop :=
  s.poller ≠ none ∧ ∃ a ∈ s.applied, ∃ t, a.annotated = some t ∧ 0 < t

theorem Guarding.guardTime_unguarded (h : s.Guarding ref) (hunguarded : ¬s.Guarded) :
    s.guardTime ref = 0 := by
  cases hp : s.poller with
  | none => exact guardTime_stopped hp ref
  | some p =>
    have hnonneg := h.nonneg p hp
    rw [h.guardTime_eq hp]
    by_contra hne
    have hpositive : 0 < p.fetcher.newestCreated := by omega
    obtain ⟨a, ha, hcreated⟩ := h.comesFrom p hp hpositive
    exact hunguarded ⟨by simp [hp], a, ha, _, hcreated, hpositive⟩

/-- A guard that is in place is at least as new as every applied artifact. -/
theorem Guarding.le_guardTime (h : s.Guarding ref) (hordered : s.NeverRolledBack)
    (hrunning : s.poller ≠ none) {b : Artifact} (hb : b ∈ s.applied) {t : Int}
    (ht : b.annotated = some t) : t ≤ s.guardTime ref := by
  obtain ⟨p, hp⟩ := Option.ne_none_iff_exists'.mp hrunning
  rw [h.guardTime_eq hp]
  cases happlied : s.applied with
  | nil =>
    rw [happlied] at hb
    cases hb
  | cons a rest =>
    have hlast := h.covers p a rest hp happlied
    rw [NeverRolledBack, happlied, List.pairwise_cons] at hordered
    rw [happlied] at hb
    rcases List.mem_cons.mp hb with rfl | hrest
    · rw [Artifact.created, ht, Option.getD_some] at hlast
      exact hlast
    · obtain ⟨u, hu, htu⟩ := hordered.1 b hrest t ht
      rw [Artifact.created, hu, Option.getD_some] at hlast
      exact htu.trans hlast

/-- What the guard lets pass while it is in place follows everything applied. -/
theorem Guarding.follows_of_permits (h : s.Guarding ref) (hordered : s.NeverRolledBack)
    (hguarded : s.Guarded) {a : Artifact} (hpermits : Permits (s.guardTime ref) a.created) :
    ∀ b ∈ s.applied, a.Follows b := by
  intro b hb t ht
  have hle := h.le_guardTime hordered hguarded.1 hb ht
  obtain ⟨c, hc, v, hv, hpositive⟩ := hguarded.2
  have hguard := h.le_guardTime hordered hguarded.1 hc hv
  rcases hpermits with hzero | ⟨hcreated, hnewer⟩
  · rw [hzero] at hguard
    exact absurd (lt_of_lt_of_le hpositive hguard) (lt_irrefl 0)
  · cases hannotated : a.annotated with
    | none =>
      rw [Artifact.created, hannotated] at hcreated
      exact absurd rfl hcreated
    | some u =>
      rw [Artifact.created, hannotated, Option.getD_some] at hnewer
      exact ⟨u, rfl, hle.trans hnewer⟩

/-- The condition on a step: an artifact on offer while no guard is in place follows
everything that was applied. -/
def Safe (s : PolicyState) (e : PolicyEvent) : Prop :=
  ∀ a, s.Offers a e → ¬s.Guarded → ∀ b ∈ s.applied, a.Follows b

theorem step_neverRolledBack_iff (s : PolicyState) (e : PolicyEvent) (t : PolicyState)
    (h : s.Guarding ref) (hordered : s.NeverRolledBack)
    (hstep : (policyMachine ref).step s e = some t) : t.NeverRolledBack ↔ s.Safe e := by
  cases step_effect h hstep with
  | applies a digest hoffers hpermits ht =>
    rw [ht, NeverRolledBack, List.pairwise_cons]
    constructor
    · rintro ⟨hfollows, _⟩ b hb _
      cases hoffers.unique hb
      exact hfollows
    · intro hsafe
      refine ⟨?_, hordered⟩
      by_cases hguarded : s.Guarded
      · exact h.follows_of_permits hordered hguarded hpermits
      · exact hsafe a hoffers hguarded
  | keeps _ happlied hrefused =>
    refine iff_of_true ?_ ?_
    · rw [NeverRolledBack, happlied]
      exact hordered
    · intro a hoffers hunguarded
      -- without a guard nothing on offer is refused
      exact absurd (.inl (h.guardTime_unguarded hunguarded)) (hrefused a hoffers)

end PolicyState

/-- In every run with one reference no artifact is applied after a newer one or, without
an annotation, after an annotated one, exactly when this holds for those that are on
offer while no guard is in place: when no poller is running, because verification was
off or the policies were local, or before any artifact created after the zero time
was applied. -/
theorem never_rolled_back_iff {ref : List Char} {s t : PolicyState} {events : List PolicyEvent}
    (hinit : (policyMachine ref).initial s) (hrun : (policyMachine ref).exec s events = some t) :
    (policyMachine ref).Always PolicyState.NeverRolledBack s events ↔
      (policyMachine ref).AllAllowed PolicyState.Safe s events := by
  refine Machine.always_iff_allAllowed PolicyState.step_guarding
    PolicyState.step_neverRolledBack_iff (PolicyState.guarding_of_started hinit) ?_ hrun
  cases hinit with
  | pending => exact .nil
  | loaded cfg pulled now loaded href hload =>
    cases loaded.artifact with
    | none => exact .nil
    | some a => exact List.pairwise_singleton _ a

/-- The configuration with verification on and off. -/
def ociPolicies (enabled : Bool) : PolicyConfig := ⟨enabled, .oci, ['p']⟩

def olderArtifact : Artifact := ⟨['1'], some 1000⟩

def newerArtifact : Artifact := ⟨['2'], some 2000⟩

/-- A verifier that has loaded the newer artifact. -/
def loadedNewer : PolicyState := ⟨some ⟨⟨2000⟩, ['p'], ['2']⟩, [newerArtifact]⟩

theorem started_loadedNewer : Started ['p'] loadedNewer :=
  .loaded (ociPolicies true) (some newerArtifact) 3000 ⟨some ⟨2000⟩, ['2'], some newerArtifact⟩
    rfl rfl

/-- A poll and a reload with the poller in place refuse the older artifact. -/
theorem never_rolled_back_reload :
    (policyMachine ['p']).Always PolicyState.NeverRolledBack loadedNewer
      [.poll (some ['1']) (some olderArtifact) 3000 true,
        .reload (ociPolicies true) (some olderArtifact) 3000 true true] := by
  have hguarded : loadedNewer.Guarded :=
    ⟨by simp [loadedNewer], newerArtifact, by simp [loadedNewer], 2000, rfl, by decide⟩
  refine (never_rolled_back_iff started_loadedNewer rfl).mpr ⟨?_, ?_⟩
  · intro a _ hunguarded
    exact absurd hguarded hunguarded
  rintro _ ⟨⟩
  refine ⟨?_, ?_⟩
  · intro a _ hunguarded
    exact absurd hguarded hunguarded
  · intro _ _
    trivial

/-- Verification is switched off and on again: the guard is gone and the older artifact
is applied. -/
theorem guard_lost_while_disabled :
    ∃ t, (policyMachine ['p']).exec loadedNewer
        [.reload (ociPolicies false) none 3000 true true,
          .reload (ociPolicies true) (some olderArtifact) 3000 true true] = some t ∧
      t.applied = [olderArtifact, newerArtifact] ∧ ¬t.NeverRolledBack := by
  refine ⟨_, rfl, rfl, ?_⟩
  intro h
  obtain ⟨u, hu, hle⟩ := List.rel_of_pairwise_cons h List.mem_cons_self 2000 rfl
  cases hu
  exact absurd hle (by decide)

end NriSupplyChain.PolicyPoll
