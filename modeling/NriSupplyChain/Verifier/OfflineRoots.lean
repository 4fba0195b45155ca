import NriSupplyChain.Attestation.RootOrder

/-!
The issuers a trusted root embedded in an offline bundle may vouch for. They come from
the configured root sources: from the source of the root's name or, for a name no source
has, from what all sources allow. An empty list of issuers is no restriction, so an empty
intersection is kept apart from it.
-/

namespace NriSupplyChain.Verifier

open NriSupplyChain.Types Attestation

structure SigstoreRootSource where
  name : String
  tufMirror : String
  tufRoot : String
  issuers : List String

structure SigstoreConfig where
  tufMirror : String
  tufRoot : String
  roots : List SigstoreRootSource
  includePublicRoot : Option Bool

def SigstoreConfig.effectiveRoots (s : SigstoreConfig) : List SigstoreRootSource :=
  if s.roots ≠ [] then s.roots
  else if s.tufMirror ≠ "" then [⟨"default", s.tufMirror, s.tufRoot, []⟩]
  else if s.tufRoot ≠ "" then [⟨"default", "", s.tufRoot, []⟩]
  else []

def SigstoreConfig.shouldIncludePublicRoot (s : SigstoreConfig) : Bool :=
  s.includePublicRoot.getD true

structure PlannedRoot where
  name : String
  mirror : String
  tufRoot : String
  issuers : List String

def publicRootSourceName : String := "public-sigstore"

/-- The loop of `publicRootIssuers`; an unscoped root ends it without a restriction. -/
def collectPublicIssuers : List SigstoreRootSource → List String → List String
  | [], issuers => issuers
  | root :: rest, issuers =>
    if root.tufMirror ≠ "" then collectPublicIssuers rest issuers
    else if root.issuers = [] then []
    else
      collectPublicIssuers rest (root.issuers.foldl (fun issuers issuer =>
        if issuer ∈ issuers then issuers else issuers ++ [issuer]) issuers)

def publicRootIssuers (roots : List SigstoreRootSource) : List String :=
  collectPublicIssuers roots []

/-- The trusted root sources of a roots configuration. User roots without a mirror describe
the public root when that is included. -/
def planRootSources (cfg : SigstoreConfig) (roots : List SigstoreRootSource) : List PlannedRoot :=
  let includePublic := cfg.shouldIncludePublicRoot
  (if includePublic then [⟨publicRootSourceName, "", "", publicRootIssuers roots⟩] else []) ++
    (roots.filter fun root => !(root.tufMirror == "" && includePublic)).map fun root =>
      ⟨root.name, root.tufMirror, root.tufRoot, root.issuers⟩

structure OfflineRootScope where
  issuers : List String
  keylessDisabled : Bool
  known : Bool

/-- The issuers that the sources so far allow, once one of them is restricted. -/
def intersectIssuers (state : List String × Bool) (planned : PlannedRoot) : List String × Bool :=
  if planned.issuers = [] then state
  else if !state.2 then (planned.issuers, true)
  else (state.1.filter fun issuer => issuer ∈ planned.issuers, true)

def scopeOfflineRoot (cfg : SigstoreConfig) (rootName : String) : OfflineRootScope :=
  if cfg.roots = [] then ⟨[], false, true⟩
  else
    let planned := planRootSources cfg cfg.effectiveRoots
    let named := if rootName ≠ "" then planned.find? fun p => p.name == rootName else none
    match named with
    | some source => ⟨source.issuers, false, true⟩
    | none =>
      let (allowed, restricted) := planned.foldl intersectIssuers ([], false)
      ⟨allowed, restricted && allowed.isEmpty, false⟩

/-- A trusted root loaded from a bundle, with the issuers recorded when it was created. -/
structure TrustedRootSource (Root : Type) where
  name : String
  issuers : List String
  root : Option Root

structure StaticRoot (Root : Type) where
  name : String
  root : Option Root
  issuers : List String
  keylessDisabled : Bool

variable {Root : Type}

def offlineStaticRoot (cfg : SigstoreConfig) (embedded : TrustedRootSource Root) :
    StaticRoot Root :=
  let scope := scopeOfflineRoot cfg embedded.name
  ⟨if embedded.name = "" then "bundle" else embedded.name, embedded.root, scope.issuers,
    scope.keylessDisabled⟩

def offlineStaticRoots (cfg : SigstoreConfig) (embedded : List (TrustedRootSource Root)) :
    List (StaticRoot Root) :=
  embedded.map (offlineStaticRoot cfg)

/-- The source of a static root; a root without material is skipped. -/
def StaticRoot.source (r : StaticRoot Root) : Option (RootSource Root) :=
  r.root.map fun root => ⟨r.name, r.issuers, .ok root, r.keylessDisabled, false⟩

/-- The sources of `VerifyBundleWithStaticRoots`. -/
def staticSources (roots : List (StaticRoot Root)) : List (RootSource Root) :=
  roots.filterMap StaticRoot.source

/-- The source places no restriction, or lists the issuer. -/
def PlannedRoot.Allows (p : PlannedRoot) (issuer : String) : Prop :=
  p.issuers = [] ∨ issuer ∈ p.issuers

/-- What the configuration allows a root of a name to vouch for. -/
def Permitted (cfg : SigstoreConfig) (name issuer : String) : Prop :=
  let planned := planRootSources cfg cfg.effectiveRoots
  (∀ p ∈ planned, p.name = name → p.Allows issuer) ∧
    ((∀ p ∈ planned, p.name ≠ name) → ∀ p ∈ planned, p.Allows issuer)

section intersection

/-- What a fold over sources knows about the issuers they allow. -/
def Intersected (planned : List PlannedRoot) (state : List String × Bool) : Prop :=
  if state.2 then ∀ issuer, issuer ∈ state.1 ↔ ∀ p ∈ planned, p.Allows issuer
  else state.1 = [] ∧ ∀ p ∈ planned, p.issuers = []

theorem Intersected.step {planned : List PlannedRoot} {state : List String × Bool}
    (h : Intersected planned state) (p : PlannedRoot) :
    Intersected (planned ++ [p]) (intersectIssuers state p) := by
  obtain ⟨allowed, restricted⟩ := state
  by_cases hopen : p.issuers = []
  · have hallows : ∀ issuer, p.Allows issuer := fun issuer => .inl hopen
    rw [intersectIssuers, if_pos hopen]
    cases restricted with
    | true =>
      intro issuer
      rw [h issuer, List.forall_mem_append, List.forall_mem_singleton]
      exact ⟨fun hall => ⟨hall, hallows issuer⟩, And.left⟩
    | false =>
      refine ⟨h.1, ?_⟩
      rw [List.forall_mem_append, List.forall_mem_singleton]
      exact ⟨h.2, hopen⟩
  · have hallows : ∀ issuer, p.Allows issuer ↔ issuer ∈ p.issuers := by
      intro issuer
      simp [PlannedRoot.Allows, hopen]
    rw [intersectIssuers, if_neg hopen]
    cases restricted with
    | true =>
      intro issuer
      have hbefore := h issuer
      dsimp only at hbefore
      simp only [Bool.not_true, Bool.false_eq_true, if_false, List.mem_filter, hbefore,
        decide_eq_true_eq, List.forall_mem_append, List.forall_mem_singleton, hallows]
    | false =>
      intro issuer
      have hbefore : ∀ q ∈ planned, q.Allows issuer := fun q hq => .inl (h.2 q hq)
      simp only [Bool.not_false, if_true, List.forall_mem_append, List.forall_mem_singleton,
        hallows]
      exact ⟨fun hmem => ⟨hbefore, hmem⟩, And.right⟩

theorem intersected_foldl (planned : List PlannedRoot) :
    Intersected planned (planned.foldl intersectIssuers ([], false)) := by
  have hrun : ∀ (rest before : List PlannedRoot) (state : List String × Bool),
      Intersected before state →
        Intersected (before ++ rest) (rest.foldl intersectIssuers state) := by
    intro rest
    induction rest with
    | nil =>
      intro before state h
      rwa [List.append_nil]
    | cons p rest ih =>
      intro before state h
      have hnext := ih (before ++ [p]) (intersectIssuers state p) (h.step p)
      rwa [List.append_assoc] at hnext
  exact hrun planned [] ([], false) ⟨rfl, nofun⟩

end intersection

section scope

variable {cfg : SigstoreConfig}

/-- What the scope of an embedded root lets it vouch for. -/
def OfflineRootScope.Vouches (scope : OfflineRootScope) (issuer : String) : Prop :=
  scope.keylessDisabled = false ∧ (scope.issuers = [] ∨ issuer ∈ scope.issuers)

/-- An unmatched root vouches for exactly what all sources allow. -/
theorem vouches_intersection (planned : List PlannedRoot) (issuer : String) :
    OfflineRootScope.Vouches
        ⟨(planned.foldl intersectIssuers ([], false)).1,
          (planned.foldl intersectIssuers ([], false)).2 &&
            (planned.foldl intersectIssuers ([], false)).1.isEmpty, false⟩ issuer ↔
      ∀ p ∈ planned, p.Allows issuer := by
  have hfold := intersected_foldl planned
  generalize planned.foldl intersectIssuers ([], false) = state at hfold ⊢
  obtain ⟨allowed, restricted⟩ := state
  cases restricted with
  | false =>
    obtain ⟨hnone, hopen⟩ := hfold
    refine ⟨fun _ p hp => .inl (hopen p hp), fun _ => ⟨rfl, .inl hnone⟩⟩
  | true =>
    rw [← hfold issuer, OfflineRootScope.Vouches, Bool.true_and]
    dsimp only
    constructor
    · rintro ⟨hsome, hempty | hmem⟩
      · rw [hempty] at hsome
        cases hsome
      · exact hmem
    · intro hmem
      exact ⟨List.isEmpty_eq_false_iff.mpr (List.ne_nil_of_mem hmem), .inr hmem⟩

/-- The scope of an embedded root keeps to what the configuration permits. -/
theorem scopeOfflineRoot_permitted (hroots : cfg.roots ≠ [])
    (hnames : ((planRootSources cfg cfg.effectiveRoots).map PlannedRoot.name).Nodup)
    {name issuer : String} (h : (scopeOfflineRoot cfg name).Vouches issuer) :
    Permitted cfg name issuer := by
  unfold scopeOfflineRoot at h
  rw [if_neg hroots] at h
  dsimp only at h
  split at h
  · next source hnamed =>
    split at hnamed
    · have hsource := List.mem_of_find?_eq_some hnamed
      have hname : source.name = name := by simpa using List.find?_some hnamed
      have hallows : source.Allows issuer := h.2
      refine ⟨?_, fun hunmatched => absurd hname (hunmatched source hsource)⟩
      intro p hp hpname
      rwa [List.inj_on_of_nodup_map hnames hp hsource (hpname.trans hname.symm)]
    · cases hnamed
  · have hall := (vouches_intersection _ issuer).mp h
    exact ⟨fun p hp _ => hall p hp, fun _ => hall⟩

/-- The source of an embedded root has the scope of the configuration. -/
theorem source_vouches {e : TrustedRootSource Root} {src : RootSource Root} {issuer : String}
    (hsrc : (offlineStaticRoot cfg e).source = some src) (h : src.Vouches issuer) :
    (scopeOfflineRoot cfg e.name).Vouches issuer := by
  obtain ⟨root, -, rfl⟩ := Option.map_eq_some_iff.mp hsrc
  exact h

end scope

section results

variable {Bundle ArtifactPolicy Root Key : Type} {cfg : SigstoreConfig}

/-- A certificate is accepted through an embedded root only for issuers of the policy that
the configured sources permit, whatever issuers the bundle records; a root that is named
after no source accepts no certificate when the sources agree on no issuer. -/
theorem offline_roots_permitted (hroots : cfg.roots ≠ [])
    (hnames : ((planRootSources cfg cfg.effectiveRoots).map PlannedRoot.name).Nodup)
    (lib : Sigstore Bundle ArtifactPolicy Root) (files : KeyFiles Key) (now : Int) (bndl : Bundle)
    (opts : FetchOptions) (art : ArtifactPolicy) (embedded : List (TrustedRootSource Root)) :
    (∀ e ∈ embedded, ∀ src, (offlineStaticRoot cfg e).source = some src → ∀ hasTlog signer,
      verifyKeylessWithRoot lib bndl opts art src hasTlog = .ok signer →
        signer.issuer ∈ opts.trustedIssuers ∧ Permitted cfg e.name signer.issuer) ∧
    (lib.verificationContent bndl = .ok .certificate → ∀ signer,
      verifySigner lib files now bndl opts art (staticSources (offlineStaticRoots cfg embedded)) =
        .ok signer →
      ∃ e ∈ embedded, ∃ src hasTlog, (offlineStaticRoot cfg e).source = some src ∧
        verifyKeylessWithRoot lib bndl opts art src hasTlog = .ok signer ∧
        signer.issuer ∈ opts.trustedIssuers ∧ Permitted cfg e.name signer.issuer) ∧
    (∀ recorded : TrustedRootSource Root → List String,
      offlineStaticRoots cfg (embedded.map fun e => { e with issuers := recorded e }) =
        offlineStaticRoots cfg embedded) ∧
    ((∀ issuer, ∃ p ∈ planRootSources cfg cfg.effectiveRoots, ¬p.Allows issuer) →
      ∀ e ∈ embedded, (∀ p ∈ planRootSources cfg cfg.effectiveRoots, p.name ≠ e.name) →
      ∀ src, (offlineStaticRoot cfg e).source = some src → ∀ hasTlog,
        ∃ err, verifyKeylessWithRoot lib bndl opts art src hasTlog = .error err) := by
  have hpermitted : ∀ (e : TrustedRootSource Root) src,
      (offlineStaticRoot cfg e).source = some src → ∀ hasTlog signer,
      verifyKeylessWithRoot lib bndl opts art src hasTlog = .ok signer →
        signer.issuer ∈ opts.trustedIssuers ∧ Permitted cfg e.name signer.issuer := by
    intro e src hsrc hasTlog signer hok
    obtain ⟨htrusted, hvouches⟩ := verifyKeylessWithRoot_ok hok
    exact ⟨htrusted, scopeOfflineRoot_permitted hroots hnames (source_vouches hsrc hvouches)⟩
  refine ⟨fun e _ => hpermitted e, ?_, ?_, ?_⟩
  · intro hcontent signer hsigner
    rw [verifySigner, hcontent] at hsigner
    obtain ⟨src, hsrc, -, -, -, hasTlog, hok⟩ := verifyKeyless_vouched files hsigner
    obtain ⟨static, hstatic, hsource⟩ := List.mem_filterMap.mp hsrc
    obtain ⟨e, he, rfl⟩ := List.mem_map.mp hstatic
    exact ⟨e, he, src, hasTlog, hsource, hok, hpermitted e src hsource hasTlog signer hok⟩
  · intro recorded
    rw [offlineStaticRoots, offlineStaticRoots, List.map_map]
    rfl
  · intro hnone e _ hunmatched src hsrc hasTlog
    cases hresult : verifyKeylessWithRoot lib bndl opts art src hasTlog with
    | error err => exact ⟨err, rfl⟩
    | ok signer =>
      obtain ⟨-, -, hall⟩ := hpermitted e src hsrc hasTlog signer hresult
      obtain ⟨p, hp, hnot⟩ := hnone signer.issuer
      exact absurd (hall hunmatched p hp) hnot

end results

/-- A bundle that is signed by a workflow of one issuer. -/
def signedBy (issuer : String) : Sigstore Unit Unit Unit where
  verificationContent _ := .ok .certificate
  tlogEntries _ := .ok 1
  regexpCompiles _ := true
  newVerifier _ _ := .ok ()
  verify _ _ _ policy _ :=
    match policy with
    | .key => .error ⟨"no public key", []⟩
    | .certificateIdentity id =>
      if id.matchesIssuer issuer then .ok ⟨⟨none, []⟩, some ⟨issuer, "ci@corp.example"⟩⟩
      else .error ⟨"no matching certificate identity", []⟩
  verify_identity _ _ _ id _ result certificate hverify hcertificate := by
    dsimp only at hverify
    split at hverify
    · next hmatches =>
      cases hverify
      cases hcertificate
      exact hmatches
    · cases hverify
  newVerifier_foreign _ _ _ hnew := by cases hnew
  verify_foreign _ _ _ _ _ err hverify := by
    split at hverify
    · cases hverify
      rfl
    · split at hverify
      · cases hverify
      · cases hverify
        rfl

/-- The public root next to one for the issuer of a company. -/
def corpConfig : SigstoreConfig :=
  ⟨"", "", [⟨"corp", "https://tuf.corp.example", "/etc/root.json", ["https://corp.example"]⟩], none⟩

def corpOptions : FetchOptions :=
  ⟨["https://corp.example", "https://public.example"], [], [], true, 0, "", none⟩

theorem offline_roots_permitted_corp :
    corpConfig.roots ≠ [] ∧
      ((planRootSources corpConfig corpConfig.effectiveRoots).map PlannedRoot.name).Nodup ∧
      Permitted corpConfig "corp" "https://corp.example" := by
  have hnames : ((planRootSources corpConfig corpConfig.effectiveRoots).map
    PlannedRoot.name).Nodup := by decide +kernel
  have hroots : corpConfig.roots ≠ [] := List.cons_ne_nil _ _
  have hpermitted := (offline_roots_permitted hroots hnames (signedBy "https://corp.example")
    oneKey 0 () corpOptions () [⟨"corp", [], some ()⟩]).1 ⟨"corp", [], some ()⟩
    List.mem_cons_self _ rfl true ⟨"", [], "https://corp.example", "ci@corp.example"⟩
    (by decide +kernel)
  exact ⟨hroots, hnames, hpermitted.2⟩

end NriSupplyChain.Verifier
