import NriSupplyChain.Attestation.KeyMaterial
import NriSupplyChain.Slsa.Provenance
import NriSupplyChain.Verifier.IncompleteSets

/-!
What a key that is trusted for builders may sign. The keys of builders are loaded
together with the ones of verifiers, so a signature by one of them is a verified one.
The attestations are scoped afterwards: only provenance may be signed by builder keys
alone, and provenance of a bound builder must be signed by that builder.
-/

namespace NriSupplyChain.Verifier

open NriSupplyChain.Types Attestation Policy

section binding

variable (lib : Library)

def bound (builder : TrustedBuilder) : Bool :=
  builder.keys ≠ [] || builder.identities ≠ []

/-- The entries of a builder one after the other, with an unbound one that was seen and
whether a bound one was. -/
def bindBuilderSignerFrom (signer : SignerIdentity) :
    List TrustedBuilder → String → Bool → Except String Unit
  | [], unbound, anyBound =>
    if unbound ≠ "" && !anyBound then .ok ()
    else .error ("provenance is not signed by a key or identity bound to its builder: key \"" ++
      signer.keyPath ++ "\", issuer \"" ++ signer.issuer ++ "\", SAN \"" ++ signer.san ++ "\"")
  | builder :: matched, unbound, anyBound =>
    if !bound builder then bindBuilderSignerFrom signer matched builder.id anyBound
    else if signer.matchesAny (matchesSigner lib builder.keys builder.identities) then .ok ()
    else bindBuilderSignerFrom signer matched unbound true

def bindBuilderSigner (att : VerifiedAttestation) : Slsa.BuilderBinder :=
  fun matched => bindBuilderSignerFrom lib att.signer matched "" false

/-- The SLSA check: of the provenance attestations, the first one that passes decides. -/
def verifySLSA (slsaLib : Slsa.Library) (ctxErr : Option GoError) (atts : List VerifiedAttestation)
    (pol : Policy) (digest : String) : Except GoError CheckResult :=
  verifyMultipleFirstPassOf ctxErr .slsa "provenance" atts fun att =>
    Slsa.verify slsaLib ctxErr att.payload pol digest (some (bindBuilderSigner lib att))

/-- The signer is bound to an entry of the builder. -/
def SignedByBuilder (pol : Policy) (signer : SignerIdentity) (builderID : String) : Prop :=
  ∃ builder ∈ Slsa.builders pol, builder.id = builderID ∧ bound builder = true ∧
    signer.matchesAny (matchesSigner lib builder.keys builder.identities) = true

variable {lib}

/-- The hook accepts a signer that is bound to an entry, or a builder without a bound one. -/
theorem bindBuilderSignerFrom_ok {signer : SignerIdentity} {matched : List TrustedBuilder}
    {unbound : String} {anyBound : Bool}
    (h : bindBuilderSignerFrom lib signer matched unbound anyBound = .ok ()) :
    (∃ builder ∈ matched, bound builder = true ∧
      signer.matchesAny (matchesSigner lib builder.keys builder.identities) = true) ∨
    (anyBound = false ∧ ∀ builder ∈ matched, bound builder = false) := by
  induction matched generalizing unbound anyBound with
  | nil =>
    right
    unfold bindBuilderSignerFrom at h
    split at h
    · next hunbound =>
      rw [Bool.and_eq_true, Bool.not_eq_true'] at hunbound
      refine ⟨hunbound.2, ?_⟩
      intro builder hbuilder
      exact absurd hbuilder List.not_mem_nil
    · cases h
  | cons builder matched ih =>
    unfold bindBuilderSignerFrom at h
    split at h
    · next hunbound =>
      rw [Bool.not_eq_true'] at hunbound
      rcases ih h with ⟨other, hmem, hother⟩ | ⟨hany, hnone⟩
      · exact .inl ⟨other, List.mem_cons_of_mem builder hmem, hother⟩
      · exact .inr ⟨hany, List.forall_mem_cons.mpr ⟨hunbound, hnone⟩⟩
    · next hbound =>
      rw [Bool.not_eq_true', Bool.not_eq_false] at hbound
      split at h
      · next hsigner => exact .inl ⟨builder, List.mem_cons_self, hbound, hsigner⟩
      · rcases ih h with ⟨other, hmem, hother⟩ | ⟨hany, _⟩
        · exact .inl ⟨other, List.mem_cons_of_mem builder hmem, hother⟩
        · exact absurd hany Bool.true_eq_false.mp

/-- Accepted provenance of a bound builder is signed by that builder. -/
theorem signedByBuilder_of_verify {slsaLib : Slsa.Library} {ctxErr : Option GoError}
    {att : VerifiedAttestation} {pol : Policy} {digest builderID : String} {result : CheckResult}
    (hnames : Slsa.NamesBuilder slsaLib att.payload builderID)
    (hentries : ∃ builder ∈ Slsa.builders pol, builder.id = builderID ∧ bound builder = true)
    (h : Slsa.verify slsaLib ctxErr att.payload pol digest (some (bindBuilderSigner lib att)) =
      .ok result) (hpassed : result.passed = true) :
    SignedByBuilder lib pol att.signer builderID := by
  obtain ⟨named, hnamed, hverify⟩ := Slsa.verify_passed h hpassed
  rw [← hnames.unique hnamed] at hverify
  obtain ⟨entry, hentry, hid, hbound⟩ := hentries
  have hbind := Slsa.bind_of_verifyBuilder hverify ⟨entry, hentry, hid⟩
  rcases bindBuilderSignerFrom_ok hbind with ⟨builder, hmem, hbuilder⟩ | ⟨_, hnone⟩
  · obtain ⟨hmem, hsame⟩ := List.mem_filter.mp hmem
    exact ⟨builder, hmem, of_decide_eq_true hsame, hbuilder⟩
  · have hfree := hnone entry (List.mem_filter.mpr ⟨hentry, decide_eq_true hid⟩)
    rw [hbound] at hfree
    cases hfree

end binding

section scope

/-- The configured paths of the keys that verified a signature. -/
def signerPaths (signer : SignerIdentity) : List String :=
  if signer.keyPaths = [] then if signer.keyPath = "" then [] else [signer.keyPath]
  else signer.keyPaths

/-- A path that is configured for a builder, and that no verifier spells in any way. -/
def SolelyForBuilders (lib : Library) (trust : TrustPolicy) (path : String) : Prop :=
  (∃ builder ∈ trust.builders, path ∈ builder.keys) ∧
    ∀ verifier ∈ trust.verifiers, ∀ key ∈ verifier.keys, lib.clean key ≠ lib.clean path

variable {lib : Library} {trust : TrustPolicy}

theorem mem_verifierKeys {path : String} :
    path ∈ verifierKeys lib.clean trust ↔
      ∃ verifier ∈ trust.verifiers, ∃ key ∈ verifier.keys, lib.clean key = path := by
  unfold verifierKeys
  simp only [List.mem_flatMap, List.mem_map]

theorem mem_builderOnlyKeys {path : String} :
    path ∈ builderOnlyKeys lib (some trust) ↔ SolelyForBuilders lib trust path := by
  unfold builderOnlyKeys SolelyForBuilders
  rw [List.mem_filter, List.mem_flatMap, Bool.not_eq_true', List.contains_eq_mem,
    decide_eq_false_iff_not, mem_verifierKeys]
  constructor
  · rintro ⟨hbuilder, hnone⟩
    refine ⟨hbuilder, ?_⟩
    intro verifier hverifier key hkey heq
    exact hnone ⟨verifier, hverifier, key, hkey, heq⟩
  · rintro ⟨hbuilder, hnone⟩
    refine ⟨hbuilder, ?_⟩
    rintro ⟨verifier, hverifier, key, hkey, heq⟩
    exact hnone verifier hverifier key hkey heq

theorem signedOnlyWithBuilderKeys_eq {signer : SignerIdentity} (builderOnly : List String) :
    signedOnlyWithBuilderKeys signer builderOnly =
      (decide (signerPaths signer ≠ []) && (signerPaths signer).all builderOnly.contains) := by
  unfold signedOnlyWithBuilderKeys signerPaths
  by_cases hpaths : signer.keyPaths = []
  · by_cases hpath : signer.keyPath = "" <;> simp [hpaths, hpath]
  · simp [hpaths]

/-- An attestation that is signed by builder keys alone is dropped unless it is
provenance. -/
theorem not_mem_scopeBuilderKeys {pol : Policy} {att : VerifiedAttestation}
    (htrust : pol.trust = some trust) (hother : isProvenancePredicate att.predicateType = false)
    (hsome : signerPaths att.signer ≠ [])
    (hsolely : ∀ path ∈ signerPaths att.signer, SolelyForBuilders lib trust path)
    (atts : List VerifiedAttestation) : att ∉ scopeBuilderKeys lib atts pol := by
  have hall : (signerPaths att.signer).all (builderOnlyKeys lib pol.trust).contains = true := by
    rw [htrust, List.all_eq_true]
    intro path hpath
    rw [List.contains_iff_mem, mem_builderOnlyKeys]
    exact hsolely path hpath
  have hsigned : signedOnlyWithBuilderKeys att.signer (builderOnlyKeys lib pol.trust) = true := by
    rw [signedOnlyWithBuilderKeys_eq, hall, decide_eq_true hsome]
    rfl
  have hkeys : builderOnlyKeys lib pol.trust ≠ [] := by
    obtain ⟨path, hpath⟩ := List.exists_mem_of_ne_nil _ hsome
    intro hnone
    have hcontains := List.all_eq_true.mp hall path hpath
    rw [hnone] at hcontains
    cases hcontains
  unfold scopeBuilderKeys
  dsimp only
  rw [if_neg hkeys, List.mem_filter, hsigned, hother]
  rintro ⟨_, hkept⟩
  cases hkept

/-- A signer whose key no verifier has is attributed to builder keys alone. -/
theorem solelyForBuilders_of_signer {Key : Type} {files : KeyFiles Key} {material : TrustedKeys}
    {err : Option GoError} {now : Int} {result : VerificationResult} {signer : SignerIdentity}
    {hint : String} (hmaterial : buildKeyMaterial files (trustedKeyRefs lib.clean trust) =
      (some material, err)) (hsigner : signerFromResult material now result = .ok signer)
    (hkey : result.publicKeyID = some hint)
    (hfree : ∀ verifier ∈ trust.verifiers, ∀ path ∈ verifier.keys, ¬ HoldsKey files path hint) :
    signerPaths signer ≠ [] ∧ ∀ path ∈ signerPaths signer, SolelyForBuilders lib trust path := by
  obtain ⟨hsome, found, hfound, hpaths⟩ :=
    signerFromResult_paths (buildKeyMaterial_configured hmaterial) hsigner
  rw [hkey] at hfound
  cases hfound
  have hread : signerPaths signer = signer.keyPaths := if_neg hsome
  rw [hread]
  refine ⟨hsome, ?_⟩
  intro path hpath
  obtain ⟨ref, href, rfl, hholds⟩ := hpaths path hpath
  rcases List.mem_append.mp href with hverifier | hbuilder
  · obtain ⟨verifier, hmem, hkeys⟩ := List.mem_flatMap.mp hverifier
    obtain ⟨key, hkey, rfl⟩ := List.mem_map.mp hkeys
    exact absurd hholds (hfree verifier hmem key hkey)
  · obtain ⟨builder, hmem, hkeys⟩ := List.mem_flatMap.mp hbuilder
    obtain ⟨key, hkey, rfl⟩ := List.mem_map.mp hkeys
    obtain ⟨hkey, hscope⟩ := List.mem_filter.mp hkey
    rw [Bool.not_eq_true', List.contains_eq_mem, decide_eq_false_iff_not,
      mem_verifierKeys] at hscope
    refine ⟨⟨builder, hmem, hkey⟩, ?_⟩
    intro verifier hverifier other hother heq
    exact hscope ⟨verifier, hverifier, other, hother, heq⟩

/-- An attestation other than provenance that only builder keys have verified reaches no
check, be it told by the paths of its signer or by the key of its signature. Provenance
is accepted only from a signer that is bound to the builder it names, if that one has a
bound entry. -/
theorem builder_keys_scoped (lib : Library) (pol : Policy) (trust : TrustPolicy)
    (htrust : pol.trust = some trust) :
    (∀ (atts : List VerifiedAttestation) (att : VerifiedAttestation),
      isProvenancePredicate att.predicateType = false → signerPaths att.signer ≠ [] →
        (∀ path ∈ signerPaths att.signer, SolelyForBuilders lib trust path) →
          ∀ checkType, att ∉ binAttestations (scopeBuilderKeys lib atts pol) checkType) ∧
    (∀ (Key : Type) (files : KeyFiles Key) (material : TrustedKeys) (err : Option GoError)
      (now : Int) (result : VerificationResult) (hint : String) (atts : List VerifiedAttestation)
      (att : VerifiedAttestation),
      buildKeyMaterial files (trustedKeyRefs lib.clean trust) = (some material, err) →
        signerFromResult material now result = .ok att.signer → result.publicKeyID = some hint →
          (∀ verifier ∈ trust.verifiers, ∀ path ∈ verifier.keys, ¬ HoldsKey files path hint) →
            isProvenancePredicate att.predicateType = false →
              ∀ checkType, att ∉ binAttestations (scopeBuilderKeys lib atts pol) checkType) ∧
    (∀ (slsaLib : Slsa.Library) (ctxErr : Option GoError) (digest : String)
      (atts : List VerifiedAttestation) (result : CheckResult),
      verifySLSA lib slsaLib ctxErr atts pol digest = .ok result → result.passed = true →
        ∃ att ∈ atts, Slsa.verify slsaLib ctxErr att.payload pol digest
          (some (bindBuilderSigner lib att)) = .ok result) ∧
    (∀ (slsaLib : Slsa.Library) (ctxErr : Option GoError) (digest : String)
      (att : VerifiedAttestation) (builderID : String) (result : CheckResult),
      Slsa.NamesBuilder slsaLib att.payload builderID →
        (∃ builder ∈ trust.builders, builder.id = builderID ∧ bound builder = true) →
          Slsa.verify slsaLib ctxErr att.payload pol digest (some (bindBuilderSigner lib att)) =
              .ok result →
            result.passed = true → SignedByBuilder lib pol att.signer builderID) := by
  refine ⟨?_, ?_, ?_, ?_⟩
  · intro atts att hother hsome hsolely checkType hbin
    exact not_mem_scopeBuilderKeys htrust hother hsome hsolely atts (List.mem_filter.mp hbin).1
  · intro Key files material err now result hint atts att hmaterial hsigner hkey hfree hother
      checkType hbin
    obtain ⟨hsome, hsolely⟩ := solelyForBuilders_of_signer hmaterial hsigner hkey hfree
    exact not_mem_scopeBuilderKeys htrust hother hsome hsolely atts (List.mem_filter.mp hbin).1
  · intro slsaLib ctxErr digest atts result hcheck hpassed
    exact exists_of_firstPassFrom hcheck hpassed
  · intro slsaLib ctxErr digest att builderID result hnames hentries hverify hpassed
    apply signedByBuilder_of_verify hnames ?_ hverify hpassed
    unfold Slsa.builders
    rw [htrust]
    exact hentries

/-- A builder with a key, and a verifier with another one. -/
def builderTrust : TrustPolicy :=
  ⟨[⟨"https://builder.example", ["/keys/builder.pub"], []⟩],
    [⟨"https://verifier.example", ["/keys/verifier.pub"], [], none, none⟩], [], []⟩

/-- Files that hold the key that is named like them. -/
def namedKeys : KeyFiles String :=
  ⟨fun path => .ok path, fun key => .ok key, fun _ => .ok ()⟩

def builderSigned (predicateType : String) : VerifiedAttestation :=
  ⟨predicateType, [], "", .sigstore, ⟨"/keys/builder.pub", ["/keys/builder.pub"], "", ""⟩, [],
    "", "", 0, ""⟩

/-- Every payload is a provenance of the builder for one image. -/
def provenanceLibrary : Slsa.Library where
  unmarshalHeader _ := .ok Slsa.ProvenanceVersion.v1.predicateType
  unmarshal version _ := .ok ⟨version.predicateType,
    [[⟨"sha256".toList, List.replicate 64 'a'⟩].toAList], "https://builder.example"⟩
  unmarshalDependencies _ := .ok ()
  laterChecks _ _ _ := .ok ()
  sourcesTrusted _ := false
  sourceMetadata _ _ := []
  quote text := text

/-- With the key of a builder, an SBOM reaches no check and provenance is accepted. -/
theorem builder_keys_scoped_builder_key :
    let pol := { permissivePolicy with trust := some builderTrust }
    builderSigned predicateSPDX ∉
        binAttestations (scopeBuilderKeys plainLibrary [builderSigned predicateSPDX] pol) .sbom ∧
      SignedByBuilder plainLibrary pol (builderSigned predicateSLSAProvenanceV1).signer
        "https://builder.example" := by
  intro pol
  obtain ⟨_, hscope, _, hbind⟩ := builder_keys_scoped plainLibrary pol builderTrust rfl
  constructor
  · apply hscope String namedKeys _ _ 0 ⟨some "/keys/builder.pub", []⟩ "/keys/builder.pub" _ _
      rfl rfl rfl ?_ (by decide)
    rintro verifier hverifier path hpath ⟨key, hload, hhint⟩
    cases hload
    cases List.mem_singleton.mp hverifier
    cases List.mem_singleton.mp hpath
    exact absurd (Except.ok.inj hhint) (by decide)
  · apply hbind provenanceLibrary none ("sha256:" ++ String.ofList (List.replicate 64 'a'))
      (builderSigned predicateSLSAProvenanceV1) "https://builder.example" _ ?_ ?_ rfl
    · decide
    · exact ⟨_, _, rfl, rfl, rfl⟩
    · exact ⟨_, List.mem_singleton_self _, rfl, by decide⟩

end scope

end NriSupplyChain.Verifier
