import Mathlib.Data.List.AList
import NriSupplyChain.Attestation.Types

/-!
The trusted keys of a policy and the signer that a verified signature is attributed to.
One key may be configured at several paths with different validity windows. It keeps
an entry for each of them, and a signature is attributed to the paths of the entries
that are valid at every verified time.
-/

namespace NriSupplyChain.Attestation

open NriSupplyChain.Types

section model

structure KeyEntry where
  path : String
  notBefore : Option Int
  notAfter : Option Int
deriving DecidableEq, Repr

def KeyEntry.validAt (e : KeyEntry) (t : Int) : Bool :=
  !(e.notBefore.any fun notBefore => t < notBefore) &&
    !(e.notAfter.any fun notAfter => notAfter < t)

def validAtAll (entry : KeyEntry) (times : List Int) : Bool :=
  times.all entry.validAt

/-- The entries of each loaded key by the hint of the key. -/
abbrev TrustedKeys := AList fun _ : String => List KeyEntry

/-- The functions that read keys. -/
structure KeyFiles (Key : Type) where
  loadPublicKey : String → Except GoError Key
  computeKeyHint : Key → Except GoError String
  loadVerifier : Key → Except GoError Unit

def errNoTrustedKeys : String :=
  "bundle is signed with a public key but no trusted keys are configured"

def errUnsupportedSignature : String :=
  "bundle has neither a certificate nor a public key"

variable {Key : Type} (files : KeyFiles Key)

def addKeyEntry (byHint : TrustedKeys) (ref : TrustedKeyRef) (pubKey : Key) :
    Except GoError TrustedKeys :=
  let entry : KeyEntry := ⟨ref.path, ref.notBefore, ref.notAfter⟩
  match files.computeKeyHint pubKey with
  | .error err =>
    .error (.errorf ("computing key hint for \"" ++ ref.path ++ "\": " ++ err.text) [err])
  | .ok hint =>
    match byHint.lookup hint with
    | some entries => .ok (byHint.insert hint (entries ++ [entry]))
    | none =>
      match files.loadVerifier pubKey with
      | .error err =>
        .error (.errorf ("creating verifier for \"" ++ ref.path ++ "\": " ++ err.text) [err])
      | .ok () => .ok (byHint.insert hint [entry])

/-- Load the keys one after the other. Keys that cannot be loaded are skipped and
reported. -/
def loadKeys : List TrustedKeyRef → TrustedKeys → List GoError →
    Except GoError (TrustedKeys × List GoError)
  | [], byHint, loadErrs => .ok (byHint, loadErrs)
  | ref :: refs, byHint, loadErrs =>
    match files.loadPublicKey ref.path with
    | .error err =>
      let unavailable : GoError := ⟨"attestation trust material unavailable: " ++
        "trusted key file unavailable: loading public key \"" ++ ref.path ++ "\": " ++ err.text,
        .sentinel .errTrustMaterialUnavailable :: .sentinel .errTrustedKeyUnavailable :: err.nodes⟩
      loadKeys refs byHint (loadErrs ++ [unavailable])
    | .ok pubKey =>
      match addKeyEntry files byHint ref pubKey with
      | .error err => .error err
      | .ok byHint => loadKeys refs byHint loadErrs

/-- The key material, if a key was loaded, and the error of the ones that were not. -/
def buildKeyMaterial (keys : List TrustedKeyRef) : Option TrustedKeys × Option GoError :=
  match loadKeys files keys ∅ [] with
  | .error err => (none, some err)
  | .ok (byHint, loadErrs) =>
    (if byHint.entries = [] then none else some byHint, GoError.join loadErrs)

/-- What the verification of a bundle reports. -/
structure VerificationResult where
  publicKeyID : Option String
  verifiedTimestamps : List Int

def attributedPaths (times : List Int) (entries : List KeyEntry) : List String :=
  entries.foldl (fun paths entry =>
    if entry.path ∈ paths || !validAtAll entry times then paths else paths ++ [entry.path]) []

def signerFromResult (byHint : TrustedKeys) (now : Int) (result : VerificationResult) :
    Except GoError SignerIdentity :=
  match result.publicKeyID with
  | none =>
    .error (.errorf (errUnsupportedSignature ++ ": verification result has no public key") [])
  | some keyID =>
    match byHint.lookup keyID with
    | none =>
      .error (.errorf (errNoTrustedKeys ++ ": verified key is not a configured trusted key") [])
    | some entries =>
      let times := if result.verifiedTimestamps = [] then [now] else result.verifiedTimestamps
      match attributedPaths times entries with
      | [] =>
        .error (.errorf (errNoTrustedKeys ++
          ": no configured key entry is valid at the verified signing time") [])
      | path :: paths => .ok ⟨path, path :: paths, "", ""⟩

end model

section attribution

variable {Key : Type} {files : KeyFiles Key}

/-- The file at a path holds the key with a hint. -/
def HoldsKey (files : KeyFiles Key) (path hint : String) : Prop :=
  ∃ key, files.loadPublicKey path = .ok key ∧ files.computeKeyHint key = .ok hint

/-- Every entry of a key is the one of a configured file that holds the key. -/
def Configured (files : KeyFiles Key) (refs : List TrustedKeyRef) (byHint : TrustedKeys) : Prop :=
  ∀ hint entries, byHint.lookup hint = some entries → ∀ entry ∈ entries,
    ∃ ref ∈ refs, entry = ⟨ref.path, ref.notBefore, ref.notAfter⟩ ∧ HoldsKey files ref.path hint

variable {byHint : TrustedKeys} {refs : List TrustedKeyRef}

theorem Configured.addKeyEntry {next : TrustedKeys} {ref : TrustedKeyRef} {pubKey : Key}
    (h : Configured files refs byHint) (href : ref ∈ refs)
    (hload : files.loadPublicKey ref.path = .ok pubKey)
    (hnext : addKeyEntry files byHint ref pubKey = .ok next) : Configured files refs next := by
  unfold Attestation.addKeyEntry at hnext
  cases hhint : files.computeKeyHint pubKey with
  | error err =>
    rw [hhint] at hnext
    cases hnext
  | ok hint =>
    rw [hhint] at hnext
    dsimp only at hnext
    have hnew : ∃ known ∈ refs, (⟨ref.path, ref.notBefore, ref.notAfter⟩ : KeyEntry) =
        ⟨known.path, known.notBefore, known.notAfter⟩ ∧ HoldsKey files known.path hint :=
      ⟨ref, href, rfl, pubKey, hload, hhint⟩
    -- the map grows by an entry of the loaded key only
    have hgrown : ∀ entries, next = byHint.insert hint entries →
        (∀ entry ∈ entries, ∃ known ∈ refs, entry =
          ⟨known.path, known.notBefore, known.notAfter⟩ ∧ HoldsKey files known.path hint) →
        Configured files refs next := by
      rintro entries rfl hentries other found hfound
      by_cases hsame : other = hint
      · subst hsame
        rw [AList.lookup_insert] at hfound
        rw [← Option.some.inj hfound]
        exact hentries
      · rw [AList.lookup_insert_ne hsame] at hfound
        exact h other found hfound
    cases hknown : byHint.lookup hint with
    | some entries =>
      rw [hknown] at hnext
      apply hgrown (entries ++ [⟨ref.path, ref.notBefore, ref.notAfter⟩]) (Except.ok.inj hnext).symm
      intro entry hentry
      rcases List.mem_append.mp hentry with hold | hlast
      · exact h hint entries hknown entry hold
      · rw [List.mem_singleton.mp hlast]
        exact hnew
    | none =>
      rw [hknown] at hnext
      dsimp only at hnext
      cases hverifier : files.loadVerifier pubKey with
      | error err =>
        rw [hverifier] at hnext
        cases hnext
      | ok _ =>
        rw [hverifier] at hnext
        apply hgrown [⟨ref.path, ref.notBefore, ref.notAfter⟩] (Except.ok.inj hnext).symm
        intro entry hentry
        rw [List.mem_singleton.mp hentry]
        exact hnew

theorem Configured.loadKeys {all : List TrustedKeyRef} {final : TrustedKeys}
    {errs finalErrs : List GoError} (h : Configured files all byHint) (hrefs : refs ⊆ all)
    (hfinal : loadKeys files refs byHint errs = .ok (final, finalErrs)) :
    Configured files all final := by
  induction refs generalizing byHint errs with
  | nil =>
    cases hfinal
    exact h
  | cons ref refs ih =>
    have hrest : refs ⊆ all := fun r hr => hrefs (List.mem_cons_of_mem ref hr)
    unfold Attestation.loadKeys at hfinal
    cases hload : files.loadPublicKey ref.path with
    | error err =>
      rw [hload] at hfinal
      exact ih h hrest hfinal
    | ok pubKey =>
      rw [hload] at hfinal
      dsimp only at hfinal
      cases hadd : Attestation.addKeyEntry files byHint ref pubKey with
      | error err =>
        rw [hadd] at hfinal
        cases hfinal
      | ok next =>
        rw [hadd] at hfinal
        exact ih (h.addKeyEntry (hrefs List.mem_cons_self) hload hadd) hrest hfinal

theorem buildKeyMaterial_configured {err : Option GoError}
    (h : buildKeyMaterial files refs = (some byHint, err)) : Configured files refs byHint := by
  unfold buildKeyMaterial at h
  cases hload : loadKeys files refs ∅ [] with
  | error err =>
    rw [hload] at h
    cases h
  | ok loaded =>
    obtain ⟨final, errs⟩ := loaded
    rw [hload] at h
    have hnone : Configured files refs ∅ := by
      intro hint entries hlookup
      rw [AList.lookup_empty] at hlookup
      cases hlookup
    have hfinal := hnone.loadKeys (List.Subset.refl refs) hload
    obtain ⟨hsome, _⟩ := Prod.mk.inj h
    split at hsome
    · cases hsome
    · rw [← Option.some.inj hsome]
      exact hfinal

theorem mem_attributedPaths {times : List Int} {entries : List KeyEntry} {path : String}
    (h : path ∈ attributedPaths times entries) :
    ∃ entry ∈ entries, entry.path = path ∧ validAtAll entry times = true := by
  have hrun : ∀ (rest : List KeyEntry) (paths : List String), rest ⊆ entries →
      (∀ p ∈ paths, ∃ entry ∈ entries, entry.path = p ∧ validAtAll entry times = true) →
      ∀ p ∈ rest.foldl (fun paths entry =>
        if entry.path ∈ paths || !validAtAll entry times then paths
        else paths ++ [entry.path]) paths,
        ∃ entry ∈ entries, entry.path = p ∧ validAtAll entry times = true := by
    intro rest
    induction rest with
    | nil =>
      intro paths _ hpaths
      exact hpaths
    | cons entry rest ih =>
      intro paths hrest hpaths
      rw [List.foldl_cons]
      apply ih _ (fun e he => hrest (List.mem_cons_of_mem entry he))
      split
      · exact hpaths
      · next hnew =>
        intro p hp
        rcases List.mem_append.mp hp with hold | hlast
        · exact hpaths p hold
        · rw [Bool.or_eq_true, not_or, Bool.not_eq_true', Bool.not_eq_false] at hnew
          rw [List.mem_singleton.mp hlast]
          exact ⟨entry, hrest List.mem_cons_self, rfl, hnew.2⟩
  apply hrun entries [] (List.Subset.refl entries) ?_ path h
  intro p hp
  exact absurd hp List.not_mem_nil

/-- A signer is attributed to configured paths of the verified key, and to at least one. -/
theorem signerFromResult_paths {now : Int} {result : VerificationResult} {signer : SignerIdentity}
    (hconf : Configured files refs byHint) (h : signerFromResult byHint now result = .ok signer) :
    signer.keyPaths ≠ [] ∧ ∃ hint, result.publicKeyID = some hint ∧ ∀ path ∈ signer.keyPaths,
      ∃ ref ∈ refs, ref.path = path ∧ HoldsKey files path hint := by
  unfold signerFromResult at h
  cases hkey : result.publicKeyID with
  | none =>
    rw [hkey] at h
    cases h
  | some hint =>
    rw [hkey] at h
    dsimp only at h
    cases hentries : byHint.lookup hint with
    | none =>
      rw [hentries] at h
      cases h
    | some entries =>
      rw [hentries] at h
      dsimp only at h
      generalize hpaths : attributedPaths _ entries = paths at h
      cases paths with
      | nil => cases h
      | cons first rest =>
        cases h
        refine ⟨List.cons_ne_nil _ _, hint, rfl, ?_⟩
        intro path hpath
        rw [← hpaths] at hpath
        obtain ⟨entry, hentry, rfl, _⟩ := mem_attributedPaths hpath
        obtain ⟨ref, href, rfl, hholds⟩ := hconf hint entries hentries entry hentry
        exact ⟨ref, href, rfl, hholds⟩

end attribution

end NriSupplyChain.Attestation
