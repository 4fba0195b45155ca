import NriSupplyChain.Attestation.Outcomes

/-!
Reading the layer of an attestation image: what the registry serves, the size
limits, the download budget of a pass and the decoding.

Errors of the registry stay what they are, errors of the content are marked as
such, so neither is mistaken for the other.
-/

namespace NriSupplyChain.Attestation

open NriSupplyChain.Types

/-- What a reader delivers, and a failure after that many bytes. -/
structure Stream where
  bytes : List UInt8
  failure : Option (Nat × RegistryFailure)

/-- `io.ReadAll` of a reader that is limited to `limit` bytes. -/
def Stream.readAll (limit : Nat) (s : Stream) : Except ForeignError (List UInt8) :=
  match s.failure with
  | some (n, failure) => if n < limit then .error failure.err else .ok (s.bytes.take limit)
  | none => .ok (s.bytes.take limit)

structure Layer where
  size : Except ForeignError Int
  compressed : Except ForeignError Stream

/-- Whether the response ends early while the layer is read. -/
def Layer.truncated (layer : Layer) (maxSize : Nat) : Bool :=
  match layer.compressed with
  | .error _ => false
  | .ok stream => stream.failure.any fun (n, failure) => n < maxSize + 1 && failure.truncated

structure LayerDescriptor where
  mediaType : String
  urls : List String
  annotations : List (String × String)

structure Subject where
  digest : String
  size : Int
  mediaType : String

structure Manifest where
  layers : List LayerDescriptor
  subject : Option Subject

structure Image where
  manifest : Except ForeignError (Option Manifest)
  layers : Except ForeignError (List Layer)

structure VerifiedBundle where
  payload : List UInt8
  predicateType : String
  signer : SignerIdentity

/-- The libraries and pure helpers the fetcher calls. -/
structure FetchLibrary where
  gunzip : List UInt8 → Except ForeignError Stream
  extractPredicateType : List UInt8 → String
  /-- The document of a baseline SBOM statement that is bound to the digest. -/
  baselineSBOMDocument : List UInt8 → String → Option (List UInt8)
  isSigstoreBundleJSON : List UInt8 → Bool
  legacyLayerToBundles : List UInt8 → List (String × String) → List String →
    Except ForeignError (List (List UInt8))
  /-- Loads a key file and computes its hint; `none` when a loaded key has none. -/
  loadKeyHint : String → Except ForeignError (Option String)

structure FetcherConfig where
  maxAttestationSize : Nat
  downloadLimit : Int

def maxTotalAttestationSize : Nat := 50 * 1048576
def maxTotalDownloadSize : Int := 2 * maxTotalAttestationSize

def FetcherConfig.effectiveDownloadLimit (cfg : FetcherConfig) : Int :=
  if 0 < cfg.downloadLimit then cfg.downloadLimit else maxTotalDownloadSize

def reserveDownload (used limit size : Int) : Option GoError :=
  if limit < used + size then
    some (GoError.errorf (errDownloadLimitExceeded.text ++ ": " ++ toString used ++
      " bytes already downloaded, " ++ toString size ++ " more exceed " ++ toString limit)
      [errDownloadLimitExceeded])
  else none

/-- `used` is the count after the bytes were added. -/
def chargeDownload (used limit : Int) : Option GoError :=
  if limit < used then
    some (GoError.errorf (errDownloadLimitExceeded.text ++ ": " ++ toString used ++
      " bytes downloaded, limit " ++ toString limit) [errDownloadLimitExceeded])
  else none

def attestationTooLarge (size : Int) (maxSize : Nat) : GoError :=
  GoError.errorf ("attestation size " ++ toString size ++ " exceeds limit of " ++
    toString maxSize ++ " bytes: " ++ errAttestationTooLarge.text) [errAttestationTooLarge]

def readBounded (compressed : Except ForeignError Stream) (maxSize : Nat) :
    Except GoError (List UInt8) :=
  match compressed with
  | .error err => .error (wrapOne "reading attestation layer" err.val)
  | .ok stream =>
    match stream.readAll (maxSize + 1) with
    | .error err =>
      if err.val.is .ioErrUnexpectedEOF then
        .error (wrapOne "reading attestation layer" (wrapAll [errTruncatedResponse, err.val]))
      else .error (wrapOne "reading attestation layer" err.val)
    | .ok data =>
      if maxSize < data.length then .error (attestationTooLarge data.length maxSize)
      else .ok data

def gzipMagic : List UInt8 := [0x1f, 0x8b]
def zstdMagic : List UInt8 := [0x28, 0xb5, 0x2f, 0xfd]

def decompressionError (err : GoError) : GoError :=
  wrapAll [errInvalidReferrer, wrapOne "decompressing attestation layer" err]

def decodeLayer (lib : FetchLibrary) (data : List UInt8) (maxSize : Nat) :
    Except GoError (List UInt8) :=
  if zstdMagic.isPrefixOf data then
    .error (wrapAll [errInvalidReferrer, ⟨"unsupported attestation layer compression: zstd", []⟩])
  else if !gzipMagic.isPrefixOf data then .ok data
  else
    match lib.gunzip data with
    | .error err => .error (decompressionError err.val)
    | .ok stream =>
      match stream.readAll (maxSize + 1) with
      | .error err => .error (decompressionError err.val)
      | .ok decoded =>
        if maxSize < decoded.length then
          .error (GoError.errorf ("decompressed attestation size exceeds limit of " ++
            toString maxSize ++ " bytes: " ++ errAttestationTooLarge.text)
            [errAttestationTooLarge])
        else .ok decoded

/-- `readLayer` up to the download: the declared size must fit the limits. -/
def refuseLayer (cfg : FetcherConfig) (used : Int) (layer : Layer) : Option GoError :=
  match layer.size with
  | .error _ => none
  | .ok declared =>
    if (cfg.maxAttestationSize : Int) < declared then
      some (attestationTooLarge declared cfg.maxAttestationSize)
    else reserveDownload used cfg.effectiveDownloadLimit declared

/-- The rest of `readLayer`: the downloaded bytes are charged, and decoded. -/
def downloadLayer (lib : FetchLibrary) (cfg : FetcherConfig) (used : Int) (layer : Layer) :
    Int × Except GoError (List UInt8) :=
  match readBounded layer.compressed cfg.maxAttestationSize with
  | .error err => (used, .error err)
  | .ok stored =>
    let used := used + stored.length
    match chargeDownload used cfg.effectiveDownloadLimit with
    | some err => (used, .error err)
    | none => (used, decodeLayer lib stored cfg.maxAttestationSize)

/-- A layer whose response ends early, which is taken for malformed content. -/
def Layer.cutShort (layer : Layer) (cfg : FetcherConfig) : Bool :=
  match readBounded layer.compressed cfg.maxAttestationSize with
  | .error err => layer.truncated cfg.maxAttestationSize && takenForContent err
  | .ok _ => false

/-- Reads a layer when `used` bytes were downloaded before, and returns the count
afterwards. -/
def readLayer (lib : FetchLibrary) (cfg : FetcherConfig) (used : Int) (layer : Layer) :
    Int × Except GoError (List UInt8) :=
  match refuseLayer cfg used layer with
  | some err => (used, .error err)
  | none => downloadLayer lib cfg used layer

def rejectForeignLayer (desc : LayerDescriptor) : Option GoError :=
  if desc.urls = [] then none
  else some (wrapAll [errInvalidReferrer,
    ⟨"layer references external URLs: " ++ toString desc.urls.length ++ " URLs", []⟩])

/-- The layer that `readFirstLayer` reads. -/
def firstLayer (img : Image) : Except GoError Layer :=
  match img.manifest with
  | .error err => .error (wrapOne "reading attestation manifest" err.val)
  | .ok manifest =>
    match (manifest.bind fun m => m.layers.head?).bind rejectForeignLayer with
    | some err => .error err
    | none =>
      match img.layers with
      | .error err => .error (wrapOne "reading attestation layers" err.val)
      | .ok [] => .error (wrapOne "attestation has no layers" errEmptyAttestation)
      | .ok (layer :: _) => .ok layer

/-- No error of the fetcher's reading wraps `ErrVerificationFailed`. -/
def NotVerification (err : GoError) : Prop := err.is .errVerificationFailed = false

variable {err : GoError}

theorem NotVerification.not_ignorable (h : NotVerification err) : ¬Ignorable err := by
  rintro ⟨hfailed, _⟩
  rw [show err.is .errVerificationFailed = false from h] at hfailed
  cases hfailed

theorem NotVerification.wrapOne (h : NotVerification err) (what : String) :
    NotVerification (wrapOne what err) :=
  (wrapOne_is what err _).trans h

/-- A layer whose response ends early cannot be read. -/
theorem readBounded_of_truncated {layer : Layer} {maxSize : Nat}
    (h : layer.truncated maxSize = true) :
    ∃ err, readBounded layer.compressed maxSize = .error err := by
  unfold Layer.truncated at h
  split at h
  · cases h
  · next stream hstream =>
    obtain ⟨⟨n, failure⟩, hfailure, hn⟩ := Option.any_eq_true _ _ |>.mp h
    have hread : stream.readAll (maxSize + 1) = .error failure.err := by
      simp_all [Stream.readAll]
    rw [hstream, readBounded, hread]
    dsimp only
    split <;> exact ⟨_, rfl⟩

theorem readBounded_error {compressed : Except ForeignError Stream} {maxSize : Nat}
    (h : readBounded compressed maxSize = .error err) : NotVerification err := by
  unfold readBounded at h
  split at h
  · next e =>
    cases h
    exact NotVerification.wrapOne e.property _
  · split at h
    · next e _ =>
      split at h
      · cases h
        simp [NotVerification, e.property, errTruncatedResponse]
      · cases h
        exact NotVerification.wrapOne e.property _
    · split at h
      · cases h
        rfl
      · cases h

variable {lib : FetchLibrary}

theorem decodeLayer_error {data : List UInt8} {maxSize : Nat}
    (h : decodeLayer lib data maxSize = .error err) : NotVerification err := by
  unfold decodeLayer at h
  split at h
  · cases h
    rfl
  · split at h
    · cases h
    · split at h
      · next e _ =>
        cases h
        simp [NotVerification, decompressionError, e.property, errInvalidReferrer]
      · split at h
        · next e _ =>
          cases h
          simp [NotVerification, decompressionError, e.property, errInvalidReferrer]
        · split at h
          · cases h
            rfl
          · cases h

variable {used : Int}

theorem reserveDownload_error {limit size : Int} (h : reserveDownload used limit size = some err) :
    NotVerification err := by
  unfold reserveDownload at h
  split at h
  · cases h
    rfl
  · cases h

variable {cfg : FetcherConfig} {layer : Layer}

theorem refuseLayer_error (h : refuseLayer cfg used layer = some err) : NotVerification err := by
  unfold refuseLayer at h
  split at h
  · cases h
  · split at h
    · cases h
      rfl
    · exact reserveDownload_error h

theorem downloadLayer_error (h : (downloadLayer lib cfg used layer).2 = .error err) :
    NotVerification err := by
  unfold downloadLayer at h
  split at h
  · next hread =>
    cases h
    exact readBounded_error hread
  · dsimp only at h
    split at h
    · next hcharge =>
      cases h
      unfold chargeDownload at hcharge
      split at hcharge
      · cases hcharge
        rfl
      · cases hcharge
    · exact decodeLayer_error h

theorem Layer.cutShort_of_error (h : (downloadLayer lib cfg used layer).2 = .error err) :
    layer.cutShort cfg = (layer.truncated cfg.maxAttestationSize && takenForContent err) := by
  unfold downloadLayer at h
  unfold Layer.cutShort
  cases hread : readBounded layer.compressed cfg.maxAttestationSize with
  | error inner =>
    rw [hread] at h
    cases h
    rfl
  | ok stored =>
    cases htruncated : layer.truncated cfg.maxAttestationSize with
    | false => rfl
    | true =>
      obtain ⟨inner, herr⟩ := readBounded_of_truncated htruncated
      cases hread.symm.trans herr

theorem Layer.cutShort_of_ok {data : List UInt8}
    (h : (downloadLayer lib cfg used layer).2 = .ok data) : layer.cutShort cfg = false := by
  unfold downloadLayer at h
  unfold Layer.cutShort
  cases hread : readBounded layer.compressed cfg.maxAttestationSize with
  | error inner =>
    rw [hread] at h
    cases h
  | ok stored => rfl

/-- The bytes that a layer holds, if they can be read. -/
def Layer.content (lib : FetchLibrary) (cfg : FetcherConfig) (layer : Layer) :
    Option (List UInt8) :=
  match readBounded layer.compressed cfg.maxAttestationSize with
  | .error _ => none
  | .ok stored => (decodeLayer lib stored cfg.maxAttestationSize).toOption

theorem Layer.content_of_ok {data : List UInt8}
    (h : (downloadLayer lib cfg used layer).2 = .ok data) :
    layer.content lib cfg = some data := by
  unfold downloadLayer at h
  split at h
  · cases h
  · next hread =>
    dsimp only at h
    split at h
    · cases h
    · rw [Layer.content, hread]
      dsimp only at h ⊢
      rw [h]
      rfl

theorem readLayer_error (h : (readLayer lib cfg used layer).2 = .error err) :
    NotVerification err := by
  unfold readLayer at h
  split at h
  · next hrefused =>
    cases h
    exact refuseLayer_error hrefused
  · exact downloadLayer_error h

theorem firstLayer_error {img : Image} (h : firstLayer img = .error err) : NotVerification err := by
  unfold firstLayer at h
  split at h
  · next e _ =>
    cases h
    exact NotVerification.wrapOne e.property _
  · split at h
    · next hforeign =>
      cases h
      obtain ⟨desc, _, hdesc⟩ := Option.bind_eq_some_iff.mp hforeign
      unfold rejectForeignLayer at hdesc
      split at hdesc
      · cases hdesc
      · cases hdesc
        rfl
    · split at h
      · next e _ =>
        cases h
        exact NotVerification.wrapOne e.property _
      · cases h
        rfl
      · cases h

end NriSupplyChain.Attestation
