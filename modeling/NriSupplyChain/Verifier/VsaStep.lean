import NriSupplyChain.Verifier.IncompleteSets
import NriSupplyChain.Vsa.Summaries

/-!
The VSA step over the verified summaries of an image. Every summary has one vote: it
rejects the image, it passes, or it does not count. A vote to reject decides, and
otherwise a vote to pass does, so the order of the summaries does not matter as long as
none of them is verified after the context has ended, when no summary counts.
-/

namespace NriSupplyChain.Verifier

open NriSupplyChain.Types Attestation Policy

section votes

inductive Vote where
  | failure (detail : String)
  | reject (check : CheckResult)
  | pass (check : CheckResult)

namespace Vote

def rejects : Vote → Bool
  | .reject _ => true
  | _ => false

def passed? : Vote → Option CheckResult
  | .pass check => some check
  | _ => none

end Vote

variable (lib : Library)

/-- What one summary says, given the answer of `vsa.Verify` for it. -/
def vote (signer : SignerIdentity) : Except GoError VsaResult → Vote
  | .error err => .failure err.text
  | .ok result =>
    if result.hardReject || (result.check.passed && result.check.status = .pass) then
      if signerBoundToVerifiers lib signer result.matchedVerifiers then
        if result.hardReject then .reject result.check else .pass result.check
      else .failure "VSA is not signed by a key or identity bound to its verifier"
    else .failure result.check.detail

/-- What a vote changes, and whether it ends the evaluation. -/
def VsaOutcome.count (o : VsaOutcome) : Vote → VsaOutcome × Bool
  | .failure detail => ({ o with failures := o.failures ++ [detail] }, false)
  | .reject check => ({ o with rejected := some (resultFromCheck check) }, true)
  | .pass check => ({ o with passed := o.passed.or (some check) }, false)

inductive VsaVerdict where
  | accepted
  | rejected
  | fallback
deriving DecidableEq

/-- What `runVSAAndParallelChecks` does with an outcome. -/
def VsaOutcome.verdict (o : VsaOutcome) : VsaVerdict :=
  match o.rejected, o.passed with
  | some _, _ => .rejected
  | none, some _ => .accepted
  | none, none => .fallback

variable {lib}

variable {votes : List Vote}

end votes

section step

variable (lib : Library) (vsaLib : Vsa.Library) (env : Environment)

/-- What the clock and the context say when a summary is verified. -/
structure Moment where
  now : Int
  ctxErr : Option GoError

/-- The signer is bound to a trusted verifier that the summary names. -/
def SignedByVerifier (pol : Policy) (signer : SignerIdentity) (stmt : Vsa.Statement) : Prop :=
  ∃ trust, pol.trust = some trust ∧ ∃ verifier ∈ trust.verifiers,
    verifier.id = stmt.predicate.verifierID ∧
      signer.matchesAny (matchesSigner lib verifier.keys verifier.identities) = true

variable {lib} {vsaLib}

variable {pol : Policy}

/-- Bound to the claimed verifiers is bound to a trusted verifier of that name. -/
theorem signedByVerifier_iff {signer : SignerIdentity} {stmt : Vsa.Statement} :
    SignedByVerifier lib pol signer stmt ↔
      signerBoundToVerifiers lib signer (Vsa.claimedVerifiers stmt pol) = true := by
  unfold SignedByVerifier signerBoundToVerifiers Vsa.claimedVerifiers
  rw [List.any_eq_true]
  cases htrust : pol.trust with
  | none => simp
  | some trust =>
    constructor
    · rintro ⟨_, ⟨⟩, verifier, hmem, hid, hsigner⟩
      exact ⟨verifier, List.mem_filter.mpr ⟨hmem, decide_eq_true hid⟩, hsigner⟩
    · rintro ⟨verifier, hmem, hsigner⟩
      obtain ⟨hmem, hid⟩ := List.mem_filter.mp hmem
      exact ⟨trust, rfl, verifier, hmem, of_decide_eq_true hid, hsigner⟩

variable (lib) (vsaLib)

/-- The vote of a verified summary. -/
def summaryVote (moment : Moment) (pol : Policy) (digestRef : String) (att : VerifiedAttestation) :
    Vote :=
  vote lib att.signer (Vsa.verify vsaLib moment.now moment.ctxErr att.payload pol digestRef)

/-- A passing summary, signed by its verifier. -/
def Accepting (now : Int) (pol : Policy) (digestRef : String) (att : VerifiedAttestation) : Prop :=
  ∃ stmt, vsaLib.unmarshal att.payload = .ok stmt ∧ Vsa.Passing vsaLib now stmt pol digestRef ∧
    SignedByVerifier lib pol att.signer stmt

variable {lib} {vsaLib}

variable {digestRef : String} {att : VerifiedAttestation} {now : Int} {stmt : Vsa.Statement}

theorem SignedByVerifier.claimed {signer : SignerIdentity}
    (h : SignedByVerifier lib pol signer stmt) : Vsa.claimedVerifiers stmt pol ≠ [] := by
  intro hnone
  have hbound := signedByVerifier_iff.mp h
  rw [hnone] at hbound
  cases hbound

/-- A failing summary that its verifier signed votes to reject. -/
theorem vote_of_failing (hstmt : vsaLib.unmarshal att.payload = .ok stmt)
    (hfailing : Vsa.Failing vsaLib stmt digestRef)
    (hsigned : SignedByVerifier lib pol att.signer stmt) :
    (summaryVote lib vsaLib ⟨now, none⟩ pol digestRef att).rejects = true := by
  unfold summaryVote Vsa.verify
  rw [hstmt]
  dsimp only
  rw [Vsa.verifyStatement_of_failing hsigned.claimed hfailing]
  simp [vote, Vsa.withMetadata, Vsa.hardRejectResult, signedByVerifier_iff.mp hsigned,
    Vote.rejects]

theorem vote_of_passing (hstmt : vsaLib.unmarshal att.payload = .ok stmt)
    (hpassing : Vsa.Passing vsaLib now stmt pol digestRef)
    (hsigned : SignedByVerifier lib pol att.signer stmt) :
    summaryVote lib vsaLib ⟨now, none⟩ pol digestRef att =
      .pass (Vsa.verifyStatement vsaLib now stmt pol digestRef).check := by
  unfold summaryVote Vsa.verify
  rw [hstmt]
  dsimp only
  rw [Vsa.verifyStatement_of_passing hsigned.claimed hpassing]
  simp [vote, Vsa.withMetadata, Vsa.passResult, Types.passResult, signedByVerifier_iff.mp hsigned]

/-- Only a failing or passing summary that its verifier signed counts, before the context has
ended. -/
theorem counted_of_vote {moment : Moment}
    (h : ∀ detail, summaryVote lib vsaLib moment pol digestRef att ≠ .failure detail) :
    moment.ctxErr = none ∧ ∃ stmt, vsaLib.unmarshal att.payload = .ok stmt ∧
      SignedByVerifier lib pol att.signer stmt ∧
      (Vsa.Failing vsaLib stmt digestRef ∨ Vsa.Passing vsaLib moment.now stmt pol digestRef) := by
  unfold summaryVote Vsa.verify at h
  split at h
  · exact absurd rfl (h _)
  · next halive =>
    refine ⟨halive, ?_⟩
    split at h
    · exact absurd rfl (h _)
    · next stmt hstmt =>
      dsimp only [vote] at h
      split at h
      · next hconclusive =>
        split at h
        · next hbound =>
          rcases @Vsa.verifyStatement_cases vsaLib moment.now stmt pol digestRef with
            ⟨hsoft, hfailed⟩ | ⟨hmatched, hcounts⟩
          · rw [hsoft, hfailed] at hconclusive
            cases hconclusive
          · rw [hmatched] at hbound
            exact ⟨stmt, hstmt, signedByVerifier_iff.mpr hbound, hcounts⟩
        · exact absurd rfl (h _)
      · exact absurd rfl (h _)

theorem accepting_of_vote {moment : Moment} {check : CheckResult}
    (h : summaryVote lib vsaLib moment pol digestRef att = .pass check) :
    moment.ctxErr = none ∧ ∃ stmt, vsaLib.unmarshal att.payload = .ok stmt ∧
      Vsa.Passing vsaLib moment.now stmt pol digestRef ∧
      SignedByVerifier lib pol att.signer stmt ∧
      check = (Vsa.verifyStatement vsaLib moment.now stmt pol digestRef).check := by
  have hcounted (detail : String) :
      summaryVote lib vsaLib moment pol digestRef att ≠ .failure detail := by
    rw [h]
    exact nofun
  obtain ⟨halive, stmt, hstmt, hsigned, hcounts⟩ := counted_of_vote hcounted
  obtain ⟨now, ctxErr⟩ := moment
  obtain rfl : ctxErr = none := halive
  rcases hcounts with hfailing | hpassing
  · have hrejects : (summaryVote lib vsaLib ⟨now, none⟩ pol digestRef att).rejects = true :=
      vote_of_failing hstmt hfailing hsigned
    rw [h] at hrejects
    cases hrejects
  · rw [vote_of_passing hstmt hpassing hsigned] at h
    exact ⟨rfl, stmt, hstmt, hpassing, hsigned, (Vote.pass.inj h).symm⟩

theorem summaryVote_passes_iff :
    (summaryVote lib vsaLib ⟨now, none⟩ pol digestRef att).passed?.isSome = true ↔
      Accepting lib vsaLib now pol digestRef att := by
  constructor
  · intro h
    cases hvote : summaryVote lib vsaLib ⟨now, none⟩ pol digestRef att with
    | failure detail | reject check =>
      rw [hvote] at h
      cases h
    | pass check =>
      obtain ⟨-, stmt, hstmt, hpassing, hsigned, -⟩ := accepting_of_vote hvote
      exact ⟨stmt, hstmt, hpassing, hsigned⟩
  · rintro ⟨stmt, hstmt, hpassing, hsigned⟩
    rw [vote_of_passing hstmt hpassing hsigned]
    rfl

variable (lib) (vsaLib)

def summaryVotes (moment : Nat → Moment) (pol : Policy) (digestRef : String)
    (atts : List VerifiedAttestation) : List Vote :=
  atts.zipIdx.map fun x => summaryVote lib vsaLib (moment x.2) pol digestRef x.1

/-- The context does not end before the last summary is verified, and none of the summaries
becomes outdated meanwhile. -/
structure Steady (moment : Nat → Moment) (pol : Policy) (atts : List VerifiedAttestation) :
    Prop where
  alive : ∀ i < atts.length, (moment i).ctxErr = none
  fresh : ∀ att ∈ atts, ∀ stmt, vsaLib.unmarshal att.payload = .ok stmt → ∀ i < atts.length,
    (Vsa.verifyFreshness vsaLib (moment i).now stmt.predicate.timeVerified pol = .ok () ↔
      Vsa.verifyFreshness vsaLib (moment 0).now stmt.predicate.timeVerified pol = .ok ())

variable {lib} {vsaLib} {moment : Nat → Moment} {atts : List VerifiedAttestation}

theorem any_summaryVotes {p : Vote → Bool} {q : VerifiedAttestation → Prop}
    (h : ∀ att ∈ atts, ∀ i < atts.length,
      (p (summaryVote lib vsaLib (moment i) pol digestRef att) = true ↔ q att)) :
    (summaryVotes lib vsaLib moment pol digestRef atts).any p = true ↔ ∃ att ∈ atts, q att := by
  rw [List.any_eq_true]
  constructor
  · rintro ⟨v, hv, hp⟩
    obtain ⟨⟨att, i⟩, hmem, rfl⟩ := List.mem_map.mp hv
    have hget := List.mem_zipIdx_iff_getElem?.mp hmem
    have hatt := List.mem_of_getElem? hget
    exact ⟨att, hatt, (h att hatt i (List.getElem?_eq_some_iff.mp hget).1).mp hp⟩
  · rintro ⟨att, hatt, hq⟩
    obtain ⟨i, hget⟩ := List.getElem?_of_mem hatt
    have hmem : (att, i) ∈ atts.zipIdx := List.mem_zipIdx_iff_getElem?.mpr hget
    refine ⟨_, List.mem_map_of_mem hmem, ?_⟩
    exact (h att hatt i (List.getElem?_eq_some_iff.mp hget).1).mpr hq

namespace Steady

theorem perm (h : Steady vsaLib moment pol atts) {order : List VerifiedAttestation}
    (hperm : order.Perm atts) : Steady vsaLib moment pol order := by
  refine ⟨?_, ?_⟩
  · rw [hperm.length_eq]
    exact h.alive
  · rw [hperm.length_eq]
    exact fun att hatt => h.fresh att (hperm.mem_iff.mp hatt)

theorem passes_iff (h : Steady vsaLib moment pol atts) :
    ((summaryVotes lib vsaLib moment pol digestRef atts).any fun v => v.passed?.isSome) = true ↔
      ∃ att ∈ atts, Accepting lib vsaLib (moment 0).now pol digestRef att := by
  apply any_summaryVotes (p := fun v => v.passed?.isSome)
  intro att hatt i hi
  rw [show moment i = ⟨(moment i).now, none⟩ by rw [← h.alive i hi], summaryVote_passes_iff]
  refine exists_congr fun stmt => and_congr_right fun hstmt => and_congr_left fun _ => ?_
  have hfresh := h.fresh att hatt stmt hstmt i hi
  constructor
  · rintro ⟨hresult, hbinding, hlevels, hversion, huri, hnow⟩
    exact ⟨hresult, hbinding, hlevels, hversion, huri, hfresh.mp hnow⟩
  · rintro ⟨hresult, hbinding, hlevels, hversion, huri, hnow⟩
    exact ⟨hresult, hbinding, hlevels, hversion, huri, hfresh.mpr hnow⟩

end Steady

variable (lib) (vsaLib)

end step

end NriSupplyChain.Verifier
