import NriSupplyChain.Vex.Statements

/-!
Resolving a group. Of the winning candidates only their time and rank are read, so
the loop is followed on these (`Standing`), where its steps commute.
-/

namespace NriSupplyChain.Openvex

open Lib

/-- What is read of a candidate that won: its time and, for equal times, its rank. -/
def Candidate.dated (cand : Candidate) : Int ×ₗ Int := toLex (cand.timestamp, cand.rank)

def newer (current : Option (Int ×ₗ Int)) (cand : Int ×ₗ Int) : Int ×ₗ Int :=
  match current with
  | none => cand
  | some current => max current cand

theorem newerOrMoreRestrictive_dated (current : Option Candidate) (cand : Candidate) :
    (newerOrMoreRestrictive current cand).dated =
      newer (current.map Candidate.dated) cand.dated := by
  cases current with
  | none => rfl
  | some current =>
    have hlt : current.dated < cand.dated ↔ current.timestamp < cand.timestamp ∨
        current.timestamp = cand.timestamp ∧ current.rank < cand.rank := Prod.Lex.toLex_lt_toLex
    simp only [newerOrMoreRestrictive, newer, Option.map_some]
    by_cases hlater : current.timestamp < cand.timestamp
    · rw [if_pos hlater, max_eq_right (hlt.mpr (.inl hlater)).le]
    · rw [if_neg hlater]
      by_cases hrank : cand.timestamp = current.timestamp ∧ current.rank < cand.rank
      · rw [if_pos hrank, max_eq_right (hlt.mpr (.inr ⟨hrank.1.symm, hrank.2⟩)).le]
      · rw [if_neg hrank, max_eq_left]
        apply not_lt.mp
        rw [hlt]
        rintro (h | ⟨heq, h⟩)
        · exact hlater h
        · exact hrank ⟨heq.symm, h⟩

/-- Which of two candidates comes first makes no difference to the winner. -/
theorem newer_comm (current : Option (Int ×ₗ Int)) (a b : Int ×ₗ Int) :
    newer (some (newer current a)) b = newer (some (newer current b)) a := by
  cases current with
  | none => exact max_comm a b
  | some c => exact max_right_comm c a b

/-- The variables of the loop as far as they are read. -/
structure Standing where
  digest : Option (Int ×ₗ Int)
  name : Option (Int ×ₗ Int)
  undated : Int
  vulnName : Text

def Resolution.standing (r : Resolution) : Standing :=
  ⟨r.digestWinner.map Candidate.dated, r.nameWinner.map Candidate.dated, r.undatedRank, r.vulnName⟩

def leastName (current name : Text) : Text :=
  if current = [] then name else min current name

theorem leastName_eq (current name : Text) :
    (if current = [] ∨ name < current then name else current) = leastName current name := by
  unfold leastName
  by_cases hcurrent : current = []
  · rw [if_pos (.inl hcurrent), if_pos hcurrent]
  · rw [if_neg hcurrent]
    by_cases hlt : name < current
    · rw [if_pos (.inr hlt), min_eq_right hlt.le]
    · rw [if_neg (not_or.mpr ⟨hcurrent, hlt⟩), min_eq_left (not_lt.mp hlt)]

theorem min_ne_nil {a b : Text} (ha : a ≠ []) (hb : b ≠ []) : min a b ≠ [] := by
  rcases min_choice a b with h | h <;> rwa [h]

theorem leastName_comm {a b : Text} (ha : a ≠ []) (hb : b ≠ []) (current : Text) :
    leastName (leastName current a) b = leastName (leastName current b) a := by
  unfold leastName
  by_cases hcurrent : current = []
  · rw [if_pos hcurrent, if_pos hcurrent, if_neg ha, if_neg hb, min_comm]
  · rw [if_neg hcurrent, if_neg hcurrent, if_neg (min_ne_nil hcurrent ha),
      if_neg (min_ne_nil hcurrent hb), min_right_comm]

def Standing.step (s : Standing) (cand : Candidate) : Standing :=
  let vulnName := leastName s.vulnName cand.vulnName
  if cand.timestamp = zeroTime then
    { s with vulnName, undated := max s.undated cand.rank }
  else if Strength.digest.toNat ≤ cand.strength.toNat then
    { s with vulnName, digest := some (newer s.digest cand.dated) }
  else { s with vulnName, name := some (newer s.name cand.dated) }

theorem Resolution.standing_step (r : Resolution) (cand : Candidate) :
    (r.step cand).standing = r.standing.step cand := by
  unfold Resolution.step Standing.step Resolution.standing
  simp only [leastName_eq]
  by_cases hundated : cand.timestamp = zeroTime
  · simp [hundated]
  · by_cases hdigest : Strength.digest.toNat ≤ cand.strength.toNat <;>
      simp [hundated, hdigest, newerOrMoreRestrictive_dated]

def datedOf : Option (Int ×ₗ Int) → Option (Int ×ₗ Int) → Int
  | none, none => -1
  | some digest, none => (ofLex digest).2
  | none, some name => max (-1) (ofLex name).2
  | some digest, some name =>
    if (ofLex name).1 < (ofLex digest).1 then (ofLex digest).2
    else max (ofLex digest).2 (ofLex name).2

def Standing.rank (s : Standing) : Int :=
  max s.undated (datedOf s.digest s.name)

/-- The standing after all candidates. -/
def standingOf (candidates : List Candidate) : Standing :=
  candidates.foldl Standing.step ⟨none, none, -1, []⟩

theorem foldl_standing (candidates : List Candidate) (r : Resolution) :
    (candidates.foldl Resolution.step r).standing =
      candidates.foldl Standing.step r.standing := by
  induction candidates generalizing r with
  | nil => rfl
  | cons cand rest ih => rw [List.foldl_cons, List.foldl_cons, ih, Resolution.standing_step]

theorem Resolution.standing_rank (r : Resolution) :
    r.standing.rank = max r.undatedRank (datedRank r.digestWinner r.nameWinner) := by
  obtain ⟨digest, name, undated, vulnName⟩ := r
  cases digest <;> cases name <;> rfl

/-- A group is resolved by its standing. -/
theorem resolve_eq (candidates : List Candidate) :
    resolve candidates = ((standingOf candidates).rank, (standingOf candidates).vulnName) := by
  have hstanding : (candidates.foldl Resolution.step ⟨none, none, -1, []⟩).standing =
      standingOf candidates := foldl_standing candidates ⟨none, none, -1, []⟩
  rw [← hstanding, Resolution.standing_rank]
  rfl

theorem Standing.step_comm {a b : Candidate} (ha : a.vulnName ≠ []) (hb : b.vulnName ≠ [])
    (s : Standing) : (s.step a).step b = (s.step b).step a := by
  have hname := leastName_comm ha hb s.vulnName
  unfold Standing.step
  by_cases hua : a.timestamp = zeroTime <;> by_cases hub : b.timestamp = zeroTime <;>
    by_cases hda : Strength.digest.toNat ≤ a.strength.toNat <;>
    by_cases hdb : Strength.digest.toNat ≤ b.strength.toNat <;>
    simp only [hua, hub, hda, hdb, if_true, if_false, hname, max_right_comm s.undated,
      newer_comm s.digest a.dated, newer_comm s.name a.dated]

/-- The order of the candidates makes no difference. -/
theorem standingOf_perm {left right : List Candidate} (h : left.Perm right)
    (hnames : ∀ cand ∈ left, cand.vulnName ≠ []) : standingOf left = standingOf right := by
  apply h.foldl_eq'
  intro a ha b hb s
  exact Standing.step_comm (hnames a ha) (hnames b hb) s

theorem resolve_perm {left right : List Candidate} (h : left.Perm right)
    (hnames : ∀ cand ∈ left, cand.vulnName ≠ []) : resolve left = resolve right := by
  rw [resolve_eq, resolve_eq, standingOf_perm h hnames]

/-- No rank that is read exceeds that of an affected candidate. -/
structure Standing.Bounded (s : Standing) : Prop where
  digest : ∀ d, s.digest = some d → (ofLex d).2 ≤ rankAffected
  name : ∀ d, s.name = some d → (ofLex d).2 ≤ rankAffected
  undated : s.undated ≤ rankAffected

theorem newer_bounded {current : Option (Int ×ₗ Int)} {cand : Int ×ₗ Int} {bound : Int}
    (hcurrent : ∀ d, current = some d → (ofLex d).2 ≤ bound) (hcand : (ofLex cand).2 ≤ bound) :
    (ofLex (newer current cand)).2 ≤ bound := by
  cases current with
  | none => exact hcand
  | some c =>
    rcases max_choice c cand with h | h
    · rw [newer, h]
      exact hcurrent c rfl
    · rw [newer, h]
      exact hcand

variable {cand : Candidate} {s : Standing}

theorem Standing.Bounded.step (h : s.Bounded) (hrank : cand.rank ≤ rankAffected) :
    (s.step cand).Bounded := by
  unfold Standing.step
  split
  · exact ⟨h.digest, h.name, max_le h.undated hrank⟩
  · split
    · refine ⟨?_, h.name, h.undated⟩
      rintro _ ⟨⟩
      exact newer_bounded h.digest hrank
    · refine ⟨h.digest, ?_, h.undated⟩
      rintro _ ⟨⟩
      exact newer_bounded h.name hrank

variable {candidates : List Candidate}

theorem standingOf_bounded (h : ∀ cand ∈ candidates, cand.rank ≤ rankAffected) :
    (standingOf candidates).Bounded := by
  induction candidates using List.reverseRecOn with
  | nil =>
    refine ⟨?_, ?_, by decide⟩
    · rintro d ⟨⟩
    · rintro d ⟨⟩
  | append_singleton rest cand ih =>
    have hstep : standingOf (rest ++ [cand]) = (standingOf rest).step cand := by
      simp [standingOf]
    rw [hstep]
    exact (ih fun c hc => h c (by simp [hc])).step (h cand (by simp))

theorem datedOf_le {digest name : Option (Int ×ₗ Int)} {bound : Int} (hbound : -1 ≤ bound)
    (hdigest : ∀ d, digest = some d → (ofLex d).2 ≤ bound)
    (hname : ∀ d, name = some d → (ofLex d).2 ≤ bound) : datedOf digest name ≤ bound := by
  match digest, name with
  | none, none => exact hbound
  | some d, none => exact hdigest d rfl
  | none, some n => exact max_le hbound (hname n rfl)
  | some d, some n =>
    rw [datedOf]
    split
    · exact hdigest d rfl
    · exact max_le (hdigest d rfl) (hname n rfl)

theorem le_datedOf_digest (d : Int ×ₗ Int) (name : Option (Int ×ₗ Int)) :
    (ofLex d).2 ≤ datedOf (some d) name := by
  cases name with
  | none => exact le_refl _
  | some n =>
    rw [datedOf]
    split
    · exact le_refl _
    · exact le_max_left _ _

theorem Standing.Bounded.rank_le (h : s.Bounded) : s.rank ≤ rankAffected :=
  max_le h.undated (datedOf_le (by decide) h.digest h.name)

/-- A later name match that is affected never lowers the rank: it counts, or the one
it replaces did not count either. -/
theorem datedOf_le_newer {digest name : Option (Int ×ₗ Int)} {cand : Int ×ₗ Int}
    (hcand : (ofLex cand).2 = rankAffected)
    (hdigest : ∀ d, digest = some d → (ofLex d).2 ≤ rankAffected)
    (hname : ∀ d, name = some d → (ofLex d).2 ≤ rankAffected) :
    datedOf digest name ≤ datedOf digest (some (newer name cand)) := by
  have hle : datedOf digest name ≤ rankAffected := datedOf_le (by decide) hdigest hname
  by_cases hkept : name = some (newer name cand)
  · rw [← hkept]
  · have hwins : newer name cand = cand := by
      cases name with
      | none => rfl
      | some n =>
        rcases max_choice n cand with h | h
        · exact absurd (congrArg some h.symm) hkept
        · exact h
    rw [hwins]
    cases digest with
    | none => exact hle.trans (hcand ▸ le_max_right _ _)
    | some d =>
      by_cases hold : (ofLex cand).1 < (ofLex d).1
      · have hcounts : datedOf (some d) name = (ofLex d).2 := by
          cases name with
          | none => rfl
          | some n =>
            have hn : n ≤ cand := max_eq_right_iff.mp hwins
            have htime : (ofLex n).1 ≤ (ofLex cand).1 := Prod.Lex.monotone_fst n cand hn
            exact if_pos (lt_of_le_of_lt htime hold)
        rw [hcounts]
        exact le_datedOf_digest d (some cand)
      · have hcounts : datedOf (some d) (some cand) = max (ofLex d).2 (ofLex cand).2 :=
          if_neg hold
        rw [hcounts]
        exact hle.trans (hcand ▸ le_max_right _ _)

/-- An affected candidate never lowers the rank. -/
theorem Standing.rank_step (h : s.Bounded) (hrank : cand.rank = rankAffected) :
    s.rank ≤ (s.step cand).rank := by
  have hdated : (ofLex cand.dated).2 = rankAffected := hrank
  unfold Standing.step
  split
  · exact max_le_max_right _ (le_max_left _ _)
  · split
    · refine max_le_max_left _ ?_
      change datedOf s.digest s.name ≤ datedOf (some (newer s.digest cand.dated)) s.name
      by_cases hkept : s.digest = some (newer s.digest cand.dated)
      · rw [← hkept]
      · have hwins : newer s.digest cand.dated = cand.dated := by
          cases hd : s.digest with
          | none => rfl
          | some d =>
            rw [hd] at hkept
            rcases max_choice d cand.dated with hmax | hmax
            · exact absurd (congrArg some hmax.symm) hkept
            · exact hmax
        rw [hwins]
        refine (datedOf_le (by decide) h.digest h.name).trans ?_
        rw [← hdated]
        exact le_datedOf_digest _ _
    · exact max_le_max_left _ (datedOf_le_newer hdated h.digest h.name)

/-- Affected candidates in front of others never lower the rank. -/
theorem resolve_rank_le {extra : List Candidate}
    (hnames : ∀ cand ∈ extra ++ candidates, cand.vulnName ≠ [])
    (hranks : ∀ cand ∈ extra ++ candidates, cand.rank ≤ rankAffected)
    (haffected : ∀ cand ∈ extra, cand.rank = rankAffected) :
    (resolve candidates).1 ≤ (resolve (extra ++ candidates)).1 := by
  induction extra with
  | nil => exact le_refl _
  | cons cand rest ih =>
    have hperm : (cand :: (rest ++ candidates)).Perm ((rest ++ candidates) ++ [cand]) :=
      (List.perm_append_singleton cand _).symm
    rw [List.cons_append, resolve_perm hperm hnames]
    refine (ih (fun c hc => hnames c (List.mem_cons_of_mem cand hc))
      (fun c hc => hranks c (List.mem_cons_of_mem cand hc))
      (fun c hc => haffected c (List.mem_cons_of_mem cand hc))).trans ?_
    rw [resolve_eq, resolve_eq]
    have hstep : standingOf (rest ++ candidates ++ [cand]) =
        (standingOf (rest ++ candidates)).step cand := by
      simp [standingOf]
    rw [hstep]
    refine Standing.rank_step (standingOf_bounded fun c hc => ?_)
      (haffected cand List.mem_cons_self)
    exact hranks c (List.mem_cons_of_mem cand hc)

theorem resolve_rank_le_affected (h : ∀ cand ∈ candidates, cand.rank ≤ rankAffected) :
    (resolve candidates).1 ≤ rankAffected := by
  rw [resolve_eq]
  exact (standingOf_bounded h).rank_le

/-- A candidate on its own decides. -/
theorem resolve_singleton (h : cand.rank = rankAffected) : (resolve [cand]).1 = rankAffected := by
  have hmax : max (-1) cand.rank = rankAffected := by
    rw [h]
    rfl
  rw [resolve_eq]
  unfold standingOf
  rw [List.foldl_cons, List.foldl_nil, Standing.step]
  split
  · change max (max (-1) cand.rank) (-1) = rankAffected
    rw [hmax]
    rfl
  · split
    · exact hmax
    · change max (-1) (max (-1) cand.rank) = rankAffected
      rw [hmax]
      rfl

end NriSupplyChain.Openvex
