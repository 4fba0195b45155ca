import NriSupplyChain.Vex.Matching
import NriSupplyChain.Vex.Resolution

/-!
The groups that are resolved, described from the list of candidates alone: each
candidate stays in its group, moves to the group of its packages or disappears, and
the first one that comes to a group gives it its scope.
-/

namespace NriSupplyChain.Openvex

open Lib

/-- The candidates that come to a group. -/
def candidatesAt (entries : List Entry) (k : Text) : List Candidate :=
  (entries.filter fun e => e.key = k).map fun e => e.cand

/-- The scope of the entry that opens a group. -/
def openingScope (entries : List Entry) (k : Text) : Option Text :=
  (entries.find? fun e => e.key = k).map fun e => e.scope

theorem candidatesAt_cons (e : Entry) (entries : List Entry) (k : Text) :
    candidatesAt (e :: entries) k =
      if e.key = k then e.cand :: candidatesAt entries k else candidatesAt entries k := by
  by_cases hk : e.key = k <;> simp [candidatesAt, hk]

theorem openingScope_cons (e : Entry) (entries : List Entry) (k : Text) :
    openingScope (e :: entries) k =
      if e.key = k then some e.scope else openingScope entries k := by
  by_cases hk : e.key = k <;> simp [openingScope, hk]

theorem candidatesAt_perm {left right : List Entry} (h : left.Perm right) (k : Text) :
    (candidatesAt left k).Perm (candidatesAt right k) :=
  (h.filter _).map _

theorem mem_candidatesAt {entries : List Entry} {k : Text} {cand : Candidate} :
    cand ∈ candidatesAt entries k ↔ ∃ e ∈ entries, e.key = k ∧ e.cand = cand := by
  simp [candidatesAt, and_assoc]

theorem openingScope_eq_none {entries : List Entry} {k : Text} :
    openingScope entries k = none ↔ candidatesAt entries k = [] := by
  simp [openingScope, candidatesAt]

theorem lookup_addCandidate (groups : Groups) (e : Entry) (k : Text) :
    (addCandidate groups e).lookup k =
      if e.key = k then
        match groups.lookup k with
        | some group => some { group with candidates := group.candidates ++ [e.cand] }
        | none => some ⟨e.scope, [e.cand]⟩
      else groups.lookup k := by
  unfold addCandidate
  by_cases hk : e.key = k
  · subst hk
    rw [if_pos rfl]
    cases hlookup : groups.lookup e.key <;> simp
  · rw [if_neg hk]
    cases hlookup : groups.lookup e.key <;> simp [AList.lookup_insert_ne (Ne.symm hk)]

/-- The group of a key after candidates were added. -/
theorem lookup_addCandidates (groups : Groups) (entries : List Entry) (k : Text) :
    (addCandidates groups entries).lookup k =
      match groups.lookup k with
      | some group => some { group with candidates := group.candidates ++ candidatesAt entries k }
      | none => (openingScope entries k).map fun scope => ⟨scope, candidatesAt entries k⟩ := by
  induction entries generalizing groups with
  | nil =>
    cases hlookup : groups.lookup k with
    | none => exact hlookup
    | some group =>
      refine hlookup.trans ?_
      simp [candidatesAt]
  | cons e rest ih =>
    have hcons : addCandidates groups (e :: rest) = addCandidates (addCandidate groups e) rest :=
      rfl
    rw [hcons, ih, lookup_addCandidate, candidatesAt_cons, openingScope_cons]
    by_cases hk : e.key = k
    · simp only [hk, if_true]
      cases hlookup : groups.lookup k <;> simp
    · simp only [hk, if_false]

theorem lookup_groups (entries : List Entry) (k : Text) :
    (addCandidates ∅ entries).lookup k =
      (openingScope entries k).map fun scope => ⟨scope, candidatesAt entries k⟩ := by
  rw [lookup_addCandidates, AList.lookup_empty]

/-- Whether a group has a strict candidate. -/
def strictAt (entries : List Entry) (k : Text) : Bool :=
  (candidatesAt entries k).any fun cand => !cand.lenient

/-- Whether a group is opened by a candidate for the image. -/
def opensImage (entries : List Entry) (k : Text) : Bool :=
  openingScope entries k = some imageScope

/-- Whether a group about the image has a strict candidate. -/
def strictImage (entries : List Entry) : Bool :=
  entries.any fun e => opensImage entries e.key && strictAt entries e.key

/-- Whether an entry is superseded by the others. -/
def Entry.dropped (entries : List Entry) (e : Entry) : Bool :=
  superseded (strictImage entries) (strictAt entries e.key) e.cand

/-- Where an entry ends: in its group, in that of its packages, or nowhere. -/
def Entry.settle (entries : List Entry) (e : Entry) : Option Entry :=
  if e.dropped entries then packageEntry e.cand else some e

def settled (entries : List Entry) : List Entry :=
  entries.filterMap (Entry.settle entries)

/-- The candidates of a group that are not superseded. -/
def keptAt (entries : List Entry) (k : Text) : List Candidate :=
  (candidatesAt entries k).filter fun cand =>
    !superseded (strictImage entries) (strictAt entries k) cand

/-- What is said of a group. -/
def verdictAt (entries : List Entry) (k : Text) : Option Verdict :=
  let candidates := candidatesAt (settled entries) k
  if candidates = [] then none
  else
    let (rank, vulnName) := resolve candidates
    some
      { aboutImage := opensImage entries k && !(keptAt entries k).isEmpty
        rank
        vulnName }

section

variable {entries : List Entry} {groups : Groups}

variable {k : Text}

theorem lookup_of_perm (hgroups : (addCandidates ∅ entries).entries.Perm groups.entries) :
    groups.lookup k =
      (openingScope entries k).map fun scope => ⟨scope, candidatesAt entries k⟩ := by
  rw [← lookup_groups]
  exact (AList.perm_lookup hgroups).symm

theorem openingScope_isSome_of_mem {e : Entry} (he : e ∈ entries) :
    ∃ scope, openingScope entries e.key = some scope := by
  apply Option.ne_none_iff_exists'.mp
  intro hnone
  have hmem : e.cand ∈ candidatesAt entries e.key := mem_candidatesAt.mpr ⟨e, he, rfl, rfl⟩
  rw [openingScope_eq_none.mp hnone] at hmem
  cases hmem

theorem exists_mem_of_openingScope {scope : Text} (h : openingScope entries k = some scope) :
    ∃ e ∈ entries, e.key = k ∧ e.scope = scope := by
  obtain ⟨e, hfind, hscope⟩ := Option.map_eq_some_iff.mp h
  have hkey := List.find?_some hfind
  exact ⟨e, List.mem_of_find?_eq_some hfind, of_decide_eq_true hkey, hscope⟩

theorem hasStrictImage_eq
    (hgroups : (addCandidates ∅ entries).entries.Perm groups.entries) :
    hasStrictImage groups = strictImage entries := by
  apply Bool.eq_iff_iff.mpr
  unfold hasStrictImage strictImage
  simp only [List.any_eq_true, Bool.and_eq_true, decide_eq_true_eq]
  constructor
  · rintro ⟨group, hmem, hscope, hstrict⟩
    obtain ⟨k, hlookup⟩ := mem_values.mp hmem
    rw [lookup_of_perm hgroups] at hlookup
    obtain ⟨scope, hopening, rfl⟩ := Option.map_eq_some_iff.mp hlookup
    obtain ⟨e, he, rfl, -⟩ := exists_mem_of_openingScope hopening
    refine ⟨e, he, ?_, hstrict⟩
    exact decide_eq_true (hopening.trans (congrArg some hscope))
  · rintro ⟨e, he, hopens, hstrict⟩
    refine ⟨⟨imageScope, candidatesAt entries e.key⟩, mem_values.mpr ⟨e.key, ?_⟩, rfl, hstrict⟩
    rw [lookup_of_perm hgroups, of_decide_eq_true hopens]
    rfl

/-- The superseded entries as ones of their packages. -/
def moved (entries : List Entry) : List Entry :=
  (entries.filter (Entry.dropped entries)).filterMap fun e => packageEntry e.cand

theorem candidatesAt_filter_dropped (entries : List Entry) (p : Bool → Bool) (k : Text) :
    candidatesAt (entries.filter fun e => p (e.dropped entries)) k =
      (candidatesAt entries k).filter fun cand =>
        p (superseded (strictImage entries) (strictAt entries k) cand) := by
  unfold candidatesAt
  rw [List.filter_map, List.filter_filter, List.filter_filter]
  congr 1
  apply List.filter_congr
  intro e _
  by_cases hk : e.key = k
  · subst hk
    simp [Entry.dropped]
  · simp [hk]

theorem dropped_perm (hgroups : (addCandidates ∅ entries).entries.Perm groups.entries) :
    ((values groups).flatMap fun group =>
      group.candidates.filter (superseded (hasStrictImage groups) group.hasStrict)).Perm
    ((entries.filter (Entry.dropped entries)).map fun e => e.cand) := by
  have hkeys : ((values groups).flatMap fun group =>
      group.candidates.filter (superseded (hasStrictImage groups) group.hasStrict)) =
      (groups.keys.flatMap fun k =>
        (entries.filter (Entry.dropped entries)).filter fun e => e.key = k).map
          fun e => e.cand := by
    rw [hasStrictImage_eq hgroups, List.map_flatMap]
    unfold values AList.keys List.keys
    rw [List.flatMap_map, List.flatMap_map]
    apply List.flatMap_congr
    rintro ⟨k, group⟩ hmem
    have hlookup : groups.lookup k = some group := AList.mem_lookup_iff.mpr hmem
    rw [lookup_of_perm hgroups] at hlookup
    obtain ⟨scope, -, rfl⟩ := Option.map_eq_some_iff.mp hlookup
    exact (candidatesAt_filter_dropped entries id k).symm
  rw [hkeys]
  refine (flatMap_filter_perm groups.keys_nodup _ ?_).map _
  intro e he
  obtain ⟨scope, hscope⟩ := openingScope_isSome_of_mem (List.mem_of_mem_filter he)
  apply AList.lookup_isSome.mp
  rw [lookup_of_perm hgroups, hscope]
  rfl

theorem settled_perm : (settled entries).Perm
    ((entries.filter fun e => !e.dropped entries) ++ moved entries) := by
  exact filterMap_ite_perm (Entry.dropped entries) (fun e => packageEntry e.cand) entries

theorem mem_moved (hproper : ∀ e ∈ entries, e.Proper) {m : Entry} (hm : m ∈ moved entries) :
    m.scope ≠ imageScope ∧ m.cand.vulnName ≠ [] ∧ m.cand.rank ≤ rankAffected := by
  obtain ⟨e, he, hpackage⟩ := List.mem_filterMap.mp hm
  have hp := hproper e (List.mem_of_mem_filter he)
  unfold packageEntry at hpackage
  split at hpackage
  · cases hpackage
  · obtain rfl := Option.some.inj hpackage
    exact ⟨hp.packageScope, hp.vulnName, hp.rank⟩

theorem mem_settled (hproper : ∀ e ∈ entries, e.Proper) {cand : Candidate}
    (h : cand ∈ candidatesAt (settled entries) k) :
    cand.vulnName ≠ [] ∧ cand.rank ≤ rankAffected := by
  obtain ⟨m, hm, -, rfl⟩ := mem_candidatesAt.mp h
  rcases List.mem_append.mp (settled_perm.mem_iff.mp hm) with hkept | hmoved
  · have hp := hproper m (List.mem_of_mem_filter hkept)
    exact ⟨hp.vulnName, hp.rank⟩
  · exact (mem_moved hproper hmoved).2

theorem candidatesAt_settled_perm (k : Text) :
    (candidatesAt (settled entries) k).Perm
      (keptAt entries k ++ candidatesAt (moved entries) k) := by
  refine (candidatesAt_perm settled_perm k).trans ?_
  have happend : candidatesAt ((entries.filter fun e => !e.dropped entries) ++ moved entries) k =
      candidatesAt (entries.filter fun e => !e.dropped entries) k ++
        candidatesAt (moved entries) k := by
    simp [candidatesAt]
  rw [happend, candidatesAt_filter_dropped entries (!·) k]
  exact .refl _

theorem kept_lookup (hgroups : (addCandidates ∅ entries).entries.Perm groups.entries) (k : Text) :
    (filterMapValues
      (fun _ group =>
        let candidates := group.candidates.filter fun cand =>
          !superseded (hasStrictImage groups) group.hasStrict cand
        if candidates.isEmpty then none else some { group with candidates })
      groups).lookup k =
    (openingScope entries k).bind fun scope =>
      if (keptAt entries k).isEmpty then none else some ⟨scope, keptAt entries k⟩ := by
  rw [lookup_filterMapValues, lookup_of_perm hgroups, hasStrictImage_eq hgroups]
  cases openingScope entries k <;> rfl

/-- A group that is left is resolved as its candidates are in any order. -/
theorem verdict_eq (hproper : ∀ e ∈ entries, e.Proper) {scope : Text}
    {candidates : List Candidate} (hne : candidates ≠ [])
    (hperm : (candidatesAt (settled entries) k).Perm candidates)
    (hscope : decide (scope = imageScope) =
      (opensImage entries k && !(keptAt entries k).isEmpty)) :
    some (StatementGroup.verdict ⟨scope, candidates⟩) = verdictAt entries k := by
  have hsettled : candidatesAt (settled entries) k ≠ [] := by
    intro hnil
    rw [hnil] at hperm
    exact hne hperm.nil_eq.symm
  have hresolve := resolve_perm hperm fun cand hcand => (mem_settled hproper hcand).1
  unfold verdictAt StatementGroup.verdict
  simp only [hresolve, if_neg hsettled, hscope]

/-- The group of a key when all is done. -/
theorem lookup_reduced (hproper : ∀ e ∈ entries, e.Proper)
    (hgroups : (addCandidates ∅ entries).entries.Perm groups.entries) (k : Text) :
    ((dropSupersededLenientCandidates groups).lookup k).map StatementGroup.verdict =
      verdictAt entries k := by
  unfold dropSupersededLenientCandidates
  have hmoved := (dropped_perm hgroups).filterMap packageEntry
  rw [List.filterMap_map] at hmoved
  rw [lookup_addCandidates, kept_lookup hgroups]
  generalize List.filterMap packageEntry _ = added at hmoved ⊢
  have hadded := candidatesAt_perm hmoved k
  have hsettled : (candidatesAt (settled entries) k).Perm
      (keptAt entries k ++ candidatesAt added k) :=
    (candidatesAt_settled_perm k).trans (hadded.symm.append_left _)
  by_cases hempty : keptAt entries k = []
  · have hnone : ((openingScope entries k).bind fun scope =>
        if (keptAt entries k).isEmpty then none
        else some (StatementGroup.mk scope (keptAt entries k))) = none := by
      simp [hempty]
    rw [hnone]
    rw [hempty, List.nil_append] at hsettled
    cases hopening : openingScope added k with
    | none =>
      rw [openingScope_eq_none.mp hopening] at hsettled
      simp [verdictAt, hsettled.eq_nil]
    | some scope =>
      have hne : candidatesAt added k ≠ [] := by
        intro hnil
        rw [openingScope_eq_none.mpr hnil] at hopening
        cases hopening
      refine verdict_eq hproper hne hsettled ?_
      obtain ⟨m, hm, -, rfl⟩ := exists_mem_of_openingScope hopening
      have hscope := (mem_moved hproper (hmoved.mem_iff.mp hm)).1
      simp [hscope, hempty]
  · obtain ⟨scope, hopening⟩ : ∃ scope, openingScope entries k = some scope := by
      apply Option.ne_none_iff_exists'.mp
      intro hnone
      apply hempty
      rw [keptAt, openingScope_eq_none.mp hnone]
      rfl
    have hsome : ((openingScope entries k).bind fun scope =>
        if (keptAt entries k).isEmpty then none
        else some (StatementGroup.mk scope (keptAt entries k))) =
        some ⟨scope, keptAt entries k⟩ := by
      simp [hopening, hempty]
    rw [hsome]
    refine verdict_eq hproper (List.append_ne_nil_of_left_ne_nil hempty _) hsettled ?_
    simp [opensImage, hopening, hempty]

/-- The verdicts that a result sums up. -/
theorem evaluates_verdicts {charset : Charset} {docs : List Document} {image : Image}
    {result : Result} (h : Evaluates charset docs image result)
    (hproper : ∀ e ∈ statementEntries charset image docs, e.Proper) :
    ∃ reduced : Groups, result = summarizeVerdicts ((values reduced).map StatementGroup.verdict) ∧
      ∀ k, (reduced.lookup k).map StatementGroup.verdict =
        verdictAt (statementEntries charset image docs) k := by
  obtain ⟨groups, reduced, hgroups, hreduced, rfl⟩ := h
  refine ⟨reduced, rfl, ?_⟩
  intro k
  rw [← AList.perm_lookup hreduced]
  exact lookup_reduced hproper hgroups k

end

end NriSupplyChain.Openvex
