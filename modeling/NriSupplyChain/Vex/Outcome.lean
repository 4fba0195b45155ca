import NriSupplyChain.Vex.Groups

/-!
The result of an evaluation. It does not depend on the order of the documents and
statements, and another affected statement does not lower it, as long as statements
about the image and statements about packages do not share a group: a group's scope is
that of the statement that opens it, and the key of a group joins its parts with NUL
characters that the parts may contain themselves.
-/

namespace NriSupplyChain.Openvex

open Lib

/-- The candidates of a group are all for the image or all for packages. -/
def Unmixed (entries : List Entry) : Prop :=
  ∀ a ∈ entries, ∀ b ∈ entries, a.key = b.key → a.scope = imageScope → b.scope = imageScope

instance (entries : List Entry) : Decidable (Unmixed entries) := by
  unfold Unmixed
  infer_instance

/-- No vulnerability has a name with a NUL character. -/
def NamesWithoutNul (docs : List Document) : Prop :=
  ∀ doc ∈ docs, ∀ stmt ∈ doc.statements, '\x00' ∉ groupedName stmt

instance (docs : List Document) : Decidable (NamesWithoutNul docs) := by
  unfold NamesWithoutNul
  infer_instance

variable {charset : Charset} {docs : List Document} {image : Image}

/-- Such names keep the groups apart. -/
theorem unmixed_of_names (h : NamesWithoutNul docs) :
    Unmixed (statementEntries charset image docs) := by
  intro a ha b hb hkey himage
  obtain ⟨doc, hdoc, s, hs, hsentry⟩ := mem_statementEntries.mp ha
  obtain ⟨doc', hdoc', t, ht, htentry⟩ := mem_statementEntries.mp hb
  obtain ⟨hakey, hascope, -⟩ := statementEntry_eq_some hsentry
  obtain ⟨hbkey, hbscope, -⟩ := statementEntry_eq_some htentry
  rw [hakey, hbkey, hascope, hbscope] at hkey
  rw [hascope] at himage
  rw [hbscope]
  exact scope_of_key_eq (h doc hdoc s hs) (h doc' hdoc' t ht) hkey himage

/-- The group of the added candidate holds no candidates of the other kind, and as one
for the image it meets none that move to their packages. -/
structure Entry.Apart (entries : List Entry) (n : Entry) : Prop where
  kind : ∀ e ∈ entries, e.key = n.key → (e.scope = imageScope ↔ n.scope = imageScope)
  moved : n.scope = imageScope → ∀ e ∈ entries, e.cand.packageScope ≠ [] →
    e.cand.packageKey ≠ n.key

theorem apart_of_names (h : NamesWithoutNul docs) {docTime : Int} {stmt : Statement}
    (hstmt : '\x00' ∉ groupedName stmt) {n : Entry}
    (hentry : statementEntry charset image docTime stmt = some n) :
    n.Apart (statementEntries charset image docs) := by
  obtain ⟨hnkey, hnscope, -⟩ := statementEntry_eq_some hentry
  refine ⟨?_, ?_⟩
  · intro e he hkey
    obtain ⟨doc, hdoc, s, hs, hsentry⟩ := mem_statementEntries.mp he
    obtain ⟨hekey, hescope, -⟩ := statementEntry_eq_some hsentry
    rw [hekey, hnkey, hescope, hnscope] at hkey
    rw [hescope, hnscope]
    exact ⟨scope_of_key_eq (h doc hdoc s hs) hstmt hkey,
      scope_of_key_eq hstmt (h doc hdoc s hs) hkey.symm⟩
  · intro himage e he hpackages hkey
    obtain ⟨doc, hdoc, s, hs, hsentry⟩ := mem_statementEntries.mp he
    obtain ⟨-, -, -, hpackageKey, -⟩ := statementEntry_eq_some hsentry
    rw [hpackageKey hpackages, hnkey] at hkey
    apply matchStatement_packageScope s image
    rw [untilNul_scope_eq (h doc hdoc s hs) hstmt hkey, himage]
    exact untilNul_imageScope

section order

variable {left right : List Entry}

theorem strictAt_perm (h : left.Perm right) : strictAt left = strictAt right := by
  funext k
  exact (candidatesAt_perm h k).any_eq

/-- Which entry opens a group makes no difference when all agree. -/
theorem opensImage_eq (h : Unmixed left) (k : Text) :
    opensImage left k = left.any fun e => e.key = k && e.scope = imageScope := by
  apply Bool.eq_iff_iff.mpr
  simp only [opensImage, decide_eq_true_eq, List.any_eq_true, Bool.and_eq_true]
  constructor
  · intro hopens
    exact exists_mem_of_openingScope hopens
  · rintro ⟨e, he, rfl, himage⟩
    obtain ⟨scope, hscope⟩ := openingScope_isSome_of_mem he
    obtain ⟨first, hfirst, hkey, rfl⟩ := exists_mem_of_openingScope hscope
    rw [hscope, h e he first hfirst hkey.symm himage]

theorem Unmixed.perm (h : Unmixed left) (hperm : left.Perm right) : Unmixed right := by
  intro a ha b hb
  exact h a (hperm.mem_iff.mpr ha) b (hperm.mem_iff.mpr hb)

theorem opensImage_perm (h : Unmixed left) (hperm : left.Perm right) :
    opensImage left = opensImage right := by
  funext k
  rw [opensImage_eq h, opensImage_eq (h.perm hperm)]
  exact hperm.any_eq

theorem strictImage_perm (h : Unmixed left) (hperm : left.Perm right) :
    strictImage left = strictImage right := by
  unfold strictImage
  rw [opensImage_perm h hperm, strictAt_perm hperm]
  exact hperm.any_eq

theorem settled_of_perm (h : Unmixed left) (hperm : left.Perm right) :
    (settled left).Perm (settled right) := by
  have hsettle : Entry.settle left = Entry.settle right := by
    funext e
    unfold Entry.settle Entry.dropped
    rw [strictImage_perm h hperm, strictAt_perm hperm]
  unfold settled
  rw [hsettle]
  exact hperm.filterMap _

theorem keptAt_perm (h : Unmixed left) (hperm : left.Perm right) (k : Text) :
    (keptAt left k).Perm (keptAt right k) := by
  unfold keptAt
  rw [strictImage_perm h hperm, strictAt_perm hperm]
  exact (candidatesAt_perm hperm k).filter _

theorem verdictAt_perm (h : Unmixed left) (hproper : ∀ e ∈ left, e.Proper)
    (hperm : left.Perm right) (k : Text) : verdictAt left k = verdictAt right k := by
  have hcandidates := candidatesAt_perm (settled_of_perm h hperm) k
  have hresolve := resolve_perm hcandidates fun cand hcand => (mem_settled hproper hcand).1
  have hnil : candidatesAt (settled left) k = [] ↔ candidatesAt (settled right) k = [] :=
    ⟨fun hn => (hn ▸ hcandidates).nil_eq.symm, fun hn => (hn ▸ hcandidates).eq_nil⟩
  have hkept : (keptAt left k).isEmpty = (keptAt right k).isEmpty :=
    (keptAt_perm h hperm k).isEmpty_eq
  unfold verdictAt
  simp only [hresolve, hnil, hkept, opensImage_perm h hperm]

end order

theorem sortTexts_perm {left right : List Text} (h : left.Perm right) :
    sortTexts left = sortTexts right := by
  have hperm : (sortTexts left).Perm (sortTexts right) :=
    ((List.perm_insertionSort _ left).trans h).trans (List.perm_insertionSort _ right).symm
  refine hperm.eq_of_pairwise ?_ (List.pairwise_insertionSort (· ≤ ·) left)
    (List.pairwise_insertionSort (· ≤ ·) right)
  intro a b _ _ hab hba
  exact le_antisymm hab hba

theorem summarizeVerdicts_perm {left right : List Verdict} (h : left.Perm right) :
    summarizeVerdicts left = summarizeVerdicts right := by
  unfold summarizeVerdicts
  rw [sortTexts_perm ((h.filter _).map _), h.any_eq, h.countP_eq]

/-- The documents and the statements in each of them in another order. -/
def Rearranged (docs docs' : List Document) : Prop :=
  ∃ mid, docs.Perm mid ∧ List.Forall₂
    (fun doc doc' : Document => doc.timestamp = doc'.timestamp ∧
      doc.lastUpdated = doc'.lastUpdated ∧ doc.statements.Perm doc'.statements) mid docs'

theorem Rearranged.statementEntries {docs' : List Document} (h : Rearranged docs docs') :
    (statementEntries charset image docs).Perm (statementEntries charset image docs') := by
  obtain ⟨mid, hperm, hdocs⟩ := h
  refine (hperm.flatMap_right _).trans ?_
  clear hperm
  induction hdocs with
  | nil => exact .refl _
  | @cons doc doc' _ _ hdoc _ ih =>
    obtain ⟨hwritten, hupdated, hstatements⟩ := hdoc
    have htime : documentTime doc = documentTime doc' := by
      unfold documentTime
      rw [hwritten, hupdated]
    rw [List.flatMap_cons, htime]
    exact (hstatements.filterMap _).append ih

/-- The result does not depend on the order of documents and statements when no group
mixes candidates for the image with candidates for packages. -/
theorem evaluate_order_free {charset : Charset} {docs docs' : List Document} {image : Image}
    {result result' : Result} (hunmixed : Unmixed (statementEntries charset image docs))
    (hdocs : Rearranged docs docs') (h : Evaluates charset docs image result)
    (h' : Evaluates charset docs' image result') : result = result' := by
  have hproper := statementEntries_proper charset image docs
  obtain ⟨reduced, rfl, hlookup⟩ := evaluates_verdicts h hproper
  obtain ⟨reduced', rfl, hlookup'⟩ := evaluates_verdicts h'
    (statementEntries_proper charset image docs')
  apply summarizeVerdicts_perm
  apply values_map_perm
  intro k
  rw [hlookup, hlookup']
  exact verdictAt_perm hunmixed hproper hdocs.statementEntries k

/-- The image `nginx:1.27` for the identifiers below. -/
def nginx : Image where
  matchIdentifier identifier :=
    if identifier = "pkg:oci/nginx".toList then (.image, .name)
    else if identifier = "pkg:oci/nginx@1.26".toList then (.otherImage, .none)
    else if identifier = "pkg:npm/lodash@1".toList then (.package, .name)
    else (.unrelated, .none)
  matchLenient identifier :=
    if identifier = "pkg:oci/nginx".toList then (.image, .name)
    else if identifier = "pkg:oci/nginx@1.26".toList then (.image, .name)
    else if identifier = "pkg:npm/lodash@1".toList then (.package, .name)
    else (.unrelated, .none)
  tagConflicts identifier := identifier = "pkg:oci/nginx@1.26".toList
  matchesHash _ _ := false
  conflictsByHash _ _ := false

/-- A statement about one product. -/
def statementAbout (name product : String) (subcomponents : List String) (status : Status)
    (time : Int) : Statement where
  vulnerabilityName := name.toList
  vulnerabilityID := []
  status
  justification := []
  impactStatement := []
  timestamp := some time
  lastUpdated := none
  products := [⟨⟨product.toList, [], []⟩, subcomponents.map fun id => ⟨id.toList, [], []⟩⟩]

def documentOf (statements : List Statement) : Document :=
  ⟨none, none, statements⟩

theorem rearranged_swap (a b : Statement) : Rearranged [documentOf [a, b]] [documentOf [b, a]] :=
  ⟨[documentOf [a, b]], .refl _, .cons ⟨rfl, rfl, .swap b a []⟩ .nil⟩

/-- A vulnerability of the image and its fix. -/
def imageAffected : Statement := statementAbout "CVE-1" "pkg:oci/nginx" [] .affected 1

def imageFixed : Statement := statementAbout "CVE-1" "pkg:oci/nginx" [] .fixed 2

theorem evaluate_order_free_nginx :
    Unmixed (statementEntries .ascii nginx [documentOf [imageAffected, imageFixed]]) ∧
    evaluate .ascii [documentOf [imageAffected, imageFixed]] nginx =
      evaluate .ascii [documentOf [imageFixed, imageAffected]] nginx := by
  have hunmixed :
      Unmixed (statementEntries .ascii nginx [documentOf [imageAffected, imageFixed]]) :=
    unmixed_of_names (by decide)
  refine ⟨hunmixed, ?_⟩
  exact evaluate_order_free hunmixed (rearranged_swap imageAffected imageFixed)
    (evaluates_evaluate _ _ _) (evaluates_evaluate _ _ _)

/-- A fix of the image with two subcomponents shares its group with a fix of a package
whose vulnerability is named with a NUL; the statement that comes first decides
whether the group counts as one about the image. -/
theorem shared_group_depends_on_order :
    ∃ docs docs' : List Document, Rearranged docs docs' ∧
      evaluate .ascii docs nginx ≠ evaluate .ascii docs' nginx := by
  let image := statementAbout "CVE-1" "pkg:oci/nginx" ["npm//lodash@1", "pkg:npm/x"] .fixed 1
  let package := statementAbout "CVE-1\x00image" "pkg:npm/lodash@1" ["pkg:npm/x"] .fixed 1
  refine ⟨[documentOf [image, package]], [documentOf [package, image]], ?_, ?_⟩
  · exact rearranged_swap image package
  · decide +kernel

section adding

variable {before behind : List Entry} {n : Entry}

theorem candidatesAt_insert (k : Text) :
    (candidatesAt (before ++ n :: behind) k).Perm
      (if n.key = k then n.cand :: candidatesAt (before ++ behind) k
        else candidatesAt (before ++ behind) k) := by
  rw [← candidatesAt_cons]
  exact candidatesAt_perm List.perm_middle k

theorem strictAt_insert (k : Text) :
    strictAt (before ++ n :: behind) k =
      (strictAt (before ++ behind) k || (n.key = k && !n.cand.lenient)) := by
  unfold strictAt
  rw [(candidatesAt_insert k).any_eq]
  by_cases hk : n.key = k
  · simp [hk, Bool.or_comm]
  · simp [hk]

variable {k : Text}

theorem openingScope_insert_ne (hk : n.key ≠ k) :
    openingScope (before ++ n :: behind) k = openingScope (before ++ behind) k := by
  simp [openingScope, List.find?_append, hk]

theorem opensImage_insert (hapart : n.Apart (before ++ behind)) :
    opensImage (before ++ n :: behind) n.key = decide (n.scope = imageScope) := by
  obtain ⟨scope, hscope⟩ := openingScope_isSome_of_mem
    (List.mem_append_right before (List.mem_cons_self (a := n) (l := behind)))
  obtain ⟨e, he, hkey, rfl⟩ := exists_mem_of_openingScope hscope
  have hsame : e.scope = imageScope ↔ n.scope = imageScope := by
    rcases List.mem_cons.mp (List.perm_middle.mem_iff.mp he) with rfl | hold
    · exact Iff.rfl
    · exact hapart.kind e hold hkey
  simp [opensImage, hscope, hsame]

theorem opensImage_of_strictAt (hapart : n.Apart (before ++ behind))
    (h : strictAt (before ++ behind) n.key = true) :
    opensImage (before ++ behind) n.key = decide (n.scope = imageScope) := by
  obtain ⟨cand, hcand, -⟩ := List.any_eq_true.mp h
  obtain ⟨e, he, hkey, -⟩ := mem_candidatesAt.mp hcand
  obtain ⟨scope, hscope⟩ := openingScope_isSome_of_mem he
  rw [hkey] at hscope
  obtain ⟨first, hfirst, hfirstkey, rfl⟩ := exists_mem_of_openingScope hscope
  simp [opensImage, hscope, hapart.kind first hfirst hfirstkey]

variable {entries : List Entry}

theorem strictImage_iff :
    strictImage entries = true ↔
      ∃ k, opensImage entries k = true ∧ strictAt entries k = true := by
  unfold strictImage
  simp only [List.any_eq_true, Bool.and_eq_true]
  constructor
  · rintro ⟨e, -, h⟩
    exact ⟨e.key, h⟩
  · rintro ⟨k, hopens, hstrict⟩
    obtain ⟨e, he, rfl, -⟩ := exists_mem_of_openingScope (of_decide_eq_true hopens)
    exact ⟨e, he, hopens, hstrict⟩

/-- An added candidate that is the first strict one of a group about the image. -/
def Entry.Leads (entries : List Entry) (n : Entry) : Prop :=
  n.scope = imageScope ∧ n.cand.lenient = false ∧ strictAt entries n.key = false

theorem strictImage_insert (hapart : n.Apart (before ++ behind))
    (hleads : ¬n.Leads (before ++ behind)) :
    strictImage (before ++ n :: behind) = strictImage (before ++ behind) := by
  apply Bool.eq_iff_iff.mpr
  rw [strictImage_iff, strictImage_iff]
  apply exists_congr
  intro k
  by_cases hk : n.key = k
  · subst hk
    rw [opensImage_insert hapart, strictAt_insert]
    by_cases hstrict : strictAt (before ++ behind) n.key = true
    · rw [opensImage_of_strictAt hapart hstrict, hstrict]
      simp
    · have hnot : strictAt (before ++ behind) n.key = false := eq_false_of_ne_true hstrict
      have hlenient : n.scope = imageScope → n.cand.lenient = true := by
        intro himage
        by_contra hl
        exact hleads ⟨himage, eq_false_of_ne_true hl, hnot⟩
      simpa [hnot] using hlenient
  · rw [strictAt_insert]
    simp [opensImage, openingScope_insert_ne hk, hk]

theorem dropped_insert (hapart : n.Apart (before ++ behind))
    (hleads : ¬n.Leads (before ++ behind)) {e : Entry} (he : e ∈ before ++ behind)
    (hproper : e.Proper) :
    e.dropped (before ++ n :: behind) = e.dropped (before ++ behind) := by
  unfold Entry.dropped superseded
  rw [strictImage_insert hapart hleads, strictAt_insert]
  cases hlenient : e.cand.lenient with
  | false => rfl
  | true =>
    by_cases hk : n.key = e.key
    · have himage : n.scope = imageScope :=
        (hapart.kind e he hk.symm).mp (hproper.lenient hlenient)
      have hsame : (strictAt (before ++ behind) e.key || !n.cand.lenient) =
          strictAt (before ++ behind) e.key := by
        cases hstrict : strictAt (before ++ behind) e.key with
        | true => rfl
        | false =>
          cases hl : n.cand.lenient with
          | true => rfl
          | false => exact absurd ⟨himage, hl, hk ▸ hstrict⟩ hleads
      simp [hk, hsame]
    · simp [hk]

/-- The other candidates end where they did. -/
theorem settled_insert (hapart : n.Apart (before ++ behind))
    (hleads : ¬n.Leads (before ++ behind)) (hproper : ∀ e ∈ before ++ behind, e.Proper) :
    (settled (before ++ n :: behind)).Perm
      ((n.settle (before ++ n :: behind)).toList ++ settled (before ++ behind)) := by
  have hothers : (before ++ behind).filterMap (Entry.settle (before ++ n :: behind)) =
      settled (before ++ behind) := by
    apply List.filterMap_congr
    intro e he
    unfold Entry.settle
    rw [dropped_insert hapart hleads he (hproper e he)]
  refine (List.perm_middle.filterMap _).trans ?_
  rw [List.filterMap_cons, ← hothers]
  cases n.settle (before ++ n :: behind) <;> exact .refl _

theorem settle_rank {e m : Entry} (h : e.settle entries = some m) : m.cand.rank = e.cand.rank := by
  unfold Entry.settle at h
  split at h
  · unfold packageEntry at h
    split at h
    · cases h
    · rw [← Option.some.inj h]
  · rw [← Option.some.inj h]

/-- The rank a group is left with, if it is left. -/
def rankAt (entries : List Entry) (k : Text) : Option Int :=
  (verdictAt entries k).map fun v => v.rank

variable {rank : Int}

theorem rankAt_eq_some :
    rankAt entries k = some rank ↔
      candidatesAt (settled entries) k ≠ [] ∧
        (resolve (candidatesAt (settled entries) k)).1 = rank := by
  unfold rankAt verdictAt
  by_cases hnil : candidatesAt (settled entries) k = [] <;> simp [hnil]

/-- With a candidate that leads no group, no group is resolved to less. -/
theorem rankAt_insert (hapart : n.Apart (before ++ behind)) (hleads : ¬n.Leads (before ++ behind))
    (hproper : ∀ e ∈ before ++ n :: behind, e.Proper) (haffected : n.cand.rank = rankAffected)
    (h : rankAt (before ++ behind) k = some rank) :
    ∃ rank', rankAt (before ++ n :: behind) k = some rank' ∧ rank ≤ rank' := by
  obtain ⟨hne, rfl⟩ := rankAt_eq_some.mp h
  have hold : ∀ e ∈ before ++ behind, e.Proper := fun e he =>
    hproper e (List.perm_middle.mem_iff.mpr (List.mem_cons_of_mem n he))
  have hperm : (candidatesAt (settled (before ++ n :: behind)) k).Perm
      (candidatesAt (n.settle (before ++ n :: behind)).toList k ++
        candidatesAt (settled (before ++ behind)) k) := by
    refine (candidatesAt_perm (settled_insert hapart hleads hold) k).trans ?_
    simp [candidatesAt]
  have hsettled : ∀ cand ∈ candidatesAt (settled (before ++ n :: behind)) k,
      cand.vulnName ≠ [] ∧ cand.rank ≤ rankAffected := fun cand => mem_settled hproper
  refine ⟨_, rankAt_eq_some.mpr ⟨?_, rfl⟩, ?_⟩
  · intro hnil
    rw [hnil] at hperm
    exact hne (List.append_eq_nil_iff.mp hperm.nil_eq.symm).2
  · rw [resolve_perm hperm fun cand hcand => (hsettled cand hcand).1]
    apply resolve_rank_le
    · exact fun cand hcand => (hsettled cand (hperm.mem_iff.mpr hcand)).1
    · exact fun cand hcand => (hsettled cand (hperm.mem_iff.mpr hcand)).2
    · intro cand hcand
      obtain ⟨m, hm, -, rfl⟩ := mem_candidatesAt.mp hcand
      rw [settle_rank (Option.mem_toList.mp hm), haffected]

/-- A candidate that leads a group is alone in it. -/
theorem candidatesAt_leads (hapart : n.Apart (before ++ behind))
    (hleads : n.Leads (before ++ behind)) :
    candidatesAt (settled (before ++ n :: behind)) n.key = [n.cand] := by
  obtain ⟨himage, hstrict, hnone⟩ := hleads
  have hself : n.settle (before ++ n :: behind) = some n := by
    simp [Entry.settle, Entry.dropped, superseded, hstrict]
  have hothers : candidatesAt
      ((before ++ behind).filterMap (Entry.settle (before ++ n :: behind))) n.key = [] := by
    apply List.eq_nil_iff_forall_not_mem.mpr
    intro cand hcand
    obtain ⟨m, hm, hkey, -⟩ := mem_candidatesAt.mp hcand
    obtain ⟨e, he, hsettle⟩ := List.mem_filterMap.mp hm
    unfold Entry.settle at hsettle
    split at hsettle
    · unfold packageEntry at hsettle
      split at hsettle
      · cases hsettle
      · next hpackages =>
        obtain rfl := Option.some.inj hsettle
        exact hapart.moved himage e he hpackages hkey
    · next hkept =>
      obtain rfl := Option.some.inj hsettle
      -- The group had lenient candidates only, which the added one supersedes.
      have hlenient : e.cand.lenient = true := by
        by_contra hl
        have hany : strictAt (before ++ behind) n.key = true :=
          List.any_eq_true.mpr ⟨e.cand, mem_candidatesAt.mpr ⟨e, he, hkey, rfl⟩, by simp [hl]⟩
        rw [hnone] at hany
        cases hany
      apply hkept
      simp [Entry.dropped, superseded, hlenient, strictAt_insert, hkey, hstrict]
  have hperm : (candidatesAt (settled (before ++ n :: behind)) n.key).Perm [n.cand] := by
    refine (candidatesAt_perm (List.perm_middle.filterMap _) n.key).trans ?_
    rw [List.filterMap_cons, hself, candidatesAt_cons, hothers, if_pos rfl]
  exact List.perm_singleton.mp hperm

theorem rankAt_leads (hapart : n.Apart (before ++ behind))
    (hleads : n.Leads (before ++ behind)) (haffected : n.cand.rank = rankAffected) :
    rankAt (before ++ n :: behind) n.key = some rankAffected := by
  apply rankAt_eq_some.mpr
  rw [candidatesAt_leads hapart hleads]
  exact ⟨List.cons_ne_nil _ _, resolve_singleton haffected⟩

theorem affectedNames_ne_nil {verdicts : List Verdict} :
    (summarizeVerdicts verdicts).affectedNames ≠ [] ↔ ∃ v ∈ verdicts, v.rank = rankAffected := by
  have hlength : (sortTexts ((verdicts.filter fun v => v.rank = rankAffected).map
      fun v => v.vulnName)).length = (verdicts.filter fun v => v.rank = rankAffected).length := by
    rw [sortTexts, List.length_insertionSort, List.length_map]
  change sortTexts _ ≠ [] ↔ _
  rw [← List.length_pos_iff, hlength, List.length_pos_iff, ne_eq, List.filter_eq_nil_iff]
  simp

theorem hasUnderInvestigation_iff {verdicts : List Verdict} :
    (summarizeVerdicts verdicts).hasUnderInvestigation = true ↔
      ∃ v ∈ verdicts, v.rank = rankUnderInvestigation := by
  simp [summarizeVerdicts]

/-- The ranks that a result is about. -/
theorem mem_verdicts {reduced : Groups}
    (hlookup : ∀ k, (reduced.lookup k).map StatementGroup.verdict = verdictAt entries k) :
    (∃ v ∈ (values reduced).map StatementGroup.verdict, v.rank = rank) ↔
      ∃ k, rankAt entries k = some rank := by
  have hrank : ∀ k, rankAt entries k = (reduced.lookup k).map fun group => group.verdict.rank := by
    intro k
    rw [rankAt, ← hlookup, Option.map_map]
    rfl
  simp only [hrank, Option.map_eq_some_iff]
  constructor
  · rintro ⟨v, hv, rfl⟩
    obtain ⟨group, hgroup, rfl⟩ := List.mem_map.mp hv
    obtain ⟨k, hk⟩ := mem_values.mp hgroup
    exact ⟨k, group, hk, rfl⟩
  · rintro ⟨k, group, hk, rfl⟩
    exact ⟨group.verdict, List.mem_map_of_mem (mem_values.mpr ⟨k, hk⟩), rfl⟩

/-- Some group is affected, or no group is resolved to less. -/
def Raised (entries entries' : List Entry) : Prop :=
  (∃ k, rankAt entries' k = some rankAffected) ∨
    ∀ k rank, rankAt entries k = some rank →
      ∃ rank', rankAt entries' k = some rank' ∧ rank ≤ rank'

theorem raised_insert (hapart : n.Apart (before ++ behind))
    (hproper : ∀ e ∈ before ++ n :: behind, e.Proper) (haffected : n.cand.rank = rankAffected) :
    Raised (before ++ behind) (before ++ n :: behind) := by
  by_cases hleads : n.Leads (before ++ behind)
  · exact .inl ⟨n.key, rankAt_leads hapart hleads haffected⟩
  · exact .inr fun k rank h => rankAt_insert hapart hleads hproper haffected h

theorem rankAt_le (hproper : ∀ e ∈ entries, e.Proper) (h : rankAt entries k = some rank) :
    rank ≤ rankAffected := by
  obtain ⟨-, rfl⟩ := rankAt_eq_some.mp h
  exact resolve_rank_le_affected fun cand hcand => (mem_settled hproper hcand).2

end adding

/-- The outcome of an evaluation is at least that of another one. -/
def Result.AtLeast (result' result : Result) : Prop :=
  (result.affectedNames ≠ [] → result'.affectedNames ≠ []) ∧
    (result.hasUnderInvestigation = true →
      result'.affectedNames ≠ [] ∨ result'.hasUnderInvestigation = true)

theorem atLeast_of_raised {entries entries' : List Entry} {reduced reduced' : Groups}
    (hlookup : ∀ k, (reduced.lookup k).map StatementGroup.verdict = verdictAt entries k)
    (hlookup' : ∀ k, (reduced'.lookup k).map StatementGroup.verdict = verdictAt entries' k)
    (hproper : ∀ e ∈ entries', e.Proper) (hraised : Raised entries entries') :
    (summarizeVerdicts ((values reduced').map StatementGroup.verdict)).AtLeast
      (summarizeVerdicts ((values reduced).map StatementGroup.verdict)) := by
  unfold Result.AtLeast
  rw [affectedNames_ne_nil, affectedNames_ne_nil, hasUnderInvestigation_iff,
    hasUnderInvestigation_iff, mem_verdicts hlookup, mem_verdicts hlookup, mem_verdicts hlookup',
    mem_verdicts hlookup']
  rcases hraised with haffected | hranks
  · exact ⟨fun _ => haffected, fun _ => .inl haffected⟩
  · refine ⟨?_, ?_⟩
    · rintro ⟨k, hk⟩
      obtain ⟨rank', hrank', hle⟩ := hranks k _ hk
      have hle' := rankAt_le hproper hrank'
      exact ⟨k, hrank'.trans (congrArg some (le_antisymm hle' hle))⟩
    · rintro ⟨k, hk⟩
      obtain ⟨rank', hrank', hle⟩ := hranks k _ hk
      have hle' := rankAt_le hproper hrank'
      by_cases haffected : rank' = rankAffected
      · exact .inl ⟨k, hrank'.trans (congrArg some haffected)⟩
      · refine .inr ⟨k, hrank'.trans (congrArg some ?_)⟩
        unfold rankAffected at hle' haffected
        unfold rankUnderInvestigation at hle ⊢
        omega

theorem statementEntries_split {before behind : List Document} {doc : Document}
    {first rest : List Statement} :
    statementEntries charset image
      (before ++ { doc with statements := first ++ rest } :: behind) =
    statementEntries charset image before ++
        first.filterMap (statementEntry charset image (documentTime doc)) ++
      (rest.filterMap (statementEntry charset image (documentTime doc)) ++
        statementEntries charset image behind) := by
  have htime : documentTime { doc with statements := first ++ rest } = documentTime doc := rfl
  simp [statementEntries, htime]

/-- Another affected statement does not lower the outcome when its group holds no
candidates of the other kind. -/
theorem affected_statement_raises {charset : Charset} {image : Image}
    (before behind : List Document) (doc : Document) (first rest : List Statement)
    (stmt : Statement) {result result' : Result}
    (hstatus : stmt.status = .affected)
    (hapart : ∀ n, statementEntry charset image (documentTime doc) stmt = some n →
      n.Apart (statementEntries charset image
        (before ++ { doc with statements := first ++ rest } :: behind)))
    (h : Evaluates charset (before ++ { doc with statements := first ++ rest } :: behind)
      image result)
    (h' : Evaluates charset (before ++ { doc with statements := first ++ stmt :: rest } :: behind)
      image result') :
    result'.AtLeast result := by
  have hproper' := statementEntries_proper charset image
    (before ++ { doc with statements := first ++ stmt :: rest } :: behind)
  have hraised : Raised
      (statementEntries charset image
        (before ++ { doc with statements := first ++ rest } :: behind))
      (statementEntries charset image
        (before ++ { doc with statements := first ++ stmt :: rest } :: behind)) := by
    rw [statementEntries_split] at hapart ⊢
    rw [statementEntries_split, List.filterMap_cons] at hproper' ⊢
    cases hentry : statementEntry charset image (documentTime doc) stmt with
    | none => exact .inr fun k rank hrank => ⟨rank, hrank, le_refl rank⟩
    | some n =>
      rw [hentry] at hproper'
      refine raised_insert (hapart n hentry) hproper' ?_
      rw [(statementEntry_eq_some hentry).2.2.1, hstatus]
      rfl
  obtain ⟨reduced, rfl, hlookup⟩ := evaluates_verdicts h (statementEntries_proper charset image _)
  obtain ⟨reduced', rfl, hlookup'⟩ := evaluates_verdicts h' hproper'
  exact atLeast_of_raised hlookup hlookup' hproper' hraised

/-- A vulnerability of another tag. -/
def otherTagAffected : Statement := statementAbout "CVE-2" "pkg:oci/nginx@1.26" [] .affected 2

theorem affected_statement_raises_nginx :
    (evaluate .ascii [documentOf [otherTagAffected]] nginx).affectedNames ≠ [] ∧
    (evaluate .ascii [documentOf [imageAffected, otherTagAffected]] nginx).AtLeast
      (evaluate .ascii [documentOf [otherTagAffected]] nginx) := by
  refine ⟨by decide +kernel, ?_⟩
  refine affected_statement_raises [] [] (documentOf []) [] [otherTagAffected] imageAffected rfl ?_
    (evaluates_evaluate _ _ _) (evaluates_evaluate _ _ _)
  intro n hentry
  exact apart_of_names (by decide) (by decide) hentry

/-- An affected statement about the image that comes first in the group of a later fix
of a package turns it into one about the image, so that the statement about another
tag is dropped. -/
theorem affected_statement_hides :
    ∃ (stmt : Statement) (rest : List Statement), stmt.status = .affected ∧
      (evaluate .ascii [documentOf rest] nginx).affectedNames ≠ [] ∧
      (evaluate .ascii [documentOf (stmt :: rest)] nginx).affectedNames = [] ∧
      (evaluate .ascii [documentOf (stmt :: rest)] nginx).hasUnderInvestigation = false := by
  refine ⟨statementAbout "CVE-1" "pkg:oci/nginx" ["npm//lodash@1", "pkg:npm/x"] .affected 1,
    [statementAbout "CVE-1\x00image" "pkg:npm/lodash@1" ["pkg:npm/x"] .fixed 2,
      otherTagAffected], rfl, ?_⟩
  decide +kernel

end NriSupplyChain.Openvex
