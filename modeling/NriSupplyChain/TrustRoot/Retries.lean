import NriSupplyChain.TrustRoot.Runs

/-!
How long a root that could not be fetched is left alone. A request looks for a recent
failure before it joins or begins a refresh, and the refresh does not look again: a
request that looked before the failure was recorded begins the next fetch at once.
-/

namespace NriSupplyChain.TrustRoot

open Lib

variable {Root Err : Type}

namespace RootState

/-- After a refresh ended without a root, no fetch was started during the retry
interval. -/
def RetriesApart (s : RootState Root Err) : Prop :=
  ∀ f ∈ s.fetches, ∀ failedAt, f.failedAt = some failedAt →
    failedAt + failedRootRetryInterval ≤ f.startedAt

/-- Whether `fetchWithDeadline` starts a fetch. -/
def startsFetch (s : RootState Root Err) : Bool :=
  match s.pending with
  | none => true
  | some fetch =>
    match s.result fetch with
    | none => false
    | some (.ok _, fetchedAt) => trustedRootCacheTTL ≤ s.now - fetchedAt
    | some (.error _, _) => true

/-- The request that began the refresh did not see the latest failure: it looked before,
or a late root has cleared the failure in the meantime. -/
def unseen (s : RootState Root Err) (r : Refresh Root Err) : Bool :=
  r.looked < s.failures || s.cache.lastErr.isNone

/-- A refresh whose request did not see the latest failure starts no fetch within the
retry interval. -/
def Patient (s : RootState Root Err) (e : RootEvent Root Err) : Prop :=
  match e, s.refresh with
  | .acquire, some r => s.startsFetch = true → s.unseen r = true →
      ∀ failedAt, s.failedAt = some failedAt → failedAt + failedRootRetryInterval ≤ s.now
  | _, _ => True

/-- A look at the cache, when there had been `looked` failures, kept to the interval. -/
def Kept (s : RootState Root Err) (looked : Nat) : Prop :=
  looked ≤ s.failures ∧ (looked = s.failures → s.cache.lastErr ≠ none →
    ∀ failedAt, s.failedAt = some failedAt → failedAt + failedRootRetryInterval ≤ s.now)

/-- What every step preserves. -/
structure Recorded (cfg : RootConfig Root) (s : RootState Root Err) : Prop where
  /-- While a failure is recorded there is nothing to fall back to. -/
  failure : s.cache.lastErr ≠ none → cfg.preSeeded = none ∧ s.cache.lastFetchErr = s.failedAt ∧
    ∀ r, s.cache.root = some r → trustedRootMaxStaleness < s.now - r.fetchedAt
  looked : ∀ i failures, s.request i = .looked failures → s.Kept failures
  refreshed : ∀ r, s.refresh = some r → s.Kept r.looked

theorem recorded_initial (cfg : RootConfig Root) (now : Int) :
    (initial now : RootState Root Err).Recorded cfg := by
  refine ⟨?_, ?_, ?_⟩
  · intro herr
    cases herr rfl
  · intro i failures h
    cases h
  · intro r h
    cases h

section

variable {cfg : RootConfig Root} {s t : RootState Root Err}

/-- A step that leaves the cache and the failures alone. -/
structure Aged (s t : RootState Root Err) : Prop where
  now : s.now ≤ t.now
  cache : t.cache = s.cache
  failures : t.failures = s.failures
  failedAt : t.failedAt = s.failedAt

theorem Kept.aged (a : s.Aged t) {looked : Nat} (h : s.Kept looked) : t.Kept looked := by
  obtain ⟨hle, hinterval⟩ := h
  rw [Kept, a.failures, a.cache, a.failedAt]
  refine ⟨hle, ?_⟩
  intro heq herr failedAt hfailed
  exact le_trans (hinterval heq herr failedAt hfailed) a.now

theorem Recorded.aged (h : s.Recorded cfg) (a : s.Aged t)
    (hlooked : ∀ i failures, t.request i = .looked failures → s.Kept failures)
    (hrefresh : ∀ r, t.refresh = some r → s.Kept r.looked) : t.Recorded cfg := by
  refine ⟨?_, ?_, ?_⟩
  · rw [a.cache, a.failedAt]
    intro herr
    obtain ⟨hseeded, hlast, hstale⟩ := h.failure herr
    refine ⟨hseeded, hlast, ?_⟩
    intro r hr
    have hbefore := hstale r hr
    have hnow := a.now
    omega
  · intro i failures hi
    exact (hlooked i failures hi).aged a
  · intro r hr
    exact (hrefresh r hr).aged a

theorem looked_update {i : Nat} {request : Request Root Err} {j failures : Nat}
    (h : Function.update s.request i request j = .looked failures) :
    request = .looked failures ∨ s.request j = .looked failures := by
  by_cases hj : j = i
  · subst hj
    rw [Function.update_self] at h
    exact .inl h
  · rw [Function.update_of_ne hj] at h
    exact .inr h

theorem Recorded.answer (h : s.Recorded cfg) (i : Nat)
    (answer : Except (GetError Err) (Answer Root)) : (s.answer i answer).Recorded cfg := by
  refine Recorded.aged h ⟨le_refl _, rfl, rfl, rfl⟩ ?_ h.refreshed
  intro j failures hj
  rcases looked_update hj with hnew | hold
  · cases hnew
  · exact h.looked j failures hold

/-- No recent failure was found, so a recorded one is old enough. -/
theorem Recorded.kept_look (h : s.Recorded cfg) (hrecent : s.cache.recentFailure s.now = none) :
    s.Kept s.failures := by
  refine ⟨le_refl _, ?_⟩
  intro _ herr failedAt hfailed
  obtain ⟨-, hlast, -⟩ := h.failure herr
  obtain ⟨err, herr⟩ := Option.ne_none_iff_exists'.mp herr
  rw [TrustedRootCache.recentFailure, herr, hlast, hfailed] at hrecent
  dsimp only at hrecent
  split at hrecent
  · omega
  · cases hrecent

theorem Recorded.look (h : s.Recorded cfg) (i : Nat) : (s.look cfg i).Recorded cfg := by
  unfold RootState.look
  split
  · exact h.answer i _
  · split
    · exact h.answer i _
    · next hrecent =>
      refine Recorded.aged h ⟨le_refl _, rfl, rfl, rfl⟩ ?_ h.refreshed
      intro j failures hj
      rcases looked_update hj with hnew | hold
      · cases hnew
        exact h.kept_look hrecent
      · exact h.looked j failures hold

theorem Recorded.enter (h : s.Recorded cfg) {i failures : Nat}
    (hlooked : s.request i = .looked failures) : (s.enter i failures).Recorded cfg := by
  refine Recorded.aged h ⟨le_refl _, rfl, rfl, rfl⟩ ?_ ?_
  · intro j n hj
    rcases looked_update hj with hnew | hold
    · cases hnew
    · exact h.looked j n hold
  · intro r hr
    obtain rfl : s.refresh.getD ⟨.begun, failures⟩ = r := Option.some.inj hr
    cases hrefresh : s.refresh with
    | none => exact h.looked i failures hlooked
    | some r => exact h.refreshed r hrefresh

variable {r : Refresh Root Err}

/-- The refresh moves on. -/
theorem Recorded.moved (h : s.Recorded cfg) (a : s.Aged t) (hrequest : t.request = s.request)
    {r' : Refresh Root Err} (hbefore : s.refresh = some r) (hafter : t.refresh = some r')
    (hlooked : r'.looked = r.looked) : t.Recorded cfg := by
  refine Recorded.aged h a ?_ ?_
  · rw [hrequest]
    exact h.looked
  · intro r'' hr''
    obtain rfl := Option.some.inj (hafter.symm.trans hr'')
    rw [hlooked]
    exact h.refreshed r hbefore

theorem Recorded.check (h : s.Recorded cfg) (hrefresh : s.refresh = some r) :
    (s.check r).Recorded cfg := by
  unfold RootState.check
  split <;> exact Recorded.moved h ⟨le_refl _, rfl, rfl, rfl⟩ rfl hrefresh rfl rfl

theorem Recorded.acquire (h : s.Recorded cfg) (hrefresh : s.refresh = some r) :
    (s.acquire cfg r).Recorded cfg := by
  have hstart : (s.startFetch cfg r).Recorded cfg :=
    Recorded.moved h ⟨le_refl _, rfl, rfl, rfl⟩ rfl hrefresh rfl rfl
  unfold RootState.acquire
  split
  · exact hstart
  · split
    · exact Recorded.moved h ⟨le_refl _, rfl, rfl, rfl⟩ rfl hrefresh rfl rfl
    · split
      · exact Recorded.moved h ⟨le_refl _, rfl, rfl, rfl⟩ rfl hrefresh rfl rfl
      · exact hstart
    · exact hstart

/-- A failed refresh falls back to a root, or there is none and the failure is recorded. -/
theorem handleRefreshError_cases (now : Int) (err : FetchError Err)
    (c : TrustedRootCache Root Err) :
    (∃ chosen, c.handleRefreshError cfg now err =
        ({ c with lastFetchErr := some now }, .ok chosen) ∧
      (cfg.preSeeded = none →
        ∃ r, c.root = some r ∧ now - r.fetchedAt ≤ trustedRootMaxStaleness)) ∨
      ∃ failure, c.handleRefreshError cfg now err =
          ({ c with lastFetchErr := some now, lastErr := some failure }, .error failure) ∧
        cfg.preSeeded = none ∧
        ∀ r, c.root = some r → trustedRootMaxStaleness < now - r.fetchedAt := by
  unfold TrustedRootCache.handleRefreshError
  split
  · next r hroot =>
    dsimp only
    split
    · next hage => exact .inl ⟨_, rfl, fun _ => ⟨r, hroot, hage⟩⟩
    · next hage =>
      split
      · next root hseeded => exact .inl ⟨_, rfl, fun hnone => nomatch hseeded.symm.trans hnone⟩
      · next hseeded =>
        refine .inr ⟨_, rfl, hseeded, ?_⟩
        intro r' hr'
        obtain rfl := Option.some.inj (hroot.symm.trans hr')
        omega
  · next hroot =>
    split
    · next root hseeded => exact .inl ⟨_, rfl, fun hnone => nomatch hseeded.symm.trans hnone⟩
    · next hseeded =>
      refine .inr ⟨_, rfl, hseeded, ?_⟩
      intro r' hr'
      cases hroot.symm.trans hr'

/-- Nothing is left of a failure that was recorded before. -/
theorem Recorded.cleared (h : s.Recorded cfg) (hrequest : t.request = s.request)
    {r' : Refresh Root Err} (hbefore : s.refresh = some r) (hafter : t.refresh = some r')
    (hlooked : r'.looked = r.looked) (hfailures : t.failures = s.failures)
    (herr : t.cache.lastErr = none) : t.Recorded cfg := by
  have hkept : ∀ looked, s.Kept looked → t.Kept looked := by
    intro looked hlooked
    refine ⟨hfailures ▸ hlooked.1, ?_⟩
    intro _ hsome
    exact absurd herr hsome
  refine ⟨fun hsome => absurd herr hsome, ?_, ?_⟩
  · intro i failures hi
    rw [hrequest] at hi
    exact hkept failures (h.looked i failures hi)
  · intro r'' hr''
    obtain rfl := Option.some.inj (hafter.symm.trans hr'')
    rw [hlooked]
    exact hkept _ (h.refreshed r hbefore)

theorem Recorded.store (h : s.Recorded cfg) {res : Except (FetchError Err) (FetchedRoot Root)}
    {receivedAt : Int} (hrefresh : s.refresh = some r) :
    (s.store cfg r res receivedAt).Recorded cfg := by
  cases res with
  | ok root => exact Recorded.cleared h rfl hrefresh rfl rfl rfl rfl
  | error err =>
    have hstore : s.cache.store cfg s.now (.error err) =
      s.cache.handleRefreshError cfg s.now err := rfl
    rcases handleRefreshError_cases s.now err s.cache with
      ⟨chosen, heq, hfallback⟩ | ⟨failure, heq, hseeded, hstale⟩
    · rw [RootState.store, hstore, heq]
      -- a recorded failure leaves nothing to fall back to
      have herr : s.cache.lastErr = none := by
        by_contra hsome
        obtain ⟨hseeded, -, hold⟩ := h.failure hsome
        obtain ⟨root, hroot, hage⟩ := hfallback hseeded
        have hage' := hold root hroot
        omega
      exact Recorded.cleared h rfl hrefresh rfl rfl rfl herr
    · rw [RootState.store, hstore, heq]
      have hbehind : ∀ looked, s.Kept looked →
          looked ≤ s.failures + 1 ∧ looked ≠ s.failures + 1 := by
        intro looked hlooked
        have hle := hlooked.1
        omega
      refine ⟨fun _ => ⟨hseeded, rfl, hstale⟩, ?_, ?_⟩
      · intro i failures hi
        obtain ⟨hle, hne⟩ := hbehind failures (h.looked i failures hi)
        exact ⟨hle, fun heq => absurd heq hne⟩
      · intro r' hr'
        obtain rfl := Option.some.inj hr'
        obtain ⟨hle, hne⟩ := hbehind _ (h.refreshed r hrefresh)
        exact ⟨hle, fun heq => absurd heq hne⟩

theorem Recorded.deliver (h : s.Recorded cfg) (value : Except (RefreshError Err) (Chosen Root))
    (chosenAt : Int) : (s.deliver value chosenAt).Recorded cfg := by
  refine Recorded.aged h ⟨le_refl _, rfl, rfl, rfl⟩ ?_ ?_
  · intro i failures hi
    rcases deliver_request hi with hanswer | hkept
    · cases hanswer
    · exact h.looked i failures hkept
  · intro r hr
    cases hr

theorem Recorded.step (h : s.Recorded cfg) {e : RootEvent Root Err}
    (hstep : s.step cfg e = some t) : t.Recorded cfg := by
  cases effect_of_step hstep with
  | @tick d =>
    refine Recorded.aged h ⟨?_, rfl, rfl, rfl⟩ h.looked h.refreshed
    change s.now ≤ s.now + d
    omega
  | look _ => exact h.look _
  | cancel err => exact h.answer _ _
  | enter hlooked => exact h.enter hlooked
  | check hrefresh => exact h.check hrefresh
  | acquire hrefresh => exact h.acquire hrefresh
  | complete _ _ _ => exact Recorded.aged h ⟨le_refl _, rfl, rfl, rfl⟩ h.looked h.refreshed
  | receive hrefresh _ =>
    exact Recorded.moved h ⟨le_refl _, rfl, rfl, rfl⟩ rfl hrefresh rfl rfl
  | expire hrefresh => exact Recorded.moved h ⟨le_refl _, rfl, rfl, rfl⟩ rfl hrefresh rfl rfl
  | store hrefresh => exact h.store hrefresh
  | deliver _ => exact h.deliver _ _

theorem acquire_fetches (r : Refresh Root Err) :
    (s.acquire cfg r).fetches =
      if s.startsFetch then s.fetches ++ [⟨s.now, s.failedAt, none⟩] else s.fetches := by
  cases hpending : s.pending with
  | none =>
    simp only [RootState.acquire, startsFetch, hpending]
    rfl
  | some fetch =>
    match hresult : s.result fetch with
    | none =>
      simp only [RootState.acquire, startsFetch, hpending, hresult]
      rfl
    | some (.error err, fetchedAt) =>
      simp only [RootState.acquire, startsFetch, hpending, hresult]
      rfl
    | some (.ok root, fetchedAt) =>
      simp only [RootState.acquire, startsFetch, hpending, hresult, decide_eq_true_eq,
        ← not_lt, ite_not]
      split <;> rfl

theorem retriesApart_congr
    (h : t.fetches.map (fun f => (f.startedAt, f.failedAt)) =
      s.fetches.map fun f => (f.startedAt, f.failedAt)) : t.RetriesApart ↔ s.RetriesApart := by
  have hmap : ∀ u : RootState Root Err, u.RetriesApart ↔
      ∀ k ∈ u.fetches.map (fun f => (f.startedAt, f.failedAt)), ∀ failedAt, k.2 = some failedAt →
        failedAt + failedRootRetryInterval ≤ k.1 := by
    intro u
    rw [List.forall_mem_map]
    rfl
  rw [hmap t, hmap s, h]

/-- A fetch that answers keeps the times it was started with. -/
theorem complete_times {fetch : Nat} {f : Fetch Root Err} (hf : s.fetches[fetch]? = some f)
    (res : Except Err Root) :
    (s.complete fetch f res).fetches.map (fun f => (f.startedAt, f.failedAt)) =
      s.fetches.map fun f => (f.startedAt, f.failedAt) := by
  obtain ⟨hlt, rfl⟩ := List.getElem?_eq_some_iff.mp hf
  apply List.ext_getElem?
  intro i
  rw [RootState.complete, List.getElem?_map, List.getElem?_map, List.getElem?_set]
  split
  · next heq =>
    subst heq
    rw [List.getElem?_eq_getElem hlt]
    rfl
  · rfl

theorem retriesApart_append (startedAt : Int) (failedAt : Option Int)
    (h : t.fetches = s.fetches ++ [⟨startedAt, failedAt, none⟩]) :
    t.RetriesApart ↔ s.RetriesApart ∧
      ∀ last, failedAt = some last → last + failedRootRetryInterval ≤ startedAt := by
  rw [RetriesApart, h, List.forall_mem_append, List.forall_mem_singleton]
  rfl

/-- A fetch is started too early exactly when the refresh is not patient. -/
theorem Recorded.acquire_retriesApart (h : s.Recorded cfg) (hrefresh : s.refresh = some r) :
    (s.acquire cfg r).RetriesApart ↔ s.RetriesApart ∧ s.Patient .acquire := by
  have hfetches := @acquire_fetches _ _ cfg s r
  have hpatient : s.Patient .acquire ↔ (s.startsFetch = true → s.unseen r = true →
      ∀ last, s.failedAt = some last → last + failedRootRetryInterval ≤ s.now) := by
    unfold Patient
    rw [hrefresh]
  rw [hpatient]
  cases hstarts : s.startsFetch with
  | false =>
    rw [hstarts] at hfetches
    have hsame := retriesApart_congr (congrArg _ hfetches)
    rw [hsame]
    exact ⟨fun h => ⟨h, nofun⟩, And.left⟩
  | true =>
    rw [hstarts] at hfetches
    rw [retriesApart_append s.now s.failedAt hfetches]
    refine and_congr_right fun _ => ⟨fun hapart _ _ => hapart, ?_⟩
    intro hpatient last hlast
    cases hunseen : s.unseen r with
    | true => exact hpatient rfl hunseen last hlast
    | false =>
      rw [unseen, Bool.or_eq_false_iff] at hunseen
      obtain ⟨hle, hinterval⟩ := h.refreshed r hrefresh
      have hge : ¬r.looked < s.failures := of_decide_eq_false hunseen.1
      have herr : s.cache.lastErr ≠ none := by
        intro hnone
        rw [hnone] at hunseen
        cases hunseen.2
      exact hinterval (by omega) herr last hlast

theorem Recorded.step_retriesApart (h : s.Recorded cfg) {e : RootEvent Root Err}
    (hstep : s.step cfg e = some t) : t.RetriesApart ↔ s.RetriesApart ∧ s.Patient e := by
  have hquiet : ∀ u : RootState Root Err, u.RetriesApart ↔ u.RetriesApart ∧ True := by simp
  cases effect_of_step hstep with
  | acquire hrefresh => exact h.acquire_retriesApart hrefresh
  | complete hf _ res => exact (retriesApart_congr (complete_times hf res)).trans (hquiet s)
  | look _ => exact (retriesApart_congr (congrArg _ (look_sameCore _).fetches)).trans (hquiet s)
  | check _ => exact (retriesApart_congr (congrArg _ (check_sameCore _).fetches)).trans (hquiet s)
  | tick | cancel _ | enter _ | receive _ _ | expire _ | store _ | deliver _ => exact hquiet s

end

end RootState

/-- Fetches keep to the retry interval exactly in the runs in which every refresh whose
request did not see the latest failure is patient. -/
theorem retries_apart_iff {cfg : RootConfig Root} {now : Int} {s : RootState Root Err}
    {labels : List (RootEvent Root Err)}
    (hrun : (rootMachine Err cfg).exec (.initial now) labels = some s) :
    s.RetriesApart ↔
      (rootMachine Err cfg).AllAllowed RootState.Patient (.initial now) labels := by
  have hiff := Machine.exec_iff_of_invariant (I := RootState.Recorded cfg)
    (P := RootState.RetriesApart) (fun _ _ _ h hstep => h.step hstep)
    (fun _ _ _ h hstep => h.step_retriesApart hstep)
    (RootState.recorded_initial cfg now) hrun
  rw [hiff]
  refine ⟨And.right, fun h => ⟨?_, h⟩⟩
  intro f hf
  cases hf

/-- A fetch that fails at once, and a second one after the interval. -/
def retryRun : List (RootEvent Unit Unit) :=
  [.look 0, .enter 0, .check, .acquire, .complete 0 (.error ()), .receive, .store, .deliver,
    .tick 30000000000, .look 1, .enter 1, .check, .acquire]

def retryState : RootState Unit Unit :=
  ((rootMachine Unit ⟨none, 30 * second⟩).exec (.initial 0) retryRun).get (by decide +kernel)

theorem retries_apart_iff_retry :
    (rootMachine Unit ⟨none, 30 * second⟩).exec (.initial 0) retryRun = some retryState ∧
      (retryState.RetriesApart ↔ (rootMachine Unit ⟨none, 30 * second⟩).AllAllowed
        RootState.Patient (.initial 0) retryRun) := by
  have hrun : (rootMachine Unit ⟨none, 30 * second⟩).exec (.initial 0) retryRun =
    some retryState := (Option.some_get _).symm
  exact ⟨hrun, retries_apart_iff hrun⟩

/-- Two requests look before the first fetch fails; the second one then begins another
fetch a second later. -/
def hastyRun : List (RootEvent Unit Unit) :=
  [.look 0, .look 1, .enter 0, .check, .acquire, .complete 0 (.error ()), .receive, .store,
    .deliver, .tick 1000000000, .enter 1, .check, .acquire]

theorem hasty_retry :
    ∃ s : RootState Unit Unit,
      (rootMachine Unit ⟨none, 30 * second⟩).exec (.initial 0) hastyRun = some s ∧
        ¬s.RetriesApart := by
  refine ⟨_, rfl, ?_⟩
  intro h
  have hinterval := h ⟨second, some 0, none⟩ (List.mem_cons_of_mem _ List.mem_cons_self) 0 rfl
  revert hinterval
  decide

end NriSupplyChain.TrustRoot
