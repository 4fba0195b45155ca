import NriSupplyChain.TrustRoot.Cache

/-!
What holds in runs of requests for a trusted root: the roots that are returned are recent
enough or pre-seeded, one fetch runs at a time, and the cached root is only ever replaced
by one that was fetched later. A refresh checks how old a late result is when it finds it,
but not when it has waited for it, so this takes refreshes that are not kept from taking
the result they wait for.
-/

namespace NriSupplyChain.TrustRoot

open Lib

variable {Root Err : Type}

namespace RootState

/-- What a step can do, and when. -/
inductive Effect (cfg : RootConfig Root) (s : RootState Root Err) :
    RootEvent Root Err → RootState Root Err → Prop where
  | tick {d : Nat} : Effect cfg s (.tick d) { s with now := s.now + d }
  | look {i : Nat} (hidle : s.request i = .idle) : Effect cfg s (.look i) (s.look cfg i)
  | cancel {i : Nat} (err : GetError Err) : Effect cfg s (.cancel i) (s.answer i (.error err))
  | enter {i failures : Nat} (hlooked : s.request i = .looked failures) :
      Effect cfg s (.enter i) (s.enter i failures)
  | check {looked : Nat} (hrefresh : s.refresh = some ⟨.begun, looked⟩) :
      Effect cfg s .check (s.check ⟨.begun, looked⟩)
  | acquire {looked : Nat} (hrefresh : s.refresh = some ⟨.stale, looked⟩) :
      Effect cfg s .acquire (s.acquire cfg ⟨.stale, looked⟩)
  | complete {fetch : Nat} {f : Fetch Root Err} (hf : s.fetches[fetch]? = some f)
      (hnone : f.result = none) (res : Except Err Root) :
      Effect cfg s (.complete fetch res) (s.complete fetch f res)
  | receive {fetch looked : Nat} {deadline : Int} {res : Except Err Root × Int}
      (hrefresh : s.refresh = some ⟨.waiting fetch deadline, looked⟩)
      (hres : s.result fetch = some res) :
      Effect cfg s .receive (s.receive ⟨.waiting fetch deadline, looked⟩ fetch res)
  | expire {fetch looked : Nat} {deadline : Int}
      (hrefresh : s.refresh = some ⟨.waiting fetch deadline, looked⟩) :
      Effect cfg s .expire (s.setPhase ⟨.waiting fetch deadline, looked⟩
        (.received (.error (.timeout cfg.fetchTimeout)) s.now))
  | store {res : Except (FetchError Err) (FetchedRoot Root)} {receivedAt : Int} {looked : Nat}
      (hrefresh : s.refresh = some ⟨.received res receivedAt, looked⟩) :
      Effect cfg s .store (s.store cfg ⟨.received res receivedAt, looked⟩ res receivedAt)
  | deliver {value : Except (RefreshError Err) (Chosen Root)} {chosenAt : Int} {looked : Nat}
      (hrefresh : s.refresh = some ⟨.returned value chosenAt, looked⟩) :
      Effect cfg s .deliver (s.deliver value chosenAt)

theorem effect_of_step {cfg : RootConfig Root} {s t : RootState Root Err}
    {e : RootEvent Root Err} (h : s.step cfg e = some t) : Effect cfg s e t := by
  cases e <;> grind [step, Effect, Option.not_isSome_iff_eq_none, Option.map_eq_some_iff]

/-- A root that a fetch has answered with. -/
def Fetched (s : RootState Root Err) (r : FetchedRoot Root) : Prop :=
  ∃ fetch, s.result fetch = some (.ok r.root, r.fetchedAt)

/-- The root is the pre-seeded one, or it was fetched within the staleness limit. -/
def Recent (cfg : RootConfig Root) (s : RootState Root Err) (chosenAt : Int) :
    Chosen Root → Prop
  | .preSeeded root => cfg.preSeeded = some root
  | .fetched r => s.Fetched r ∧ chosenAt - r.fetchedAt ≤ trustedRootMaxStaleness

/-- What the phase of the refresh says about its fetch or its value. -/
def PhaseOk (cfg : RootConfig Root) (s : RootState Root Err) : RefreshPhase Root Err → Prop
  | .begun | .stale | .received (.error _) _ | .returned (.error _) _ => True
  | .waiting fetch _ => s.pending = some fetch
  | .received (.ok r) receivedAt =>
    s.pending = none ∧ s.Fetched r ∧ receivedAt - r.fetchedAt < trustedRootCacheTTL ∧
      ∀ c, s.cache.root = some c → c.fetchedAt ≤ r.fetchedAt
  | .returned (.ok chosen) chosenAt => s.Recent cfg chosenAt chosen

/-- A root that a refresh has waited for is not outdated when the refresh receives it. -/
def Prompt (s : RootState Root Err) : RootEvent Root Err → Prop
  | .receive => ∀ fetch deadline looked root fetchedAt,
      s.refresh = some ⟨.waiting fetch deadline, looked⟩ →
      s.result fetch = some (.ok root, fetchedAt) → s.now - fetchedAt < trustedRootCacheTTL
  | _ => True

/-- What every prompt step preserves. -/
structure Wf (cfg : RootConfig Root) (s : RootState Root Err) : Prop where
  running : ∀ fetch, s.Running fetch → s.pending = some fetch
  completed : ∀ fetch res fetchedAt, s.result fetch = some (res, fetchedAt) → fetchedAt ≤ s.now
  cached : ∀ r, s.cache.root = some r → s.Fetched r
  later : ∀ fetch res fetchedAt, s.pending = some fetch →
    s.result fetch = some (res, fetchedAt) → ∀ r, s.cache.root = some r → r.fetchedAt ≤ fetchedAt
  phase : ∀ r, s.refresh = some r → s.PhaseOk cfg r.phase
  answered : ∀ i a, s.request i = .answered (.ok a) → s.Recent cfg a.chosenAt a.chosen

theorem wf_initial (cfg : RootConfig Root) (now : Int) :
    (initial now : RootState Root Err).Wf cfg := by
  refine ⟨?_, ?_, ?_, ?_, ?_, ?_⟩
  · rintro fetch ⟨f, hf, -⟩
    simp [initial] at hf
  · intro fetch res fetchedAt h
    simp [initial, result] at h
  · intro r h
    cases h
  · intro fetch res fetchedAt h
    cases h
  · intro r h
    cases h
  · intro i a h
    cases h

section

variable {cfg : RootConfig Root} {s t : RootState Root Err}

variable {r : FetchedRoot Root}

theorem Fetched.fetchedAt_le (h : s.Wf cfg) (hr : s.Fetched r) : r.fetchedAt ≤ s.now := by
  obtain ⟨fetch, hfetch⟩ := hr
  exact h.completed fetch _ _ hfetch

/-- Results stay as they are. -/
def Extends (s t : RootState Root Err) : Prop :=
  ∀ fetch x, s.result fetch = some x → t.result fetch = some x

theorem Fetched.extend (hext : s.Extends t) (h : s.Fetched r) : t.Fetched r := by
  obtain ⟨fetch, hfetch⟩ := h
  exact ⟨fetch, hext fetch _ hfetch⟩

variable {chosenAt : Int}

theorem Recent.extend (hext : s.Extends t) {chosen : Chosen Root}
    (h : s.Recent cfg chosenAt chosen) : t.Recent cfg chosenAt chosen := by
  cases chosen with
  | preSeeded root => exact h
  | fetched r => exact ⟨h.1.extend hext, h.2⟩

theorem PhaseOk.returned_extend (hext : s.Extends t)
    {value : Except (RefreshError Err) (Chosen Root)}
    (h : s.PhaseOk cfg (.returned value chosenAt)) : t.PhaseOk cfg (.returned value chosenAt) := by
  cases value with
  | error err => trivial
  | ok chosen => exact Recent.extend hext h

theorem PhaseOk.extend (hext : s.Extends t) (hpending : t.pending = s.pending)
    (hcache : t.cache = s.cache) {phase : RefreshPhase Root Err} (h : s.PhaseOk cfg phase) :
    t.PhaseOk cfg phase := by
  match phase, h with
  | .begun, _ | .stale, _ | .received (.error _) _, _ | .returned (.error _) _, _ => trivial
  | .waiting fetch _, h => exact hpending.trans h
  | .received (.ok r) _, h =>
    refine ⟨hpending.trans h.1, h.2.1.extend hext, h.2.2.1, ?_⟩
    rw [hcache]
    exact h.2.2.2
  | .returned (.ok chosen) _, h => exact Recent.extend hext h

theorem fresh_eq_some {now : Int} {c : TrustedRootCache Root Err} (h : c.fresh now = some r) :
    c.root = some r ∧ now - r.fetchedAt < trustedRootCacheTTL := by
  obtain ⟨hroot, hfresh⟩ := Option.filter_eq_some_iff.mp h
  exact ⟨hroot, of_decide_eq_true hfresh⟩

theorem usable_eq_some {now : Int} {c : TrustedRootCache Root Err} (h : c.usable now = some r) :
    c.root = some r ∧ now - r.fetchedAt ≤ trustedRootMaxStaleness := by
  obtain ⟨hroot, husable⟩ := Option.filter_eq_some_iff.mp h
  exact ⟨hroot, of_decide_eq_true husable⟩

theorem Wf.recent_cached (h : s.Wf cfg) (hroot : s.cache.root = some r)
    (hage : s.now - r.fetchedAt ≤ trustedRootMaxStaleness) : s.Recent cfg s.now (.fetched r) :=
  ⟨h.cached r hroot, hage⟩

theorem le_staleness {age : Int} (h : age < trustedRootCacheTTL) :
    age ≤ trustedRootMaxStaleness := by
  have hlimits : trustedRootCacheTTL ≤ trustedRootMaxStaleness := by decide
  omega

theorem Wf.recent_hit (h : s.Wf cfg) {chosen : Chosen Root}
    (hhit : s.cache.cachedHit cfg s.now = some chosen) : s.Recent cfg s.now chosen := by
  unfold TrustedRootCache.cachedHit at hhit
  split at hhit
  · next r hfresh =>
    obtain rfl := Option.some.inj hhit
    obtain ⟨hroot, hage⟩ := fresh_eq_some hfresh
    exact h.recent_cached hroot (le_staleness hage)
  · split at hhit
    · cases hhit
    · split at hhit
      · cases hhit
      · split at hhit
        · next r husable =>
          obtain rfl := Option.some.inj hhit
          obtain ⟨hroot, hage⟩ := usable_eq_some husable
          exact h.recent_cached hroot hage
        · obtain ⟨root, hroot, rfl⟩ := Option.map_eq_some_iff.mp hhit
          exact hroot

/-- A step that only concerns requests. -/
structure SameCore (s t : RootState Root Err) : Prop where
  now : t.now = s.now
  cache : t.cache = s.cache
  pending : t.pending = s.pending
  fetches : t.fetches = s.fetches

theorem SameCore.result (c : s.SameCore t) (fetch : Nat) : t.result fetch = s.result fetch := by
  rw [RootState.result, c.fetches]
  rfl

theorem SameCore.extends (c : s.SameCore t) : s.Extends t := by
  intro fetch x hx
  rw [c.result, hx]

theorem Wf.sameCore (h : s.Wf cfg) (c : s.SameCore t)
    (hphase : ∀ r, t.refresh = some r → s.PhaseOk cfg r.phase)
    (hanswered : ∀ i a, t.request i = .answered (.ok a) → s.Recent cfg a.chosenAt a.chosen) :
    t.Wf cfg := by
  have hphaseOk : ∀ r, t.refresh = some r → t.PhaseOk cfg r.phase := by
    intro r hr
    exact (hphase r hr).extend c.extends c.pending c.cache
  have hext := c.extends
  have hresult := c.result
  constructor <;> grind [Wf, SameCore, Running, Fetched.extend, Recent.extend]

theorem request_update {i : Nat} {request : Request Root Err} {j : Nat} {a : Answer Root}
    (h : Function.update s.request i request j = .answered (.ok a)) :
    request = .answered (.ok a) ∨ s.request j = .answered (.ok a) := by
  by_cases hj : j = i
  · subst hj
    rw [Function.update_self] at h
    exact .inl h
  · rw [Function.update_of_ne hj] at h
    exact .inr h

/-- A request moves on. -/
theorem Wf.setRequest (h : s.Wf cfg) {i : Nat} {request : Request Root Err}
    (hrequest : ∀ a, request = .answered (.ok a) → s.Recent cfg a.chosenAt a.chosen) :
    ({ s with request := Function.update s.request i request } : RootState Root Err).Wf cfg := by
  refine Wf.sameCore h ⟨rfl, rfl, rfl, rfl⟩ ?_ ?_
  · exact h.phase
  intro j a ha
  rcases request_update ha with hnew | hold
  · exact hrequest a hnew
  · exact h.answered j a hold

theorem Wf.look (h : s.Wf cfg) (i : Nat) : (s.look cfg i).Wf cfg := by
  unfold RootState.look
  split
  · next chosen hhit =>
    apply h.setRequest
    intro a ha
    cases ha
    exact h.recent_hit hhit
  · split <;> exact h.setRequest nofun

theorem Wf.enter (h : s.Wf cfg) (i looked : Nat) : (s.enter i looked).Wf cfg := by
  refine Wf.sameCore h ⟨rfl, rfl, rfl, rfl⟩ ?_ ?_
  · intro r hr
    obtain rfl : s.refresh.getD ⟨.begun, looked⟩ = r := Option.some.inj hr
    cases hrefresh : s.refresh with
    | none => trivial
    | some r => exact h.phase r hrefresh
  · intro j a ha
    rcases request_update ha with hnew | hold
    · cases hnew
    · exact h.answered j a hold

/-- The refresh moves on without touching anything else. -/
theorem Wf.setPhase (h : s.Wf cfg) (r : Refresh Root Err) {phase : RefreshPhase Root Err}
    (hphase : s.PhaseOk cfg phase) : (s.setPhase r phase).Wf cfg := by
  refine Wf.sameCore h ⟨rfl, rfl, rfl, rfl⟩ ?_ ?_
  · intro r' hr'
    obtain rfl := Option.some.inj hr'
    exact hphase
  · exact h.answered

theorem Wf.check (h : s.Wf cfg) (r : Refresh Root Err) : (s.check r).Wf cfg := by
  unfold RootState.check
  split
  · next root hfresh =>
    obtain ⟨hroot, hage⟩ := fresh_eq_some hfresh
    exact h.setPhase r (h.recent_cached hroot (le_staleness hage))
  · exact h.setPhase r trivial

theorem Wf.tick (h : s.Wf cfg) (d : Nat) :
    ({ s with now := s.now + d } : RootState Root Err).Wf cfg := by
  refine ⟨h.running, ?_, h.cached, h.later, ?_, h.answered⟩
  · intro fetch res fetchedAt hres
    have hle := h.completed fetch res fetchedAt hres
    change fetchedAt ≤ s.now + d
    omega
  · intro r hr
    exact (h.phase r hr).extend (fun _ _ hx => hx) rfl rfl

/-- No fetch runs once the pending one has answered, or if none is pending. -/
theorem Wf.not_running (h : s.Wf cfg)
    (hpending : ∀ fetch, s.pending = some fetch → s.result fetch ≠ none) (fetch : Nat) :
    ¬s.Running fetch := by
  rintro ⟨f, hf, hnone⟩
  apply hpending fetch (h.running fetch ⟨f, hf, hnone⟩)
  rw [result, hf]
  exact hnone

theorem startFetch_result (cfg : RootConfig Root) (s : RootState Root Err) (r : Refresh Root Err)
    (fetch : Nat) : (s.startFetch cfg r).result fetch = s.result fetch := by
  unfold result startFetch
  simp only [List.getElem?_append]
  split
  · rfl
  · next hlength =>
    rw [List.getElem?_eq_none (Nat.le_of_not_lt hlength)]
    cases hoffset : fetch - s.fetches.length with
    | zero => rfl
    | succ n => rfl

theorem Wf.startFetch (h : s.Wf cfg) (r : Refresh Root Err)
    (hpending : ∀ fetch, s.pending = some fetch → s.result fetch ≠ none) :
    (s.startFetch cfg r).Wf cfg := by
  have hresult := startFetch_result cfg s r
  have hext : s.Extends (s.startFetch cfg r) := by
    intro fetch x hx
    rw [hresult, hx]
  have hnew : s.result s.fetches.length = none := by simp [result]
  refine ⟨?_, ?_, ?_, ?_, ?_, ?_⟩
  · rintro fetch ⟨f, hf, hnone⟩
    have hlength : ¬fetch < s.fetches.length := by
      intro hlt
      apply h.not_running hpending fetch
      refine ⟨f, ?_, hnone⟩
      simpa [RootState.startFetch, List.getElem?_append_left hlt] using hf
    have hbound : fetch < s.fetches.length + 1 := by
      have := (List.getElem?_eq_some_iff.mp hf).1
      simpa [RootState.startFetch] using this
    exact congrArg some (by omega)
  · intro fetch res fetchedAt hres
    rw [hresult] at hres
    exact h.completed fetch res fetchedAt hres
  · intro c hc
    exact (h.cached c hc).extend hext
  · intro fetch res fetchedAt hfetch hres
    obtain rfl : s.fetches.length = fetch := Option.some.inj hfetch
    rw [hresult, hnew] at hres
    cases hres
  · intro r' hr'
    obtain rfl := Option.some.inj hr'
    rfl
  · intro i a ha
    exact (h.answered i a ha).extend hext

variable {fetch : Nat}

/-- A result is taken from the channel of the pending fetch. -/
theorem Wf.take (h : s.Wf cfg) (r : Refresh Root Err) {res : Except Err Root} {fetchedAt : Int}
    (hpending : s.pending = some fetch) (hres : s.result fetch = some (res, fetchedAt))
    (hfresh : ∀ root, res = .ok root → s.now - fetchedAt < trustedRootCacheTTL) :
    ({ s with pending := none }.setPhase r (.received (fetchResult (res, fetchedAt)) s.now)).Wf
      cfg := by
  refine ⟨?_, h.completed, h.cached, ?_, ?_, h.answered⟩
  · intro other hrunning
    refine absurd hrunning (h.not_running ?_ other)
    intro other' hother'
    obtain rfl := Option.some.inj (hpending.symm.trans hother')
    rw [hres]
    exact nofun
  · intro other _ _ hother
    cases hother
  · intro r' hr'
    obtain rfl := Option.some.inj hr'
    cases res with
    | error err => trivial
    | ok root =>
      exact ⟨rfl, ⟨fetch, hres⟩, hfresh root rfl, h.later fetch _ fetchedAt hpending hres⟩

theorem Wf.acquire (h : s.Wf cfg) (r : Refresh Root Err) : (s.acquire cfg r).Wf cfg := by
  unfold RootState.acquire
  split
  · next hpending =>
    apply h.startFetch r
    intro fetch hfetch
    cases hpending.symm.trans hfetch
  · next fetch hpending =>
    have hthere : ∀ x, s.result fetch = some x →
        ∀ other, s.pending = some other → s.result other ≠ none := by
      intro x hx other hother
      obtain rfl := Option.some.inj (hpending.symm.trans hother)
      rw [hx]
      exact nofun
    split
    · exact h.setPhase r hpending
    · next root fetchedAt hres =>
      split
      · next hfresh => exact h.take r hpending hres fun _ _ => hfresh
      · exact h.startFetch r (hthere _ hres)
    · next hres => exact h.startFetch r (hthere _ hres)

theorem complete_result {f : Fetch Root Err} (hf : s.fetches[fetch]? = some f)
    (res : Except Err Root) (other : Nat) :
    (s.complete fetch f res).result other =
      if other = fetch then some (res, s.now) else s.result other := by
  have hlt := (List.getElem?_eq_some_iff.mp hf).1
  unfold result RootState.complete
  by_cases hother : other = fetch
  · subst hother
    simp [hlt]
  · simp [hother, List.getElem?_set_ne (Ne.symm hother)]

theorem Wf.complete (h : s.Wf cfg) {f : Fetch Root Err} (hf : s.fetches[fetch]? = some f)
    (hnone : f.result = none) (res : Except Err Root) : (s.complete fetch f res).Wf cfg := by
  have hresult := complete_result hf res
  have hbefore : s.result fetch = none := by
    rw [result, hf]
    exact hnone
  have hext : s.Extends (s.complete fetch f res) := by
    intro other x hx
    rw [hresult, if_neg, hx]
    rintro rfl
    cases hbefore.symm.trans hx
  have htime : ∀ other res' fetchedAt,
      (s.complete fetch f res).result other = some (res', fetchedAt) →
        fetchedAt = s.now ∨ s.result other = some (res', fetchedAt) := by
    intro other res' fetchedAt hres
    rw [hresult] at hres
    split at hres
    · cases hres
      exact .inl rfl
    · exact .inr hres
  refine ⟨?_, ?_, ?_, ?_, ?_, ?_⟩
  · rintro other ⟨g, hg, hgnone⟩
    have hother : other ≠ fetch := by
      rintro rfl
      have hlt := (List.getElem?_eq_some_iff.mp hf).1
      rw [RootState.complete, List.getElem?_set_self hlt] at hg
      obtain rfl := Option.some.inj hg
      cases hgnone
    rw [RootState.complete, List.getElem?_set_ne (Ne.symm hother)] at hg
    exact h.running other ⟨g, hg, hgnone⟩
  · intro other res' fetchedAt hres
    rcases htime other res' fetchedAt hres with rfl | hold
    · exact le_refl s.now
    · exact h.completed other res' fetchedAt hold
  · intro c hc
    exact (h.cached c hc).extend hext
  · intro other res' fetchedAt hpending hres c hc
    rcases htime other res' fetchedAt hres with rfl | hold
    · exact (h.cached c hc).fetchedAt_le h
    · exact h.later other res' fetchedAt hpending hold c hc
  · intro r hr
    exact (h.phase r hr).extend hext rfl rfl
  · intro i a ha
    exact (h.answered i a ha).extend hext

variable {looked : Nat}

theorem Wf.receive (h : s.Wf cfg) {deadline : Int} {res : Except Err Root × Int}
    (hrefresh : s.refresh = some ⟨.waiting fetch deadline, looked⟩)
    (hres : s.result fetch = some res) (hprompt : s.Prompt .receive) :
    (s.receive ⟨.waiting fetch deadline, looked⟩ fetch res).Wf cfg := by
  have hpending : s.pending = some fetch := h.phase _ hrefresh
  unfold RootState.receive
  rw [if_pos hpending]
  apply h.take _ hpending hres
  intro root hroot
  apply hprompt fetch deadline looked root res.2 hrefresh
  rw [hres, ← hroot]

/-- A failed refresh leaves the cached root alone and falls back to a recent one. -/
theorem Wf.recent_handled (h : s.Wf cfg) (err : FetchError Err) :
    (s.cache.handleRefreshError cfg s.now err).1.root = s.cache.root ∧
      s.PhaseOk cfg (.returned (s.cache.handleRefreshError cfg s.now err).2 s.now) := by
  unfold TrustedRootCache.handleRefreshError
  split
  · next r hroot =>
    dsimp only
    split
    · next hage => exact ⟨rfl, h.recent_cached hroot hage⟩
    · split
      · next root hseeded => exact ⟨rfl, hseeded⟩
      · exact ⟨rfl, trivial⟩
  · split
    · next root hseeded => exact ⟨rfl, hseeded⟩
    · exact ⟨rfl, trivial⟩

theorem Wf.store (h : s.Wf cfg) {res : Except (FetchError Err) (FetchedRoot Root)}
    {receivedAt : Int} (hrefresh : s.refresh = some ⟨.received res receivedAt, looked⟩) :
    (s.store cfg ⟨.received res receivedAt, looked⟩ res receivedAt).Wf cfg := by
  have hphase := h.phase _ hrefresh
  cases res with
  | ok r =>
    obtain ⟨hpending, hfetched, hfresh, -⟩ := hphase
    refine ⟨h.running, h.completed, ?_, ?_, ?_, h.answered⟩
    · intro c hc
      obtain rfl := Option.some.inj hc
      exact hfetched
    · intro fetch _ _ hfetch
      cases hpending.symm.trans hfetch
    · intro r' hr'
      obtain rfl := Option.some.inj hr'
      exact ⟨hfetched, le_staleness hfresh⟩
  | error err =>
    obtain ⟨hroot, hvalue⟩ := h.recent_handled err
    refine ⟨h.running, h.completed, ?_, ?_, ?_, h.answered⟩
    · intro c hc
      exact h.cached c (hroot.symm.trans hc)
    · intro fetch res fetchedAt hfetch hres c hc
      exact h.later fetch res fetchedAt hfetch hres c (hroot.symm.trans hc)
    · intro r' hr'
      obtain rfl := Option.some.inj hr'
      have hext : s.Extends (s.store cfg ⟨.received (.error err) receivedAt, looked⟩
          (.error err) receivedAt) := fun _ _ hx => hx
      exact PhaseOk.returned_extend hext hvalue

theorem deliver_request {value : Except (RefreshError Err) (Chosen Root)} {i : Nat}
    {request : Request Root Err} (h : (s.deliver value chosenAt).request i = request) :
    .answered (delivered value chosenAt) = request ∨ s.request i = request := by
  unfold RootState.deliver at h
  dsimp only at h
  split at h
  · exact .inl h
  · exact .inr h

theorem Wf.deliver (h : s.Wf cfg) {value : Except (RefreshError Err) (Chosen Root)}
    (hrefresh : s.refresh = some ⟨.returned value chosenAt, looked⟩) :
    (s.deliver value chosenAt).Wf cfg := by
  refine Wf.sameCore h ⟨rfl, rfl, rfl, rfl⟩ ?_ ?_
  · intro r hr
    cases hr
  · intro i a ha
    have hphase := h.phase _ hrefresh
    rcases deliver_request ha with hanswer | hkept
    · cases value with
      | error err => cases hanswer
      | ok chosen =>
        cases hanswer
        exact hphase
    · exact h.answered i a hkept

theorem Wf.step (h : s.Wf cfg) {e : RootEvent Root Err} (hprompt : s.Prompt e)
    (hstep : s.step cfg e = some t) : t.Wf cfg := by
  cases effect_of_step hstep with
  | tick => exact h.tick _
  | look _ => exact h.look _
  | cancel err => exact h.setRequest nofun
  | enter _ => exact h.enter _ _
  | check _ => exact h.check _
  | acquire _ => exact h.acquire _
  | complete hf hnone res => exact h.complete hf hnone res
  | receive hrefresh hres => exact h.receive hrefresh hres hprompt
  | expire _ => exact h.setPhase _ trivial
  | store hrefresh => exact h.store hrefresh
  | deliver hrefresh => exact h.deliver hrefresh

theorem check_sameCore (r : Refresh Root Err) : s.SameCore (s.check r) := by
  unfold RootState.check
  split <;> exact ⟨rfl, rfl, rfl, rfl⟩

theorem look_sameCore (i : Nat) : s.SameCore (s.look cfg i) := by
  unfold RootState.look
  split
  · exact ⟨rfl, rfl, rfl, rfl⟩
  · split <;> exact ⟨rfl, rfl, rfl, rfl⟩

theorem acquire_cache (r : Refresh Root Err) : (s.acquire cfg r).cache = s.cache := by
  unfold RootState.acquire
  split
  · rfl
  · split
    · rfl
    · split <;> rfl
    · rfl

/-- A step leaves the cached root alone, or stores a root that the refresh received
while it was fresh and that was fetched no earlier. -/
theorem Wf.step_cache (h : s.Wf cfg) {e : RootEvent Root Err} (hstep : s.step cfg e = some t) :
    t.cache.root = s.cache.root ∨
      ∃ r receivedAt looked, s.refresh = some ⟨.received (.ok r) receivedAt, looked⟩ ∧
        s.Fetched r ∧ receivedAt - r.fetchedAt < trustedRootCacheTTL ∧
        (∀ c, s.cache.root = some c → c.fetchedAt ≤ r.fetchedAt) ∧ t.cache.root = some r := by
  cases effect_of_step hstep with
  | tick | cancel _ | enter _ | complete _ _ _ | receive _ _ | expire _ | deliver _ =>
    exact .inl rfl
  | look _ => exact .inl (congrArg _ (look_sameCore _).cache)
  | check _ => exact .inl (congrArg _ (check_sameCore _).cache)
  | acquire _ => exact .inl (congrArg _ (acquire_cache _))
  | @store res receivedAt looked hrefresh =>
    cases res with
    | error err => exact .inl (h.recent_handled err).1
    | ok r =>
      obtain ⟨-, hfetched, hfresh, hlater⟩ := h.phase _ hrefresh
      exact .inr ⟨r, receivedAt, looked, hrefresh, hfetched, hfresh, hlater, rfl⟩

end

end RootState

theorem wf_of_reachableVia {cfg : RootConfig Root} {s : RootState Root Err}
    (h : (rootMachine Err cfg).ReachableVia RootState.Prompt s) : s.Wf cfg := by
  refine Machine.ReachableVia.invariant ?_ ?_ h
  · rintro s ⟨now, rfl⟩
    exact RootState.wf_initial cfg now
  · intro s e t hwf hprompt hstep
    exact hwf.step hprompt hstep

/-- Along a run, a cached root stays or makes way for one that was fetched no earlier. -/
theorem fetchedAt_monotone {cfg : RootConfig Root} {s t : RootState Root Err}
    {labels : List (RootEvent Root Err)} (h : s.Wf cfg)
    (hprompt : (rootMachine Err cfg).AllAllowed RootState.Prompt s labels)
    (hrun : (rootMachine Err cfg).exec s labels = some t) {r : FetchedRoot Root}
    (hr : s.cache.root = some r) :
    ∃ r', t.cache.root = some r' ∧ r.fetchedAt ≤ r'.fetchedAt := by
  induction labels generalizing s r with
  | nil =>
    cases hrun
    exact ⟨r, hr, le_refl _⟩
  | cons e rest ih =>
    obtain ⟨u, hu, hrest⟩ := Option.bind_eq_some_iff.mp hrun
    have hnext : ∃ r', u.cache.root = some r' ∧ r.fetchedAt ≤ r'.fetchedAt := by
      rcases h.step_cache hu with hsame | ⟨r', -, -, -, -, -, hlater, hr'⟩
      · exact ⟨r, hsame.trans hr, le_refl _⟩
      · exact ⟨r', hr', hlater r hr⟩
    obtain ⟨r', hr', hle⟩ := hnext
    obtain ⟨r'', hr'', hle'⟩ := ih (h.step hprompt.1 hu) (hprompt.2 u hu) hrest hr'
    exact ⟨r'', hr'', le_trans hle hle'⟩

/-- When no refresh receives an outdated root that it has waited for, roots that are returned
are pre-seeded or recent, one fetch runs at a time, the time of the cached root never goes
back, and what replaces it was fresh when its refresh received it. -/
theorem trusted_root_safe {cfg : RootConfig Root} {s : RootState Root Err}
    (h : (rootMachine Err cfg).ReachableVia RootState.Prompt s) :
    (∀ i a, s.request i = .answered (.ok a) → s.Recent cfg a.chosenAt a.chosen) ∧
      (∀ i j, s.Running i → s.Running j → i = j) ∧
      (∀ labels t r, (rootMachine Err cfg).AllAllowed RootState.Prompt s labels →
        (rootMachine Err cfg).exec s labels = some t → s.cache.root = some r →
        ∃ r', t.cache.root = some r' ∧ r.fetchedAt ≤ r'.fetchedAt) ∧
      ∀ e t, s.step cfg e = some t → t.cache.root = s.cache.root ∨
        ∃ r receivedAt looked, s.refresh = some ⟨.received (.ok r) receivedAt, looked⟩ ∧
          s.Fetched r ∧ receivedAt - r.fetchedAt < trustedRootCacheTTL ∧
          t.cache.root = some r := by
  have hwf := wf_of_reachableVia h
  refine ⟨hwf.answered, ?_, ?_, ?_⟩
  · intro i j hi hj
    exact Option.some.inj ((hwf.running i hi).symm.trans (hwf.running j hj))
  · intro labels t r hprompt hrun hr
    exact fetchedAt_monotone hwf hprompt hrun hr
  · intro e t hstep
    rcases hwf.step_cache hstep with hsame | ⟨r, receivedAt, looked, hr, hf, hfresh, -, ht⟩
    · exact .inl hsame
    · exact .inr ⟨r, receivedAt, looked, hr, hf, hfresh, ht⟩

/-- A fetch outlives its deadline, and a later refresh waits for it until it is over. -/
def lateRun : List (RootEvent Nat Unit) :=
  [.look 0, .enter 0, .check, .acquire, .tick 30000000000, .expire, .store, .deliver,
    .tick 40000000000, .look 1, .enter 1, .check, .acquire, .tick 5000000000, .complete 0 (.ok 7),
    .tick 1000000000]

def lateState : RootState Nat Unit :=
  ((rootMachine Unit ⟨none, 30 * second⟩).exec (.initial 0) lateRun).get (by decide +kernel)

theorem lateState_reachable :
    (rootMachine Unit ⟨none, 30 * second⟩).ReachableVia RootState.Prompt lateState := by
  refine Machine.ReachableVia.exec (.start ⟨0, rfl⟩) ?_ (Option.some_get _).symm
  apply Machine.AllAllowed.of_forall
  simp [lateRun, RootState.Prompt]

theorem lateState_prompt : lateState.Prompt .receive := by
  intro fetch deadline looked root fetchedAt hrefresh hres
  have hwaiting : lateState.refresh = some ⟨.waiting 0 (100 * second), 1⟩ := rfl
  cases hwaiting.symm.trans hrefresh
  have hlate : lateState.result 0 = some (.ok 7, 75 * second) := rfl
  cases hlate.symm.trans hres
  change 76 * second - 75 * second < trustedRootCacheTTL
  decide

theorem trusted_root_safe_late :
    ∃ s : RootState Nat Unit,
      (rootMachine Unit ⟨none, 30 * second⟩).ReachableVia RootState.Prompt s ∧
      s.request 1 = .answered (.ok ⟨.fetched ⟨7, 75 * second⟩, 76 * second⟩) ∧
      s.Recent ⟨none, 30 * second⟩ (76 * second) (.fetched ⟨7, 75 * second⟩) := by
  have hallowed : (rootMachine Unit ⟨none, 30 * second⟩).AllAllowed RootState.Prompt lateState
      [.receive, .store, .deliver] := by
    refine ⟨lateState_prompt, fun t _ => .of_forall ?_ t⟩
    simp [RootState.Prompt]
  have hrun : (rootMachine Unit ⟨none, 30 * second⟩).exec lateState
    [.receive, .store, .deliver] = some _ := rfl
  have hreachable := lateState_reachable.exec hallowed hrun
  exact ⟨_, hreachable, rfl, (trusted_root_safe hreachable).1 1 _ rfl⟩

/-- A refresh does not go on for 25 hours after its fetch has answered, and then hands out
the root without looking at its age. -/
def frozenRun : List (RootEvent Nat Unit) :=
  [.look 0, .enter 0, .check, .acquire, .complete 0 (.ok 7), .tick 90000000000000, .receive,
    .store, .deliver]

theorem outdated_root_returned :
    ∃ (s : RootState Nat Unit) (a : Answer Nat),
      (rootMachine Unit ⟨none, 30 * second⟩).Reachable s ∧
      s.request 0 = .answered (.ok a) ∧ ¬s.Recent ⟨none, 30 * second⟩ a.chosenAt a.chosen := by
  have hrun : (rootMachine Unit ⟨none, 30 * second⟩).exec (.initial 0) frozenRun = some _ := rfl
  refine ⟨_, ⟨.fetched ⟨7, 0⟩, 90000 * second⟩, .exec (.start ⟨0, rfl⟩) hrun, rfl, ?_⟩
  rintro ⟨-, hage⟩
  revert hage
  decide

end NriSupplyChain.TrustRoot
