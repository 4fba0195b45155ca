import NriSupplyChain.Lib.Machine

/-!
The cache of a Sigstore trusted root. Requests look at the cached root first and share
one refresh otherwise. A refresh waits for a fetch until its deadline; a fetch that
outlives it goes on, and a later refresh waits for the same fetch.

Steps are cut where other goroutines can come in between, and any time can pass between
them. The counters of failures and what a fetch and an answer remember of their times are
read by no modelled function.
-/

namespace NriSupplyChain.TrustRoot

open Lib

/-- Times and durations are in nanoseconds. -/
def second : Int := 1000000000

def trustedRootCacheTTL : Int := 3600 * second
def trustedRootMaxStaleness : Int := 86400 * second
def negativeCacheTTL : Int := 300 * second
def failedRootRetryInterval : Int := 30 * second

structure FetchedRoot (Root : Type) where
  root : Root
  fetchedAt : Int

/-- Why a refresh got no root. -/
inductive FetchError (Err : Type) where
  | failed (err : Err)
  | timeout (after : Int)

/-- The error of a refresh that has no root to return. -/
inductive RefreshError (Err : Type) where
  | stale (age : Int) (cause : FetchError Err)
  | fetching (cause : FetchError Err)

inductive GetError (Err : Type) where
  | failedRecently (err : RefreshError Err)
  | canceledBefore
  | canceledDuring
  | refresh (err : RefreshError Err)

/-- A root that is returned, and where it comes from. -/
inductive Chosen (Root : Type) where
  | preSeeded (root : Root)
  | fetched (r : FetchedRoot Root)

structure RootConfig (Root : Type) where
  preSeeded : Option Root
  fetchTimeout : Int

variable {Root Err : Type}

/-- The fields of `trustedRootCache` that its lock guards. -/
structure TrustedRootCache (Root Err : Type) where
  root : Option (FetchedRoot Root)
  lastFetchErr : Option Int
  lastErr : Option (RefreshError Err)

namespace TrustedRootCache

/-- The cached root within its time to live. -/
def fresh (now : Int) (c : TrustedRootCache Root Err) : Option (FetchedRoot Root) :=
  c.root.filter fun r => now - r.fetchedAt < trustedRootCacheTTL

/-- The cached root within the staleness limit. -/
def usable (now : Int) (c : TrustedRootCache Root Err) : Option (FetchedRoot Root) :=
  c.root.filter fun r => now - r.fetchedAt ≤ trustedRootMaxStaleness

def cachedHit (cfg : RootConfig Root) (now : Int) (c : TrustedRootCache Root Err) :
    Option (Chosen Root) :=
  match c.fresh now with
  | some r => some (.fetched r)
  | none =>
    match c.lastFetchErr with
    | none => none
    | some last =>
      if now - last ≥ negativeCacheTTL then none
      else
        match c.usable now with
        | some r => some (.fetched r)
        | none => cfg.preSeeded.map .preSeeded

def recentFailure (now : Int) (c : TrustedRootCache Root Err) : Option (RefreshError Err) :=
  match c.lastErr, c.lastFetchErr with
  | some err, some last => if now - last ≥ failedRootRetryInterval then none else some err
  | _, _ => none

def recordFailure (now : Int) (err : RefreshError Err) (c : TrustedRootCache Root Err) :
    TrustedRootCache Root Err × Except (RefreshError Err) (Chosen Root) :=
  ({ c with lastFetchErr := some now, lastErr := some err }, .error err)

def handleRefreshError (cfg : RootConfig Root) (now : Int) (err : FetchError Err)
    (c : TrustedRootCache Root Err) :
    TrustedRootCache Root Err × Except (RefreshError Err) (Chosen Root) :=
  match c.root with
  | some r =>
    let age := now - r.fetchedAt
    if age ≤ trustedRootMaxStaleness then
      ({ c with lastFetchErr := some now }, .ok (.fetched r))
    else
      match cfg.preSeeded with
      | some root => ({ c with lastFetchErr := some now }, .ok (.preSeeded root))
      | none => c.recordFailure now (.stale age err)
  | none =>
    match cfg.preSeeded with
    | some root => ({ c with lastFetchErr := some now }, .ok (.preSeeded root))
    | none => c.recordFailure now (.fetching err)

/-- The end of `refreshRoot`, when its fetch is over. -/
def store (cfg : RootConfig Root) (now : Int) (c : TrustedRootCache Root Err) :
    Except (FetchError Err) (FetchedRoot Root) →
      TrustedRootCache Root Err × Except (RefreshError Err) (Chosen Root)
  | .error err => c.handleRefreshError cfg now err
  | .ok r => (⟨some r, none, none⟩, .ok (.fetched r))

end TrustedRootCache

/-- A fetch from the TUF repository and the channel it answers on. -/
structure Fetch (Root Err : Type) where
  startedAt : Int
  /-- When the latest refresh without a root had ended. -/
  failedAt : Option Int
  result : Option (Except Err Root × Int)

inductive RefreshPhase (Root Err : Type) where
  | begun
  /-- No fresh root was found. -/
  | stale
  | waiting (fetch : Nat) (deadline : Int)
  | received (res : Except (FetchError Err) (FetchedRoot Root)) (receivedAt : Int)
  | returned (value : Except (RefreshError Err) (Chosen Root)) (chosenAt : Int)

/-- The shared refresh; `looked` counts the failures there were when the request that
began it looked at the cache. -/
structure Refresh (Root Err : Type) where
  phase : RefreshPhase Root Err
  looked : Nat

structure Answer (Root : Type) where
  chosen : Chosen Root
  chosenAt : Int

inductive Request (Root Err : Type) where
  | idle
  /-- Found neither a root nor a recent failure. -/
  | looked (failures : Nat)
  | waiting
  | answered (answer : Except (GetError Err) (Answer Root))

structure RootState (Root Err : Type) where
  now : Int
  cache : TrustedRootCache Root Err
  pending : Option Nat
  fetches : List (Fetch Root Err)
  refresh : Option (Refresh Root Err)
  request : Nat → Request Root Err
  /-- How many refreshes ended without a root, and when the latest did. -/
  failures : Nat
  failedAt : Option Int

inductive RootEvent (Root Err : Type) where
  | tick (d : Nat)
  | look (i : Nat)
  /-- The context of a request ends. -/
  | cancel (i : Nat)
  | enter (i : Nat)
  | check
  | acquire
  | complete (fetch : Nat) (res : Except Err Root)
  | receive
  | expire
  | store
  /-- The shared refresh is over, and those who wait for it get its value. -/
  | deliver

namespace RootState

def initial (now : Int) : RootState Root Err :=
  ⟨now, ⟨none, none, none⟩, none, [], none, fun _ => .idle, 0, none⟩

/-- The result of a fetch, once it is there. -/
def result (s : RootState Root Err) (fetch : Nat) : Option (Except Err Root × Int) :=
  (s.fetches[fetch]?).bind fun f => f.result

def Running (s : RootState Root Err) (fetch : Nat) : Prop :=
  ∃ f, s.fetches[fetch]? = some f ∧ f.result = none

def answer (s : RootState Root Err) (i : Nat) (answer : Except (GetError Err) (Answer Root)) :
    RootState Root Err :=
  { s with request := Function.update s.request i (.answered answer) }

/-- The first part of `get`. -/
def look (cfg : RootConfig Root) (s : RootState Root Err) (i : Nat) : RootState Root Err :=
  match s.cache.cachedHit cfg s.now with
  | some chosen => s.answer i (.ok ⟨chosen, s.now⟩)
  | none =>
    match s.cache.recentFailure s.now with
    | some failure => s.answer i (.error (.failedRecently failure))
    | none => { s with request := Function.update s.request i (.looked s.failures) }

def setPhase (s : RootState Root Err) (r : Refresh Root Err) (phase : RefreshPhase Root Err) :
    RootState Root Err :=
  { s with refresh := some { r with phase } }

/-- Join the shared refresh, or begin one. -/
def enter (s : RootState Root Err) (i looked : Nat) : RootState Root Err :=
  { s with
    refresh := some (s.refresh.getD ⟨.begun, looked⟩)
    request := Function.update s.request i .waiting }

def check (s : RootState Root Err) (r : Refresh Root Err) : RootState Root Err :=
  match s.cache.fresh s.now with
  | some root => s.setPhase r (.returned (.ok (.fetched root)) s.now)
  | none => s.setPhase r .stale

def startFetch (cfg : RootConfig Root) (s : RootState Root Err) (r : Refresh Root Err) :
    RootState Root Err :=
  { s with
    pending := some s.fetches.length
    fetches := s.fetches ++ [⟨s.now, s.failedAt, none⟩]
    refresh := some { r with phase := .waiting s.fetches.length (s.now + cfg.fetchTimeout) } }

/-- `fetchWithDeadline` up to the wait. A late result is taken while it is fresh. -/
def acquire (cfg : RootConfig Root) (s : RootState Root Err) (r : Refresh Root Err) :
    RootState Root Err :=
  match s.pending with
  | none => s.startFetch cfg r
  | some fetch =>
    match s.result fetch with
    | none => s.setPhase r (.waiting fetch (s.now + cfg.fetchTimeout))
    | some (.ok root, fetchedAt) =>
      if s.now - fetchedAt < trustedRootCacheTTL then
        { s with pending := none }.setPhase r (.received (.ok ⟨root, fetchedAt⟩) s.now)
      else s.startFetch cfg r
    | some (.error _, _) => s.startFetch cfg r

/-- A fetch answers on its channel. -/
def complete (s : RootState Root Err) (fetch : Nat) (f : Fetch Root Err) (res : Except Err Root) :
    RootState Root Err :=
  { s with fetches := s.fetches.set fetch { f with result := some (res, s.now) } }

def fetchResult : Except Err Root × Int → Except (FetchError Err) (FetchedRoot Root)
  | (.ok root, fetchedAt) => .ok ⟨root, fetchedAt⟩
  | (.error err, _) => .error (.failed err)

def receive (s : RootState Root Err) (r : Refresh Root Err) (fetch : Nat)
    (res : Except Err Root × Int) : RootState Root Err :=
  { s with pending := if s.pending = some fetch then none else s.pending }.setPhase r
    (.received (fetchResult res) s.now)

/-- The last part of `refreshRoot`; a root that was fetched was chosen when it was
received. -/
def store (cfg : RootConfig Root) (s : RootState Root Err) (r : Refresh Root Err)
    (res : Except (FetchError Err) (FetchedRoot Root)) (receivedAt : Int) : RootState Root Err :=
  let (cache, value) := s.cache.store cfg s.now res
  let chosenAt := match res with
    | .ok _ => receivedAt
    | .error _ => s.now
  let failed := match value with
    | .ok _ => false
    | .error _ => true
  { s with
    cache
    refresh := some { r with phase := .returned value chosenAt }
    failures := if failed then s.failures + 1 else s.failures
    failedAt := if failed then some s.now else s.failedAt }

def delivered (value : Except (RefreshError Err) (Chosen Root)) (chosenAt : Int) :
    Except (GetError Err) (Answer Root) :=
  match value with
  | .ok chosen => .ok ⟨chosen, chosenAt⟩
  | .error err => .error (.refresh err)

def deliver (s : RootState Root Err) (value : Except (RefreshError Err) (Chosen Root))
    (chosenAt : Int) : RootState Root Err :=
  { s with
    refresh := none
    request := fun i => match s.request i with
      | .waiting => .answered (delivered value chosenAt)
      | other => other }

def step (cfg : RootConfig Root) (s : RootState Root Err) :
    RootEvent Root Err → Option (RootState Root Err)
  | .tick d => some { s with now := s.now + d }
  | .look i =>
    match s.request i with
    | .idle => some (s.look cfg i)
    | _ => none
  | .cancel i =>
    match s.request i with
    | .looked _ => some (s.answer i (.error .canceledBefore))
    | .waiting => some (s.answer i (.error .canceledDuring))
    | _ => none
  | .enter i =>
    match s.request i with
    | .looked failures => some (s.enter i failures)
    | _ => none
  | .check =>
    match s.refresh with
    | some ⟨.begun, looked⟩ => some (s.check ⟨.begun, looked⟩)
    | _ => none
  | .acquire =>
    match s.refresh with
    | some ⟨.stale, looked⟩ => some (s.acquire cfg ⟨.stale, looked⟩)
    | _ => none
  | .complete fetch res =>
    match s.fetches[fetch]? with
    | some f => if f.result.isSome then none else some (s.complete fetch f res)
    | none => none
  | .receive =>
    match s.refresh with
    | some ⟨.waiting fetch deadline, looked⟩ =>
      (s.result fetch).map fun res => s.receive ⟨.waiting fetch deadline, looked⟩ fetch res
    | _ => none
  | .expire =>
    match s.refresh with
    | some ⟨.waiting fetch deadline, looked⟩ =>
      if s.now < deadline then none
      else some (s.setPhase ⟨.waiting fetch deadline, looked⟩
        (.received (.error (.timeout cfg.fetchTimeout)) s.now))
    | _ => none
  | .store =>
    match s.refresh with
    | some ⟨.received res receivedAt, looked⟩ =>
      some (s.store cfg ⟨.received res receivedAt, looked⟩ res receivedAt)
    | _ => none
  | .deliver =>
    match s.refresh with
    | some ⟨.returned value chosenAt, _⟩ => some (s.deliver value chosenAt)
    | _ => none

end RootState

def rootMachine (Err : Type) (cfg : RootConfig Root) :
    Machine (RootState Root Err) (RootEvent Root Err) where
  initial s := ∃ now, s = RootState.initial now
  step := RootState.step cfg

end NriSupplyChain.TrustRoot
