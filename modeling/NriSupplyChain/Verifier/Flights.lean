import NriSupplyChain.Verifier.Keys

/-!
Concurrent `Verify` and `InvalidateCache` calls around the result cache and the
singleflight group. A reload that keeps the cache keeps the generation too, so
everything a snapshot decides (the rule that matched, timeouts, cache TTLs) is
part of the labels.

A cached or shared result is represented by the flight whose run computed it.
The machine numbers its steps and remembers at which step a flight was created,
a `Verify` started and an invalidation took effect; the modelled code reads
none of these numbers.
-/

namespace NriSupplyChain.Verifier

open Cache Lib

/-- What `verifyOnce` is asked for. -/
structure FlightRequest where
  digest : GoString
  nameSpace : GoString
  imageRef : GoString
  ruleIdx : Int

namespace FlightRequest

/-- Digests reach `Verify` from `ParseDigest` or as registry manifest digests, so
they hold no zero byte. -/
def ZeroFree (req : FlightRequest) : Prop := (0 : UInt8) ∉ req.digest

def cacheNS (req : FlightRequest) : GoString :=
  cacheNamespaceKey req.nameSpace req.imageRef req.ruleIdx

def cacheKey (req : FlightRequest) : Key := ⟨req.digest, req.cacheNS⟩

end FlightRequest

/-- How a `Verify` or a flight ends: with a result computed by a run, or without
one (an error, an interruption, or a skip rule). -/
abbrev Outcome := Option Nat

inductive FlightPhase where
  | pending
  /-- Between the read lock and the write lock of the second cache lookup. -/
  | rechecking
  | running
  /-- The flight's function has returned; the group still lists the flight. -/
  | finished (outcome : Outcome)
  | delivered (outcome : Outcome)
deriving DecidableEq, Repr

def FlightPhase.outcome? : FlightPhase → Option Outcome
  | .finished outcome | .delivered outcome => some outcome
  | _ => none

structure Flight where
  req : FlightRequest
  epoch : Nat
  createdAt : Nat
  phase : FlightPhase

inductive CallerPhase where
  | idle
  | started (req : FlightRequest) (startedAt : Nat)
  /-- Between the read lock and the write lock of `Get`. -/
  | rechecking (req : FlightRequest) (startedAt : Nat)
  | missed (req : FlightRequest) (startedAt : Nat)
  | epochRead (req : FlightRequest) (startedAt : Nat) (epoch : Nat)
  | waiting (req : FlightRequest) (startedAt : Nat) (flight : Nat)
  | returned (req : FlightRequest) (startedAt : Nat) (outcome : Outcome)

/-- A finished `InvalidateCache(digest, namespace)`. -/
structure Invalidation where
  digest : GoString
  nameSpace : GoString
  at_ : Nat
deriving DecidableEq, Repr

structure FlightState where
  cache : Cache Nat
  generation : Nat
  /-- The calls of the singleflight group. -/
  inflight : GoString → Option Nat
  flights : List Flight
  callers : Nat → CallerPhase
  invalidations : List Invalidation
  steps : Nat

inductive FlightOp where
  | verify (v : Nat) (req : FlightRequest)
  /-- `Verify` returns before it looks at the cache. -/
  | skip (v : Nat)
  | get (v : Nat) (now : Int)
  | getLocked (v : Nat) (now : Int)
  | readEpoch (v : Nat)
  | notJoinable (v : Nat)
  | doChan (v : Nat)
  | interrupted (v : Nat)
  | receive (v : Nat)
  /-- `flights.begin` refuses the flight, because the verifier stops. -/
  | reject (f : Nat)
  | flightGet (f : Nat) (now : Int)
  | flightGetLocked (f : Nat) (now : Int)
  /-- The run panicked, or the verifier was stopped meanwhile. -/
  | runFailed (f : Nat)
  | runDone (f : Nat) (ttl : Int) (choices : SetChoices)
  | deliver (f : Nat)
  | invalidateCache (digest nameSpace : GoString) (order : List Key)
  | backgroundEvict (now : Int)
  | reload

/-- A request that a `Verify` starts with has a digest without a zero byte. -/
def FlightOp.ZeroFree : FlightOp → Prop
  | .verify _ req => req.ZeroFree
  | _ => True

namespace FlightState

def move (s : FlightState) (v : Nat) (phase : CallerPhase) : FlightState :=
  { s with callers := Function.update s.callers v phase, steps := s.steps + 1 }

def setPhase (s : FlightState) (f : Nat) (phase : FlightPhase) : FlightState :=
  { s with
    flights := s.flights.modify f (fun flight => { flight with phase := phase })
    steps := s.steps + 1 }

/-- The key of a flight in the group. -/
def keyOf (s : FlightState) (req : FlightRequest) (epoch : Nat) : GoString :=
  flightKey s.generation epoch req.digest req.cacheNS

/-- `DoChan`: join the call of the key, or register a new one. -/
def doChan (s : FlightState) (v : Nat) (req : FlightRequest) (startedAt epoch : Nat) :
    FlightState :=
  match s.inflight (s.keyOf req epoch) with
  | some f => s.move v (.waiting req startedAt f)
  | none =>
    { s.move v (.waiting req startedAt s.flights.length) with
      flights := s.flights ++ [⟨req, epoch, s.steps, .pending⟩]
      inflight := Function.update s.inflight (s.keyOf req epoch) (some s.flights.length) }

def step (s : FlightState) : FlightOp → Option FlightState
  | .verify v req =>
    match s.callers v with
    | .idle => some (s.move v (.started req s.steps))
    | _ => none
  | .skip v =>
    match s.callers v with
    | .started req startedAt => some (s.move v (.returned req startedAt none))
    | _ => none
  | .get v now =>
    match s.callers v with
    | .started req startedAt =>
      match s.cache.getRead req.cacheKey now with
      | .missing => some (s.move v (.missed req startedAt))
      | .valid run => some (s.move v (.returned req startedAt (some run)))
      | .expired => some (s.move v (.rechecking req startedAt))
    | _ => none
  | .getLocked v now =>
    match s.callers v with
    | .rechecking req startedAt =>
      let (cache, found) := s.cache.getLocked req.cacheKey now
      let phase := match found with
        | some run => .returned req startedAt (some run)
        | none => .missed req startedAt
      some { s.move v phase with cache := cache }
    | _ => none
  | .readEpoch v =>
    match s.callers v with
    | .missed req startedAt =>
      some (s.move v (.epochRead req startedAt (s.cache.epoch req.digest)))
    | _ => none
  | .notJoinable v =>
    match s.callers v with
    | .epochRead req startedAt _ => some (s.move v (.returned req startedAt none))
    | _ => none
  | .doChan v =>
    match s.callers v with
    | .epochRead req startedAt epoch => some (s.doChan v req startedAt epoch)
    | _ => none
  | .interrupted v =>
    match s.callers v with
    | .waiting req startedAt _ => some (s.move v (.returned req startedAt none))
    | _ => none
  | .receive v =>
    match s.callers v with
    | .waiting req startedAt f =>
      match s.flights[f]? with
      | some ⟨_, _, _, .delivered outcome⟩ =>
        some (s.move v (.returned req startedAt outcome))
      | _ => none
    | _ => none
  | .reject f =>
    match s.flights[f]? with
    | some ⟨_, _, _, .pending⟩ => some (s.setPhase f (.finished none))
    | _ => none
  | .flightGet f now =>
    match s.flights[f]? with
    | some ⟨req, _, _, .pending⟩ =>
      match s.cache.getRead req.cacheKey now with
      | .missing => some (s.setPhase f .running)
      | .valid run => some (s.setPhase f (.finished (some run)))
      | .expired => some (s.setPhase f .rechecking)
    | _ => none
  | .flightGetLocked f now =>
    match s.flights[f]? with
    | some ⟨req, _, _, .rechecking⟩ =>
      let (cache, found) := s.cache.getLocked req.cacheKey now
      let phase := match found with
        | some run => .finished (some run)
        | none => .running
      some { s.setPhase f phase with cache := cache }
    | _ => none
  | .runFailed f =>
    match s.flights[f]? with
    | some ⟨_, _, _, .running⟩ => some (s.setPhase f (.finished none))
    | _ => none
  | .runDone f ttl choices =>
    match s.flights[f]? with
    | some ⟨req, epoch, _, .running⟩ =>
      let cache := (s.cache.setWithTTLAtEpoch req.cacheKey f ttl epoch choices).1
      some { s.setPhase f (.finished (some f)) with cache := cache }
    | _ => none
  | .deliver f =>
    match s.flights[f]? with
    | some ⟨req, epoch, _, .finished outcome⟩ =>
      let key := s.keyOf req epoch
      some { s.setPhase f (.delivered outcome) with
        inflight := if s.inflight key = some f then Function.update s.inflight key none
          else s.inflight }
    | _ => none
  | .invalidateCache digest nameSpace order =>
    if s.cache.Enumerates digest order then
      some { s with
        cache := (s.cache.deleteAll digest nameSpace order).1
        invalidations := ⟨digest, nameSpace, s.steps⟩ :: s.invalidations
        steps := s.steps + 1 }
    else none
  | .backgroundEvict now =>
    some { s with cache := s.cache.backgroundEvict now, steps := s.steps + 1 }
  | .reload => some { s with steps := s.steps + 1 }

/-- The steps as transition rules, one for each way a step can go. -/
inductive Transition (s : FlightState) : FlightOp → FlightState → Prop where
  | verify {v : Nat} {req : FlightRequest} : s.callers v = .idle →
      Transition s (.verify v req) (s.move v (.started req s.steps))
  | skip {v startedAt : Nat} {req : FlightRequest} : s.callers v = .started req startedAt →
      Transition s (.skip v) (s.move v (.returned req startedAt none))
  | getMissing {v startedAt : Nat} {now : Int} {req : FlightRequest} :
      s.callers v = .started req startedAt → s.cache.getRead req.cacheKey now = .missing →
      Transition s (.get v now) (s.move v (.missed req startedAt))
  | getValid {v startedAt run : Nat} {now : Int} {req : FlightRequest} :
      s.callers v = .started req startedAt → s.cache.getRead req.cacheKey now = .valid run →
      Transition s (.get v now) (s.move v (.returned req startedAt (some run)))
  | getExpired {v startedAt : Nat} {now : Int} {req : FlightRequest} :
      s.callers v = .started req startedAt → s.cache.getRead req.cacheKey now = .expired →
      Transition s (.get v now) (s.move v (.rechecking req startedAt))
  | getLockedMiss {v startedAt : Nat} {now : Int} {req : FlightRequest} :
      s.callers v = .rechecking req startedAt → (s.cache.getLocked req.cacheKey now).2 = none →
      Transition s (.getLocked v now) { s.move v (.missed req startedAt) with
        cache := (s.cache.getLocked req.cacheKey now).1 }
  | getLockedHit {v startedAt run : Nat} {now : Int} {req : FlightRequest} :
      s.callers v = .rechecking req startedAt →
      (s.cache.getLocked req.cacheKey now).2 = some run →
      Transition s (.getLocked v now) { s.move v (.returned req startedAt (some run)) with
        cache := (s.cache.getLocked req.cacheKey now).1 }
  | readEpoch {v startedAt : Nat} {req : FlightRequest} : s.callers v = .missed req startedAt →
      Transition s (.readEpoch v)
        (s.move v (.epochRead req startedAt (s.cache.epoch req.digest)))
  | notJoinable {v startedAt epoch : Nat} {req : FlightRequest} :
      s.callers v = .epochRead req startedAt epoch →
      Transition s (.notJoinable v) (s.move v (.returned req startedAt none))
  | join {v startedAt epoch n : Nat} {req : FlightRequest} :
      s.callers v = .epochRead req startedAt epoch → s.inflight (s.keyOf req epoch) = some n →
      Transition s (.doChan v) (s.move v (.waiting req startedAt n))
  | newFlight {v startedAt epoch : Nat} {req : FlightRequest} :
      s.callers v = .epochRead req startedAt epoch → s.inflight (s.keyOf req epoch) = none →
      Transition s (.doChan v) { s.move v (.waiting req startedAt s.flights.length) with
        flights := s.flights ++ [⟨req, epoch, s.steps, .pending⟩]
        inflight := Function.update s.inflight (s.keyOf req epoch) (some s.flights.length) }
  | interrupted {v startedAt n : Nat} {req : FlightRequest} :
      s.callers v = .waiting req startedAt n →
      Transition s (.interrupted v) (s.move v (.returned req startedAt none))
  | receive {v startedAt n : Nat} {req : FlightRequest} {f : Flight} {outcome : Outcome} :
      s.callers v = .waiting req startedAt n → s.flights[n]? = some f →
      f.phase = .delivered outcome →
      Transition s (.receive v) (s.move v (.returned req startedAt outcome))
  | reject {n : Nat} {f : Flight} : s.flights[n]? = some f → f.phase = .pending →
      Transition s (.reject n) (s.setPhase n (.finished none))
  | flightMissing {n : Nat} {now : Int} {f : Flight} : s.flights[n]? = some f →
      f.phase = .pending → s.cache.getRead f.req.cacheKey now = .missing →
      Transition s (.flightGet n now) (s.setPhase n .running)
  | flightValid {n run : Nat} {now : Int} {f : Flight} : s.flights[n]? = some f →
      f.phase = .pending → s.cache.getRead f.req.cacheKey now = .valid run →
      Transition s (.flightGet n now) (s.setPhase n (.finished (some run)))
  | flightExpired {n : Nat} {now : Int} {f : Flight} : s.flights[n]? = some f →
      f.phase = .pending → s.cache.getRead f.req.cacheKey now = .expired →
      Transition s (.flightGet n now) (s.setPhase n .rechecking)
  | flightLockedMiss {n : Nat} {now : Int} {f : Flight} : s.flights[n]? = some f →
      f.phase = .rechecking → (s.cache.getLocked f.req.cacheKey now).2 = none →
      Transition s (.flightGetLocked n now) { s.setPhase n .running with
        cache := (s.cache.getLocked f.req.cacheKey now).1 }
  | flightLockedHit {n run : Nat} {now : Int} {f : Flight} : s.flights[n]? = some f →
      f.phase = .rechecking → (s.cache.getLocked f.req.cacheKey now).2 = some run →
      Transition s (.flightGetLocked n now) { s.setPhase n (.finished (some run)) with
        cache := (s.cache.getLocked f.req.cacheKey now).1 }
  | runFailed {n : Nat} {f : Flight} : s.flights[n]? = some f → f.phase = .running →
      Transition s (.runFailed n) (s.setPhase n (.finished none))
  | runDone {n : Nat} {ttl : Int} {choices : SetChoices} {f : Flight} :
      s.flights[n]? = some f → f.phase = .running →
      Transition s (.runDone n ttl choices) { s.setPhase n (.finished (some n)) with
        cache := (s.cache.setWithTTLAtEpoch f.req.cacheKey n ttl f.epoch choices).1 }
  | deliver {n : Nat} {f : Flight} {outcome : Outcome} : s.flights[n]? = some f →
      f.phase = .finished outcome →
      Transition s (.deliver n) { s.setPhase n (.delivered outcome) with
        inflight := if s.inflight (s.keyOf f.req f.epoch) = some n
          then Function.update s.inflight (s.keyOf f.req f.epoch) none else s.inflight }
  | invalidateCache {digest nameSpace : GoString} {order : List Key} :
      s.cache.Enumerates digest order →
      Transition s (.invalidateCache digest nameSpace order) { s with
        cache := (s.cache.deleteAll digest nameSpace order).1
        invalidations := ⟨digest, nameSpace, s.steps⟩ :: s.invalidations
        steps := s.steps + 1 }
  | backgroundEvict {now : Int} : Transition s (.backgroundEvict now)
      { s with cache := s.cache.backgroundEvict now, steps := s.steps + 1 }
  | reload : Transition s .reload { s with steps := s.steps + 1 }

theorem Transition.of_step {s t : FlightState} {op : FlightOp} (h : s.step op = some t) :
    Transition s op t := by
  cases op with
  | flightGetLocked n now =>
    simp only [step] at h
    split at h
    · next req epoch created hf =>
      cases hfound : (s.cache.getLocked req.cacheKey now).2 <;> simp only [hfound] at h <;>
        cases h
      · exact .flightLockedMiss hf rfl hfound
      · exact .flightLockedHit hf rfl hfound
    · cases h
  | runDone n ttl choices =>
    simp only [step] at h
    split at h
    · next hf =>
      cases h
      exact .runDone hf rfl
    · cases h
  | _ => grind [step, doChan, Transition]

end FlightState

def flightMachine : Machine FlightState FlightOp where
  initial s := ∃ maxSize generation,
    s = ⟨Cache.new maxSize, generation, fun _ => none, [], fun _ => .idle, [], 0⟩
  step := FlightState.step

end NriSupplyChain.Verifier
