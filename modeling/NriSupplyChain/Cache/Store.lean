import Mathlib.Data.List.AList
import NriSupplyChain.Cache.ExpiryHeap

/-!
The result cache of `internal/cache`. Every function is one critical section
of the cache mutex, with the clock readings and random numbers it takes as
arguments; `Get` has two sections. Maps are association lists without
duplicate keys. The order in which `DeleteAll` ranges over a digest's key set
is an argument as well.
-/

namespace NriSupplyChain

structure Cache.Entry (ρ : Type) where
  result : ρ
  expiresAt : Int
deriving DecidableEq, Repr

structure Cache (ρ : Type) where
  entries : AList (fun _ : Cache.Key => Cache.Entry ρ)
  maxSize : Nat
  gauge : Nat
  heap : Cache.ExpiryHeap
  heapIndex : AList (fun _ : Cache.Key => Nat)
  digestIndex : AList (fun _ : Cache.GoString => Finset Cache.Key)
  epochs : Nat → Nat
  stopped : Bool

namespace Cache

variable {ρ : Type}

def defaultMaxSize : Nat := 10000

def invalidationShards : Nat := 256

/-- The 32-bit FNV-1a hash. -/
def fnv32a (bytes : GoString) : UInt32 :=
  bytes.foldl (fun hash b => (hash ^^^ b.toUInt32) * 16777619) 2166136261

def shardOf (digest : GoString) : Nat := (fnv32a digest).toNat % invalidationShards

/-- `strings.CutPrefix`. -/
def cutPrefix (s pre : GoString) : Option GoString :=
  if pre.isPrefixOf s then some (s.drop pre.length) else none

def namespaceKeyMatches (keyNamespace nameSpace : GoString) : Bool :=
  match cutPrefix keyNamespace nameSpace with
  | some rest => rest = [] || rest.head? = some 0
  | none => false

/-- `rand.Int64N` returns some number below its argument. -/
def jitter (ttl : Int) (random : Nat) : Int :=
  let maxJitter := ttl.tdiv 10
  if maxJitter ≤ 0 then 0 else (random : Int) % maxJitter

def new (maxSize : Int) : Cache ρ where
  entries := ∅
  maxSize := if maxSize ≤ 0 then defaultMaxSize else maxSize.toNat
  gauge := 0
  heap := ⟨fun _ => ⟨⟨[], []⟩, 0, 0⟩, [], 0⟩
  heapIndex := ∅
  digestIndex := ∅
  epochs := fun _ => 0
  stopped := false

/-- `len(c.entries)`. -/
def size (c : Cache ρ) : Nat := c.entries.keys.length

def updateGaugeLocked (c : Cache ρ) : Cache ρ :=
  if c.stopped then c else { c with gauge := c.size }

/-- Drop a key from its digest's set, and the set once it is empty. -/
def unindex (index : AList (fun _ : GoString => Finset Key)) (k : Key) :
    AList (fun _ : GoString => Finset Key) :=
  match index.lookup k.digest with
  | some keys =>
    if keys.erase k = ∅ then index.erase k.digest
    else index.insert k.digest (keys.erase k)
  | none => index

/-- The heap part of `removeLocked`: an entry that was popped already has no
position any more. -/
def unheap (heap : ExpiryHeap) (p : Nat) : ExpiryHeap :=
  if 0 ≤ (heap.cells p).index then
    match heap.heapRemove (heap.cells p).index.toNat with
    | some (_, next) => next
    | none => heap
  else heap

def removeLocked (c : Cache ρ) (k : Key) : Cache ρ :=
  { c with
    entries := c.entries.erase k
    heap := match c.heapIndex.lookup k with
      | some p => unheap c.heap p
      | none => c.heap
    heapIndex := c.heapIndex.erase k
    digestIndex := unindex c.digestIndex k }

def evictSoonestExpiringLocked (c : Cache ρ) : Cache ρ :=
  match c.heap.heapPop with
  | some (popped, heap) => removeLocked { c with heap := heap } (heap.cells popped).cacheKey
  | none => c

/-- The loop of `evictExpiredLocked`; every round pops one entry. -/
def evictExpiredLoop (now : Int) : Nat → Cache ρ → Cache ρ
  | 0, c => c
  | rounds + 1, c =>
    if 0 < c.heap.len ∧ c.heap.expiresAt 0 < now then
      evictExpiredLoop now rounds c.evictSoonestExpiringLocked
    else c

def evictExpiredLocked (c : Cache ρ) (now : Int) : Cache ρ :=
  evictExpiredLoop now c.heap.len c

def indexLocked (c : Cache ρ) (k : Key) : Cache ρ :=
  { c with digestIndex :=
      c.digestIndex.insert k.digest (insert k ((c.digestIndex.lookup k.digest).getD ∅)) }

/-- Make room for a new key. -/
def makeRoom (c : Cache ρ) (k : Key) (now : Int) : Cache ρ :=
  if k ∉ c.entries ∧ c.maxSize ≤ c.size then
    let evicted := c.evictExpiredLocked now
    if evicted.maxSize ≤ evicted.size then evicted.evictSoonestExpiringLocked else evicted
  else c

/-- Write a key into all four structures. -/
def store (c : Cache ρ) (k : Key) (result : ρ) (expiresAt : Int) : Cache ρ :=
  let indexed := c.indexLocked k
  match c.heapIndex.lookup k with
  | some p =>
    { indexed with
      entries := c.entries.insert k ⟨result, expiresAt⟩
      heap := c.heap.heapFix p expiresAt }
  | none =>
    { indexed with
      entries := c.entries.insert k ⟨result, expiresAt⟩
      heap := c.heap.heapPush k expiresAt
      heapIndex := c.heapIndex.insert k c.heap.next }

/-- The clock readings and the random number of one `setLocked`. -/
structure SetChoices where
  evictNow : Int
  now : Int
  random : Nat
deriving DecidableEq, Repr

/-- `time.Now().Add(ttl + jitter(ttl))`; durations are 64-bit. -/
def expiry (ttl : Int) (choices : SetChoices) : Int :=
  choices.now + (ttl + jitter ttl choices.random).bmod (2 ^ 64)

def setLocked (c : Cache ρ) (k : Key) (result : ρ) (ttl : Int) (choices : SetChoices) :
    Cache ρ :=
  ((c.makeRoom k choices.evictNow).store k result (expiry ttl choices)).updateGaugeLocked

/-- The Boolean reports whether the result was stored. -/
def setWithTTLAtEpoch (c : Cache ρ) (k : Key) (result : ρ) (ttl : Int) (epoch : Nat)
    (choices : SetChoices) : Cache ρ × Bool :=
  if ttl ≤ 0 then (c, false)
  else if c.epochs (shardOf k.digest) ≠ epoch then (c, false)
  else (c.setLocked k result ttl choices, true)

def epoch (c : Cache ρ) (digest : GoString) : Nat := c.epochs (shardOf digest)

/-- What the read-locked section of `Get` finds. -/
inductive Found (ρ : Type) where
  | missing
  | valid (result : ρ)
  | expired
deriving DecidableEq, Repr

def getRead (c : Cache ρ) (k : Key) (now : Int) : Found ρ :=
  match c.entries.lookup k with
  | none => .missing
  | some e => if e.expiresAt < now then .expired else .valid e.result

/-- The write-locked section of `Get`, which looks again. -/
def getLocked (c : Cache ρ) (k : Key) (now : Int) : Cache ρ × Option ρ :=
  match c.entries.lookup k with
  | none => (c, none)
  | some e =>
    if e.expiresAt < now then ((c.removeLocked k).updateGaugeLocked, none)
    else (c, some e.result)

/-- The keys of a digest, as `DeleteAll` ranges over them. -/
def digestKeys (c : Cache ρ) (digest : GoString) : Finset Key :=
  (c.digestIndex.lookup digest).getD ∅

/-- One round of the loop of `DeleteAll`. -/
def deleteMatching (nameSpace : GoString) (acc : Cache ρ × Nat) (k : Key) : Cache ρ × Nat :=
  if namespaceKeyMatches k.nameSpace nameSpace then (acc.1.removeLocked k, acc.2 + 1) else acc

def deleteAll (c : Cache ρ) (digest nameSpace : GoString) (order : List Key) : Cache ρ × Nat :=
  let bumped := { c with
    epochs := Function.update c.epochs (shardOf digest) (c.epochs (shardOf digest) + 1) }
  let (deleted, removed) := order.foldl (deleteMatching nameSpace) (bumped, 0)
  if 0 < removed then (deleted.updateGaugeLocked, removed) else (deleted, removed)

def backgroundEvict (c : Cache ρ) (now : Int) : Cache ρ :=
  (c.evictExpiredLocked now).updateGaugeLocked

def stop (c : Cache ρ) : Cache ρ := { c with stopped := true }

end Cache

end NriSupplyChain
