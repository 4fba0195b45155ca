import Mathlib.Tactic

/-!
The circuit breaker of `internal/circuit`. Times and durations are integers
(nanoseconds), the probe counter and the failure count are unbounded. The two
critical sections of `Acquire` are separate functions, because another caller
can change the breaker between the read lock and the write lock.
-/

namespace NriSupplyChain.Circuit

inductive CircuitState where
  | circuitClosed
  | circuitOpen
  | circuitHalfOpen
deriving DecidableEq, Repr

/-- How `Acquire` admitted a request. Zero never identifies a probe. -/
structure Permit where
  probe : Nat
deriving DecidableEq, Repr

structure Breaker where
  state : CircuitState
  consecutiveFailures : Nat
  lastFailureTime : Int
  threshold : Int
  cooldown : Int
  probe : Nat
deriving DecidableEq, Repr

def newBreaker (threshold cooldown : Int) : Breaker where
  state := .circuitClosed
  consecutiveFailures := 0
  lastFailureTime := 0
  threshold := threshold
  cooldown := cooldown
  probe := 0

namespace Breaker

/-- The read-locked fast path of `Acquire`: a permit when the breaker is
closed, `none` when the caller has to take the write lock. -/
def acquireRead (cb : Breaker) : Option Permit :=
  if cb.state = .circuitClosed then some ⟨0⟩ else none

/-- The write-locked part of `Acquire`. The Boolean is the admission. -/
def acquireLocked (cb : Breaker) (now : Int) : Breaker × Permit × Bool :=
  match cb.state with
  | .circuitClosed => (cb, ⟨0⟩, true)
  | .circuitOpen =>
    if now - cb.lastFailureTime ≥ cb.cooldown then
      ({ cb with state := .circuitHalfOpen, probe := cb.probe + 1 },
        ⟨cb.probe + 1⟩, true)
    else (cb, ⟨0⟩, false)
  | .circuitHalfOpen => (cb, ⟨0⟩, false)

/-- `Acquire` of a caller that nobody interrupts. -/
def acquire (cb : Breaker) (now : Int) : Breaker × Permit × Bool :=
  match cb.acquireRead with
  | some permit => (cb, permit, true)
  | none => cb.acquireLocked now

/-- `Allow` drops the permit. -/
def allow (cb : Breaker) (now : Int) : Breaker × Bool :=
  ((cb.acquire now).1, (cb.acquire now).2.2)

/-- Whether an outcome reported with `permit` may change the state. -/
def decidesLocked (cb : Breaker) (permit : Permit) : Bool :=
  cb.state ≠ .circuitHalfOpen || (permit.probe ≠ 0 && permit.probe = cb.probe)

def recordSuccessLocked (cb : Breaker) : Breaker :=
  { cb with consecutiveFailures := 0, state := .circuitClosed }

/-- The Boolean reports the initial trip, from closed to open. -/
def recordFailureLocked (cb : Breaker) (now : Int) : Breaker × Bool :=
  let counted := { cb with
    consecutiveFailures := cb.consecutiveFailures + 1, lastFailureTime := now }
  if (counted.consecutiveFailures : Int) ≥ cb.threshold then
    ({ counted with state := .circuitOpen }, cb.state = .circuitClosed)
  else (counted, false)

def recordSuccess (cb : Breaker) : Breaker := cb.recordSuccessLocked

def recordFailure (cb : Breaker) (now : Int) : Breaker × Bool :=
  cb.recordFailureLocked now

def succeeded (cb : Breaker) (permit : Permit) : Breaker :=
  if cb.decidesLocked permit then cb.recordSuccessLocked else cb

def failed (cb : Breaker) (permit : Permit) (now : Int) : Breaker × Bool :=
  if cb.decidesLocked permit then cb.recordFailureLocked now else (cb, false)

def release (cb : Breaker) (permit : Permit) : Breaker :=
  if cb.state = .circuitHalfOpen ∧ permit.probe ≠ 0 ∧ permit.probe = cb.probe then
    { cb with state := .circuitOpen }
  else cb

/-- `permit` is the permit of the running half-open probe. -/
def HoldsProbe (cb : Breaker) (permit : Permit) : Prop :=
  permit.probe ≠ 0 ∧ permit.probe = cb.probe

instance (cb : Breaker) (permit : Permit) : Decidable (cb.HoldsProbe permit) :=
  inferInstanceAs (Decidable (_ ∧ _))

/-- Outside the closed state the failure count has reached the threshold. -/
def Tripped (cb : Breaker) : Prop :=
  cb.state ≠ .circuitClosed → cb.threshold ≤ cb.consecutiveFailures

theorem newBreaker_tripped (threshold cooldown : Int) :
    (newBreaker threshold cooldown).Tripped := by
  intro h
  exact absurd rfl h

variable {cb : Breaker} {permit : Permit}

theorem acquireRead_eq_some (h : cb.acquireRead = some permit) :
    cb.state = .circuitClosed ∧ permit = ⟨0⟩ := by
  unfold acquireRead at h
  split at h
  · next hclosed =>
    cases h
    exact ⟨hclosed, rfl⟩
  · cases h

/-- Everything the write-locked part of `Acquire` can do: start a probe with
a number that was never used, or hand out the zero permit and change
nothing. -/
theorem acquireLocked_cases (cb : Breaker) (now : Int) :
    (cb.state = .circuitOpen ∧ cb.cooldown ≤ now - cb.lastFailureTime ∧
      cb.acquireLocked now =
        ({ cb with state := .circuitHalfOpen, probe := cb.probe + 1 },
          ⟨cb.probe + 1⟩, true)) ∨
    (∃ allowed, cb.acquireLocked now = (cb, ⟨0⟩, allowed)) := by
  unfold acquireLocked
  cases hstate : cb.state with
  | circuitClosed => exact Or.inr ⟨true, rfl⟩
  | circuitHalfOpen => exact Or.inr ⟨false, rfl⟩
  | circuitOpen =>
    by_cases hcool : now - cb.lastFailureTime ≥ cb.cooldown
    · left
      exact ⟨rfl, hcool, by simp [hcool]⟩
    · right
      exact ⟨false, by simp [hcool]⟩

theorem acquireLocked_tripped (h : cb.Tripped) (now : Int) : (cb.acquireLocked now).1.Tripped := by
  rcases cb.acquireLocked_cases now with ⟨hopen, _, heq⟩ | ⟨allowed, heq⟩
  · rw [heq]
    intro _
    exact h (by simp [hopen])
  · rw [heq]
    exact h

theorem decidesLocked_halfOpen (permit : Permit) (h : cb.state = .circuitHalfOpen) :
    cb.decidesLocked permit = true ↔ cb.HoldsProbe permit := by
  simp [decidesLocked, HoldsProbe, h]

@[simp] theorem recordSuccessLocked_state (cb : Breaker) :
    cb.recordSuccessLocked.state = .circuitClosed := rfl

@[simp] theorem recordSuccessLocked_probe (cb : Breaker) :
    cb.recordSuccessLocked.probe = cb.probe := rfl

@[simp] theorem recordFailureLocked_probe (cb : Breaker) (now : Int) :
    (cb.recordFailureLocked now).1.probe = cb.probe := by
  unfold recordFailureLocked
  dsimp only
  split <;> rfl

theorem recordSuccessLocked_tripped (cb : Breaker) :
    cb.recordSuccessLocked.Tripped := by
  intro h
  exact absurd rfl h

/-- A recorded failure leaves a breaker that was not closed open: its count
was at the threshold already. -/
theorem recordFailureLocked_opens (h : cb.Tripped) (now : Int)
    (hstate : cb.state ≠ .circuitClosed) : (cb.recordFailureLocked now).1.state = .circuitOpen := by
  have hcount := h hstate
  unfold recordFailureLocked
  dsimp only
  rw [if_pos (by push_cast; omega)]

/-- A recorded failure never leaves the breaker half-open. -/
theorem recordFailureLocked_not_halfOpen (h : cb.Tripped) (now : Int) :
    (cb.recordFailureLocked now).1.state ≠ .circuitHalfOpen := by
  by_cases hstate : cb.state = .circuitClosed
  · unfold recordFailureLocked
    dsimp only
    split
    · simp
    · simp [hstate]
  · rw [recordFailureLocked_opens h now hstate]
    simp

theorem recordFailureLocked_tripped (h : cb.Tripped) (now : Int) :
    (cb.recordFailureLocked now).1.Tripped := by
  unfold recordFailureLocked
  dsimp only
  split
  · next hcount => exact fun _ => hcount
  · intro hstate
    have hold := h hstate
    push_cast
    omega

/-- Any of the three reports leaves a half-open breaker alone unless it is
made with the probe's permit. -/
theorem report_frame (hstate : cb.state = .circuitHalfOpen) (hno : ¬ cb.HoldsProbe permit)
    (now : Int) :
    cb.succeeded permit = cb ∧ (cb.failed permit now).1 = cb ∧ cb.release permit = cb := by
  have hdecides : ¬ cb.decidesLocked permit = true :=
    fun h => hno ((decidesLocked_halfOpen permit hstate).mp h)
  refine ⟨?_, ?_, ?_⟩
  · unfold succeeded
    rw [if_neg hdecides]
  · unfold failed
    rw [if_neg hdecides]
  · unfold release
    rw [if_neg (fun h => hno h.2)]

theorem succeeded_probe (cb : Breaker) (permit : Permit) :
    (cb.succeeded permit).probe = cb.probe := by
  unfold succeeded
  split <;> rfl

theorem failed_probe (cb : Breaker) (permit : Permit) (now : Int) :
    (cb.failed permit now).1.probe = cb.probe := by
  unfold failed
  split
  · exact recordFailureLocked_probe cb now
  · rfl

theorem release_probe (cb : Breaker) (permit : Permit) :
    (cb.release permit).probe = cb.probe := by
  unfold release
  split <;> rfl

theorem succeeded_tripped (h : cb.Tripped) (permit : Permit) : (cb.succeeded permit).Tripped := by
  unfold succeeded
  split
  · exact recordSuccessLocked_tripped cb
  · exact h

theorem failed_tripped (h : cb.Tripped) (permit : Permit) (now : Int) :
    (cb.failed permit now).1.Tripped := by
  unfold failed
  split
  · exact recordFailureLocked_tripped h now
  · exact h

theorem release_tripped (h : cb.Tripped) (permit : Permit) : (cb.release permit).Tripped := by
  unfold release
  split
  · next hcond =>
    intro _
    exact h (by simp [hcond.1])
  · exact h

/-- No report starts a probe: a breaker that is half-open afterwards was
half-open before. -/
theorem report_not_halfOpen (h : cb.Tripped) (permit : Permit) (now : Int)
    (hstate : cb.state ≠ .circuitHalfOpen) :
    (cb.succeeded permit).state ≠ .circuitHalfOpen ∧
      (cb.failed permit now).1.state ≠ .circuitHalfOpen ∧
      (cb.release permit).state ≠ .circuitHalfOpen := by
  refine ⟨?_, ?_, ?_⟩
  · unfold succeeded
    split
    · simp
    · exact hstate
  · unfold failed
    split
    · exact recordFailureLocked_not_halfOpen h now
    · exact hstate
  · unfold release
    rw [if_neg (fun hcond => hstate hcond.1)]
    exact hstate

/-- Each of the three reports ends the half-open state when it is made with
the probe's permit. -/
theorem probe_report_ends_halfOpen (h : cb.Tripped) (hstate : cb.state = .circuitHalfOpen)
    (hprobe : cb.HoldsProbe permit) (now : Int) :
    (cb.succeeded permit).state = .circuitClosed ∧
      (cb.failed permit now).1.state = .circuitOpen ∧
      (cb.release permit).state = .circuitOpen := by
  have hdecides := (decidesLocked_halfOpen permit hstate).mpr hprobe
  refine ⟨?_, ?_, ?_⟩
  · simp [succeeded, hdecides]
  · unfold failed
    rw [if_pos hdecides]
    exact recordFailureLocked_opens h now (by simp [hstate])
  · unfold release
    rw [if_pos ⟨hstate, hprobe⟩]

/-- What a report with `permit` does to a breaker: it starts no probe, and it
ends the half-open period when the permit is the probe's. -/
structure Settles (cb next : Breaker) (permit : Permit) : Prop where
  tripped : next.Tripped
  probe : next.probe = cb.probe
  halfOpen : next.state = .circuitHalfOpen →
    cb.state = .circuitHalfOpen ∧ ¬ cb.HoldsProbe permit

theorem succeeded_settles (h : cb.Tripped) (permit : Permit) :
    Settles cb (cb.succeeded permit) permit where
  tripped := succeeded_tripped h permit
  probe := succeeded_probe cb permit
  halfOpen := by
    intro hhalf
    have hbefore : cb.state = .circuitHalfOpen := by
      by_contra hne
      exact (report_not_halfOpen h permit 0 hne).1 hhalf
    refine ⟨hbefore, ?_⟩
    intro hprobe
    have hclosed := (probe_report_ends_halfOpen h hbefore hprobe 0).1
    rw [hhalf] at hclosed
    cases hclosed

theorem failed_settles (h : cb.Tripped) (permit : Permit) (now : Int) :
    Settles cb (cb.failed permit now).1 permit where
  tripped := failed_tripped h permit now
  probe := failed_probe cb permit now
  halfOpen := by
    intro hhalf
    have hbefore : cb.state = .circuitHalfOpen := by
      by_contra hne
      exact (report_not_halfOpen h permit now hne).2.1 hhalf
    refine ⟨hbefore, ?_⟩
    intro hprobe
    have hopen := (probe_report_ends_halfOpen h hbefore hprobe now).2.1
    rw [hhalf] at hopen
    cases hopen

theorem release_settles (h : cb.Tripped) (permit : Permit) :
    Settles cb (cb.release permit) permit where
  tripped := release_tripped h permit
  probe := release_probe cb permit
  halfOpen := by
    intro hhalf
    have hbefore : cb.state = .circuitHalfOpen := by
      by_contra hne
      exact (report_not_halfOpen h permit 0 hne).2.2 hhalf
    refine ⟨hbefore, ?_⟩
    intro hprobe
    have hopen := (probe_report_ends_halfOpen h hbefore hprobe 0).2.2
    rw [hhalf] at hopen
    cases hopen

end Breaker

end NriSupplyChain.Circuit
