import NriSupplyChain.Circuit.Breaker
import NriSupplyChain.Lib.Machine

/-!
The path of a breaker permit through concurrent `runChecks` calls against one
registry host. `Registry.Get` may hand out different breaker objects for the
host over time, because an entry can be evicted and a reload can replace the
registry, so a call is bound to the object it got. An object nobody has used
is a fresh one.

A call that `Acquire` refuses, or that gets no fetch slot, returns without
fetching. Every other call has deferred `Release` before it starts to fetch,
so the release runs on each way out, a panic included.
-/

namespace NriSupplyChain.Verifier

open Circuit Lib

inductive CallPhase where
  | idle
  | looking (breaker : Nat)
  /-- Between the read lock and the write lock of `Acquire`. -/
  | waiting (breaker : Nat)
  /-- Admitted by the breaker, fetch slots not acquired yet. -/
  | admitted (breaker : Nat) (permit : Permit)
  | fetching (breaker : Nat) (permit : Permit)
  /-- The fetch outcome is recorded; the checks run and the result returns. -/
  | checking (breaker : Nat) (permit : Permit)
  | ended (held : Option (Nat × Permit))
deriving DecidableEq, Repr

namespace CallPhase

/-- The breaker object and the permit the call was admitted with. -/
def held : CallPhase → Option (Nat × Permit)
  | .idle | .looking _ | .waiting _ => none
  | .admitted breaker permit | .fetching breaker permit | .checking breaker permit =>
    some (breaker, permit)
  | .ended held => held

/-- The permit of a call that has not reported an outcome yet. -/
def unsettled : CallPhase → Option (Nat × Permit)
  | .admitted breaker permit | .fetching breaker permit => some (breaker, permit)
  | _ => none

def inFlight : CallPhase → Bool
  | .idle | .ended _ => false
  | _ => true

theorem held_of_unsettled {phase : CallPhase} {x : Nat × Permit}
    (h : phase.unsettled = some x) : phase.held = some x ∧ phase.inFlight = true := by
  cases phase <;> cases h <;> exact ⟨rfl, rfl⟩

end CallPhase

structure RegistryAccess where
  breakers : Nat → Breaker
  calls : Nat → CallPhase

inductive AccessOp where
  /-- `registryBreakerByHost` hands out a breaker object. -/
  | start (c : Nat) (breaker : Nat)
  | acquireRead (c : Nat)
  | acquireLocked (c : Nat) (now : Int)
  | slotsRefused (c : Nat)
  | slotsGranted (c : Nat)
  /-- The fetch returned, and `recordBreakerOutcome` ran. -/
  | fetched (c : Nat) (transportErr : Bool) (now : Int)
  | panicked (c : Nat)
  | returned (c : Nat)
deriving DecidableEq, Repr

namespace RegistryAccess

def move (s : RegistryAccess) (c : Nat) (phase : CallPhase) : RegistryAccess :=
  { s with calls := Function.update s.calls c phase }

def setBreaker (s : RegistryAccess) (o : Nat) (cb : Breaker) : RegistryAccess :=
  { s with breakers := Function.update s.breakers o cb }

/-- The deferred `Release` of a call, and its return. -/
def releaseAndEnd (s : RegistryAccess) (c o : Nat) (permit : Permit) : RegistryAccess :=
  (s.setBreaker o ((s.breakers o).release permit)).move c (.ended (some (o, permit)))

/-- `recordBreakerOutcome`. -/
def recordBreakerOutcome (cb : Breaker) (permit : Permit) (transportErr : Bool)
    (now : Int) : Breaker :=
  if transportErr then (cb.failed permit now).1 else cb.succeeded permit

def step (s : RegistryAccess) : AccessOp → Option RegistryAccess
  | .start c o =>
    match s.calls c with
    | .idle => some (s.move c (.looking o))
    | _ => none
  | .acquireRead c =>
    match s.calls c with
    | .looking o =>
      match (s.breakers o).acquireRead with
      | some permit => some (s.move c (.admitted o permit))
      | none => some (s.move c (.waiting o))
    | _ => none
  | .acquireLocked c now =>
    match s.calls c with
    | .waiting o =>
      let (cb, permit, allowed) := (s.breakers o).acquireLocked now
      let phase := if allowed then .admitted o permit else .ended none
      some ((s.setBreaker o cb).move c phase)
    | _ => none
  | .slotsRefused c =>
    match s.calls c with
    | .admitted o permit => some (s.releaseAndEnd c o permit)
    | _ => none
  | .slotsGranted c =>
    match s.calls c with
    | .admitted o permit => some (s.move c (.fetching o permit))
    | _ => none
  | .fetched c transportErr now =>
    match s.calls c with
    | .fetching o permit =>
      let cb := recordBreakerOutcome (s.breakers o) permit transportErr now
      some ((s.setBreaker o cb).move c (.checking o permit))
    | _ => none
  | .panicked c =>
    match s.calls c with
    | .fetching o permit | .checking o permit => some (s.releaseAndEnd c o permit)
    | _ => none
  | .returned c =>
    match s.calls c with
    | .checking o permit => some (s.releaseAndEnd c o permit)
    | _ => none

/-- Call `c` is in flight and holds the current probe permit of breaker `o`. -/
def ProbesFor (s : RegistryAccess) (o c : Nat) : Prop :=
  (s.calls c).inFlight = true ∧
    ∃ permit, (s.calls c).held = some (o, permit) ∧ (s.breakers o).HoldsProbe permit

end RegistryAccess

def registryAccess : Machine RegistryAccess AccessOp where
  initial s := (∀ o, ∃ threshold cooldown, s.breakers o = newBreaker threshold cooldown) ∧
    ∀ c, s.calls c = .idle
  step := RegistryAccess.step

/-- Probe numbers identify calls, and a half-open breaker is being probed by a
call that has not reported yet. -/
structure AccessInvariant (s : RegistryAccess) : Prop where
  tripped : ∀ o, (s.breakers o).Tripped
  probe_le : ∀ c o permit, (s.calls c).held = some (o, permit) →
    permit.probe ≤ (s.breakers o).probe
  probe_unique : ∀ c d o p q, (s.calls c).held = some (o, p) →
    (s.calls d).held = some (o, q) → p.probe ≠ 0 → p.probe = q.probe → c = d
  running : ∀ o, (s.breakers o).state = .circuitHalfOpen →
    ∃ c permit, (s.calls c).unsettled = some (o, permit) ∧
      (s.breakers o).HoldsProbe permit

variable {c : Nat} {phase : CallPhase} {s : RegistryAccess}

@[grind =] theorem move_calls (s : RegistryAccess) (c d : Nat) (phase : CallPhase) :
    (s.move c phase).calls d = if d = c then phase else s.calls d :=
  Function.update_apply s.calls c phase d

@[grind =] theorem move_breakers (s : RegistryAccess) (c o : Nat) (phase : CallPhase) :
    (s.move c phase).breakers o = s.breakers o := rfl

@[grind =] theorem setBreaker_breakers (s : RegistryAccess) (o o' : Nat) (cb : Breaker) :
    (s.setBreaker o cb).breakers o' = if o' = o then cb else s.breakers o' :=
  Function.update_apply s.breakers o cb o'

@[grind =] theorem setBreaker_calls (s : RegistryAccess) (o c : Nat) (cb : Breaker) :
    (s.setBreaker o cb).calls c = s.calls c := rfl

/-- Moving a call keeps the invariant if the call takes no new probe permit and
does not lose the one it probes with. -/
theorem AccessInvariant.move (h : AccessInvariant s)
    (hheld : ∀ o permit, phase.held = some (o, permit) →
      (s.calls c).held = some (o, permit) ∨ permit.probe = 0)
    (hkeeps : ∀ o permit, (s.calls c).unsettled = some (o, permit) →
      (s.breakers o).state = .circuitHalfOpen → (s.breakers o).HoldsProbe permit →
        phase.unsettled = some (o, permit)) : AccessInvariant (s.move c phase) := by
  refine ⟨h.tripped, by grind [AccessInvariant], by grind [AccessInvariant], ?_⟩
  intro o hhalf
  obtain ⟨d, permit, hd, hprobe⟩ := h.running o hhalf
  refine ⟨d, permit, ?_, hprobe⟩
  grind

variable {o : Nat}

/-- A call that reports with its permit, and afterwards counts as settled,
keeps the invariant: if its permit was the probe's, the breaker is not
half-open any more. -/
theorem AccessInvariant.settle (h : AccessInvariant s) {permit : Permit} {cb : Breaker}
    (hc : (s.calls c).held = some (o, permit)) (hcb : Breaker.Settles (s.breakers o) cb permit)
    (hphase : phase.held = some (o, permit)) :
    AccessInvariant ((s.setBreaker o cb).move c phase) := by
  have hset : AccessInvariant (s.setBreaker o cb) := by
    refine ⟨?_, ?_, h.probe_unique, ?_⟩
    · grind [AccessInvariant, Breaker.Settles]
    · grind [AccessInvariant, Breaker.Settles]
    · intro o' hhalf
      have hbefore : (s.breakers o').state = .circuitHalfOpen := by grind [Breaker.Settles]
      obtain ⟨d, p, hd, hp⟩ := h.running o' hbefore
      refine ⟨d, p, hd, ?_⟩
      grind [Breaker.Settles, Breaker.HoldsProbe]
  apply hset.move
  · intro o' p hp
    left
    rw [← hp, hphase]
    exact hc
  · intro o' p hun hhalf hp
    have hsame := (CallPhase.held_of_unsettled hun).1
    grind [Breaker.Settles, Breaker.HoldsProbe]

/-- Starting a probe gives the call a number above all numbers held so far. -/
theorem AccessInvariant.start_probe (h : AccessInvariant s) (hc : s.calls c = .waiting o)
    (hopen : (s.breakers o).state = .circuitOpen) :
    AccessInvariant ((s.setBreaker o { s.breakers o with
        state := .circuitHalfOpen, probe := (s.breakers o).probe + 1 }).move c
      (.admitted o ⟨(s.breakers o).probe + 1⟩)) := by
  refine ⟨?_, ?_, ?_, ?_⟩
  · grind [AccessInvariant, Breaker.Tripped]
  · grind [AccessInvariant, CallPhase.held]
  · grind [AccessInvariant, CallPhase.held]
  · intro o' hhalf
    by_cases ho : o' = o
    · refine ⟨c, ⟨(s.breakers o).probe + 1⟩, ?_, ?_⟩
      · grind [CallPhase.unsettled]
      · grind [Breaker.HoldsProbe]
    · obtain ⟨d, p, hd, hp⟩ := h.running o' (by grind)
      refine ⟨d, p, ?_, ?_⟩
      · grind [CallPhase.unsettled]
      · grind

/-- A call with nothing held moves to a phase that holds at most a zero
permit. -/
theorem AccessInvariant.move_unheld (h : AccessInvariant s) (hbefore : (s.calls c).held = none)
    (hafter : ∀ o permit, phase.held = some (o, permit) → permit.probe = 0) :
    AccessInvariant (s.move c phase) := by
  apply h.move
  · intro o permit hheld
    exact Or.inr (hafter o permit hheld)
  · intro o permit hun
    have hheld := (CallPhase.held_of_unsettled hun).1
    rw [hbefore] at hheld
    cases hheld

theorem recordBreakerOutcome_settles {cb : Breaker} (h : cb.Tripped) (permit : Permit)
    (transportErr : Bool) (now : Int) :
    Breaker.Settles cb (RegistryAccess.recordBreakerOutcome cb permit transportErr now)
      permit := by
  unfold RegistryAccess.recordBreakerOutcome
  split
  · exact Breaker.failed_settles h permit now
  · exact Breaker.succeeded_settles h permit

theorem setBreaker_self (s : RegistryAccess) (o : Nat) : s.setBreaker o (s.breakers o) = s := by
  simp [RegistryAccess.setBreaker]

theorem step_accessInvariant (s : RegistryAccess) (op : AccessOp) (t : RegistryAccess)
    (h : AccessInvariant s) (hstep : s.step op = some t) : AccessInvariant t := by
  have hend {c o : Nat} {permit : Permit} (hc : (s.calls c).held = some (o, permit)) :
      AccessInvariant (s.releaseAndEnd c o permit) :=
    h.settle hc (Breaker.release_settles (h.tripped o) permit) rfl
  cases op with
  | start c o =>
    simp only [RegistryAccess.step] at hstep
    cases hphase : s.calls c <;> simp only [hphase] at hstep <;> cases hstep
    exact h.move_unheld (by rw [hphase]; rfl) (by intro _ _ hheld; cases hheld)
  | acquireRead c =>
    simp only [RegistryAccess.step] at hstep
    cases hphase : s.calls c <;> simp only [hphase] at hstep <;> try cases hstep
    rename_i o
    have hnone : (s.calls c).held = none := by rw [hphase]; rfl
    cases hread : (s.breakers o).acquireRead with
    | none =>
      simp only [hread] at hstep
      cases hstep
      exact h.move_unheld hnone (by intro _ _ hheld; cases hheld)
    | some permit =>
      simp only [hread] at hstep
      cases hstep
      obtain ⟨_, rfl⟩ := Breaker.acquireRead_eq_some hread
      exact h.move_unheld hnone (by intro _ _ hheld; cases hheld; rfl)
  | acquireLocked c now =>
    simp only [RegistryAccess.step] at hstep
    cases hphase : s.calls c <;> simp only [hphase] at hstep <;> cases hstep
    rename_i o
    rcases (s.breakers o).acquireLocked_cases now with ⟨hopen, _, heq⟩ | ⟨allowed, heq⟩
    · simp only [heq]
      exact h.start_probe hphase hopen
    · simp only [heq, setBreaker_self]
      apply h.move_unheld (by rw [hphase]; rfl)
      intro o' permit hheld
      cases allowed <;> cases hheld
      rfl
  | slotsRefused c | panicked c | returned c =>
    simp only [RegistryAccess.step] at hstep
    cases hphase : s.calls c <;> simp only [hphase] at hstep <;> cases hstep <;>
      exact hend (by rw [hphase]; rfl)
  | slotsGranted c =>
    simp only [RegistryAccess.step] at hstep
    cases hphase : s.calls c <;> simp only [hphase] at hstep <;> cases hstep
    apply h.move
    · intro o permit hheld
      left
      rw [hphase]
      exact hheld
    · intro o permit hun _ _
      rw [hphase] at hun
      exact hun
  | fetched c transportErr now =>
    simp only [RegistryAccess.step] at hstep
    cases hphase : s.calls c <;> simp only [hphase] at hstep <;> cases hstep
    exact h.settle (by rw [hphase]; rfl)
      (recordBreakerOutcome_settles (h.tripped _) _ transportErr now) rfl

theorem reachable_accessInvariant (h : registryAccess.Reachable s) : AccessInvariant s := by
  refine Machine.Reachable.invariant ?_ step_accessInvariant h
  rintro s ⟨hbreakers, hcalls⟩
  refine ⟨?_, ?_, ?_, ?_⟩
  · intro o
    obtain ⟨threshold, cooldown, heq⟩ := hbreakers o
    rw [heq]
    exact Breaker.newBreaker_tripped threshold cooldown
  · intro c o permit hheld
    rw [hcalls c] at hheld
    cases hheld
  · intro c d o p q hheld
    rw [hcalls c] at hheld
    cases hheld
  · intro o hhalf
    obtain ⟨threshold, cooldown, heq⟩ := hbreakers o
    rw [heq] at hhalf
    cases hhalf

/-- A call that was admitted ends by releasing its permit, whatever the path:
without a slot, with a panic, or by returning. -/
theorem ending_step_releases {t : RegistryAccess} {op : AccessOp} {permit : Permit}
    (hheld : (s.calls c).held = some (o, permit)) (hflight : (s.calls c).inFlight = true)
    (hended : (t.calls c).inFlight = false) (hstep : s.step op = some t) :
    t.breakers o = (s.breakers o).release permit := by
  cases op <;> grind [RegistryAccess.step, RegistryAccess.releaseAndEnd, CallPhase.held,
    CallPhase.inFlight]

/-- For every breaker object of the host, in every state any number of calls
can reach: while the breaker is half-open, exactly one call in flight holds its
current probe permit; the step that ends this call leaves the breaker not
half-open; and a call that has ended never again holds the probe of a
half-open breaker. -/
theorem halfOpen_held_by_one_call {s : RegistryAccess} (h : registryAccess.Reachable s)
    (o : Nat) :
    ((s.breakers o).state = .circuitHalfOpen → ∃! c, s.ProbesFor o c) ∧
    (∀ c op t, s.ProbesFor o c → (s.breakers o).state = .circuitHalfOpen →
      s.step op = some t → (t.calls c).inFlight = false →
        (t.breakers o).state ≠ .circuitHalfOpen) ∧
    (∀ c permit, s.calls c = .ended (some (o, permit)) →
      (s.breakers o).state = .circuitHalfOpen → ¬ (s.breakers o).HoldsProbe permit) := by
  have hinv := reachable_accessInvariant h
  refine ⟨?_, ?_, ?_⟩
  · intro hhalf
    obtain ⟨c, permit, hun, hprobe⟩ := hinv.running o hhalf
    obtain ⟨hheld, hflight⟩ := CallPhase.held_of_unsettled hun
    refine ⟨c, ⟨hflight, permit, hheld, hprobe⟩, ?_⟩
    rintro d ⟨_, other, hother, hotherProbe⟩
    exact hinv.probe_unique d c o other permit hother hheld hotherProbe.1
      (hotherProbe.2.trans hprobe.2.symm)
  · rintro c op t ⟨hflight, permit, hheld, hprobe⟩ _ hstep hended hhalf
    rw [ending_step_releases hheld hflight hended hstep] at hhalf
    exact ((Breaker.release_settles (hinv.tripped o) permit).halfOpen hhalf).2 hprobe
  · intro c permit hended hhalf hprobe
    obtain ⟨d, other, hun, hother⟩ := hinv.running o hhalf
    have hheld : (s.calls c).held = some (o, permit) := by rw [hended]; rfl
    obtain rfl := hinv.probe_unique c d o permit other hheld
      (CallPhase.held_of_unsettled hun).1 hprobe.1 (hprobe.2.trans hother.2.symm)
    rw [hended] at hun
    cases hun

def freshAccess (threshold cooldown : Int) : RegistryAccess :=
  ⟨fun _ => newBreaker threshold cooldown, fun _ => .idle⟩

/-- A failed fetch opens the breaker; the next call probes it and panics while
it fetches. -/
def probeRun : List AccessOp :=
  [.start 0 0, .acquireRead 0, .slotsGranted 0, .fetched 0 true 100, .returned 0,
    .start 1 0, .acquireRead 1, .acquireLocked 1 150, .slotsGranted 1]

/-- The probing call is the only one to hold the permit, and its panic leaves
the breaker open. -/
theorem panicking_probe_releases :
    ∃ s t, registryAccess.exec (freshAccess 1 50) probeRun = some s ∧
      (s.breakers 0).state = .circuitHalfOpen ∧ (∃! c, s.ProbesFor 0 c) ∧
      s.step (.panicked 1) = some t ∧ (t.breakers 0).state ≠ .circuitHalfOpen := by
  have hreach {s : RegistryAccess}
      (hrun : registryAccess.exec (freshAccess 1 50) probeRun = some s) :
      registryAccess.Reachable s :=
    Machine.Reachable.exec
      (Machine.ReachableVia.start ⟨fun _ => ⟨1, 50, rfl⟩, fun _ => rfl⟩) hrun
  have hclaim {s : RegistryAccess}
      (hrun : registryAccess.exec (freshAccess 1 50) probeRun = some s) :=
    halfOpen_held_by_one_call (hreach hrun) 0
  exact ⟨_, _, rfl, rfl, (hclaim rfl).1 rfl, rfl,
    (hclaim rfl).2.1 1 (.panicked 1) _ ⟨rfl, ⟨1⟩, rfl, by decide⟩ rfl rfl rfl⟩

end NriSupplyChain.Verifier
