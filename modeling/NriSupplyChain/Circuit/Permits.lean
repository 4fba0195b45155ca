import NriSupplyChain.Circuit.Breaker
import NriSupplyChain.Lib.Machine

/-!
Any number of callers share one breaker. They run the two critical sections of
`Acquire` and report outcomes with any permit that was ever handed out, in any
order, late, or more than once. The clock readings are part of the labels and
need not be monotone. The machine numbers its steps, so that "issued before
the last state change" is a comparison of step numbers; nothing in the breaker
reads these numbers.
-/

namespace NriSupplyChain.Circuit

open Lib

/-- One permit handed out by `Acquire`, with the step that handed it out. At
most one permit is issued per step, so the step number identifies it. -/
structure IssuedPermit where
  permit : Permit
  issuedAt : Nat
deriving DecidableEq, Repr

structure SharedBreaker where
  breaker : Breaker
  /-- Callers of `Acquire` between the read lock and the write lock. -/
  waiting : Nat
  issued : List IssuedPermit
  steps : Nat
  lastChange : Nat
deriving DecidableEq, Repr

inductive BreakerOp where
  | acquireRead
  | acquireLocked (now : Int)
  | succeeded (permit : IssuedPermit)
  | failed (permit : IssuedPermit) (now : Int)
  | release (permit : IssuedPermit)
deriving DecidableEq, Repr

/-- The permit an operation reports with. -/
def BreakerOp.permit? : BreakerOp → Option IssuedPermit
  | .acquireRead | .acquireLocked _ => none
  | .succeeded permit | .failed permit _ | .release permit => some permit

namespace SharedBreaker

/-- Count a step and remember whether it changed the breaker's state. -/
def advance (s : SharedBreaker) (cb : Breaker) : SharedBreaker :=
  { s with
    breaker := cb
    steps := s.steps + 1
    lastChange := if cb.state = s.breaker.state then s.lastChange else s.steps + 1 }

def issue (s : SharedBreaker) (permit : Permit) : SharedBreaker :=
  { s with issued := ⟨permit, s.steps⟩ :: s.issued }

def report (s : SharedBreaker) (permit : IssuedPermit) (cb : Breaker) :
    Option SharedBreaker :=
  if permit ∈ s.issued then some (s.advance cb) else none

def step (s : SharedBreaker) : BreakerOp → Option SharedBreaker
  | .acquireRead =>
    match s.breaker.acquireRead with
    | some permit => some ((s.advance s.breaker).issue permit)
    | none => some { s.advance s.breaker with waiting := s.waiting + 1 }
  | .acquireLocked now =>
    if s.waiting = 0 then none
    else
      let (cb, permit, _) := s.breaker.acquireLocked now
      some { (s.advance cb).issue permit with waiting := s.waiting - 1 }
  | .succeeded permit => s.report permit (s.breaker.succeeded permit.permit)
  | .failed permit now => s.report permit (s.breaker.failed permit.permit now).1
  | .release permit => s.report permit (s.breaker.release permit.permit)

def fresh (threshold cooldown : Int) : SharedBreaker where
  breaker := newBreaker threshold cooldown
  waiting := 0
  issued := []
  steps := 0
  lastChange := 0

end SharedBreaker

def sharedBreaker : Machine SharedBreaker BreakerOp where
  initial s := ∃ threshold cooldown, s = SharedBreaker.fresh threshold cooldown
  step := SharedBreaker.step

/-- What ties permits to the breaker: probe numbers never exceed the counter,
no probe number is handed out twice, and while the breaker is half-open the
permit of its probe is not older than the last state change. -/
structure PermitInvariant (s : SharedBreaker) : Prop where
  tripped : s.breaker.Tripped
  lastChange_le : s.lastChange ≤ s.steps
  probe_le : ∀ p ∈ s.issued, p.permit.probe ≤ s.breaker.probe
  probe_unique : ∀ p ∈ s.issued, ∀ q ∈ s.issued,
    p.permit.probe ≠ 0 → p.permit.probe = q.permit.probe → p = q
  probe_current : s.breaker.state = .circuitHalfOpen →
    ∀ p ∈ s.issued, s.breaker.HoldsProbe p.permit → s.lastChange ≤ p.issuedAt

theorem fresh_permitInvariant (threshold cooldown : Int) :
    PermitInvariant (SharedBreaker.fresh threshold cooldown) where
  tripped := Breaker.newBreaker_tripped threshold cooldown
  lastChange_le := Nat.le_refl 0
  probe_le := by intro p hp; cases hp
  probe_unique := by intro p hp; cases hp
  probe_current := by intro _ p hp; cases hp

variable {s : SharedBreaker}

/-- A step that neither issues a permit nor moves the probe counter keeps the
invariant, provided it does not start a half-open period. -/
theorem PermitInvariant.advance (h : PermitInvariant s) {cb : Breaker} (htripped : cb.Tripped)
    (hprobe : cb.probe = s.breaker.probe)
    (hstart : s.breaker.state ≠ .circuitHalfOpen → cb.state ≠ .circuitHalfOpen) :
    PermitInvariant (s.advance cb) where
  tripped := htripped
  lastChange_le := by
    have hle := h.lastChange_le
    simp only [SharedBreaker.advance]
    split <;> omega
  probe_le := by
    intro p hp
    simp only [SharedBreaker.advance, hprobe]
    exact h.probe_le p hp
  probe_unique := h.probe_unique
  probe_current := by
    intro hhalf p hp hholds
    have hbefore : s.breaker.state = .circuitHalfOpen := by
      by_contra hne
      exact hstart hne hhalf
    have hsame : cb.state = s.breaker.state := hhalf.trans hbefore.symm
    have hold : s.breaker.HoldsProbe p.permit := by
      simpa [Breaker.HoldsProbe, SharedBreaker.advance, hprobe] using hholds
    simpa [SharedBreaker.advance, hsame] using h.probe_current hbefore p hp hold

/-- The zero permit can be handed out at any time: it never holds a probe. -/
theorem PermitInvariant.issue_zero (h : PermitInvariant s) :
    PermitInvariant (s.issue ⟨0⟩) where
  tripped := h.tripped
  lastChange_le := h.lastChange_le
  probe_le := by
    intro p hp
    rcases List.mem_cons.mp hp with rfl | hp
    · exact Nat.zero_le _
    · exact h.probe_le p hp
  probe_unique := by
    intro p hp q hq hne heq
    rcases List.mem_cons.mp hp with rfl | hp
    · exact absurd rfl hne
    · rcases List.mem_cons.mp hq with rfl | hq
      · exact absurd heq hne
      · exact h.probe_unique p hp q hq hne heq
  probe_current := by
    intro hhalf p hp hholds
    rcases List.mem_cons.mp hp with rfl | hp
    · exact absurd rfl hholds.1
    · exact h.probe_current hhalf p hp hholds

/-- Starting a probe hands out a number above every number issued before, and
the step that does so is itself the last state change. -/
theorem PermitInvariant.start_probe (h : PermitInvariant s)
    (hopen : s.breaker.state = .circuitOpen) :
    PermitInvariant ((s.advance
      { s.breaker with state := .circuitHalfOpen, probe := s.breaker.probe + 1 }).issue
        ⟨s.breaker.probe + 1⟩) := by
  have hold : ∀ p ∈ s.issued, p.permit.probe ≠ s.breaker.probe + 1 := by
    intro p hp heq
    have hle := h.probe_le p hp
    omega
  constructor
  · intro _
    exact h.tripped (by simp [hopen])
  · simp [SharedBreaker.advance, SharedBreaker.issue, hopen]
  · intro p hp
    rcases List.mem_cons.mp hp with rfl | hp
    · exact Nat.le_refl _
    · exact Nat.le_succ_of_le (h.probe_le p hp)
  · intro p hp q hq hne heq
    rcases List.mem_cons.mp hp with rfl | hp <;> rcases List.mem_cons.mp hq with rfl | hq
    · rfl
    · exact absurd heq.symm (hold q hq)
    · exact absurd heq (hold p hp)
    · exact h.probe_unique p hp q hq hne heq
  · intro _ p hp hholds
    rcases List.mem_cons.mp hp with rfl | hp
    · simp [SharedBreaker.advance, SharedBreaker.issue, hopen]
    · exact absurd hholds.2 (hold p hp)

variable {t : SharedBreaker}

/-- Reporting an outcome, with whatever permit, keeps the invariant. -/
theorem PermitInvariant.report (h : PermitInvariant s) {permit : IssuedPermit} {cb : Breaker}
    (htripped : cb.Tripped) (hprobe : cb.probe = s.breaker.probe)
    (hstart : s.breaker.state ≠ .circuitHalfOpen → cb.state ≠ .circuitHalfOpen)
    (hstep : s.report permit cb = some t) : PermitInvariant t := by
  unfold SharedBreaker.report at hstep
  split at hstep
  · cases hstep
    exact h.advance htripped hprobe hstart
  · cases hstep

theorem step_permitInvariant (s : SharedBreaker) (op : BreakerOp) (t : SharedBreaker)
    (h : PermitInvariant s) (hstep : s.step op = some t) : PermitInvariant t := by
  cases op with
  | acquireRead =>
    have hadvance : PermitInvariant (s.advance s.breaker) :=
      h.advance h.tripped rfl id
    simp only [SharedBreaker.step] at hstep
    cases hread : s.breaker.acquireRead with
    | some permit =>
      obtain ⟨_, rfl⟩ := Breaker.acquireRead_eq_some hread
      simp only [hread] at hstep
      cases hstep
      exact hadvance.issue_zero
    | none =>
      simp only [hread] at hstep
      cases hstep
      exact { hadvance with }
  | acquireLocked now =>
    simp only [SharedBreaker.step] at hstep
    split at hstep
    · cases hstep
    · cases hstep
      rcases s.breaker.acquireLocked_cases now with ⟨hopen, _, heq⟩ | ⟨allowed, heq⟩
      · simp only [heq]
        have hprobe := h.start_probe hopen
        exact { hprobe with }
      · simp only [heq]
        have hzero := (h.advance h.tripped rfl id).issue_zero
        exact { hzero with }
  | succeeded permit =>
    exact h.report (Breaker.succeeded_tripped h.tripped _) (Breaker.succeeded_probe _ _)
      (fun hne => (Breaker.report_not_halfOpen h.tripped _ 0 hne).1) hstep
  | failed permit now =>
    exact h.report (Breaker.failed_tripped h.tripped _ now) (Breaker.failed_probe _ _ now)
      (fun hne => (Breaker.report_not_halfOpen h.tripped _ now hne).2.1) hstep
  | release permit =>
    exact h.report (Breaker.release_tripped h.tripped _) (Breaker.release_probe _ _)
      (fun hne => (Breaker.report_not_halfOpen h.tripped _ 0 hne).2.2) hstep

theorem reachable_permitInvariant (h : sharedBreaker.Reachable s) : PermitInvariant s :=
  Machine.Reachable.invariant
    (by rintro _ ⟨threshold, cooldown, rfl⟩; exact fresh_permitInvariant threshold cooldown)
    step_permitInvariant h

variable {op : BreakerOp}

/-- A step that uses a permit reports with one that was issued. -/
theorem step_of_permit {p : IssuedPermit} (hop : op.permit? = some p)
    (hstep : s.step op = some t) : p ∈ s.issued ∧ (t.breaker = s.breaker.succeeded p.permit ∨
      (∃ now, t.breaker = (s.breaker.failed p.permit now).1) ∨
        t.breaker = s.breaker.release p.permit) := by
  cases op <;> grind [SharedBreaker.step, SharedBreaker.report, SharedBreaker.advance,
    BreakerOp.permit?]

/-- A report by a permit that does not hold the probe leaves a half-open
breaker exactly as it is. -/
theorem step_frame_halfOpen {p : IssuedPermit} (hhalf : s.breaker.state = .circuitHalfOpen)
    (hop : op.permit? = some p) (hno : ¬ s.breaker.HoldsProbe p.permit)
    (hstep : s.step op = some t) : t.breaker = s.breaker := by
  rcases (step_of_permit hop hstep).2 with hreport | ⟨now, hreport⟩ | hreport
  · exact hreport.trans (Breaker.report_frame hhalf hno 0).1
  · exact hreport.trans (Breaker.report_frame hhalf hno now).2.1
  · exact hreport.trans (Breaker.report_frame hhalf hno 0).2.2

/-- An `Acquire` never moves a half-open breaker. -/
theorem acquire_frame_halfOpen (hhalf : s.breaker.state = .circuitHalfOpen)
    (hop : op.permit? = none) (hstep : s.step op = some t) : t.breaker = s.breaker := by
  cases op with
  | acquireRead =>
    simp only [SharedBreaker.step, Breaker.acquireRead, hhalf] at hstep
    cases hstep
    rfl
  | acquireLocked now =>
    simp only [SharedBreaker.step, Breaker.acquireLocked, hhalf] at hstep
    split at hstep
    · cases hstep
    · cases hstep
      rfl
  | succeeded | failed | release => cases hop

/-- In every state any callers can bring the breaker to: at most one issued
permit decides a half-open breaker; a step that ends the half-open period
reports with that permit; a permit issued before the last state change leaves
a half-open breaker untouched; and outside the closed state the failure count
is at the threshold, so a failed probe opens the breaker again. -/
theorem halfOpen_decided_by_probe_only {s : SharedBreaker}
    (h : sharedBreaker.Reachable s) :
    (s.breaker.state = .circuitHalfOpen → ∀ p ∈ s.issued, ∀ q ∈ s.issued,
      s.breaker.decidesLocked p.permit = true →
        s.breaker.decidesLocked q.permit = true → p = q) ∧
    (∀ op t, s.step op = some t → s.breaker.state = .circuitHalfOpen →
      t.breaker.state ≠ .circuitHalfOpen →
        ∃ p ∈ s.issued, op.permit? = some p ∧ s.breaker.decidesLocked p.permit = true) ∧
    (∀ op t p, s.step op = some t → s.breaker.state = .circuitHalfOpen →
      op.permit? = some p → p.issuedAt < s.lastChange → t.breaker = s.breaker) ∧
    (s.breaker.state ≠ .circuitClosed →
      s.breaker.threshold ≤ s.breaker.consecutiveFailures) ∧
    (s.breaker.state = .circuitHalfOpen → ∀ p ∈ s.issued, ∀ now,
      s.breaker.decidesLocked p.permit = true →
        (s.breaker.failed p.permit now).1.state = .circuitOpen) := by
  have hinv := reachable_permitInvariant h
  refine ⟨?_, ?_, ?_, hinv.tripped, ?_⟩
  · intro hhalf p hp q hq hpd hqd
    have hph := (Breaker.decidesLocked_halfOpen _ hhalf).mp hpd
    have hqh := (Breaker.decidesLocked_halfOpen _ hhalf).mp hqd
    exact hinv.probe_unique p hp q hq hph.1 (hph.2.trans hqh.2.symm)
  · intro op t hstep hhalf hmoved
    cases hop : op.permit? with
    | none =>
      have hsame := acquire_frame_halfOpen hhalf hop hstep
      exact absurd (by rw [hsame]; exact hhalf) hmoved
    | some p =>
      refine ⟨p, (step_of_permit hop hstep).1, rfl, ?_⟩
      by_contra hno
      have hholds : ¬ s.breaker.HoldsProbe p.permit :=
        fun hh => hno ((Breaker.decidesLocked_halfOpen _ hhalf).mpr hh)
      have hsame := step_frame_halfOpen hhalf hop hholds hstep
      exact hmoved (by rw [hsame]; exact hhalf)
  · intro op t p hstep hhalf hop hbefore
    apply step_frame_halfOpen hhalf hop _ hstep
    intro hholds
    have hcurrent := hinv.probe_current hhalf p ((step_of_permit hop hstep).1) hholds
    omega
  · intro hhalf p _ now hdecides
    have hholds := (Breaker.decidesLocked_halfOpen _ hhalf).mp hdecides
    exact (Breaker.probe_report_ends_halfOpen hinv.tripped hhalf hholds now).2.1

/-- Two requests are admitted, the first failure trips the breaker, a third
request becomes the probe, and the second request is still unreported. -/
def lateReportRun : List BreakerOp :=
  [.acquireRead, .acquireRead, .failed ⟨⟨0⟩, 1⟩ 100, .acquireRead, .acquireLocked 200]

def lateReportState : SharedBreaker where
  breaker := ⟨.circuitHalfOpen, 1, 100, 1, 50, 1⟩
  waiting := 0
  issued := [⟨⟨1⟩, 5⟩, ⟨⟨0⟩, 2⟩, ⟨⟨0⟩, 1⟩]
  steps := 5
  lastChange := 5

theorem lateReport_reachable : sharedBreaker.Reachable lateReportState :=
  Machine.Reachable.exec (Machine.ReachableVia.start ⟨1, 50, rfl⟩)
    (show sharedBreaker.exec (SharedBreaker.fresh 1 50) lateReportRun =
      some lateReportState by decide)

/-- The second request's late success does not close the breaker that the
third request is probing. -/
theorem lateReport_ignored :
    lateReportState.breaker.state = .circuitHalfOpen ∧
      ∀ t, lateReportState.step (.succeeded ⟨⟨0⟩, 2⟩) = some t →
        t.breaker = lateReportState.breaker :=
  ⟨rfl, fun t ht => (halfOpen_decided_by_probe_only lateReport_reachable).2.2.1
    (.succeeded ⟨⟨0⟩, 2⟩) t ⟨⟨0⟩, 2⟩ ht rfl rfl (by decide)⟩

end NriSupplyChain.Circuit
