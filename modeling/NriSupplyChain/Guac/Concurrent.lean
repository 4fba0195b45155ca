import NriSupplyChain.Guac.Query
import NriSupplyChain.Lib.Machine

/-!
Any number of GUAC queries share one breaker. A query asks `Allow`, runs, and
settles the breaker with the unconditional `RecordSuccess` and
`RecordFailure`. `Allow` drops the permit of `Acquire`; the machine keeps it
beside the running query, only to say which query is the half-open probe.
-/

namespace NriSupplyChain.Guac

open Circuit Lib NriSupplyChain.Types

inductive QueryPhase where
  | idle
  | started
  /-- Between the read lock and the write lock of `Acquire`. -/
  | waiting
  | querying (permit : Permit)
deriving DecidableEq, Repr

structure GuacClient where
  breaker : Breaker
  queries : Nat → QueryPhase

inductive GuacOp where
  | start (q : Nat)
  | allowRead (q : Nat)
  | allowLocked (q : Nat) (now : Int)
  | finish (q : Nat) (ending : Ending) (now : Int)

namespace GuacClient

def move (s : GuacClient) (q : Nat) (phase : QueryPhase) : GuacClient :=
  { s with queries := Function.update s.queries q phase }

def step (s : GuacClient) : GuacOp → Option GuacClient
  | .start q =>
    match s.queries q with
    | .idle => some (s.move q .started)
    | _ => none
  | .allowRead q =>
    match s.queries q with
    | .started =>
      match s.breaker.acquireRead with
      | some permit => some (s.move q (.querying permit))
      | none => some (s.move q .waiting)
    | _ => none
  | .allowLocked q now =>
    match s.queries q with
    | .waiting =>
      let (cb, permit, allowed) := s.breaker.acquireLocked now
      let phase := if allowed then .querying permit else .idle
      some ({ s with breaker := cb }.move q phase)
    | _ => none
  | .finish q ending now =>
    match s.queries q with
    | .querying _ => some ({ s with breaker := ending.settle s.breaker now }.move q .idle)
    | _ => none

/-- A client whose breaker was just created. -/
def fresh (threshold cooldown : Int) : GuacClient :=
  ⟨newBreaker threshold cooldown, fun _ => .idle⟩

/-- No GUAC query is in flight. -/
def Quiet (s : GuacClient) : Prop := ∀ q, s.queries q = .idle

/-- The breaker is half-open, and no query is running that could decide it. -/
def Abandoned (s : GuacClient) : Prop :=
  s.breaker.state = .circuitHalfOpen ∧ ∀ q permit, s.queries q ≠ .querying permit

/-- The operation ends the query that is the current half-open probe, and the
breaker hears nothing of it. -/
def DropsProbe (s : GuacClient) (op : GuacOp) : Prop :=
  ∃ q ending now permit, op = .finish q ending now ∧ s.queries q = .querying permit ∧
    s.breaker.state = .circuitHalfOpen ∧ s.breaker.HoldsProbe permit ∧
    ending.unrecorded = true

end GuacClient

/-- The operation is not the unrecorded ending of a query. -/
def GuacOp.recorded : GuacOp → Bool
  | .finish _ ending _ => !ending.unrecorded
  | _ => true

theorem not_dropsProbe_of_recorded {op : GuacOp} (h : op.recorded = true)
    (s : GuacClient) : ¬ s.DropsProbe op := by
  rintro ⟨q, ending, now, permit, rfl, _, _, _, hunrecorded⟩
  simp [GuacOp.recorded, hunrecorded] at h

def guacClient : Machine GuacClient GuacOp where
  initial s := ∃ threshold cooldown, s = GuacClient.fresh threshold cooldown
  step := GuacClient.step

/-- While the breaker is half-open, the query that probes it is running. -/
structure ProbeRunning (s : GuacClient) : Prop where
  tripped : s.breaker.Tripped
  running : s.breaker.state = .circuitHalfOpen →
    ∃ q permit, s.queries q = .querying permit ∧ s.breaker.HoldsProbe permit

variable {s : GuacClient}

/-- Moving a query that is not the running probe keeps the invariant. -/
theorem ProbeRunning.move (h : ProbeRunning s) {q : Nat} (phase : QueryPhase)
    (hq : s.breaker.state = .circuitHalfOpen →
      ∀ permit, s.queries q = .querying permit → ¬ s.breaker.HoldsProbe permit) :
    ProbeRunning (s.move q phase) where
  tripped := h.tripped
  running := by
    intro hhalf
    obtain ⟨r, permit, hr, hholds⟩ := h.running hhalf
    have hne : r ≠ q := by
      rintro rfl
      exact hq hhalf permit hr hholds
    refine ⟨r, permit, ?_, hholds⟩
    simp only [GuacClient.move, Function.update_of_ne hne]
    exact hr

theorem step_probeRunning (s : GuacClient) (op : GuacOp) (t : GuacClient)
    (h : ProbeRunning s) (hallowed : ¬ s.DropsProbe op) (hstep : s.step op = some t) :
    ProbeRunning t := by
  cases op with
  | start q | allowRead q => grind [GuacClient.step, ProbeRunning.move]
  | allowLocked q now =>
    simp only [GuacClient.step] at hstep
    cases hphase : s.queries q <;> simp only [hphase] at hstep <;> cases hstep
    rcases s.breaker.acquireLocked_cases now with ⟨hopen, _, heq⟩ | ⟨allowed, heq⟩
    · refine ⟨?_, ?_⟩
      · exact Breaker.acquireLocked_tripped h.tripped now
      · intro _
        refine ⟨q, ⟨s.breaker.probe + 1⟩, ?_, ?_⟩
        · simp [GuacClient.move, heq]
        · simp [GuacClient.move, heq, Breaker.HoldsProbe]
    · simp only [heq]
      exact h.move _ (by intro _ permit heq'; cases hphase.symm.trans heq')
  | finish q ending now =>
    simp only [GuacClient.step] at hstep
    cases hphase : s.queries q <;> simp only [hphase] at hstep <;> cases hstep
    rename_i permit
    cases hrecorded : ending.unrecorded with
    | true =>
      rw [settle_unrecorded hrecorded]
      apply h.move
      intro hhalf other hother hholds
      cases hphase.symm.trans hother
      exact hallowed ⟨q, ending, now, permit, rfl, hphase, hhalf, hholds, hrecorded⟩
    | false =>
      exact ⟨settle_tripped ending h.tripped now,
        fun hhalf => absurd hhalf (settle_recorded hrecorded h.tripped now)⟩

/-- In every run in which no half-open probe ends with an authentication error
or a panic: when no query is in flight the breaker is not half-open, and the
next query after the cooldown is let through. -/
theorem quiet_breaker_not_halfOpen {s : GuacClient}
    (h : guacClient.ReachableVia (fun s op => ¬ s.DropsProbe op) s) (hquiet : s.Quiet) :
    s.breaker.state ≠ .circuitHalfOpen ∧
      ∀ now, s.breaker.cooldown ≤ now - s.breaker.lastFailureTime →
        (s.breaker.allow now).2 = true := by
  have hinv : ProbeRunning s := by
    apply Machine.ReachableVia.invariant _ step_probeRunning h
    rintro _ ⟨threshold, cooldown, rfl⟩
    exact ⟨Breaker.newBreaker_tripped threshold cooldown, fun hhalf => by cases hhalf⟩
  have hnot : s.breaker.state ≠ .circuitHalfOpen := by
    intro hhalf
    obtain ⟨q, permit, hq, _⟩ := hinv.running hhalf
    cases (hquiet q).symm.trans hq
  refine ⟨hnot, ?_⟩
  intro now hcool
  cases hstate : s.breaker.state with
  | circuitClosed => simp [Breaker.allow, Breaker.acquire, Breaker.acquireRead, hstate]
  | circuitHalfOpen => exact absurd hstate hnot
  | circuitOpen =>
    simp [Breaker.allow, Breaker.acquire, Breaker.acquireRead, Breaker.acquireLocked,
      hstate, hcool]

/-- The token file cannot be read: the only configured check fails locally. -/
def tokenUnreadable : Ending :=
  .answered [.certifyVuln]
    { vulnerabilities := .error (GoError.new .errGUACAuthError
        "GUAC auth token error: reading auth token: no such file")
      scorecard := .ok ⟨0, [], "", false⟩
      dependencies := .ok ⟨[], 0⟩
      order := [.certifyVuln, .certifyScorecard, .isDependency]
      order_complete := List.Perm.refl _ }

/-- The server cannot be reached. -/
def serverUnreachable : Ending :=
  .answered [.certifyVuln]
    { vulnerabilities := .error ⟨"dial tcp: connection refused", [.network false true]⟩
      scorecard := .ok ⟨0, [], "", false⟩
      dependencies := .ok ⟨[], 0⟩
      order := [.certifyVuln, .certifyScorecard, .isDependency]
      order_complete := List.Perm.refl _ }

/-- One failed query opens a breaker of threshold one, and the query let through
after the cooldown fails in the same way. -/
def outageRun : List GuacOp :=
  [.start 0, .allowRead 0, .finish 0 serverUnreachable 100,
    .start 1, .allowRead 1, .allowLocked 1 150, .finish 1 serverUnreachable 160]

/-- Two queries that ran one after the other: neither is in flight any more. -/
private theorem two_queries_idle (q : Nat) :
    Function.update (Function.update (Function.update (Function.update
      (Function.update (Function.update (Function.update (fun _ : Nat => QueryPhase.idle)
        0 .started) 0 (.querying ⟨0⟩)) 0 .idle) 1 .started) 1 .waiting) 1 (.querying ⟨1⟩))
        1 .idle q = .idle := by
  by_cases h0 : q = 0 <;> by_cases h1 : q = 1 <;> simp [h0, h1]

theorem outageRun_reachable (h : guacClient.exec (GuacClient.fresh 1 50) outageRun = some s) :
    guacClient.ReachableVia (fun s op => ¬ s.DropsProbe op) s := by
  refine Machine.ReachableVia.exec (Machine.ReachableVia.start ⟨1, 50, rfl⟩) ?_ h
  apply Machine.AllAllowed.of_forall
  intro op hop s
  apply not_dropsProbe_of_recorded
  revert op
  decide

/-- After the outage the breaker is not half-open, and it lets a query through
once the cooldown has passed. -/
theorem outage_recovers :
    ∃ s, guacClient.exec (GuacClient.fresh 1 50) outageRun = some s ∧ s.Quiet ∧
      s.breaker.state ≠ .circuitHalfOpen ∧ (s.breaker.allow 210).2 = true := by
  refine ⟨_, rfl, two_queries_idle, ?_⟩
  have h := quiet_breaker_not_halfOpen (outageRun_reachable rfl) two_queries_idle
  exact ⟨h.1, h.2 210 (by decide)⟩

theorem move_queries (q r : Nat) (phase : QueryPhase) :
    (s.move q phase).queries r = if r = q then phase else s.queries r :=
  Function.update_apply ..

/-- Nothing moves an abandoned breaker: `Allow` refuses every query, and only a
query that was let through could record an outcome. -/
theorem step_abandoned {t : GuacClient} {op : GuacOp} (h : s.Abandoned)
    (hstep : s.step op = some t) : t.Abandoned ∧ t.breaker = s.breaker := by
  obtain ⟨hhalf, hidle⟩ := h
  cases op with
  | finish q ending now => grind [GuacClient.step]
  | start q | allowRead q | allowLocked q now =>
    grind [GuacClient.step, GuacClient.Abandoned, Breaker.acquireRead, Breaker.acquireLocked,
      GuacClient.move, move_queries]

theorem exec_abandoned {t : GuacClient} {labels : List GuacOp} (h : s.Abandoned)
    (hrun : guacClient.exec s labels = some t) : t.breaker = s.breaker :=
  (Machine.exec_preserves (I := fun u => u.Abandoned ∧ u.breaker = s.breaker)
    (fun _ _ _ hu hstep =>
      have hnext := step_abandoned hu.1 hstep
      ⟨hnext.1, hnext.2.trans hu.2⟩)
    ⟨h, rfl⟩ hrun).2

/-- The query let through after the cooldown cannot read its token. -/
def lostProbeRun : List GuacOp :=
  [.start 0, .allowRead 0, .finish 0 serverUnreachable 100,
    .start 1, .allowRead 1, .allowLocked 1 150, .finish 1 tokenUnreadable 160]

/-- A half-open probe that ends with an authentication error leaves the breaker
half-open with no query in flight, and no later query is let through, however
much time passes. -/
theorem auth_error_strands_breaker :
    ∃ s, guacClient.exec (GuacClient.fresh 1 50) lostProbeRun = some s ∧ s.Quiet ∧
      s.breaker.state = .circuitHalfOpen ∧
      ∀ labels t now, guacClient.exec s labels = some t →
        (t.breaker.allow now).2 = false := by
  refine ⟨_, rfl, two_queries_idle, rfl, ?_⟩
  intro labels t now hrun
  have habandoned := exec_abandoned ⟨rfl, fun q permit h => by
    cases (two_queries_idle q).symm.trans h⟩ hrun
  rw [habandoned]
  rfl

end NriSupplyChain.Guac
