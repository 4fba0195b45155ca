import Mathlib.Tactic

/-!
The throttle of a container whose verification degraded, and how the plugin tells
its own updates from those of the runtime.

An update of a container's resources sets some of three limits. `Limits` is what
a set of resources says about them; the throttle, the rollback and the comparison
of the source are each related to one operation on `Limits`. The settings the
plugin only compares as a whole are one value.
-/

namespace NriSupplyChain.Plugin

inductive Limit where
  | quota
  | shares
  | memory
deriving DecidableEq, Repr

/-- The type of a limit in the runtime's API. -/
def Limit.Value : Limit → Type
  | .quota | .memory => Int64
  | .shares => UInt64

instance (k : Limit) : DecidableEq k.Value :=
  match k with
  | .quota | .memory => inferInstanceAs (DecidableEq Int64)
  | .shares => inferInstanceAs (DecidableEq UInt64)

abbrev Limits : Type := (k : Limit) → Option k.Value

instance : DecidableEq Limits := fun a b =>
  decidable_of_iff (a .quota = b .quota ∧ a .shares = b .shares ∧ a .memory = b .memory)
    ⟨fun ⟨hq, hs, hm⟩ => funext fun k => by cases k <;> assumption, fun h => by simp [h]⟩

namespace Limits

def unset : Limits := fun _ => none

/-- The limits of a container after an update with `update`. -/
def overlay (update live : Limits) : Limits := fun k => (update k).or (live k)

theorem overlay_eq_overlay_iff (update live other : Limits) :
    update.overlay live = update.overlay other ↔ ∀ k, update k = none → live k = other k := by
  constructor
  · intro h k hk
    have hvalue := congrFun h k
    simpa [overlay, hk] using hvalue
  · intro h
    funext k
    cases hk : update k with
    | none => simp [overlay, hk, h k hk]
    | some v => simp [overlay, hk]

end Limits

/-- `cfg.Throttle`. -/
structure ThrottleConfig where
  cpuQuotaPercent : Int
  memoryLimitPercent : Int

structure Percents where
  cpu : Int
  mem : Int
deriving DecidableEq, Repr

def defaultThrottleCPUPercent : Int := 10
def defaultThrottleMemPercent : Int := 100
def percentDivisor : Int := 100
def minCPUQuotaMicros : Int64 := 1000
def minCPUShares : UInt64 := 2
def minMemoryLimitBytes : Int64 := 4194304

def throttlePercents (cfg : Option ThrottleConfig) : Percents :=
  let cpuPercent := (cfg.map (fun c => c.cpuQuotaPercent)).getD 0
  let memPercent := (cfg.map (fun c => c.memoryLimitPercent)).getD 0
  let cpuPercent := if cpuPercent ≤ 0 then defaultThrottleCPUPercent else cpuPercent
  let memPercent := if memPercent ≤ 0 then defaultThrottleMemPercent else memPercent
  ⟨min cpuPercent percentDivisor, min memPercent percentDivisor⟩

/-- A limit scaled to a percentage, in the arithmetic of its type. -/
def scaleInt64 (value : Int64) (percent : Int) (least : Int64) : Int64 :=
  max (value * Int64.ofInt percent / Int64.ofInt percentDivisor) least

def scaleUint64 (value : UInt64) (percent : Int) (least : UInt64) : UInt64 :=
  max (value * UInt64.ofNat percent.toNat / UInt64.ofNat percentDivisor.toNat) least

/-- What a throttle sets a limit to; `none` for one it leaves alone. -/
def throttledValue (p : Percents) : (k : Limit) → k.Value → Option k.Value
  | .quota, v => some (scaleInt64 v p.cpu minCPUQuotaMicros)
  | .shares, v => some (scaleUint64 v p.cpu minCPUShares)
  | .memory, v =>
    if p.mem < percentDivisor then some (scaleInt64 v p.mem minMemoryLimitBytes) else none

/-- The limits a throttle of a container with limits `original` sets. -/
def Limits.throttle (p : Percents) (original : Limits) : Limits :=
  fun k => (original k).bind (throttledValue p k)

/-- `current` holds everything a throttle of `original` sets, and the throttle
changes something. -/
def Limits.ShowsThrottle (p : Percents) (original current : Limits) : Prop :=
  (∀ k v, original.throttle p k = some v → current k = some v) ∧
    ∃ k v, original.throttle p k = some v ∧ original k ≠ some v

structure LinuxCPU where
  quota : Option Int64
  shares : Option UInt64
  /-- Period, realtime and cpuset settings. -/
  settings : Nat
deriving DecidableEq

structure LinuxMemory where
  limit : Option Int64
  /-- Reservation, swap and the other memory settings. -/
  settings : Nat
deriving DecidableEq

structure LinuxResources where
  cpu : Option LinuxCPU
  memory : Option LinuxMemory
  /-- Hugepages, devices, pids and the other resources. -/
  settings : Nat
deriving DecidableEq

/-- The getters of the limits; a nil section has none. -/
def LinuxResources.limits (r : LinuxResources) : Limits
  | .quota => r.cpu.bind (fun cpu => cpu.quota)
  | .shares => r.cpu.bind (fun cpu => cpu.shares)
  | .memory => r.memory.bind (fun mem => mem.limit)

/-- The resources of the update; settings it does not mention are zero. -/
def buildThrottleUpdate (p : Percents) (original : LinuxResources) : LinuxResources where
  cpu := original.cpu.map fun cpu =>
    { quota := cpu.quota.map fun quota => scaleInt64 quota p.cpu minCPUQuotaMicros
      shares := cpu.shares.map fun shares => scaleUint64 shares p.cpu minCPUShares
      settings := 0 }
  memory :=
    if p.mem < percentDivisor then
      original.memory.map fun mem =>
        { limit := mem.limit.map fun limit => scaleInt64 limit p.mem minMemoryLimitBytes
          settings := 0 }
    else none
  settings := 0

def buildRollbackUpdate (original : LinuxResources) : LinuxResources where
  cpu := original.cpu.map fun cpu => { quota := cpu.quota, shares := cpu.shares, settings := 0 }
  memory := (original.memory.bind (fun mem => mem.limit)).map fun limit =>
    { limit := some limit, settings := 0 }
  settings := 0

/-- The throttle update sets the throttled limits. -/
theorem buildThrottleUpdate_limits (p : Percents) (original : LinuxResources) :
    (buildThrottleUpdate p original).limits = original.limits.throttle p := by
  obtain ⟨cpu, memory, settings⟩ := original
  funext k
  cases k with
  | quota => rcases cpu with _ | ⟨_ | quota, shares, _⟩ <;> rfl
  | shares => rcases cpu with _ | ⟨quota, _ | shares, _⟩ <;> rfl
  | memory =>
    have hthrottle : Limits.throttle p (LinuxResources.limits ⟨cpu, memory, settings⟩) .memory =
        (memory.bind (fun mem => mem.limit)).bind (fun limit =>
          if p.mem < percentDivisor then some (scaleInt64 limit p.mem minMemoryLimitBytes)
          else none) := rfl
    rw [hthrottle]
    by_cases hp : p.mem < percentDivisor
    · simp only [LinuxResources.limits, buildThrottleUpdate, if_pos hp]
      rcases memory with _ | ⟨_ | limit, _⟩ <;> rfl
    · simp only [LinuxResources.limits, buildThrottleUpdate, if_neg hp]
      rcases memory with _ | ⟨_ | limit, _⟩ <;> rfl

/-- The rollback update restores every limit. -/
theorem buildRollbackUpdate_limits (original : LinuxResources) :
    (buildRollbackUpdate original).limits = original.limits := by
  obtain ⟨cpu, memory, settings⟩ := original
  funext k
  cases k with
  | quota => cases cpu <;> rfl
  | shares => cases cpu <;> rfl
  | memory => rcases memory with _ | ⟨_ | limit, _⟩ <;> rfl

/-- The comparison of one limit: whether the throttle sets it, whether the current
value is the throttled one, and whether the throttle changes it. -/
structure LimitMatch where
  compared : Bool
  matches_ : Bool
  changed : Bool

def compareLimit {α : Type} [DecidableEq α] (throttled current original : Option α) : LimitMatch :=
  match throttled with
  | none => ⟨false, false, false⟩
  | some v => ⟨true, current = some v, original ≠ some v⟩

/-- The loop of `looksThrottled`. -/
def matchLimits : List LimitMatch → (compared changed : Bool) → Bool
  | [], compared, changed => compared && changed
  | limit :: rest, compared, changed =>
    if !limit.compared then matchLimits rest compared changed
    else if !limit.matches_ then false
    else matchLimits rest true (changed || limit.changed)

def looksThrottled (p : Percents) (current original : LinuxResources) : Bool :=
  let throttled := buildThrottleUpdate p original
  matchLimits
    ([.quota, .shares, .memory].map fun k =>
      compareLimit (throttled.limits k) (current.limits k) (original.limits k))
    false false

theorem matchLimits_iff (limits : List LimitMatch) (compared changed : Bool) :
    matchLimits limits compared changed = true ↔
      (∀ l ∈ limits, l.compared = true → l.matches_ = true) ∧
      (compared = true ∨ ∃ l ∈ limits, l.compared = true) ∧
      (changed = true ∨ ∃ l ∈ limits, l.compared = true ∧ l.changed = true) := by
  induction limits generalizing compared changed with
  | nil => simp [matchLimits]
  | cons l rest ih =>
    cases hc : l.compared with
    | false => simp [matchLimits, hc, ih]
    | true =>
      cases hm : l.matches_ with
      | false => simp [matchLimits, hc, hm]
      | true => simp [matchLimits, hc, hm, ih, or_assoc]

theorem compareLimit_some {α : Type} [DecidableEq α] (v : α) (current original : Option α) :
    compareLimit (some v) current original = ⟨true, current = some v, original ≠ some v⟩ :=
  rfl

theorem compareLimit_compared {α : Type} [DecidableEq α] {throttled current original : Option α}
    (h : (compareLimit throttled current original).compared = true) : ∃ v, throttled = some v := by
  cases throttled with
  | none => cases h
  | some v => exact ⟨v, rfl⟩

/-- Comparing limit by limit recognises exactly the limits of a throttle. -/
theorem matchLimits_showsThrottle (p : Percents) (original current : Limits) :
    matchLimits ([.quota, .shares, .memory].map fun k =>
        compareLimit (original.throttle p k) (current k) (original k)) false false = true ↔
      original.ShowsThrottle p current := by
  have hmem (k : Limit) : k ∈ [Limit.quota, Limit.shares, Limit.memory] := by
    cases k <;> simp
  rw [matchLimits_iff]
  constructor
  · rintro ⟨hmatches, _, hchanged⟩
    refine ⟨?_, ?_⟩
    · intro k v hv
      have hmatch := hmatches _ (List.mem_map_of_mem (hmem k))
      rw [hv, compareLimit_some] at hmatch
      simpa using hmatch
    · rcases hchanged with h | ⟨l, hl, hcompared, hchanged⟩
      · cases h
      · obtain ⟨k, _, rfl⟩ := List.mem_map.mp hl
        obtain ⟨v, hv⟩ := compareLimit_compared hcompared
        rw [hv, compareLimit_some] at hchanged
        exact ⟨k, v, hv, by simpa using hchanged⟩
  · rintro ⟨hmatches, k, v, hv, hchanged⟩
    have hk := List.mem_map_of_mem (f := fun k => compareLimit (original.throttle p k)
      (current k) (original k)) (hmem k)
    rw [hv, compareLimit_some] at hk
    refine ⟨?_, .inr ⟨_, hk, rfl⟩, .inr ⟨_, hk, rfl, by simpa using hchanged⟩⟩
    intro l hl hcompared
    obtain ⟨j, _, rfl⟩ := List.mem_map.mp hl
    obtain ⟨w, hw⟩ := compareLimit_compared hcompared
    rw [hw, compareLimit_some]
    simpa using hmatches j w hw

instance (p : Percents) (original current : Limits) :
    Decidable (original.ShowsThrottle p current) :=
  decidable_of_iff _ (matchLimits_showsThrottle p original current)

theorem looksThrottled_iff (p : Percents) (current original : LinuxResources) :
    looksThrottled p current original = true ↔
      original.limits.ShowsThrottle p current.limits := by
  rw [looksThrottled, buildThrottleUpdate_limits]
  exact matchLimits_showsThrottle p original.limits current.limits

inductive VerificationState where
  | verified
  | skipped
  | degraded
  | throttled
deriving DecidableEq, Repr

/-- A tracked container, as far as remediation reads it. -/
structure ContainerState where
  state : VerificationState
  originalResources : Option LinuxResources
  recoveredOnRestart : Bool

/-- A container update and the state that is recorded once it was applied. -/
structure PendingUpdate where
  resources : LinuxResources
  commit : VerificationState

namespace ContainerState

def hasTrustedOriginals (c : ContainerState) : Bool :=
  c.originalResources.isSome && !c.recoveredOnRestart

def recordResourceUpdate (p : Percents) (current : Option LinuxResources) (c : ContainerState) :
    ContainerState :=
  match current with
  | none => c
  | some current =>
    if some current = c.originalResources ∨
        c.originalResources.any (fun original => looksThrottled p current original) then c
    else
      { c with
        originalResources := some current
        recoveredOnRestart := false
        state := if c.state = .throttled then .degraded else c.state }

/-- `shouldThrottle`; `permitted` says whether mode, cooldown and trigger allow
it. -/
def shouldThrottle (c : ContainerState) (permitted : Bool) : Bool :=
  c.hasTrustedOriginals && permitted

def applyStateTransition (p : Percents) (degraded permitted : Bool) (c : ContainerState) :
    ContainerState × Option PendingUpdate :=
  match degraded, c.state with
  | false, .skipped => ({ c with state := .verified }, none)
  | false, .throttled =>
    if c.hasTrustedOriginals then
      (c, c.originalResources.map fun original => ⟨buildRollbackUpdate original, .verified⟩)
    else ({ c with state := .verified }, none)
  | false, .degraded => ({ c with state := .verified }, none)
  | false, .verified => (c, none)
  | true, .verified | true, .skipped => ({ c with state := .degraded }, none)
  | true, .degraded =>
    if c.shouldThrottle permitted then
      (c, c.originalResources.map fun original => ⟨buildThrottleUpdate p original, .throttled⟩)
    else (c, none)
  | true, .throttled => (c, none)

/-- The rollback of a throttled container when remediation stops. -/
def releaseThrottled (c : ContainerState) : Option PendingUpdate :=
  if c.state = .throttled ∧ c.hasTrustedOriginals then
    c.originalResources.map fun original => ⟨buildRollbackUpdate original, .degraded⟩
  else none

variable {c : ContainerState}

theorem recordResourceUpdate_unrecorded (h : c.originalResources = none) (p : Percents)
    (current : LinuxResources) :
    (c.recordResourceUpdate p (some current)).originalResources = some current := by
  simp [recordResourceUpdate, h]

/-- The limits that are recorded after an update: the old ones if it looks like the
throttle, the current ones otherwise. -/
theorem recordResourceUpdate_limits {original : LinuxResources}
    (h : c.originalResources = some original) (p : Percents) (current : LinuxResources) :
    ∃ recorded, (c.recordResourceUpdate p (some current)).originalResources = some recorded ∧
      (original.limits.ShowsThrottle p current.limits → recorded.limits = original.limits) ∧
      (¬original.limits.ShowsThrottle p current.limits → recorded.limits = current.limits) := by
  obtain ⟨state, _, recovered⟩ := c
  cases h
  unfold recordResourceUpdate
  dsimp only
  split
  · next hskip =>
    refine ⟨original, rfl, fun _ => rfl, ?_⟩
    intro hthrottle
    rcases hskip with heq | hlooks
    · cases heq
      rfl
    · exact absurd ((looksThrottled_iff p current original).mp hlooks) hthrottle
  · next hrecord =>
    refine ⟨current, rfl, ?_, fun _ => rfl⟩
    intro hshows
    exact absurd (.inr ((looksThrottled_iff p current original).mpr hshows)) hrecord

theorem applyStateTransition_original (p : Percents) (degraded permitted : Bool)
    (c : ContainerState) :
    (c.applyStateTransition p degraded permitted).1.originalResources = c.originalResources := by
  fun_cases applyStateTransition <;> rfl

/-- A re-verification with an update leaves the container as it is. The update is the rollback
of a throttled container that passed, or the throttle of a degraded one that did not. -/
theorem applyStateTransition_pending {p : Percents} {degraded permitted : Bool} {u : PendingUpdate}
    (h : (c.applyStateTransition p degraded permitted).2 = some u) :
    (c.applyStateTransition p degraded permitted).1 = c ∧
      ∃ original, c.originalResources = some original ∧
        (degraded = false ∧ c.state = .throttled ∧ u = ⟨buildRollbackUpdate original, .verified⟩ ∨
          degraded = true ∧ c.state = .degraded ∧
            u = ⟨buildThrottleUpdate p original, .throttled⟩) := by
  revert h
  fun_cases applyStateTransition
  all_goals intro h
  all_goals first
    | cases h
    | obtain ⟨original, horiginal, rfl⟩ := Option.map_eq_some_iff.mp h
      exact ⟨rfl, original, horiginal, by simp [*]⟩

theorem releaseThrottled_pending {u : PendingUpdate} (h : c.releaseThrottled = some u) :
    ∃ original, c.originalResources = some original ∧
      u.resources = buildRollbackUpdate original := by
  unfold releaseThrottled at h
  split at h
  · obtain ⟨original, horiginal, rfl⟩ := Option.map_eq_some_iff.mp h
    exact ⟨original, horiginal, rfl⟩
  · cases h

end ContainerState

end NriSupplyChain.Plugin
