import NriSupplyChain.Plugin.Throttle

/-!
The size of the limits that a throttle sets. They are scaled in 64 bits, with the product
first. A product that does not fit wraps around, so the throttled limit is the
configured share of the original one exactly if the product fits.
-/

namespace NriSupplyChain.Plugin

namespace Limit

/-- The number that a value of a limit stands for. -/
def toInt : (k : Limit) → k.Value → Int
  | .quota, v | .memory, v => Int64.toInt v
  | .shares, v => (UInt64.toNat v : Int)

/-- The least value that a throttle sets. -/
def least : Limit → Int
  | .quota => 1000
  | .shares => 2
  | .memory => 4194304

/-- The first number that the type of a limit cannot hold. -/
def capacity : Limit → Int
  | .quota | .memory => 2 ^ 63
  | .shares => 2 ^ 64

end Limit

/-- The configured percentage of a limit. -/
def ThrottleConfig.percent (cfg : ThrottleConfig) : Limit → Int
  | .quota | .shares => cfg.cpuQuotaPercent
  | .memory => cfg.memoryLimitPercent

/-- Both percentages are between 1 and 100. -/
structure ThrottleConfig.Valid (cfg : ThrottleConfig) : Prop where
  cpu : 1 ≤ cfg.cpuQuotaPercent ∧ cfg.cpuQuotaPercent ≤ 100
  mem : 1 ≤ cfg.memoryLimitPercent ∧ cfg.memoryLimitPercent ≤ 100

theorem ThrottleConfig.Valid.percent {cfg : ThrottleConfig} (h : cfg.Valid) (k : Limit) :
    1 ≤ cfg.percent k ∧ cfg.percent k ≤ 100 := by
  cases k with
  | quota => exact h.cpu
  | shares => exact h.cpu
  | memory => exact h.mem

theorem throttlePercents_of_valid {cfg : ThrottleConfig} (h : cfg.Valid) :
    throttlePercents (some cfg) = ⟨cfg.cpuQuotaPercent, cfg.memoryLimitPercent⟩ := by
  have hcpu := h.cpu
  have hmem := h.mem
  unfold throttlePercents percentDivisor
  simp only [Option.map_some, Option.getD_some]
  rw [if_neg (by omega), if_neg (by omega), min_eq_left (by omega), min_eq_left (by omega)]

section scaling

theorem int64_toInt_max (a b : Int64) : (max a b).toInt = max a.toInt b.toInt := by
  have hmax : max a b = if a ≤ b then b else a := rfl
  rw [hmax]
  split
  · next hle => exact (max_eq_right (Int64.le_iff_toInt_le.mp hle)).symm
  · next hlt =>
    rw [Int64.le_iff_toInt_le] at hlt
    exact (max_eq_left (by omega)).symm

theorem uint64_toNat_max (a b : UInt64) : (max a b).toNat = max a.toNat b.toNat := by
  have hmax : max a b = if a ≤ b then b else a := rfl
  rw [hmax]
  split
  · next hle => exact (max_eq_right (UInt64.le_iff_toNat_le.mp hle)).symm
  · next hlt =>
    rw [UInt64.le_iff_toNat_le] at hlt
    exact (max_eq_left (by omega)).symm

/-- Division in Go rounds towards zero. -/
theorem tdiv_hundred (x : Int) :
    (0 ≤ x ∧ x.tdiv 100 = x / 100) ∨ (x < 0 ∧ x.tdiv 100 = -(-x / 100)) := by
  rcases lt_or_ge x 0 with hneg | hpos
  · right
    refine ⟨hneg, ?_⟩
    have hflip := Int.neg_tdiv (-x) 100
    have hpos : (-x).tdiv 100 = -x / 100 := Int.tdiv_eq_ediv_of_nonneg (by omega)
    rw [neg_neg, hpos] at hflip
    exact hflip
  · exact .inl ⟨hpos, Int.tdiv_eq_ediv_of_nonneg hpos⟩

variable {percent : Int}

theorem scaleInt64_toInt (hpercent : 0 ≤ percent ∧ percent ≤ 100) (value least : Int64) :
    (scaleInt64 value percent least).toInt =
      max (((value.toInt * percent).bmod (2 ^ 64)).tdiv 100) least.toInt := by
  have hp : (Int64.ofInt percent).toInt = percent := Int64.toInt_ofInt_of_le (by omega) (by omega)
  have hd : (Int64.ofInt percentDivisor).toInt = 100 := rfl
  unfold scaleInt64
  rw [int64_toInt_max, Int64.toInt_div, Int64.toInt_mul, hp, hd]
  have hlow := Int.le_bmod (x := value.toInt * percent) (m := 2 ^ 64) (by decide)
  have hhigh := Int.bmod_lt (x := value.toInt * percent) (m := 2 ^ 64) (by decide)
  generalize (value.toInt * percent).bmod (2 ^ 64) = product at hlow hhigh
  have hsmall : (product.tdiv 100).bmod (2 ^ 64) = product.tdiv 100 := by
    have hround := tdiv_hundred product
    apply Int.bmod_eq_of_le
    · omega
    · omega
  rw [hsmall]

theorem scaleUint64_toNat (hpercent : 0 ≤ percent ∧ percent ≤ 100) (value least : UInt64) :
    (scaleUint64 value percent least).toNat =
      max (value.toNat * percent.toNat % 2 ^ 64 / 100) least.toNat := by
  have hp : (UInt64.ofNat percent.toNat).toNat = percent.toNat := by
    rw [UInt64.toNat_ofNat']
    omega
  have hd : (UInt64.ofNat percentDivisor.toNat).toNat = 100 := rfl
  unfold scaleUint64
  rw [uint64_toNat_max, UInt64.toNat_div, UInt64.toNat_mul, hp, hd]

/-- A wrapped product of 64 bits never scales to the share of the real one. -/
theorem scaled_product_iff {product least : Int} (hproduct : 0 ≤ product) (hleast : 0 ≤ least)
    (hbound : least ≤ 4194304) :
    max ((product.bmod (2 ^ 64)).tdiv 100) least = max (product / 100) least ↔
      product < 2 ^ 63 := by
  have hdef := Int.bmod_def product (2 ^ 64)
  generalize product.bmod (2 ^ 64) = wrapped at hdef
  have hround := tdiv_hundred wrapped
  constructor
  · intro heq
    by_contra hlarge
    split at hdef <;> omega
  · intro hsmall
    have hwrapped : wrapped = product := by
      split at hdef <;> omega
    subst hwrapped
    rw [Int.tdiv_eq_ediv_of_nonneg hproduct]

/-- The same for a product without a sign. -/
theorem scaled_unsigned_product_iff (product : Nat) :
    max (product % 2 ^ 64 / 100) 2 = max (product / 100) 2 ↔ product < 2 ^ 64 := by
  omega

theorem scaleInt64_exact_iff (hpercent : 1 ≤ percent ∧ percent ≤ 100) {value least : Int64}
    (hvalue : least.toInt ≤ value.toInt) (hleast : 0 ≤ least.toInt)
    (hbound : least.toInt ≤ 4194304) :
    (scaleInt64 value percent least).toInt = max (value.toInt * percent / 100) least.toInt ↔
      value.toInt * percent < 2 ^ 63 := by
  have hproduct : 0 ≤ value.toInt * percent := Int.mul_nonneg (by omega) (by omega)
  rw [scaleInt64_toInt (by omega)]
  exact scaled_product_iff hproduct hleast hbound

theorem scaleUint64_exact_iff (hpercent : 1 ≤ percent ∧ percent ≤ 100) (value : UInt64) :
    ((scaleUint64 value percent minCPUShares).toNat : Int) =
        max ((value.toNat : Int) * percent / 100) 2 ↔
      (value.toNat : Int) * percent < 2 ^ 64 := by
  have hnat : (percent.toNat : Int) = percent := by omega
  have hleast : minCPUShares.toNat = 2 := rfl
  have hiff := scaled_unsigned_product_iff (value.toNat * percent.toNat)
  rw [scaleUint64_toNat (by omega), hleast]
  nth_rewrite 2 3 [← hnat]
  constructor
  · intro heq
    have hlt := hiff.mp (by exact_mod_cast heq)
    exact_mod_cast hlt
  · intro hlt
    have heq := hiff.mpr (by exact_mod_cast hlt)
    exact_mod_cast heq

end scaling

section limits

variable {cfg : ThrottleConfig} {k : Limit} {v w : k.Value}

/-- The share of a limit in exact arithmetic. -/
def exactShare (cfg : ThrottleConfig) (k : Limit) (v : k.Value) : Int :=
  max (k.toInt v * cfg.percent k / 100) k.least

theorem throttledValue_exact_iff (hcfg : cfg.Valid) (hv : k.least ≤ k.toInt v)
    (hw : throttledValue (throttlePercents (some cfg)) k v = some w) :
    k.toInt w = exactShare cfg k v ↔ k.toInt v * cfg.percent k < k.capacity := by
  rw [throttlePercents_of_valid hcfg] at hw
  unfold exactShare
  cases k with
  | quota =>
    cases hw
    exact scaleInt64_exact_iff hcfg.cpu hv (by decide) (by decide)
  | shares =>
    cases hw
    exact scaleUint64_exact_iff hcfg.cpu v
  | memory =>
    obtain ⟨_, hvalue⟩ := Option.ite_none_right_eq_some.mp hw
    cases hvalue
    exact scaleInt64_exact_iff hcfg.mem hv (by decide) (by decide)

/-- The exact share lies between the share and the original limit. -/
theorem exactShare_bounds (hcfg : cfg.Valid) (hv : k.least ≤ k.toInt v) :
    exactShare cfg k v ≤ k.toInt v ∧ k.toInt v * cfg.percent k / 100 ≤ exactShare cfg k v := by
  have hpercent := hcfg.percent k
  have hleast : 0 ≤ k.least := by cases k <;> decide
  have hproduct : k.toInt v * cfg.percent k ≤ k.toInt v * 100 :=
    Int.mul_le_mul_of_nonneg_left hpercent.2 (le_trans hleast hv)
  unfold exactShare
  generalize k.toInt v * cfg.percent k = product at hproduct
  refine ⟨max_le ?_ hv, le_max_left _ _⟩
  omega

/-- Whether a throttle touches a limit. Memory is left alone at 100 percent. -/
def ThrottleConfig.Throttles (cfg : ThrottleConfig) : Limit → Prop
  | .quota | .shares => True
  | .memory => cfg.memoryLimitPercent < 100

theorem throttledValue_of_throttles (hcfg : cfg.Valid) :
    (∃ w, throttledValue (throttlePercents (some cfg)) k v = some w) ↔ cfg.Throttles k := by
  rw [throttlePercents_of_valid hcfg]
  cases k with
  | quota => exact ⟨fun _ => trivial, fun _ => ⟨_, rfl⟩⟩
  | shares => exact ⟨fun _ => trivial, fun _ => ⟨_, rfl⟩⟩
  | memory =>
    unfold throttledValue ThrottleConfig.Throttles percentDivisor
    constructor
    · rintro ⟨w, hw⟩
      exact (Option.ite_none_right_eq_some.mp hw).1
    · intro hlt
      exact ⟨_, if_pos hlt⟩

/-- Every throttled limit is the share of the original one in exact arithmetic, and so
between that share and the original, exactly if no product exceeds 64 bits. -/
theorem throttled_limits_exact_iff (cfg : ThrottleConfig) (hcfg : cfg.Valid)
    (original : LinuxResources)
    (hleast : ∀ k v, original.limits k = some v → k.least ≤ k.toInt v) :
    (∀ k v w, original.limits k = some v →
      (buildThrottleUpdate (throttlePercents (some cfg)) original).limits k = some w →
        k.toInt w = max (k.toInt v * cfg.percent k / 100) k.least ∧ k.toInt w ≤ k.toInt v ∧
          k.toInt v * cfg.percent k / 100 ≤ k.toInt w) ↔
      ∀ k v, original.limits k = some v → cfg.Throttles k →
        k.toInt v * cfg.percent k < k.capacity := by
  have hupdate : ∀ k v, original.limits k = some v →
      (buildThrottleUpdate (throttlePercents (some cfg)) original).limits k =
        throttledValue (throttlePercents (some cfg)) k v := by
    intro k v hv
    rw [buildThrottleUpdate_limits]
    unfold Limits.throttle
    rw [hv]
    rfl
  constructor
  · intro hexact k v hv hthrottles
    obtain ⟨w, hw⟩ := (throttledValue_of_throttles hcfg).mpr hthrottles
    have hvalue := (hexact k v w hv ((hupdate k v hv).trans hw)).1
    exact (throttledValue_exact_iff hcfg (hleast k v hv) hw).mp hvalue
  · intro hfits k v w hv hw
    rw [hupdate k v hv] at hw
    have hproduct := hfits k v hv ((throttledValue_of_throttles hcfg).mp ⟨w, hw⟩)
    have hvalue := (throttledValue_exact_iff hcfg (hleast k v hv) hw).mpr hproduct
    have hbounds := exactShare_bounds hcfg (hleast k v hv)
    rw [← hvalue] at hbounds
    exact ⟨hvalue, hbounds⟩

/-- A container with one CPU and 1 GiB of memory. -/
def ordinaryResources : LinuxResources :=
  ⟨some ⟨some 100000, some 1024, 0⟩, some ⟨some 1073741824, 0⟩, 0⟩

/-- Throttled to one half, the container keeps exactly 512 MiB. -/
theorem throttled_limits_exact_ordinary :
    (buildThrottleUpdate (throttlePercents (some ⟨10, 50⟩)) ordinaryResources).limits .memory =
        some (536870912 : Int64) ∧
      Limit.memory.toInt (536870912 : Int64) =
        max (Limit.memory.toInt (1073741824 : Int64) * 50 / 100) Limit.memory.least := by
  have hupdate : (buildThrottleUpdate (throttlePercents (some ⟨10, 50⟩)) ordinaryResources).limits
      .memory = some (536870912 : Int64) := by
    have hscaled : scaleInt64 1073741824 50 minMemoryLimitBytes = 536870912 := by decide
    exact congrArg some hscaled
  refine ⟨hupdate, ?_⟩
  refine ((throttled_limits_exact_iff ⟨10, 50⟩ ⟨by decide, by decide⟩ ordinaryResources ?_).mpr
    ?_ .memory (1073741824 : Int64) (536870912 : Int64) rfl hupdate).1
  · intro k v hv
    cases k <;> cases hv <;> decide
  · intro k v hv _
    cases k <;> cases hv <;> decide

/-- The memory limit that runtimes use for unlimited memory is throttled to 4 MiB. -/
theorem unlimited_memory_throttled_to_least :
    ∃ (cfg : ThrottleConfig) (original : LinuxResources), cfg.Valid ∧
      original.limits .memory = some (Int64.ofInt 9223372036854771712) ∧
      (buildThrottleUpdate (throttlePercents (some cfg)) original).limits .memory =
        some (Int64.ofInt 4194304) := by
  refine ⟨⟨10, 50⟩, ⟨none, some ⟨some (Int64.ofInt 9223372036854771712), 0⟩, 0⟩, ⟨?_, ?_⟩, rfl, ?_⟩
  · decide
  · decide
  · have hscaled : scaleInt64 (Int64.ofInt 9223372036854771712) 50 minMemoryLimitBytes =
        Int64.ofInt 4194304 := by decide
    exact congrArg some hscaled

end limits

end NriSupplyChain.Plugin
