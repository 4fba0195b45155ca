import NriSupplyChain.Attestation.Schedules

/-!
What a collection returns under every schedule. The class of its error never depends on the
schedule. The order of the attestations does when copies of one bundle are listed around
another attestation: the copy that arrives first keeps its place. The steps of one collector
of a pass are such a schedule.
-/

namespace NriSupplyChain.Attestation.Workload

open NriSupplyChain.Types Lib

variable {w : Workload} {owner : Key → Option Nat} {settled : Finset Key} {c d : Collector}

/-- The position of the candidate that fetches for a key. -/
def pickOf (owner : Key → Option Nat) (k : Key) : Nat := (owner k).getD 0

namespace Exact

theorem recorded_of_complete (h : Exact w owner settled c) (hcomplete : c.complete) {i : Nat}
    (hlt : i < w.keys.length) : c.phases[i]? = some .recorded := by
  obtain ⟨k, phase, slot, -, hphase, -⟩ := h.candidate hlt
  rw [hphase, FetchPhase.unfinished_eq_false.mp (hcomplete phase (List.mem_of_getElem? hphase))]

variable {k : Key}

theorem slot_of_complete (h : Exact w owner settled c) (hcomplete : c.complete) {i : Nat}
    (hkey : w.keys[i]? = some k) :
    owner k ≠ none ∧ c.slots[i]? = some (if owner k = some i then w.value k else none) := by
  have hlt := (List.getElem?_eq_some_iff.mp hkey).1
  obtain ⟨k', slot, hkey', hslot, howned, hvalue⟩ :=
    h.at_phase (h.recorded_of_complete hcomplete hlt)
  obtain rfl := Option.some.inj (hkey.symm.trans hkey')
  refine ⟨howned, ?_⟩
  rw [hslot, hvalue]

theorem owner_of_complete (h : Exact w owner settled c) (hcomplete : c.complete) (hk : k ∈ w.keys) :
    owner k = some (pickOf owner k) := by
  obtain ⟨i, hkey⟩ := List.getElem?_of_mem hk
  obtain ⟨m, howner⟩ := Option.ne_none_iff_exists'.mp (h.slot_of_complete hcomplete hkey).1
  rw [pickOf, howner]
  rfl

theorem picks (h : Exact w owner settled c) (hcomplete : c.complete) :
    Picks (pickOf owner) w.keys := by
  intro k hk
  exact h.owned k _ (h.owner_of_complete hcomplete hk)

theorem early_pick (h : Exact w owner settled c) (hcomplete : c.complete) (hk : k ∈ w.keys) :
    Early maxConcurrentCollectFetch w.keys (pickOf owner k) := by
  intro e hkey
  obtain rfl := Option.some.inj ((h.picks hcomplete k hk).symm.trans hkey)
  exact h.early k _ (h.owner_of_complete hcomplete hk)

theorem compactSlots_eq (h : Exact w owner settled c) (hcomplete : c.complete) :
    c.compactSlots = (pickedKeys (pickOf owner) w.keys).filterMap w.value := by
  apply filterMap_slots h.slots_length
  intro i k hkey
  have hk := List.mem_of_getElem? hkey
  rw [(h.slot_of_complete hcomplete hkey).2, h.owner_of_complete hcomplete hk]
  simp only [Option.some.injEq]

theorem settled_eq (h : Exact w owner settled c) (hcomplete : c.complete) :
    settled = w.keys.toFinset := by
  apply Finset.Subset.antisymm h.settled_subset
  intro k hk
  have hmem := List.mem_toFinset.mp hk
  have hpick := h.picks hcomplete k hmem
  refine (h.settled_iff k).mpr ⟨_, h.owner_of_complete hcomplete hmem, ?_⟩
  exact h.recorded_of_complete hcomplete (List.getElem?_eq_some_iff.mp hpick).1

end Exact

theorem merge_single (stats : CollectStats) :
    [stats].foldl CollectStats.merge .empty = stats := by
  obtain ⟨verifyFailures, fetchErr, limitErr, keyErr⟩ := stats
  simp [CollectStats.merge, CollectStats.empty]

theorem collectionClass_congr {verified verified' : Nat} {marked marked' : Mark → Bool}
    (hverified : verified = 0 ↔ verified' = 0) (hmarked : ∀ mark, marked mark = marked' mark) :
    collectionClass verified marked = collectionClass verified' marked' := by
  simp only [collectionClass, hmarked, ne_eq, hverified]

/-- The class of error is decided by the outcomes of the candidates. -/
theorem errorClass_eq (h : Sound w c) (hcomplete : c.complete) :
    c.errorClass = w.outcomeClass := by
  unfold Collector.errorClass outcomeClass
  rw [merge_single]
  rcases h with hcut | ⟨owner, settled, hexact⟩
  · rw [if_pos hcut.large, collectionClass, if_pos hcut.marked]
  · have hsettled := hexact.settled_eq hcomplete
    have htotal : c.totalSize = w.total := by
      rw [hexact.total, hsettled]
      rfl
    have hfits := hexact.fits
    rw [if_neg (by omega)]
    apply collectionClass_congr
    · rw [List.length_eq_zero_iff, hexact.compactSlots_eq hcomplete, List.countP_eq_zero,
        List.filterMap_eq_nil_iff]
      constructor
      · intro hnone k hk
        rw [hnone k (mem_pickedKeys.mpr (hexact.picks hcomplete k hk))]
        exact Bool.false_ne_true
      · intro hnone k hk
        have hvalue := hnone k (List.mem_of_getElem? (mem_pickedKeys.mp hk))
        simpa using hvalue
    · intro mark
      rw [Bool.eq_iff_iff, hexact.marked, hsettled, marked, List.any_eq_true]
      simp only [List.mem_toFinset]

theorem Sound.exact (h : Sound w c) (hfits : w.total ≤ maxTotalAttestationSize) :
    ∃ owner settled, Exact w owner settled c := by
  rcases h with hcut | hexact
  · have := hcut.large
    omega
  · exact hexact

/-- Where no attested candidates interleave, all schedules give the same list. -/
theorem compactSlots_eq_of_not_orderOpen (hclosed : ¬w.OrderOpen) (hc : Sound w c)
    (hd : Sound w d) (hfits : w.total ≤ maxTotalAttestationSize) (hcomplete : c.complete)
    (hcomplete' : d.complete) : c.compactSlots = d.compactSlots := by
  obtain ⟨owner, settled, hc⟩ := hc.exact hfits
  obtain ⟨owner', settled', hd⟩ := hd.exact hfits
  rw [hc.compactSlots_eq hcomplete, hd.compactSlots_eq hcomplete']
  apply filterMap_pickedKeys_eq (hc.picks hcomplete) (hd.picks hcomplete')
  intro k hk e he hvalue hvalue' hlt
  exact pick_lt_of_not_interleaved hclosed (hc.picks hcomplete) (hd.picks hcomplete')
    (fun _ => hc.early_pick hcomplete) (fun _ => hd.early_pick hcomplete') hk he hvalue hvalue' hlt

/-- Candidate `i` can be recorded without moving another. -/
def CanRecord (w : Workload) (c : Collector) (i : Nat) : Prop :=
  ∃ schedule d, w.machine.exec c schedule = some d ∧ d.phases = c.phases.set i .recorded

namespace CanRecord

variable {i : Nat}

theorem of_step {op : ScheduleOp} {phase : FetchPhase} (hstep : w.step c op = some d)
    (hphases : d.phases = c.phases.set i phase) (h : CanRecord w d i) : CanRecord w c i := by
  obtain ⟨schedule, last, hrun, hlast⟩ := h
  refine ⟨op :: schedule, last, ?_, ?_⟩
  · exact (Machine.exec_cons hstep schedule).trans hrun
  · rw [hlast, hphases, List.set_set]

theorem of_ended {f : Fetched} (hold : c.phases[i]? = some (.ended f)) : CanRecord w c i := by
  have hstep : w.step c (.finish i) = some (c.finish i f) := by
    rw [step, hold]
  exact ⟨[.finish i], c.finish i f, Machine.exec_cons hstep [], Collector.finish_phases c i f⟩

/-- A phase that was just set is the phase of the candidate. -/
theorem getElem?_move {old phase : FetchPhase} (hold : c.phases[i]? = some old) :
    (c.move i phase).phases[i]? = some phase :=
  List.getElem?_set_self (List.getElem?_eq_some_iff.mp hold).1

theorem of_fresh {data : List UInt8} (hongoing : c.groupEnd = none)
    (hold : c.phases[i]? = some (.fresh data)) : CanRecord w c i := by
  have hstep : w.step c (.verify i) = some (c.move i (.ended (w.verdict data))) := by
    rw [step, hold]
    dsimp only
    rw [hongoing]
  exact of_step hstep rfl (of_ended (getElem?_move hold))

theorem of_read {data : List UInt8} (hongoing : c.groupEnd = none)
    (hold : c.phases[i]? = some (.read data)) : CanRecord w c i := by
  by_cases hseen : data ∈ c.seen
  · have hstep : w.step c (.add i) = some (c.move i (.ended ⟨none, .skipped, none, []⟩)) := by
      rw [step, hold]
      exact if_pos hseen
    exact of_step hstep rfl (of_ended (getElem?_move hold))
  · have hstep : w.step c (.add i) =
        some { c.move i (.fresh data) with seen := data :: c.seen } := by
      rw [step, hold]
      exact if_neg hseen
    apply of_step hstep rfl
    exact of_fresh hongoing (getElem?_move hold)

theorem of_started (hongoing : c.groupEnd = none) (hlength : c.phases.length = w.keys.length)
    (hold : c.phases[i]? = some .started) : CanRecord w c i := by
  have hlt : i < w.deliveries.length := by
    rw [← length_keys, ← hlength]
    exact (List.getElem?_eq_some_iff.mp hold).1
  have hdelivery : w.deliveries[i]? = some w.deliveries[i] := List.getElem?_eq_getElem hlt
  cases hcase : w.deliveries[i] with
  | ended f =>
    rw [hcase] at hdelivery
    have hstep : w.step c (.arrive i) = some (c.move i (.ended f)) := by
      rw [step, hold, hdelivery]
    exact of_step hstep rfl (of_ended (getElem?_move hold))
  | read data =>
    rw [hcase] at hdelivery
    have hstep : w.step c (.arrive i) = some (c.move i (.read data)) := by
      rw [step, hold, hdelivery]
    exact of_step hstep rfl (of_read hongoing (getElem?_move hold))

theorem of_waiting (hongoing : c.groupEnd = none) (hlength : c.phases.length = w.keys.length)
    (hold : c.phases[i]? = some .waiting)
    (hturn : c.unfinishedBefore i < maxConcurrentCollectFetch) : CanRecord w c i := by
  have hstep : w.step c (.start i) = some (c.move i .started) := by
    rw [step, hold]
    dsimp only
    rw [if_pos hturn, hongoing]
  have hongoing' : (c.move i .started).groupEnd = none := hongoing
  have hlength' : (c.move i .started).phases.length = w.keys.length := by
    rw [← hlength]
    exact List.length_set
  exact of_step hstep rfl (of_started hongoing' hlength' (getElem?_move hold))

end CanRecord

/-- A state that a schedule leads to. -/
def Reached (w : Workload) (c : Collector) : Prop :=
  ∃ schedule, w.machine.exec (.new w.deliveries.length) schedule = some c

theorem Reached.sound (h : Reached w c) : Sound w c := by
  obtain ⟨schedule, hrun⟩ := h
  exact sound_of_exec hrun

theorem Reached.exec (h : Reached w c) {schedule : List ScheduleOp}
    (hrun : w.machine.exec c schedule = some d) : Reached w d := by
  obtain ⟨before, hbefore⟩ := h
  exact ⟨before ++ schedule, (Machine.exec_append hbefore schedule).trans hrun⟩

section Fits

variable (hfits : w.total ≤ maxTotalAttestationSize)

include hfits

/-- The next candidate is recorded. -/
theorem Reached.record (h : Reached w c) {i : Nat} (hold : c.phases[i]? = some .waiting)
    (hturn : c.unfinishedBefore i < maxConcurrentCollectFetch) :
    ∃ schedule d, w.machine.exec c schedule = some d ∧ Reached w d ∧
      d.phases = c.phases.set i .recorded := by
  obtain ⟨owner, settled, hexact⟩ := h.sound.exact hfits
  obtain ⟨schedule, d, hrun, hphases⟩ :=
    CanRecord.of_waiting hexact.ongoing hexact.phases_length hold hturn
  exact ⟨schedule, d, hrun, h.exec hrun, hphases⟩

/-- The candidates in front of `i` are recorded in order, except that those for the key `k` in
front of `j` are held back. -/
theorem exists_held {k : Key} {j : Nat}
    (hcount : (w.keys.take j).count k < maxConcurrentCollectFetch) {i : Nat}
    (hi : i ≤ w.keys.length) :
    ∃ c, Reached w c ∧ ∀ m < w.keys.length, c.phases[m]? =
      some (if m < i ∧ ¬(m < j ∧ w.keys[m]? = some k) then .recorded else .waiting) := by
  induction i with
  | zero =>
    refine ⟨_, ⟨[], rfl⟩, ?_⟩
    intro m hm
    rw [length_keys] at hm
    rw [if_neg (by omega)]
    simp [Collector.new, hm]
  | succ i ih =>
    obtain ⟨c, hreached, hphases⟩ := ih (by omega)
    by_cases hheld : i < j ∧ w.keys[i]? = some k
    · refine ⟨c, hreached, ?_⟩
      intro m hm
      rw [hphases m hm]
      congr 1
      apply if_congr ?_ rfl rfl
      constructor
      · rintro ⟨hlt, hnot⟩
        exact ⟨by omega, hnot⟩
      · rintro ⟨hlt, hnot⟩
        refine ⟨?_, hnot⟩
        by_contra hge
        obtain rfl : m = i := by omega
        exact hnot hheld
    · have hold : c.phases[i]? = some .waiting := by
        rw [hphases i hi, if_neg (by omega)]
      have hturn : c.unfinishedBefore i < maxConcurrentCollectFetch := by
        have hle : c.unfinishedBefore i ≤ ((w.keys.take j).take i).countP (· == k) := by
          apply countP_take_le
          intro m hm phase hphase hunfinished
          rw [hphases m (by omega)] at hphase
          obtain rfl := Option.some.inj hphase
          have hback : m < j ∧ w.keys[m]? = some k := by
            by_contra hnot
            rw [if_pos ⟨hm, hnot⟩] at hunfinished
            cases hunfinished
          refine ⟨k, ?_, beq_self_eq_true k⟩
          rw [List.getElem?_take_of_lt hback.1]
          exact hback.2
        have htake : ((w.keys.take j).take i).countP (· == k) ≤ (w.keys.take j).count k :=
          (List.take_sublist i _).countP_le
        omega
      obtain ⟨-, d, -, hreached', hphases'⟩ := hreached.record hfits hold hturn
      refine ⟨d, hreached', ?_⟩
      intro m hm
      rw [hphases']
      by_cases hm' : i = m
      · subst hm'
        rw [List.getElem?_set_self (List.getElem?_eq_some_iff.mp hold).1,
          if_pos ⟨by omega, hheld⟩]
      · rw [List.getElem?_set_ne hm', hphases m hm]
        congr 1
        apply if_congr ?_ rfl rfl
        refine and_congr_left fun _ => ?_
        omega

/-- When every candidate waits or is recorded, all that wait can be recorded in order. -/
theorem exists_complete (h : Reached w c)
    (hrest : ∀ m < w.keys.length, c.phases[m]? = some .waiting ∨ c.phases[m]? = some .recorded) :
    ∃ schedule d, w.machine.exec c schedule = some d ∧ Reached w d ∧ d.complete := by
  have hfront (i : Nat) (hi : i ≤ w.keys.length) :
      ∃ schedule d, w.machine.exec c schedule = some d ∧ Reached w d ∧
        (∀ m < i, d.phases[m]? = some .recorded) ∧
        ∀ m < w.keys.length, d.phases[m]? = some .waiting ∨ d.phases[m]? = some .recorded := by
    induction i with
    | zero => exact ⟨[], c, rfl, h, nofun, hrest⟩
    | succ i ih =>
      obtain ⟨schedule, d, hrun, hreached, hrecorded, hothers⟩ := ih (by omega)
      rcases hothers i (by omega) with hold | hdone
      · have hturn : d.unfinishedBefore i < maxConcurrentCollectFetch := by
          have hle : d.unfinishedBefore i ≤ (([] : List Nat).take i).countP (fun _ => true) := by
            apply countP_take_le
            intro m hm phase hphase hunfinished
            rw [hrecorded m hm] at hphase
            obtain rfl := Option.some.inj hphase
            cases hunfinished
          simp only [List.take_nil, List.countP_nil] at hle
          rw [maxConcurrentCollectFetch]
          omega
        obtain ⟨schedule', d', hrun', hreached', hphases⟩ := hreached.record hfits hold hturn
        have hlt := (List.getElem?_eq_some_iff.mp hold).1
        refine ⟨schedule ++ schedule', d', ?_, hreached', ?_, ?_⟩
        · exact (Machine.exec_append hrun schedule').trans hrun'
        · intro m hm
          rw [hphases]
          by_cases hm' : i = m
          · subst hm'
            exact List.getElem?_set_self hlt
          · rw [List.getElem?_set_ne hm']
            exact hrecorded m (by omega)
        · intro m hm
          rw [hphases]
          by_cases hm' : i = m
          · subst hm'
            exact .inr (List.getElem?_set_self hlt)
          · rw [List.getElem?_set_ne hm']
            exact hothers m hm
      · refine ⟨schedule, d, hrun, hreached, ?_, hothers⟩
        intro m hm
        by_cases hm' : i = m
        · subst hm'
          exact hdone
        · exact hrecorded m (by omega)
  obtain ⟨schedule, d, hrun, hreached, hrecorded, -⟩ := hfront w.keys.length (le_refl _)
  refine ⟨schedule, d, hrun, hreached, ?_⟩
  intro phase hphase
  obtain ⟨owner, settled, hexact⟩ := hreached.sound.exact hfits
  obtain ⟨m, hm⟩ := List.getElem?_of_mem hphase
  rw [Option.some.inj (hm.symm.trans (hrecorded m (hexact.lt_of_phase hm)))]
  rfl

end Fits

variable {i : Nat}

theorem finish_slots_of_ne {m : Nat} (hne : m ≠ i) (f : Fetched) :
    (c.finish m f).slots[i]? = c.slots[i]? := by
  unfold Collector.finish
  cases f.att with
  | none => rfl
  | some att =>
    dsimp only
    split
    · rfl
    · exact List.getElem?_set_ne hne

/-- A slot that was filled stays as it is. -/
theorem slot_of_exec (hfits : w.total ≤ maxTotalAttestationSize) (h : Reached w c)
    {schedule : List ScheduleOp} (hrun : w.machine.exec c schedule = some d)
    {att : VerifiedAttestation} (hslot : c.slots[i]? = some (some att)) :
    d.slots[i]? = some (some att) := by
  have hkept : Sound w d ∧ d.slots[i]? = some (some att) := by
    apply Machine.exec_preserves (I := fun c => Sound w c ∧ c.slots[i]? = some (some att)) ?_
      ⟨h.sound, hslot⟩ hrun
    rintro s op t ⟨hsound, hfilled⟩ hstep
    refine ⟨sound_step hsound hstep, ?_⟩
    cases effect_of_step hstep with
    | start | skip | arriveEnded | arriveRead | duplicate | claim | verify | cancelled =>
      exact hfilled
    | finish m f hold =>
      obtain ⟨owner, settled, hexact⟩ := hsound.exact hfits
      have hne : m ≠ i := by
        rintro rfl
        obtain ⟨k, slot, -, hslot', hstage⟩ := hexact.at_phase hold
        rw [hslot', hstage.slot_none rfl] at hfilled
        cases hfilled
      rw [finish_slots_of_ne hne]
      exact hfilled
  exact hkept.2

variable {k : Key}

/-- The fetch for the key of a recorded candidate has filled its slot, when no other fetch is
on its way. -/
theorem Exact.filled (h : Exact w owner settled c)
    (hrest : ∀ m < w.keys.length, c.phases[m]? = some .waiting ∨ c.phases[m]? = some .recorded)
    (hkey : w.keys[i]? = some k) (hrecorded : c.phases[i]? = some .recorded) :
    ∃ q : Nat, w.keys[q]? = some k ∧ c.phases[q]? = some .recorded ∧
      c.slots[q]? = some (w.value k) := by
  obtain ⟨k', slot, hkey', -, howned, -⟩ := h.at_phase hrecorded
  obtain rfl := Option.some.inj (hkey.symm.trans hkey')
  obtain ⟨q, howner⟩ := Option.ne_none_iff_exists'.mp howned
  have hq := h.owned k q howner
  obtain ⟨e, phase, slot', hq', hphase, hslot, hstage⟩ :=
    h.candidate (List.getElem?_eq_some_iff.mp hq).1
  obtain rfl := Option.some.inj (hq.symm.trans hq')
  rcases hrest q (List.getElem?_eq_some_iff.mp hq).1 with hwaiting | hdone
  · obtain rfl := Option.some.inj (hwaiting.symm.trans hphase)
    exact absurd howner hstage.1
  · obtain rfl := Option.some.inj (hdone.symm.trans hphase)
    refine ⟨q, hq, hdone, ?_⟩
    rw [hslot, hstage.2, if_pos howner]

/-- A filled slot shows which candidate fetched for its key. -/
theorem Exact.pick_of_slot (h : Exact w owner settled c) (hcomplete : c.complete) {q : Nat}
    (hkey : w.keys[q]? = some k) (hvalue : w.value k ≠ none)
    (hslot : c.slots[q]? = some (w.value k)) : pickOf owner k = q := by
  have hfilled := (h.slot_of_complete hcomplete hkey).2
  have howner : owner k = some q := by
    by_contra hnot
    rw [if_neg hnot, hslot] at hfilled
    exact hvalue (Option.some.inj hfilled)
  rw [pickOf, howner]
  rfl

/-- Some schedule lets an early copy of one bundle fetch for it after another attestation that
is listed in front of that copy. -/
theorem exists_later (hfits : w.total ≤ maxTotalAttestationSize) {e : Key} {j m : Nat}
    (hj : w.keys[j]? = some k) (hm : w.keys[m]? = some e) (hlt : m < j) (hne : e ≠ k)
    (hearly : Early maxConcurrentCollectFetch w.keys j) (hk : w.value k ≠ none)
    (he : w.value e ≠ none) :
    ∃ c owner settled, Reached w c ∧ c.complete ∧ Exact w owner settled c ∧
      pickOf owner e < pickOf owner k := by
  have hjlt := (List.getElem?_eq_some_iff.mp hj).1
  obtain ⟨c, hreached, hphases⟩ := exists_held hfits (hearly k hj) (Nat.succ_le_of_lt hjlt)
  obtain ⟨owner, settled, hexact⟩ := hreached.sound.exact hfits
  have hrest (n : Nat) (hn : n < w.keys.length) :
      c.phases[n]? = some .waiting ∨ c.phases[n]? = some .recorded := by
    rw [hphases n hn]
    split
    · exact .inr rfl
    · exact .inl rfl
  have hdone {n : Nat} (hphase : c.phases[n]? = some .recorded) :
      n < j + 1 ∧ ¬(n < j ∧ w.keys[n]? = some k) := by
    rw [hphases n (hexact.lt_of_phase hphase)] at hphase
    by_contra hnot
    rw [if_neg hnot] at hphase
    cases hphase
  have hrecorded {n : Nat} {x : Key} (hn : w.keys[n]? = some x)
      (hfront : n < j + 1 ∧ ¬(n < j ∧ w.keys[n]? = some k)) :
      c.phases[n]? = some .recorded := by
    rw [hphases n (List.getElem?_eq_some_iff.mp hn).1, if_pos hfront]
  have hmRecorded : c.phases[m]? = some .recorded := by
    apply hrecorded hm
    refine ⟨by omega, fun hheld => hne ?_⟩
    exact Option.some.inj (hm.symm.trans hheld.2)
  obtain ⟨q, hq, hqRecorded, hqSlot⟩ := hexact.filled hrest hm hmRecorded
  obtain ⟨q', hq', hqRecorded', hqSlot'⟩ :=
    hexact.filled hrest hj (hrecorded hj ⟨by omega, by omega⟩)
  have hlast : q' = j := by
    have hfront := hdone hqRecorded'
    by_contra hnot
    exact hfront.2 ⟨by omega, hq'⟩
  have hbefore : q < j := by
    have hfront := hdone hqRecorded
    have hapart : q ≠ j := by
      rintro rfl
      exact hne (Option.some.inj (hq.symm.trans hj))
    omega
  obtain ⟨schedule, d, hrun, hreached', hcomplete⟩ := exists_complete hfits hreached hrest
  obtain ⟨owner', settled', hexact'⟩ := hreached'.sound.exact hfits
  have hkept {n : Nat} {x : Key} (hx : w.value x ≠ none) (hslot : c.slots[n]? = some (w.value x)) :
      d.slots[n]? = some (w.value x) := by
    obtain ⟨att, hatt⟩ := Option.ne_none_iff_exists'.mp hx
    rw [hatt] at hslot ⊢
    exact slot_of_exec hfits hreached hrun hslot
  refine ⟨d, owner', settled', hreached', hcomplete, hexact', ?_⟩
  rw [hexact'.pick_of_slot hcomplete hq he (hkept he hqSlot),
    hexact'.pick_of_slot hcomplete hq' hk (hkept hk hqSlot'), hlast]
  exact hbefore

/-- Attestations of different blobs differ, and where blobs are read only they are attested. -/
theorem value_injective {j : Nat} (hij : i < j) (hi : w.keys[i]? = some k)
    (hj : w.keys[j]? = some k) :
    ∀ a ∈ w.keys, ∀ b ∈ w.keys, w.value a ≠ none → w.value a = w.value b → a = b := by
  have hread : ∃ data, .read data ∈ w.deliveries := by
    cases k with
    | sole n =>
      have := eq_of_keys_sole hi
      have := eq_of_keys_sole hj
      omega
    | blob data =>
      rw [keys_getElem?] at hi
      obtain ⟨delivery, hdelivery, hkey⟩ := Option.map_eq_some_iff.mp hi
      cases delivery with
      | ended f => cases hkey
      | read other => exact ⟨other, List.mem_of_getElem? hdelivery⟩
  obtain ⟨data, hdata⟩ := hread
  have hblob (a : Key) (ha : a ∈ w.keys) (hvalue : w.value a ≠ none) : ∃ data, a = .blob data := by
    cases a with
    | blob other => exact ⟨other, rfl⟩
    | sole n =>
      exfalso
      apply hvalue
      obtain ⟨m, hm⟩ := List.getElem?_of_mem ha
      obtain rfl := eq_of_keys_sole hm
      rw [keys_getElem?] at hm
      obtain ⟨delivery, hdelivery, hkey⟩ := Option.map_eq_some_iff.mp hm
      cases delivery with
      | read other => cases hkey
      | ended f =>
        rw [value, fetched, hdelivery]
        exact w.unmixed f data (List.mem_of_getElem? hdelivery) hdata
  intro a ha b hb hvalue heq
  obtain ⟨left, rfl⟩ := hblob a ha hvalue
  obtain ⟨right, rfl⟩ := hblob b hb (heq ▸ hvalue)
  obtain ⟨att, hatt⟩ := Option.ne_none_iff_exists'.mp hvalue
  have hleft := w.verdict_bundle left att hatt
  have hright := w.verdict_bundle right att (heq.symm.trans hatt)
  rw [← hleft, ← hright]

/-- The result of a collection is the same for all schedules exactly when it is an error, or
no attested candidates interleave. -/
theorem scheduleIndependent_iff (w : Workload) :
    w.ScheduleIndependent ↔ (w.outcomeClass = .success → ¬w.OrderOpen) := by
  have hfits (hsuccess : w.outcomeClass = .success) : w.total ≤ maxTotalAttestationSize := by
    by_contra hlarge
    rw [outcomeClass, if_pos (Nat.lt_of_not_le hlarge)] at hsuccess
    cases hsuccess
  constructor
  · intro hindependent hsuccess hopen
    obtain ⟨i, m, j, k, e, him, hmj, hi, hm, hj, hne, hk, he, hearly, hearly'⟩ := hopen
    obtain ⟨c, owner, settled, ⟨schedule, hrun⟩, hcomplete, hc, hlt⟩ :=
      exists_later (hfits hsuccess) hm hi him hne.symm hearly he hk
    obtain ⟨d, owner', settled', ⟨schedule', hrun'⟩, hcomplete', hd, hlt'⟩ :=
      exists_later (hfits hsuccess) hj hm hmj hne hearly' hk he
    obtain ⟨-, hsame⟩ := hindependent schedule schedule' c d hrun hrun' hcomplete hcomplete'
    have hclass := (errorClass_eq (sound_of_exec hrun) hcomplete).trans hsuccess
    have hlists := hsame hclass
    rw [hc.compactSlots_eq hcomplete, hd.compactSlots_eq hcomplete'] at hlists
    have hgt := lt_of_filterMap_pickedKeys_eq (hc.picks hcomplete)
      (value_injective (by omega) hi hj) hlists (List.mem_of_getElem? hi)
      (List.mem_of_getElem? hm) hk he hlt
    omega
  · intro hclosed schedule schedule' c d hrun hrun' hcomplete hcomplete'
    have hc := sound_of_exec hrun
    have hd := sound_of_exec hrun'
    have hclass := errorClass_eq hc hcomplete
    refine ⟨hclass.trans (errorClass_eq hd hcomplete').symm, ?_⟩
    intro hsuccess
    rw [hclass] at hsuccess
    exact compactSlots_eq_of_not_orderOpen (hclosed hsuccess) hc hd (hfits hsuccess) hcomplete
      hcomplete'

/-- Two bundles, with a second copy of the first. -/
def copiedBundle : Workload where
  deliveries := [.read [1], .read [2], .read [1]]
  verdict data := ⟨some (provenanceAttestation [] data), .verified, none, []⟩
  verdict_bundle data att h := by
    cases h
    rfl
  unmixed f data h _ := by simp at h

/-- The goroutines one after the other. -/
def inListingOrder : List ScheduleOp :=
  [.start 0, .arrive 0, .add 0, .verify 0, .finish 0, .start 1, .arrive 1, .add 1, .verify 1,
    .finish 1, .start 2, .arrive 2, .add 2, .finish 2]

/-- The response for the first candidate arrives last. -/
def firstResponseLast : List ScheduleOp :=
  [.start 0, .start 1, .arrive 1, .add 1, .verify 1, .finish 1, .start 2, .arrive 2, .add 2,
    .verify 2, .finish 2, .arrive 0, .add 0, .finish 0]

/-- One slow response turns the order of two attestations around. -/
theorem slow_response_reorders :
    ∃ c d, copiedBundle.machine.exec (.new 3) inListingOrder = some c ∧
      copiedBundle.machine.exec (.new 3) firstResponseLast = some d ∧
      c.complete ∧ d.complete ∧ c.errorClass = .success ∧ d.errorClass = .success ∧
      c.compactSlots.map (fun att => att.bundle) = [[1], [2]] ∧
      d.compactSlots.map (fun att => att.bundle) = [[2], [1]] ∧
      ¬copiedBundle.ScheduleIndependent := by
  have hruns : ∃ c d, copiedBundle.machine.exec (.new 3) inListingOrder = some c ∧
      copiedBundle.machine.exec (.new 3) firstResponseLast = some d ∧
      c.complete ∧ d.complete ∧ c.errorClass = .success ∧ d.errorClass = .success ∧
      c.compactSlots.map (fun att => att.bundle) = [[1], [2]] ∧
      d.compactSlots.map (fun att => att.bundle) = [[2], [1]] :=
    ⟨_, _, rfl, rfl, by decide, by decide, rfl, rfl, rfl, rfl⟩
  obtain ⟨c, d, hc, hd, hcomplete, hcomplete', hclass, hclass', horder, horder'⟩ := hruns
  refine ⟨c, d, hc, hd, hcomplete, hcomplete', hclass, hclass', horder, horder', ?_⟩
  intro hindependent
  have hsame := (hindependent _ _ c d hc hd hcomplete hcomplete').2 hclass
  rw [hsame, horder'] at horder
  cases horder

end NriSupplyChain.Attestation.Workload

namespace NriSupplyChain.Attestation

open NriSupplyChain.Types Lib

/-- A layer that is opened is not yet a response. -/
def FetchPhase.coarse : FetchPhase → FetchPhase
  | .opened _ => .started
  | phase => phase

/-- The response that a phase shows. -/
def FetchPhase.delivery : FetchPhase → Option Delivery
  | .ended f => some (.ended f)
  | .read data => some (.read data)
  | .waiting | .started | .opened _ | .fresh _ | .recorded => none

namespace Collector

def coarse (c : Collector) : Collector := { c with phases := c.phases.map FetchPhase.coarse }

variable {c d : Collector} {i : Nat}

theorem coarse_phase {phase : FetchPhase} (h : c.phases[i]? = some phase) :
    c.coarse.phases[i]? = some phase.coarse := by
  simp [coarse, h]

theorem coarse_move (c : Collector) (i : Nat) (phase : FetchPhase) :
    (c.move i phase).coarse = c.coarse.move i phase.coarse := by
  simp [coarse, move, List.map_set]

theorem coarse_unfinishedBefore (c : Collector) (i : Nat) :
    c.coarse.unfinishedBefore i = c.unfinishedBefore i := by
  have hsame : FetchPhase.unfinished ∘ FetchPhase.coarse = FetchPhase.unfinished := by
    funext phase
    cases phase <;> rfl
  simp only [unfinishedBefore, coarse, ← List.map_take, List.countP_map, hsame]

theorem coarse_finish (c : Collector) (i : Nat) (f : Fetched) :
    (c.finish i f).coarse = c.coarse.finish i f := by
  unfold finish
  cases f.att with
  | none => simp [coarse, move, List.map_set, FetchPhase.coarse]
  | some att =>
    by_cases hlarge : maxTotalAttestationSize < c.totalSize + att.payload.length <;>
      simp [hlarge, coarse, move, List.map_set, FetchPhase.coarse]

end Collector

namespace Workload

variable {w : Workload} {input : CollectInput} {kind : CollectorKind} {used : Int}
  {c : Collector} {op : CollectorOp} {worked : Worked}

/-- The verifier gives the fixed verdicts. -/
def Judges (w : Workload) (input : CollectInput) (kind : CollectorKind) : Prop :=
  ∀ (i : Nat) cand data, (input.candidates kind)[i]? = some cand →
    verifyReferrer input.lib input.digest none cand data = w.verdict data

/-- A step of a run that is not interrupted, in which goroutines start in their turn and the
responses are the fixed ones. -/
structure Follows (w : Workload) (c : Collector) (op : CollectorOp) (d : Collector) : Prop where
  uninterrupted : ∀ e, c.groupEnd ≠ some (.parent e)
  turn : ∀ i, op = .start i → c.unfinishedBefore i < maxConcurrentCollectFetch
  delivered : ∀ i delivery, (op = .download i ∨ ∃ bytes, op = .openReferrer i bytes) →
    (d.phases[i]?).bind FetchPhase.delivery = some delivery →
    w.deliveries[i]? = some delivery

theorem groupEnd_cases (h : ∀ e, c.groupEnd ≠ some (.parent e)) :
    c.groupEnd = none ∨ c.groupEnd = some .aggregateSize := by
  cases hend : c.groupEnd with
  | none => exact .inl rfl
  | some groupEnd =>
    cases groupEnd with
    | parent e => exact absurd hend (h e)
    | aggregateSize => exact .inr rfl

/-- A step of a collector is a step of the schedule, or opens a layer. -/
theorem step_coarse (hjudges : w.Judges input kind)
    (hstep : c.step input kind used op = some worked)
    (hfollows : w.Follows c op worked.collector) :
    worked.collector.coarse = c.coarse ∨
      ∃ op', w.step c.coarse op' = some worked.collector.coarse := by
  have harrive {i : Nat} {old phase : FetchPhase} {delivery : Delivery}
      (hop : op = .download i ∨ ∃ bytes, op = .openReferrer i bytes)
      (hold : c.phases[i]? = some old) (hcoarse : old.coarse = .started)
      (hphase : phase.delivery = some delivery) (hmoved : worked.collector = c.move i phase) :
      w.step c.coarse (.arrive i) = some worked.collector.coarse := by
    have hset : (c.move i phase).phases[i]? = some phase :=
      List.getElem?_set_self (List.getElem?_eq_some_iff.mp hold).1
    have hdelivery := hfollows.delivered i delivery hop (by rw [hmoved, hset]; exact hphase)
    rw [step, Collector.coarse_phase hold, hcoarse, hdelivery, hmoved, Collector.coarse_move]
    cases phase <;> cases hphase <;> rfl
  cases op with
  | start i =>
    have hturn := hfollows.turn i rfl
    rw [← Collector.coarse_unfinishedBefore] at hturn
    simp only [Collector.step] at hstep
    split at hstep
    · next hold =>
      refine .inr ⟨.start i, ?_⟩
      rw [step, Collector.coarse_phase hold]
      dsimp only [FetchPhase.coarse]
      rw [if_pos hturn]
      split at hstep
      · next hopen =>
        cases hstep
        rw [Collector.coarse_move, show c.coarse.groupEnd = none from hopen]
        rfl
      · next hend =>
        cases hstep
        rw [Collector.coarse_move, show c.coarse.groupEnd = _ from hend]
        rfl
      · next e hend => exact absurd hend (hfollows.uninterrupted e)
    · cases hstep
  | openReferrer i bytes =>
    simp only [Collector.step] at hstep
    split at hstep
    · next hold _ =>
      split at hstep
      · cases hstep
        exact .inr ⟨.arrive i, harrive (.inr ⟨bytes, rfl⟩) hold rfl rfl rfl⟩
      · cases hstep
        left
        have hsame : c.coarse.phases.set i .started = c.coarse.phases :=
          set_eq_self (Collector.coarse_phase hold)
        rw [Collector.coarse_move, Collector.move]
        dsimp only [FetchPhase.coarse]
        rw [hsame]
    · cases hstep
  | download i =>
    simp only [Collector.step] at hstep
    split at hstep
    · next layer hold =>
      split at hstep <;> cases hstep <;>
        exact .inr ⟨.arrive i, harrive (.inl rfl) hold rfl rfl rfl⟩
    · cases hstep
  | add i =>
    simp only [Collector.step] at hstep
    split at hstep
    · next data hold =>
      refine .inr ⟨.add i, ?_⟩
      rw [step, Collector.coarse_phase hold]
      dsimp only [FetchPhase.coarse]
      split at hstep
      · next hseen =>
        cases hstep
        rw [Collector.coarse_move]
        exact if_pos hseen
      · next hnew =>
        cases hstep
        refine (if_neg hnew).trans ?_
        simp [Collector.coarse, Collector.move, List.map_set, FetchPhase.coarse]
    · cases hstep
  | verify i =>
    simp only [Collector.step] at hstep
    split at hstep
    · next data cand hold hcand =>
      cases hstep
      refine .inr ⟨.verify i, ?_⟩
      rw [step, Collector.coarse_phase hold, Collector.coarse_move]
      dsimp only [FetchPhase.coarse]
      rcases groupEnd_cases hfollows.uninterrupted with hopen | hend
      · rw [show c.coarse.groupEnd = none from hopen, hopen, hjudges i cand data hcand]
      · rw [show c.coarse.groupEnd = _ from hend, hend]
        rfl
    · cases hstep
  | finish i =>
    simp only [Collector.step] at hstep
    split at hstep
    · next f hold =>
      cases hstep
      refine .inr ⟨.finish i, ?_⟩
      rw [step, Collector.coarse_phase hold]
      dsimp only [FetchPhase.coarse]
      rw [Collector.coarse_finish]
    · cases hstep

/-- What `Follows` asks of a step of the whole pass. -/
def FollowsPass (w : Workload) (input : CollectInput) (kind : CollectorKind) (s : CollectState) :
    CollectOp → Prop
  | .expire _ => True
  | .cancel other => other ≠ kind
  | .work other op => other = kind → ∀ worked,
      (s.collector kind).step input kind s.used op = some worked →
        w.Follows (s.collector kind) op worked.collector

/-- In a pass whose outcomes are fixed, the steps of one collector form a schedule. -/
theorem exec_coarse (hjudges : w.Judges input kind) {bytes : Int} {ops : List CollectOp}
    {s t : CollectState} (hrun : (collectMachine input bytes).exec s ops = some t)
    (hfollows : (collectMachine input bytes).AllAllowed (w.FollowsPass input kind) s ops) :
    ∃ schedule, w.machine.exec (s.collector kind).coarse schedule =
      some (t.collector kind).coarse := by
  induction ops generalizing s with
  | nil =>
    cases hrun
    exact ⟨[], rfl⟩
  | cons op rest ih =>
    obtain ⟨u, hu, hrest⟩ := Option.bind_eq_some_iff.mp hrun
    obtain ⟨schedule, hschedule⟩ := ih hrest (hfollows.2 u hu)
    have hstep : (u.collector kind).coarse = (s.collector kind).coarse ∨
        ∃ op', w.step (s.collector kind).coarse op' = some (u.collector kind).coarse := by
      have hallowed := hfollows.1
      change s.step input op = some u at hu
      cases op with
      | expire e =>
        rw [CollectState.step] at hu
        split at hu
        · cases hu
        · cases hu
          exact .inl rfl
      | cancel other =>
        obtain ⟨e, -, rfl⟩ := Option.map_eq_some_iff.mp hu
        exact .inl (congrArg Collector.coarse (Function.update_of_ne (Ne.symm hallowed) _ _))
      | work other op =>
        obtain ⟨worked, hworked, rfl⟩ := Option.map_eq_some_iff.mp hu
        by_cases hkind : other = kind
        · subst hkind
          have hcollector : (s.set other worked.collector).collector other =
              worked.collector := Function.update_self _ _ _
          dsimp only
          rw [hcollector]
          exact step_coarse hjudges hworked (hallowed rfl worked hworked)
        · exact .inl (congrArg Collector.coarse (Function.update_of_ne (Ne.symm hkind) _ _))
    rcases hstep with hsame | ⟨op', hop⟩
    · rw [hsame] at hschedule
      exact ⟨schedule, hschedule⟩
    · exact ⟨op' :: schedule, (Machine.exec_cons hop schedule).trans hschedule⟩

/-- So the collector of such a pass is in a state of the fixed outcomes. -/
theorem sound_of_pass (hjudges : w.Judges input kind) {bytes : Int} {ops : List CollectOp}
    {t : CollectState} (hlength : (input.candidates kind).length = w.deliveries.length)
    (hrun : (collectMachine input bytes).exec (.new input bytes) ops = some t)
    (hfollows : (collectMachine input bytes).AllAllowed (w.FollowsPass input kind)
      (.new input bytes) ops) :
    w.Sound (t.collector kind).coarse := by
  obtain ⟨schedule, hschedule⟩ := exec_coarse hjudges hrun hfollows
  have hnew : ((CollectState.new input bytes).collector kind).coarse =
      .new w.deliveries.length := by
    simp [CollectState.new, Collector.coarse, Collector.new, hlength, FetchPhase.coarse]
  rw [hnew] at hschedule
  exact sound_of_exec hschedule

theorem complete_coarse (h : c.complete) : c.coarse.complete := by
  intro phase hphase
  obtain ⟨fine, hfine, rfl⟩ := List.mem_map.mp hphase
  rw [FetchPhase.unfinished_eq_false.mp (h fine hfine)]
  rfl

end Workload

end NriSupplyChain.Attestation
