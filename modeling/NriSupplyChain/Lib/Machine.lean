import Mathlib.Tactic

/-!
Labelled state machines and their runs. Every choice the outside world makes
(which caller moves, what a clock reads, how a request ends) is part of the
label, so `step` itself is an executable partial function and a run is a list
of labels. The rules below turn one step lemma into a statement about every
run, with or without a condition on the steps the run may take.
-/

namespace NriSupplyChain.Lib

structure Machine (σ : Type*) (ε : Type*) where
  initial : σ → Prop
  step : σ → ε → Option σ

namespace Machine

variable {σ ε : Type*}

/-- Run a list of labels. A label that is not enabled ends the run with
`none`, so `some` means that every label was taken. -/
def exec (m : Machine σ ε) : σ → List ε → Option σ
  | s, [] => some s
  | s, e :: rest => (m.step s e).bind (fun next => m.exec next rest)

/-- States reached by runs whose steps all satisfy `allowed`. -/
inductive ReachableVia (m : Machine σ ε) (allowed : σ → ε → Prop) : σ → Prop where
  | start {s : σ} : m.initial s → ReachableVia m allowed s
  | next {s t : σ} {e : ε} : ReachableVia m allowed s → allowed s e →
      m.step s e = some t → ReachableVia m allowed t

def Reachable (m : Machine σ ε) : σ → Prop :=
  m.ReachableVia (fun _ _ => True)

variable {I : σ → Prop} {allowed : σ → ε → Prop} {m : Machine σ ε} {s : σ}

/-- The invariant rule: what holds initially and survives every allowed step
holds in every state that allowed steps reach. -/
theorem ReachableVia.invariant (hinit : ∀ s, m.initial s → I s)
    (hstep : ∀ s e t, I s → allowed s e → m.step s e = some t → I t)
    (h : m.ReachableVia allowed s) : I s := by
  induction h with
  | start hs => exact hinit _ hs
  | next _ hallowed hnext ih => exact hstep _ _ _ ih hallowed hnext

theorem Reachable.invariant (hinit : ∀ s, m.initial s → I s)
    (hstep : ∀ s e t, I s → m.step s e = some t → I t) (h : m.Reachable s) : I s :=
  ReachableVia.invariant hinit (fun s e t hi _ => hstep s e t hi) h

/-- Every label of the list is allowed in the state it is taken in. -/
def AllAllowed (m : Machine σ ε) (allowed : σ → ε → Prop) : σ → List ε → Prop
  | _, [] => True
  | s, e :: rest => allowed s e ∧ ∀ t, m.step s e = some t → m.AllAllowed allowed t rest

variable {labels : List ε}

/-- Labels that are allowed in every state form an allowed list. -/
theorem AllAllowed.of_forall (h : ∀ e ∈ labels, ∀ s, allowed s e) (s : σ) :
    m.AllAllowed allowed s labels := by
  induction labels generalizing s with
  | nil => trivial
  | cons e rest ih =>
    refine ⟨h e (by simp) s, ?_⟩
    intro t _
    exact ih (fun e' he' => h e' (List.mem_cons_of_mem e he')) t

variable {t : σ}

theorem AllAllowed.cons {e : ε} {rest : List ε} (hstep : m.step s e = some t)
    (hallowed : allowed s e) (hrest : m.AllAllowed allowed t rest) :
    m.AllAllowed allowed s (e :: rest) := by
  refine ⟨hallowed, fun u hu => ?_⟩
  cases hstep.symm.trans hu
  exact hrest

/-- Running allowed labels from a reachable state ends in a reachable state. -/
theorem ReachableVia.exec (h : m.ReachableVia allowed s) (hallowed : m.AllAllowed allowed s labels)
    (hrun : m.exec s labels = some t) : m.ReachableVia allowed t := by
  induction labels generalizing s with
  | nil =>
    cases hrun
    exact h
  | cons e rest ih =>
    obtain ⟨u, hu, hrest⟩ := Option.bind_eq_some_iff.mp hrun
    exact ih (h.next hallowed.1 hu) (hallowed.2 u hu) hrest

theorem Reachable.exec (h : m.Reachable s) (hrun : m.exec s labels = some t) : m.Reachable t :=
  ReachableVia.exec h (AllAllowed.of_forall (fun _ _ _ => trivial) s) hrun

/-- What one step preserves, a whole run preserves. -/
theorem exec_preserves (hstep : ∀ s e t, I s → m.step s e = some t → I t) (h : I s)
    (hrun : m.exec s labels = some t) : I t := by
  induction labels generalizing s with
  | nil =>
    cases hrun
    exact h
  | cons e rest ih =>
    obtain ⟨u, hu, hrest⟩ := Option.bind_eq_some_iff.mp hrun
    exact ih (hstep s e u h hu) hrest

theorem exec_cons {e : ε} (hstep : m.step s e = some t) (rest : List ε) :
    m.exec s (e :: rest) = m.exec t rest := by
  rw [exec, hstep]
  rfl

theorem exec_append (hrun : m.exec s labels = some t) (rest : List ε) :
    m.exec s (labels ++ rest) = m.exec t rest := by
  induction labels generalizing s with
  | nil =>
    cases hrun
    rfl
  | cons e labels ih =>
    obtain ⟨u, hu, hlabels⟩ := Option.bind_eq_some_iff.mp hrun
    rw [List.cons_append, exec_cons hu]
    exact ih hlabels

/-- A run can be extended by one step. -/
theorem exec_concat {u : σ} {e : ε} (hrun : m.exec s labels = some t)
    (hstep : m.step t e = some u) : m.exec s (labels ++ [e]) = some u := by
  rw [exec_append hrun, exec_cons hstep]
  rfl

/-- `P` holds in every state a list of labels passes through. -/
def Always (m : Machine σ ε) (P : σ → Prop) : σ → List ε → Prop
  | s, [] => P s
  | s, e :: rest => P s ∧ ∀ t, m.step s e = some t → m.Always P t rest

variable {P : σ → Prop}

theorem Always.head (h : m.Always P s labels) : P s := by
  cases labels with
  | nil => exact h
  | cons e rest => exact h.1

/-- If a step keeps `P` exactly when it is allowed, a run keeps `P` exactly when
all its steps are allowed. -/
theorem always_iff_allAllowed (hinv : ∀ s e t, I s → m.step s e = some t → I t)
    (hstep : ∀ s e t, I s → P s → m.step s e = some t → (P t ↔ allowed s e)) (hI : I s) (hP : P s)
    (hrun : m.exec s labels = some t) : m.Always P s labels ↔ m.AllAllowed allowed s labels := by
  induction labels generalizing s with
  | nil => exact ⟨fun _ => trivial, fun _ => hP⟩
  | cons e rest ih =>
    obtain ⟨u, hu, hrest⟩ := Option.bind_eq_some_iff.mp hrun
    have hkeeps := hstep s e u hI hP hu
    have hnext (hPu : P u) := ih (hinv s e u hI hu) hPu hrest
    constructor
    · intro h
      have hu' := h.2 u hu
      refine ⟨hkeeps.mp hu'.head, ?_⟩
      intro w hw
      cases hu.symm.trans hw
      exact (hnext hu'.head).mp hu'
    · intro h
      refine ⟨hP, ?_⟩
      intro w hw
      cases hu.symm.trans hw
      exact (hnext (hkeeps.mpr h.1)).mpr (h.2 u hu)

/-- What survives a step exactly when it is allowed, and never comes back, holds
after a run exactly when it held before and all steps of the run were allowed. -/
theorem exec_iff_of_invariant (hinv : ∀ s e t, I s → m.step s e = some t → I t)
    (hstep : ∀ s e t, I s → m.step s e = some t → (P t ↔ P s ∧ allowed s e)) (hI : I s)
    (hrun : m.exec s labels = some t) : P t ↔ P s ∧ m.AllAllowed allowed s labels := by
  induction labels generalizing s with
  | nil =>
    cases hrun
    exact ⟨fun h => ⟨h, trivial⟩, And.left⟩
  | cons e rest ih =>
    obtain ⟨u, hu, hrest⟩ := Option.bind_eq_some_iff.mp hrun
    rw [ih (hinv s e u hI hu) hrest, hstep s e u hI hu, and_assoc]
    refine and_congr_right fun _ => ⟨?_, ?_⟩
    · rintro ⟨hallowed, htail⟩
      refine ⟨hallowed, ?_⟩
      intro w hw
      cases hu.symm.trans hw
      exact htail
    · intro h
      exact ⟨h.1, h.2 u hu⟩

theorem exec_iff_allAllowed (hstep : ∀ s e t, m.step s e = some t → (P t ↔ P s ∧ allowed s e))
    (hrun : m.exec s labels = some t) : P t ↔ P s ∧ m.AllAllowed allowed s labels :=
  exec_iff_of_invariant (I := fun _ => True) (fun _ _ _ _ _ => trivial)
    (fun s e t _ => hstep s e t) trivial hrun

/-- Under an invariant, two conditions that mean the same for each step mean the same for a
whole run. -/
theorem allAllowed_congr {allowed' : σ → ε → Prop} (hinv : ∀ s e t, I s → m.step s e = some t → I t)
    (hsame : ∀ s e t, I s → m.step s e = some t → (allowed s e ↔ allowed' s e)) (hI : I s)
    (hrun : m.exec s labels = some t) :
    m.AllAllowed allowed s labels ↔ m.AllAllowed allowed' s labels := by
  induction labels generalizing s with
  | nil => exact Iff.rfl
  | cons e rest ih =>
    obtain ⟨u, hu, hrest⟩ := Option.bind_eq_some_iff.mp hrun
    refine and_congr (hsame s e u hI hu) (forall_congr' fun w => ?_)
    refine imp_congr_right fun hw => ?_
    cases hu.symm.trans hw
    exact ih (hinv s e u hI hu) hrest

/-- Some step of the run made something so, and all steps after it were allowed. -/
def Since (m : Machine σ ε) (makes allowed : σ → ε → Prop) : σ → List ε → Prop
  | _, [] => False
  | s, e :: rest => ∃ t, m.step s e = some t ∧
      (makes s e ∧ m.AllAllowed allowed t rest ∨ m.Since makes allowed t rest)

/-- What holds after a run held all along, or since a step that made it so. -/
theorem exec_since {makes : σ → ε → Prop} (hinv : ∀ s e t, I s → m.step s e = some t → I t)
    (hstep : ∀ s e t, I s → m.step s e = some t → P t → P s ∧ allowed s e ∨ makes s e) (hI : I s)
    (hrun : m.exec s labels = some t) (hP : P t) :
    P s ∧ m.AllAllowed allowed s labels ∨ m.Since makes allowed s labels := by
  induction labels generalizing s with
  | nil =>
    cases hrun
    exact .inl ⟨hP, trivial⟩
  | cons e rest ih =>
    obtain ⟨u, hu, hrest⟩ := Option.bind_eq_some_iff.mp hrun
    rcases ih (hinv s e u hI hu) hrest with ⟨hPu, hafter⟩ | hsince
    · rcases hstep s e u hI hu hPu with ⟨hPs, hallowed⟩ | hmakes
      · exact .inl ⟨hPs, .cons hu hallowed hafter⟩
      · exact .inr ⟨u, hu, .inl ⟨hmakes, hafter⟩⟩
    · exact .inr ⟨u, hu, .inr hsince⟩

/-- The machine with a history that every step extends. -/
def observed {η : Type*} (m : Machine σ ε) (note : σ → ε → η → η) (start : η) :
    Machine (σ × η) ε where
  initial x := m.initial x.1 ∧ x.2 = start
  step x e := (m.step x.1 e).map fun t => (t, note x.1 e x.2)

/-- A history does not restrict the runs. -/
theorem exec_observed {η : Type*} (note : σ → ε → η → η) (start : η)
    (hrun : m.exec s labels = some t) (h : η) :
    ∃ h', (m.observed note start).exec (s, h) labels = some (t, h') := by
  induction labels generalizing s h with
  | nil =>
    cases hrun
    exact ⟨h, rfl⟩
  | cons e rest ih =>
    obtain ⟨u, hu, hrest⟩ := Option.bind_eq_some_iff.mp hrun
    obtain ⟨h', hh'⟩ := ih hrest (note s e h)
    refine ⟨h', ?_⟩
    rw [exec_cons (t := (u, note s e h))]
    · exact hh'
    · show (m.step s e).map _ = _
      rw [hu]
      rfl

end Machine

end NriSupplyChain.Lib
