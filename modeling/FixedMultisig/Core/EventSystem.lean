import Mathlib.Data.List.Basic

/-!
# Runs of a labelled system

A system starts in one of several states and moves by labelled steps.  A run
records every step it takes, with the states before and after it, so that a
statement about a run may speak about all of its steps and about their order.
The rules below are the induction principles of such systems: invariants of
states, properties of all steps of a run, and steps that happen at most once.
-/

namespace FixedMultisig

structure EventSystem (S L : Type*) where
  start : S → Prop
  step : S → L → S → Prop

/-- One step of a run. -/
structure Transition (S L : Type*) where
  source : S
  label : L
  target : S

/-- What one more step adds to the observations of a run. -/
theorem filterMap_concat {A B : Type*} (observe : A → Option B)
    (steps : List A) (move : A) :
    (steps ++ [move]).filterMap observe =
      steps.filterMap observe ++ (observe move).toList := by
  rw [List.filterMap_append]
  cases hmove : observe move <;> simp [hmove]

namespace EventSystem

variable {S L : Type*} {sys : EventSystem S L}

/-- `sys.Run s steps t`: the steps lead from `s` to `t`. -/
inductive Run (sys : EventSystem S L) (s : S) :
    List (Transition S L) → S → Prop
  | nil : Run sys s [] s
  | snoc {steps : List (Transition S L)} {t u : S} {label : L} :
      Run sys s steps t → sys.step t label u →
        Run sys s (steps ++ [⟨t, label, u⟩]) u

theorem Run.cons {s t u : S} {label : L} {steps : List (Transition S L)}
    (hstep : sys.step s label t) (hrun : sys.Run t steps u) :
    sys.Run s (⟨s, label, t⟩ :: steps) u := by
  induction hrun with
  | nil => exact Run.nil.snoc hstep
  | snoc hrun hlast ih => exact ih.snoc hlast

/-- States that some run from a start state ends in. -/
def Reachable (sys : EventSystem S L) (t : S) : Prop :=
  ∃ s steps, sys.start s ∧ sys.Run s steps t

theorem Reachable.of_start {s : S} (hstart : sys.start s) :
    sys.Reachable s :=
  ⟨s, [], hstart, .nil⟩

theorem Reachable.step {t u : S} {label : L} (ht : sys.Reachable t)
    (hstep : sys.step t label u) : sys.Reachable u := by
  obtain ⟨s, steps, hstart, hrun⟩ := ht
  exact ⟨s, _, hstart, hrun.snoc hstep⟩

/-- What holds at the start and is kept by every step with the property `C`
holds after a run in which all steps have this property. -/
theorem Run.invariant {P : S → Prop} {C : Transition S L → Prop} {s t : S}
    {steps : List (Transition S L)} (hrun : sys.Run s steps t)
    (hs : sys.start s) (hstart : P s)
    (hstep : ∀ t label u, sys.Reachable t → P t → C ⟨t, label, u⟩ →
      sys.step t label u → P u)
    (hall : ∀ move ∈ steps, C move) : P t := by
  induction hrun with
  | nil => exact hstart
  | snoc hrun htu ih =>
      have hbefore := ih fun move hmove =>
        hall move (List.mem_append_left _ hmove)
      have hlast := hall _ (List.mem_append_right _ (List.mem_singleton.2 rfl))
      exact hstep _ _ _ ⟨s, _, hs, hrun⟩ hbefore hlast htu

/-- What holds at the start and is kept by every step holds in every
reachable state. -/
theorem Reachable.invariant {P : S → Prop} {t : S} (ht : sys.Reachable t)
    (hstart : ∀ s, sys.start s → P s)
    (hstep : ∀ t label u, sys.Reachable t → P t → sys.step t label u → P u) :
    P t := by
  obtain ⟨s, steps, hs, hrun⟩ := ht
  exact hrun.invariant (C := fun _ => True) hs (hstart s hs)
    (fun t label u ht hP _ htu => hstep t label u ht hP htu)
    (fun _ _ => trivial)

/-- Every step of a run is a step of the system from a reachable state. -/
theorem Run.forall_mem {s t : S} {steps : List (Transition S L)}
    (hrun : sys.Run s steps t) (hs : sys.start s) :
    ∀ move ∈ steps, sys.Reachable move.source ∧
      sys.step move.source move.label move.target := by
  induction hrun with
  | nil => simp
  | snoc hrun hstep ih =>
      intro move hmove
      rw [List.mem_append, List.mem_singleton] at hmove
      rcases hmove with hmove | rfl
      · exact ih move hmove
      · exact ⟨⟨s, _, hs, hrun⟩, hstep⟩

/-- A run can be cut before any of its steps. -/
theorem Run.split {s t : S} {before after : List (Transition S L)}
    {move : Transition S L} (hrun : sys.Run s (before ++ move :: after) t) :
    sys.Run s before move.source ∧
      sys.step move.source move.label move.target := by
  generalize hsteps : before ++ move :: after = steps at hrun
  induction hrun generalizing after with
  | nil => simp at hsteps
  | snoc hrun hstep ih =>
      rcases List.eq_nil_or_concat after with rfl | ⟨rest, last, rfl⟩
      · obtain ⟨rfl, hlast⟩ := List.append_inj' hsteps rfl
        obtain rfl := (List.cons.inj hlast).1
        exact ⟨hrun, hstep⟩
      · rw [List.concat_eq_append, ← List.cons_append,
          ← List.append_assoc] at hsteps
        exact ih (List.append_inj' hsteps rfl).1

/-- A measure that every step raises bounds the length of a run. -/
theorem Run.measure_add_length_le {s t : S} {steps : List (Transition S L)}
    (hrun : sys.Run s steps t) (measure : S → ℕ)
    (hraise : ∀ t label u, sys.step t label u → measure t < measure u) :
    measure s + steps.length ≤ measure t := by
  induction hrun with
  | nil => exact Nat.le_refl _
  | snoc hrun hstep ih =>
      have hlast := hraise _ _ _ hstep
      rw [List.length_append, List.length_singleton]
      omega

/-- An event that needs a state outside `Done` and leads into the stable set
`Done` occurs at most once in a run. -/
theorem Run.countP_le_one {s t : S} {steps : List (Transition S L)}
    (hrun : sys.Run s steps t) (hs : sys.start s)
    (event : Transition S L → Bool) (Done : S → Prop)
    (henabled : ∀ t label u, sys.Reachable t → sys.step t label u →
      event ⟨t, label, u⟩ → ¬ Done t ∧ Done u)
    (hstable : ∀ t label u, sys.Reachable t → sys.step t label u → Done t →
      Done u) :
    steps.countP event ≤ 1 ∧ (0 < steps.countP event → Done t) := by
  induction hrun with
  | nil => simp
  | @snoc steps t u label hrun hstep ih =>
      have ht : sys.Reachable t := ⟨s, steps, hs, hrun⟩
      rw [List.countP_append, List.countP_singleton]
      by_cases hevent : event ⟨t, label, u⟩ = true
      · have hdone := henabled t label u ht hstep hevent
        have hnone : steps.countP event = 0 :=
          Nat.eq_zero_of_not_pos fun hpos => hdone.1 (ih.2 hpos)
        simp [hevent, hnone, hdone.2]
      · simp only [hevent, Bool.false_eq_true, if_false, Nat.add_zero]
        exact ⟨ih.1, fun hpos => hstable t label u ht hstep (ih.2 hpos)⟩

end EventSystem

end FixedMultisig
