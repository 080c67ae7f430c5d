import Mathlib.Algebra.Order.Monoid.Canonical.Defs
import Mathlib.Algebra.BigOperators.Group.List.Basic
import Mathlib.Data.Sigma.Order
import Mathlib.Order.Bounds.Basic
import Mathlib.Order.WithBot

/-!
# Moments on several clocks

A system may run on more than one clock.  A moment is a reading of one of the
clocks, or never, which is later than everything; readings of different clocks
are not ordered.  So two moments have a common earlier one only if they can be
compared at all.  A moment can be put off by a span on its own clock; never can
be put off by anything and stays never.
-/

namespace FixedMultisig

abbrev Moment (K T : Type*) := WithTop (Σ _ : K, T)

namespace Moment

variable {K T : Type*}

/-- A reading of a clock. -/
def of (clock : K) (time : T) : Moment K T :=
  WithTop.some ⟨clock, time⟩

@[simp]
theorem of_inj {clock clock' : K} {time time' : T} :
    of clock time = of clock' time' ↔ clock = clock' ∧ time = time' := by
  simp [of]

@[simp]
theorem of_ne_top {clock : K} {time : T} : of clock time ≠ ⊤ :=
  WithTop.coe_ne_top

section Order

variable [PartialOrder T] {clock clock' : K} {time time' : T}

@[simp]
theorem of_le_of_iff :
    of clock time ≤ of clock' time' ↔ clock = clock' ∧ time ≤ time' := by
  rw [of, of, WithTop.coe_le_coe]
  constructor
  · rintro ⟨clock, time, time', hle⟩
    exact ⟨rfl, hle⟩
  · rintro ⟨rfl, hle⟩
    exact .fiber _ _ _ hle

@[simp]
theorem of_lt_of_iff :
    of clock time < of clock' time' ↔ clock = clock' ∧ time < time' := by
  rw [of, of, WithTop.coe_lt_coe]
  constructor
  · rintro ⟨clock, time, time', hlt⟩
    exact ⟨rfl, hlt⟩
  · rintro ⟨rfl, hlt⟩
    exact .fiber _ _ _ hlt

@[simp]
theorem of_lt_top : of clock time < ⊤ := WithTop.coe_lt_top _

@[simp]
theorem not_top_le_of : ¬ (⊤ : Moment K T) ≤ of clock time :=
  of_lt_top.not_ge

/-- The earlier of two comparable moments is their greatest lower bound. -/
theorem isGLB_of_le {earlier later : Moment K T} (hle : earlier ≤ later) :
    IsGLB {earlier, later} earlier := by
  constructor
  · rintro _ (rfl | rfl)
    · exact le_rfl
    · exact hle
  · intro bound hbound
    exact hbound (Set.mem_insert _ _)

/-- Readings of different clocks have no common earlier moment. -/
theorem not_isGLB_of_ne (hclock : clock ≠ clock') (bound : Moment K T) :
    ¬ IsGLB {of clock time, of clock' time'} bound := by
  rintro ⟨hbound, -⟩
  have hleft := hbound (Set.mem_insert (of clock time) {of clock' time'})
  have hright := hbound (Set.mem_insert_of_mem (of clock time)
    (Set.mem_singleton (of clock' time')))
  induction bound with
  | none => exact absurd hleft of_lt_top.not_ge
  | some reading =>
      obtain ⟨middle, reading⟩ := reading
      exact hclock ((of_le_of_iff.1 hleft).1.symm.trans
        (of_le_of_iff.1 hright).1)

end Order

/-- Moments that cannot be compared have no greatest lower bound. -/
theorem not_isGLB_of_not_le [LinearOrder T] {left right : Moment K T}
    (hleft : ¬ left ≤ right) (hright : ¬ right ≤ left) (bound : Moment K T) :
    ¬ IsGLB {left, right} bound := by
  induction left with
  | none => exact absurd le_top hright
  | some reading =>
      induction right with
      | none => exact absurd le_top hleft
      | some reading' =>
          obtain ⟨clock, time⟩ := reading
          obtain ⟨clock', time'⟩ := reading'
          apply not_isGLB_of_ne
          rintro rfl
          rcases le_total time time' with hle | hle
          · exact hleft (of_le_of_iff.2 ⟨rfl, hle⟩)
          · exact hright (of_le_of_iff.2 ⟨rfl, hle⟩)

section Advance

variable [DecidableEq K] [AddMonoid T] {clock : K} {time : T}

/-- Put off by a span on a clock. -/
def advance (moment : Moment K T) (span : K × T) : Option (Moment K T) :=
  match moment with
  | none => some ⊤
  | some ⟨clock, time⟩ =>
      if span.1 = clock then some (of clock (time + span.2)) else none

theorem advance_top (span : K × T) :
    (⊤ : Moment K T).advance span = some ⊤ := rfl

theorem advance_of (span : K × T) :
    (of clock time).advance span =
      if span.1 = clock then some (of clock (time + span.2)) else none := rfl

theorem foldlM_advance_top (spans : List (K × T)) :
    spans.foldlM advance (⊤ : Moment K T) = some ⊤ := by
  induction spans with
  | nil => rfl
  | cons span spans ih =>
      rw [List.foldlM_cons, advance_top]
      exact ih

/-- Putting off again and again is putting off by the sum, as long as all spans
are on one clock. -/
theorem foldlM_advance_of (spans : List (K × T)) {moment : Moment K T} :
    spans.foldlM advance (of clock time) = some moment ↔
      (∀ span ∈ spans, span.1 = clock) ∧
        moment = of clock (time + (spans.map Prod.snd).sum) := by
  induction spans generalizing time with
  | nil => simp [eq_comm]
  | cons span spans ih =>
      rw [List.foldlM_cons, advance_of]
      by_cases hclock : span.1 = clock
      · rw [if_pos hclock]
        change spans.foldlM advance _ = some moment ↔ _
        rw [ih, List.forall_mem_cons, List.map_cons, List.sum_cons, add_assoc,
          and_assoc]
        exact (and_iff_right hclock).symm
      · rw [if_neg hclock, List.forall_mem_cons]
        simp [hclock]

end Advance

end Moment

end FixedMultisig
