import Mathlib.Algebra.BigOperators.Group.List.Basic

/-!
# Tallies that stop at a verdict

Contributions are added to a running total one at a time, and the count stops
at the first total that has a verdict: later contributions are not counted.
Which contributions are counted depends on their order.  The verdict does not,
provided that a verdict once reached is never changed by a further
contribution.
-/

namespace FixedMultisig.SettledTally

variable {T D : Type*} [AddCommMonoid T]

/-- The verdict at which the count stops, if it stops. -/
def settle (verdict : T → Option D) : T → List T → Option D
  | total, [] => verdict total
  | total, part :: parts =>
      match verdict total with
      | some decision => some decision
      | none => settle verdict (total + part) parts

/-- A verdict that no further contribution changes, as long as the total stays
admissible. -/
structure Persistent (verdict : T → Option D) (Admissible : T → Prop) :
    Prop where
  keep : ∀ total part decision, Admissible (total + part) →
    verdict total = some decision → verdict (total + part) = some decision

variable {verdict : T → Option D} {Admissible : T → Prop}

/-- A total with a verdict takes no further contributions. -/
theorem settle_of_verdict {total : T} {decision : D}
    (hverdict : verdict total = some decision) (parts : List T) :
    settle verdict total parts = some decision := by
  cases parts with
  | nil => exact hverdict
  | cons part parts => rw [settle, hverdict]

/-- A persistent verdict is the verdict on everything submitted, counted or
not. -/
theorem settle_eq_verdict (hpersistent : Persistent verdict Admissible)
    {total : T} {parts : List T} (hadmissible : Admissible (total + parts.sum)) :
    settle verdict total parts = verdict (total + parts.sum) := by
  induction parts generalizing total with
  | nil => simp [settle]
  | cons part parts ih =>
      rw [List.sum_cons, ← add_assoc] at hadmissible
      rw [settle]
      cases hverdict : verdict total with
      | none =>
          rw [List.sum_cons, ← add_assoc]
          exact ih hadmissible
      | some decision =>
          rw [List.sum_cons]
          rw [add_assoc] at hadmissible
          exact (hpersistent.keep total _ decision hadmissible hverdict).symm

/-- The order of submission does not change the verdict. -/
theorem settle_perm (hpersistent : Persistent verdict Admissible)
    {total : T} {parts parts' : List T} (hperm : parts.Perm parts')
    (hadmissible : Admissible (total + parts.sum)) :
    settle verdict total parts = settle verdict total parts' := by
  rw [settle_eq_verdict hpersistent hadmissible, hperm.sum_eq]
  rw [hperm.sum_eq] at hadmissible
  rw [settle_eq_verdict hpersistent hadmissible]

end FixedMultisig.SettledTally
