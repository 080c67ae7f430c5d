import Mathlib.Algebra.Order.Floor.Div
import Mathlib.Order.Bounds.Defs
import Mathlib.Tactic.Ring
import Mathlib.Tactic.Linarith

/-!
# A share rounded twice

A fraction `share / unit` of a whole number is taken in fixed-point arithmetic:
the number is first scaled up, the product is truncated at the scaled
precision, and the truncated value is rounded up to a whole number.  The two
roundings point in opposite directions.  This file proves what survives them:
the order, the bound by the whole, and the fact that two complementary shares
together cover the whole and exceed it by one at most.
-/

namespace FixedMultisig.NestedRounding

variable {scale unit whole share : ℕ}

/-- The share truncated at precision `1 / scale`, counted in units of
`1 / scale`. -/
def scaledShare (scale unit whole share : ℕ) : ℕ :=
  scale * whole * share / unit

/-- The truncated share rounded up to a whole number. -/
def nestedCeil (scale unit whole share : ℕ) : ℕ :=
  scaledShare scale unit whole share ⌈/⌉ scale

theorem scaledShare_mono {whole' share' : ℕ} (hwhole : whole ≤ whole')
    (hshare : share ≤ share') :
    scaledShare scale unit whole share ≤
      scaledShare scale unit whole' share' :=
  Nat.div_le_div_right
    (Nat.mul_le_mul (Nat.mul_le_mul_left scale hwhole) hshare)

/-- What is counted in units of `1 / scale` is covered by the rounded share. -/
theorem scaledShare_le (hscale : 0 < scale) (whole share : ℕ) :
    scaledShare scale unit whole share ≤
      scale * nestedCeil scale unit whole share :=
  (ceilDiv_le_iff_le_mul hscale).1 le_rfl

/-- Rounding up adds less than one. -/
theorem mul_nestedCeil_lt (hscale : 0 < scale) (whole share : ℕ) :
    scale * nestedCeil scale unit whole share <
      scaledShare scale unit whole share + scale := by
  rw [nestedCeil, Nat.ceilDiv_eq_add_pred_div]
  have hround := Nat.mul_div_le
    (scaledShare scale unit whole share + scale - 1) scale
  omega

/-- A bound on the rounded share is a bound on the truncated one. -/
theorem nestedCeil_le_iff (hscale : 0 < scale) {bound : ℕ} :
    nestedCeil scale unit whole share ≤ bound ↔
      scaledShare scale unit whole share ≤ scale * bound :=
  ceilDiv_le_iff_le_mul hscale

/-- Rounding twice is monotone in the whole and in the share. -/
theorem nestedCeil_mono (hscale : 0 < scale) {whole' share' : ℕ}
    (hwhole : whole ≤ whole') (hshare : share ≤ share') :
    nestedCeil scale unit whole share ≤
      nestedCeil scale unit whole' share' := by
  rw [nestedCeil_le_iff hscale]
  exact (scaledShare_mono hwhole hshare).trans (scaledShare_le hscale _ _)

/-- A proper share never exceeds the whole. -/
theorem nestedCeil_le_whole (hscale : 0 < scale) (hshare : share ≤ unit) :
    nestedCeil scale unit whole share ≤ whole := by
  rw [nestedCeil_le_iff hscale]
  apply Nat.div_le_of_le_mul
  calc
    scale * whole * share ≤ scale * whole * unit :=
      Nat.mul_le_mul_left _ hshare
    _ = unit * (scale * whole) := Nat.mul_comm _ _

/-- Enlarging the whole enlarges a proper share by no more than that. -/
theorem nestedCeil_add_le (hscale : 0 < scale) (hunit : 0 < unit)
    (hshare : share ≤ unit) (whole more : ℕ) :
    nestedCeil scale unit (whole + more) share ≤
      nestedCeil scale unit whole share + more := by
  rw [nestedCeil_le_iff hscale, Nat.mul_add]
  have hcover : scaledShare scale unit whole share ≤
      scale * nestedCeil scale unit whole share :=
    scaledShare_le hscale whole share
  have hsplit : scaledShare scale unit (whole + more) share ≤
      scaledShare scale unit whole share + scale * more := by
    rw [scaledShare, scaledShare, ← Nat.add_mul_div_left _ _ hunit]
    apply Nat.div_le_div_right
    calc
      scale * (whole + more) * share =
          scale * whole * share + scale * more * share := by ring
      _ ≤ scale * whole * share + scale * more * unit :=
        Nat.add_le_add_left (Nat.mul_le_mul_left _ hshare) _
      _ = scale * whole * share + unit * (scale * more) := by ring
  omega

/-- The rounded share vanishes exactly when the truncation already does. -/
theorem nestedCeil_eq_zero_iff (hscale : 0 < scale) (hunit : 0 < unit) :
    nestedCeil scale unit whole share = 0 ↔ scale * whole * share < unit := by
  rw [← Nat.le_zero, nestedCeil_le_iff hscale, Nat.mul_zero, Nat.le_zero,
    scaledShare, Nat.div_eq_zero_iff]
  omega

@[simp]
theorem nestedCeil_zero_whole (scale unit share : ℕ) :
    nestedCeil scale unit 0 share = 0 := by
  simp [nestedCeil, scaledShare]

/-- A half or more of a positive whole does not round to nothing. -/
theorem nestedCeil_pos (hscale : 1 < scale) (hunit : 0 < unit)
    (hwhole : 0 < whole) (hshare : unit ≤ 2 * share) :
    0 < nestedCeil scale unit whole share := by
  rw [Nat.pos_iff_ne_zero, Ne, nestedCeil_eq_zero_iff (by omega) hunit,
    Nat.not_lt]
  calc
    unit ≤ 2 * 1 * share := by simpa using hshare
    _ ≤ scale * whole * share :=
      Nat.mul_le_mul_right _ (Nat.mul_le_mul hscale hwhole)

/-- With a unit of `scale * fine`, the truncation drops what lies below
`fine`. -/
theorem nestedCeil_le_iff_lt {fine bound : ℕ} (hscale : 0 < scale)
    (hfine : 0 < fine) :
    nestedCeil scale (scale * fine) whole share ≤ bound ↔
      whole * share < scale * fine * bound + fine := by
  rw [nestedCeil_le_iff hscale, scaledShare, Nat.mul_assoc,
    Nat.mul_div_mul_left _ _ hscale, ← Nat.lt_succ_iff,
    Nat.div_lt_iff_lt_mul hfine]
  have hsplit : (scale * bound + 1) * fine = scale * fine * bound + fine := by
    ring
  rw [Nat.succ_eq_add_one, hsplit]

/-- Rounding twice rounds up exactly, unless all that exceeds a whole number is
dropped by the truncation. -/
theorem isLeast_nestedCeil_iff {fine : ℕ} (hscale : 0 < scale)
    (hfine : 0 < fine) :
    IsLeast {bound | whole * share ≤ bound * (scale * fine)}
        (nestedCeil scale (scale * fine) whole share) ↔
      whole * share % (scale * fine) = 0 ∨
        fine ≤ whole * share % (scale * fine) := by
  have hle : ∀ bound, nestedCeil scale (scale * fine) whole share ≤ bound ↔
      whole * share < scale * fine * bound + fine := fun bound =>
    nestedCeil_le_iff_lt hscale hfine
  have hlower : nestedCeil scale (scale * fine) whole share ∈
      lowerBounds {bound | whole * share ≤ bound * (scale * fine)} := by
    intro bound hbound
    have hbound' : whole * share ≤ bound * (scale * fine) := hbound
    rw [Nat.mul_comm bound] at hbound'
    exact (hle bound).2 (by omega)
  rw [IsLeast, and_iff_left hlower]
  change whole * share ≤
    nestedCeil scale (scale * fine) whole share * (scale * fine) ↔ _
  rw [Nat.mul_comm (nestedCeil scale (scale * fine) whole share)]
  have hunit : fine ≤ scale * fine := Nat.le_mul_of_pos_left fine hscale
  have hdivision := Nat.div_add_mod (whole * share) (scale * fine)
  have hrest := Nat.mod_lt (whole * share) (Nat.mul_pos hscale hfine)
  generalize nestedCeil scale (scale * fine) whole share = rounded at hle ⊢
  generalize whole * share / (scale * fine) = quotient at hdivision
  generalize whole * share % (scale * fine) = rest at hdivision hrest ⊢
  generalize scale * fine = unit at *
  rcases Nat.lt_or_ge rest fine with hdropped | hcounted
  · -- The truncation drops the rest, so the result is the quotient.
    have hquotient : rounded = quotient := by
      apply le_antisymm ((hle quotient).2 (by omega))
      by_contra hlt
      have hsmall := (hle (quotient - 1)).1 (by omega)
      have hpositive : 1 ≤ quotient := by omega
      rw [Nat.mul_sub_one] at hsmall
      have hwhole := Nat.mul_le_mul_left unit hpositive
      omega
    rw [hquotient]
    omega
  · -- The truncation keeps some of the rest, so the result exceeds the quotient.
    have hquotient : quotient + 1 ≤ rounded := by
      by_contra hlt
      have hsmall := (hle quotient).1 (by omega)
      omega
    have hcover := Nat.mul_le_mul_left unit hquotient
    rw [Nat.mul_add_one] at hcover
    omega

/-- Truncating two complementary shares loses less than one scaled unit. -/
theorem lt_scaledShare_add_scaledShare (hunit : 0 < unit)
    (hshare : share ≤ unit) (scale whole : ℕ) :
    scale * whole <
      scaledShare scale unit whole share +
        scaledShare scale unit whole (unit - share) + 2 := by
  have hsplit : scale * whole * share + scale * whole * (unit - share) =
      unit * (scale * whole) := by
    rw [← Nat.mul_add, Nat.add_sub_cancel' hshare, Nat.mul_comm]
  have hleft := Nat.lt_mul_div_succ (scale * whole * share) hunit
  have hright := Nat.lt_mul_div_succ (scale * whole * (unit - share)) hunit
  apply Nat.lt_of_mul_lt_mul_left (a := unit)
  calc
    unit * (scale * whole) =
        scale * whole * share + scale * whole * (unit - share) := hsplit.symm
    _ < unit * (scale * whole * share / unit + 1) +
          unit * (scale * whole * (unit - share) / unit + 1) := by omega
    _ = unit * (scaledShare scale unit whole share +
          scaledShare scale unit whole (unit - share) + 2) := by
      simp only [scaledShare]
      ring

/-- Two complementary shares, each rounded twice, leave no gap below the
whole. -/
theorem whole_le_nestedCeil_add_nestedCeil (hscale : 1 < scale)
    (hunit : 0 < unit) (hshare : share ≤ unit) :
    whole ≤ nestedCeil scale unit whole share +
      nestedCeil scale unit whole (unit - share) := by
  have hpositive : 0 < scale := by omega
  have hloss := lt_scaledShare_add_scaledShare hunit hshare scale whole
  have hleft : scaledShare scale unit whole share ≤
      scale * nestedCeil scale unit whole share :=
    scaledShare_le hpositive whole share
  have hright : scaledShare scale unit whole (unit - share) ≤
      scale * nestedCeil scale unit whole (unit - share) :=
    scaledShare_le hpositive whole (unit - share)
  by_contra hgap
  have hsucc := Nat.mul_le_mul_left scale (Nat.succ_le_of_lt (not_le.1 hgap))
  rw [Nat.succ_eq_add_one, Nat.mul_add, Nat.mul_add] at hsucc
  omega

/-- Truncating two complementary shares never gains. -/
theorem scaledShare_add_scaledShare_le (hunit : 0 < unit)
    (hshare : share ≤ unit) (scale whole : ℕ) :
    scaledShare scale unit whole share +
        scaledShare scale unit whole (unit - share) ≤ scale * whole := by
  have hleft : unit * scaledShare scale unit whole share ≤
      scale * whole * share := Nat.mul_div_le _ unit
  have hright : unit * scaledShare scale unit whole (unit - share) ≤
      scale * whole * (unit - share) := Nat.mul_div_le _ unit
  apply Nat.le_of_mul_le_mul_left _ hunit
  calc
    unit * (scaledShare scale unit whole share +
          scaledShare scale unit whole (unit - share)) ≤
        scale * whole * share + scale * whole * (unit - share) := by
      rw [Nat.mul_add]
      exact Nat.add_le_add hleft hright
    _ = unit * (scale * whole) := by
      rw [← Nat.mul_add, Nat.add_sub_cancel' hshare, Nat.mul_comm]

/-- Two complementary shares, each rounded twice, overlap by one at most. -/
theorem nestedCeil_add_nestedCeil_le (hscale : 0 < scale)
    (hunit : 0 < unit) (hshare : share ≤ unit) :
    nestedCeil scale unit whole share +
      nestedCeil scale unit whole (unit - share) ≤ whole + 1 := by
  have hgain : scaledShare scale unit whole share +
      scaledShare scale unit whole (unit - share) ≤ scale * whole :=
    scaledShare_add_scaledShare_le hunit hshare scale whole
  have hleft : scale * nestedCeil scale unit whole share <
      scaledShare scale unit whole share + scale :=
    mul_nestedCeil_lt hscale whole share
  have hright : scale * nestedCeil scale unit whole (unit - share) <
      scaledShare scale unit whole (unit - share) + scale :=
    mul_nestedCeil_lt hscale whole (unit - share)
  apply Nat.le_of_lt_succ
  apply Nat.lt_of_mul_lt_mul_left (a := scale)
  calc
    scale * (nestedCeil scale unit whole share +
          nestedCeil scale unit whole (unit - share)) =
        scale * nestedCeil scale unit whole share +
          scale * nestedCeil scale unit whole (unit - share) := Nat.mul_add ..
    _ < scale * whole + scale + scale := by omega
    _ = scale * (whole + 1).succ := by
      rw [Nat.succ_eq_add_one]
      ring

end FixedMultisig.NestedRounding
