import FixedMultisig.Core.NestedRounding

/-!
# A ratio rounded before it is taken

A fraction `nom / denom` of a whole number is taken in two steps: the fraction
is first cut to so many units, and then so many units of the whole number are
taken.  This file bounds what the first rounding does to the result of the
second, where the second rounds down, and where it is the nested rounding of a
share.  A small denominator does no harm there at all.
-/

namespace FixedMultisig.RatioRounding

open NestedRounding

variable {unit whole nom denom : ℕ}

/-- A fraction in units, rounded down. -/
def ratio (unit nom denom : ℕ) : ℕ := nom * unit / denom

theorem mul_ratio_le (unit nom denom : ℕ) :
    denom * ratio unit nom denom ≤ nom * unit :=
  Nat.mul_div_le _ _

theorem lt_mul_ratio_add (hdenom : 0 < denom) (unit nom : ℕ) :
    nom * unit < denom * (ratio unit nom denom + 1) :=
  Nat.lt_mul_div_succ _ hdenom

/-! ## Rounding down -/

section Floor

variable (whole nom)

/-- Cutting the fraction first never gains. -/
theorem mul_ratio_div_le (hunit : 0 < unit) (hdenom : 0 < denom) :
    whole * ratio unit nom denom / unit ≤ whole * nom / denom := by
  rw [Nat.le_div_iff_mul_le hdenom]
  apply Nat.le_of_mul_le_mul_right _ hunit
  have hfloor := Nat.div_mul_le_self (whole * ratio unit nom denom) unit
  calc
    whole * ratio unit nom denom / unit * denom * unit =
        whole * ratio unit nom denom / unit * unit * denom := by ring
    _ ≤ whole * ratio unit nom denom * denom := Nat.mul_le_mul_right _ hfloor
    _ = whole * (denom * ratio unit nom denom) := by ring
    _ ≤ whole * (nom * unit) :=
      Nat.mul_le_mul_left _ (mul_ratio_le unit nom denom)
    _ = whole * nom * unit := by ring

/-- It loses one for each unit of the whole number, or a part of one. -/
theorem div_le_mul_ratio_div_add (hunit : 0 < unit) (hdenom : 0 < denom) :
    whole * nom / denom ≤
      whole * ratio unit nom denom / unit + whole ⌈/⌉ unit := by
  apply Nat.le_of_lt_succ
  rw [Nat.div_lt_iff_lt_mul hdenom]
  apply Nat.lt_of_mul_lt_mul_right (a := unit)
  have hfloor := Nat.lt_mul_div_succ (whole * ratio unit nom denom) hunit
  have hceil : whole ≤ unit * (whole ⌈/⌉ unit) :=
    (ceilDiv_le_iff_le_mul hunit).1 le_rfl
  have hratio := (lt_mul_ratio_add hdenom unit nom).le
  calc
    whole * nom * unit = whole * (nom * unit) := by ring
    _ ≤ whole * (denom * (ratio unit nom denom + 1)) :=
      Nat.mul_le_mul_left _ hratio
    _ = (whole * ratio unit nom denom + whole) * denom := by ring
    _ < (unit * (whole * ratio unit nom denom / unit + 1) +
          unit * (whole ⌈/⌉ unit)) * denom :=
      Nat.mul_lt_mul_of_pos_right (by omega) hdenom
    _ = (whole * ratio unit nom denom / unit + whole ⌈/⌉ unit).succ * denom *
          unit := by
      rw [Nat.succ_eq_add_one]
      ring

/-- It loses nothing if the fraction is whole in units. -/
theorem mul_ratio_div_eq (hunit : 0 < unit) (hdvd : denom ∣ nom * unit) :
    whole * ratio unit nom denom / unit = whole * nom / denom := by
  rcases Nat.eq_zero_or_pos denom with rfl | hdenom
  · simp [ratio]
  obtain ⟨units, hunits⟩ := hdvd
  have hratio : ratio unit nom denom = units := by
    rw [ratio, hunits, Nat.mul_div_cancel_left _ hdenom]
  rw [hratio, ← Nat.mul_div_mul_right (whole * nom) denom hunit,
    ← Nat.mul_div_mul_left (whole * units) unit hdenom]
  congr 1
  rw [Nat.mul_assoc whole, hunits]
  ring

end Floor

/-- Taking two fractions apart gives what taking their sum gives, or one
less. -/
theorem div_add_div_le (unit left right : ℕ) :
    left / unit + right / unit ≤ (left + right) / unit ∧
      (left + right) / unit ≤ left / unit + right / unit + 1 := by
  rcases Nat.eq_zero_or_pos unit with rfl | hunit
  · simp
  rw [Nat.add_div hunit]
  split <;> omega

/-! ## Rounding twice -/

section Ceil

variable {scale fine : ℕ}

/-- The nested rounding of a cut fraction never exceeds the whole number that
the fraction itself is rounded up to. -/
theorem nestedCeil_ratio_le (hscale : 0 < scale) (hfine : 0 < fine)
    (hdenom : 0 < denom) :
    nestedCeil scale (scale * fine) whole (ratio (scale * fine) nom denom) ≤
      whole * nom ⌈/⌉ denom := by
  rw [nestedCeil_le_iff_lt hscale hfine]
  apply Nat.lt_of_mul_lt_mul_left (a := denom)
  have hceil : whole * nom ≤ denom * (whole * nom ⌈/⌉ denom) :=
    (ceilDiv_le_iff_le_mul hdenom).1 le_rfl
  have hpositive : 0 < denom * fine := Nat.mul_pos hdenom hfine
  calc
    denom * (whole * ratio (scale * fine) nom denom) =
        whole * (denom * ratio (scale * fine) nom denom) := by ring
    _ ≤ whole * (nom * (scale * fine)) :=
      Nat.mul_le_mul_left _ (mul_ratio_le _ nom denom)
    _ = whole * nom * (scale * fine) := by ring
    _ ≤ denom * (whole * nom ⌈/⌉ denom) * (scale * fine) :=
      Nat.mul_le_mul_right _ hceil
    _ < denom * (whole * nom ⌈/⌉ denom) * (scale * fine) + denom * fine :=
      Nat.lt_add_of_pos_right hpositive
    _ = denom * (scale * fine * (whole * nom ⌈/⌉ denom) + fine) := by ring

/-- What is missing at most. -/
theorem lt_nestedCeil_ratio (hscale : 0 < scale) (hfine : 0 < fine)
    (hdenom : 0 < denom) :
    whole * nom * (scale * fine) <
      denom * (scale * fine *
        nestedCeil scale (scale * fine) whole
          (ratio (scale * fine) nom denom) + fine + whole) := by
  have hnested := (nestedCeil_le_iff_lt hscale hfine).1
    (le_refl (nestedCeil scale (scale * fine) whole
      (ratio (scale * fine) nom denom)))
  calc
    whole * nom * (scale * fine) = whole * (nom * (scale * fine)) := by ring
    _ ≤ whole * (denom * (ratio (scale * fine) nom denom + 1)) :=
      Nat.mul_le_mul_left _ (lt_mul_ratio_add hdenom _ nom).le
    _ = denom * (whole * ratio (scale * fine) nom denom + whole) := by ring
    _ < _ := Nat.mul_lt_mul_of_pos_left (by omega) hdenom

/-- With a small denominator nothing is missing. -/
theorem nestedCeil_ratio_eq (hscale : 0 < scale) (hfine : 0 < fine)
    (hdenom : 0 < denom) (hsmall : denom * (fine + whole) ≤ scale * fine) :
    nestedCeil scale (scale * fine) whole (ratio (scale * fine) nom denom) =
      whole * nom ⌈/⌉ denom := by
  apply le_antisymm (nestedCeil_ratio_le hscale hfine hdenom)
  rw [ceilDiv_le_iff_le_mul hdenom]
  apply Nat.le_of_lt_succ
  apply Nat.lt_of_mul_lt_mul_right (a := scale * fine)
  have hmissing : whole * nom * (scale * fine) < _ :=
    lt_nestedCeil_ratio hscale hfine hdenom
  rw [Nat.add_assoc, Nat.mul_add] at hmissing
  calc
    whole * nom * (scale * fine) < _ := hmissing
    _ ≤ _ := Nat.add_le_add_left hsmall _
    _ = _ := by
      rw [Nat.succ_eq_add_one]
      ring

end Ceil

end FixedMultisig.RatioRounding
