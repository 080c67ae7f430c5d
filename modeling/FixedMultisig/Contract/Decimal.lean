import FixedMultisig.Core.CheckedWord
import FixedMultisig.Core.NestedRounding

/-!
# Fixed-point decimals

The `Decimal` and `Uint128` types and the weight a percentage asks for.  A
`Decimal` counts units of `10⁻¹⁸` in 128 bits.  `votesNeeded` scales a weight
by `10⁹`, multiplies, truncates and rounds up; `neededVotes` is the same number
without machine words, and `Fits` says when the one product that may overflow
does not.
-/

namespace FixedMultisig

open CheckedWord NestedRounding

abbrev U64 := BitVec 64
abbrev U128 := BitVec 128

/-- A fixed-point value with 18 fractional digits. -/
@[ext]
structure Decimal where
  atomics : U128
  deriving DecidableEq

def decimalFractional : U128 := 1_000_000_000_000_000_000

namespace Decimal

def one : Decimal := ⟨decimalFractional⟩

/-- `x` percent.  The product fits for every `x`, see `toNat_percent`. -/
def percent (x : U64) : Decimal :=
  ⟨x.setWidth 128 * 10_000_000_000_000_000⟩

def isZero (value : Decimal) : Bool := value.atomics == 0

instance : LT Decimal := ⟨fun left right => left.atomics < right.atomics⟩

instance (left right : Decimal) : Decidable (left < right) :=
  inferInstanceAs (Decidable (left.atomics < right.atomics))

def sub (left right : Decimal) : Option Decimal := do
  return ⟨← checkedSub left.atomics right.atomics⟩

end Decimal

structure Uint128 where
  value : U128
  deriving DecidableEq

namespace Uint128

def zero : Uint128 := ⟨0⟩

def isZero (number : Uint128) : Bool := number.value == 0

/-- `number * nom / denom`; a zero denominator panics. -/
def multiplyRatio (number : Uint128) (nom denom : U128) : Option Uint128 :=
  if denom = 0 then none
  else do
    let product ← checkedMul number.value nom
    return ⟨product / denom⟩

def mulDecimal (number : Uint128) (rhs : Decimal) : Option Uint128 :=
  if number.isZero || rhs.isZero then some zero
  else number.multiplyRatio rhs.atomics decimalFractional

end Uint128

def Decimal.mulUint128 (value : Decimal) (rhs : Uint128) : Option Uint128 :=
  rhs.mulDecimal value

def precisionFactor : U128 := 1_000_000_000

/-- The weight that `percentage` of `weight` asks for. -/
def votesNeeded (weight : U64) (percentage : Decimal) : Option U64 := do
  let scaled ← checkedMul precisionFactor (weight.setWidth 128)
  let applied ← percentage.mulUint128 ⟨scaled⟩
  let sum ← checkedAdd applied.value precisionFactor
  let numerator ← checkedSub sum 1
  return (numerator / precisionFactor).setWidth 64

/-- `votesNeeded` before its final cast to 64 bits. -/
def votesNeededWide (weight : U64) (percentage : Decimal) : Option U128 := do
  let scaled ← checkedMul precisionFactor (weight.setWidth 128)
  let applied ← percentage.mulUint128 ⟨scaled⟩
  let sum ← checkedAdd applied.value precisionFactor
  let numerator ← checkedSub sum 1
  return numerator / precisionFactor

theorem votesNeeded_eq_map (weight : U64) (percentage : Decimal) :
    votesNeeded weight percentage =
      (votesNeededWide weight percentage).map (·.setWidth 64) := by
  rw [votesNeeded, votesNeededWide]
  simp only [Option.bind_eq_bind, Option.map_bind]
  apply Option.bind_congr
  intro scaled _
  rw [Function.comp_apply, Option.map_bind]
  apply Option.bind_congr
  intro applied _
  rw [Function.comp_apply, Option.map_bind]
  apply Option.bind_congr
  intro sum _
  rw [Function.comp_apply, Option.map_bind]
  apply Option.bind_congr
  intro numerator _
  rfl

/-! ## The same numbers without machine words -/

theorem toNat_percent (x : U64) :
    (Decimal.percent x).atomics.toNat = x.toNat * 10000000000000000 := by
  have hunit : (10000000000000000 : U128).toNat = 10000000000000000 := rfl
  rw [Decimal.percent, BitVec.toNat_mul, BitVec.toNat_setWidth, hunit]
  omega

@[simp]
theorem toNat_precisionFactor : precisionFactor.toNat = 1000000000 := rfl

@[simp]
theorem toNat_decimalFractional :
    decimalFractional.toNat = 1000000000000000000 := rfl

theorem Decimal.lt_iff {left right : Decimal} :
    left < right ↔ left.atomics.toNat < right.atomics.toNat :=
  BitVec.lt_def

@[simp]
theorem toNat_one_atomics :
    Decimal.one.atomics.toNat = 1000000000000000000 := rfl

theorem Decimal.sub_eq_some_of_le {left right : Decimal}
    (hle : right.atomics.toNat ≤ left.atomics.toNat) :
    ∃ difference, left.sub right = some difference ∧
      difference.atomics.toNat = left.atomics.toNat - right.atomics.toNat := by
  refine ⟨⟨BitVec.ofNat 128 (left.atomics.toNat - right.atomics.toNat)⟩, ?_,
    toNat_ofNat_of_lt (by omega)⟩
  simp [Decimal.sub, checkedSub_of_le hle]

/-- The product inside `votesNeeded` fits in 128 bits. -/
def Fits (weight : ℕ) (percentage : Decimal) : Prop :=
  1000000000 * weight * percentage.atomics.toNat < 2 ^ 128

instance (weight : ℕ) (percentage : Decimal) :
    Decidable (Fits weight percentage) :=
  inferInstanceAs (Decidable (_ < _))

def neededVotes (weight : ℕ) (percentage : Decimal) : ℕ :=
  nestedCeil 1000000000 1000000000000000000 weight percentage.atomics.toNat

theorem Fits.mono {weight weight' : ℕ} {percentage percentage' : Decimal}
    (hfits : Fits weight' percentage') (hweight : weight ≤ weight')
    (hpercentage :
      percentage.atomics.toNat ≤ percentage'.atomics.toNat) :
    Fits weight percentage :=
  lt_of_le_of_lt
    (Nat.mul_le_mul (Nat.mul_le_mul_left _ hweight) hpercentage) hfits

private theorem toNat_scaled (weight : U64) :
    (BitVec.ofNat 128 (1000000000 * weight.toNat)).toNat =
      1000000000 * weight.toNat :=
  toNat_ofNat_of_lt (by omega)

private theorem checkedMul_precisionFactor (weight : U64) :
    checkedMul precisionFactor (weight.setWidth 128) =
      some (BitVec.ofNat 128 (1000000000 * weight.toNat)) := by
  rw [checkedMul_eq_some_iff, toNat_scaled, toNat_precisionFactor,
    BitVec.toNat_setWidth]
  omega

/-- Multiplying by a decimal truncates the product at `10⁻¹⁸`. -/
theorem mulDecimal_of_fits (number : Uint128) (rhs : Decimal)
    (hfits : number.value.toNat * rhs.atomics.toNat < 2 ^ 128) :
    ∃ product, number.mulDecimal rhs = some product ∧
      product.value.toNat =
        number.value.toNat * rhs.atomics.toNat / 1000000000000000000 := by
  by_cases hzero : number.isZero || rhs.isZero
  · refine ⟨Uint128.zero, by rw [Uint128.mulDecimal, if_pos hzero], ?_⟩
    simp only [Uint128.isZero, Decimal.isZero, Bool.or_eq_true,
      beq_iff_eq] at hzero
    rcases hzero with hzero | hzero <;> simp [hzero, Uint128.zero]
  · refine ⟨⟨BitVec.ofNat 128 (number.value.toNat * rhs.atomics.toNat) /
      decimalFractional⟩, ?_, ?_⟩
    · rw [Uint128.mulDecimal, if_neg hzero, Uint128.multiplyRatio,
        if_neg (by decide), checkedMul_of_lt hfits]
      rfl
    · rw [BitVec.toNat_udiv, toNat_ofNat_of_lt hfits, toNat_decimalFractional]

theorem mulDecimal_eq_none {number : Uint128} {rhs : Decimal}
    (hfits : 2 ^ 128 ≤ number.value.toNat * rhs.atomics.toNat) :
    number.mulDecimal rhs = none := by
  have hzero : ¬ (number.isZero || rhs.isZero) := by
    intro hzero
    simp only [Uint128.isZero, Decimal.isZero, Bool.or_eq_true,
      beq_iff_eq] at hzero
    have hproduct : number.value.toNat * rhs.atomics.toNat = 0 := by
      rcases hzero with hzero | hzero <;> simp [hzero]
    omega
  rw [Uint128.mulDecimal, if_neg hzero, Uint128.multiplyRatio,
    if_neg (by decide), checkedMul_eq_none_iff.2 hfits]
  rfl

/-- Dividing by the precision factor rounds up. -/
private theorem roundUp_eq {applied : U128}
    (hfits : applied.toNat + 1000000000 < 2 ^ 128) :
    (do
      let sum ← checkedAdd applied precisionFactor
      let numerator ← checkedSub sum 1
      return numerator / precisionFactor) =
      some (BitVec.ofNat 128 (applied.toNat ⌈/⌉ 1000000000)) := by
  have hsum := toNat_ofNat_of_lt hfits
  have hone : (1 : U128).toNat = 1 := rfl
  have hnumerator : applied.toNat + 1000000000 - 1 < 2 ^ 128 := by omega
  have hle : (1 : U128).toNat ≤
      (BitVec.ofNat 128 (applied.toNat + 1000000000)).toNat := by
    rw [hsum, hone]
    omega
  rw [checkedAdd_of_lt hfits, toNat_precisionFactor, Option.bind_eq_bind,
    Option.bind_some, checkedSub_of_le hle, Option.bind_some, Option.pure_def,
    Option.some.injEq]
  have hquotient : applied.toNat ⌈/⌉ 1000000000 < 2 ^ 128 := by
    rw [Nat.ceilDiv_eq_add_pred_div]
    exact (Nat.div_le_self _ _).trans_lt hnumerator
  apply BitVec.eq_of_toNat_eq
  rw [BitVec.toNat_udiv, toNat_precisionFactor, hsum, hone,
    toNat_ofNat_of_lt hnumerator, toNat_ofNat_of_lt hquotient,
    Nat.ceilDiv_eq_add_pred_div]

/-- The rounded share exists exactly when its product fits. -/
theorem votesNeededWide_eq (weight : U64) (percentage : Decimal) :
    votesNeededWide weight percentage =
      if Fits weight.toNat percentage then
        some (BitVec.ofNat 128 (neededVotes weight.toNat percentage))
      else none := by
  rw [votesNeededWide, checkedMul_precisionFactor]
  simp only [Option.bind_eq_bind, Option.bind_some, Decimal.mulUint128]
  by_cases hfits : Fits weight.toNat percentage
  · obtain ⟨applied, happlied, hvalue⟩ := mulDecimal_of_fits
      ⟨BitVec.ofNat 128 (1000000000 * weight.toNat)⟩ percentage
      (by rw [toNat_scaled]; exact hfits)
    rw [toNat_scaled] at hvalue
    have hbound : applied.value.toNat ≤ 2 ^ 128 / 1000000000000000000 := by
      rw [hvalue]
      exact Nat.div_le_div_right (Nat.le_of_lt hfits)
    rw [happlied, if_pos hfits, Option.bind_some, neededVotes, nestedCeil,
      scaledShare, ← hvalue]
    exact roundUp_eq (by omega)
  · rw [if_neg hfits, mulDecimal_eq_none
      (by rw [toNat_scaled]; exact Nat.le_of_not_lt hfits)]
    rfl

/-- `votesNeeded` traps exactly when its product does not fit, and otherwise
returns `neededVotes` cut to 64 bits. -/
theorem votesNeeded_eq (weight : U64) (percentage : Decimal) :
    votesNeeded weight percentage =
      if Fits weight.toNat percentage then
        some (BitVec.ofNat 64 (neededVotes weight.toNat percentage))
      else none := by
  rw [votesNeeded_eq_map, votesNeededWide_eq]
  split
  · rw [Option.map_some, Option.some.injEq]
    exact BitVec.setWidth_ofNat_of_le (by omega) _
  · rfl

end FixedMultisig
