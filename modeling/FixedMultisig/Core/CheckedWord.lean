import Mathlib.Algebra.Ring.Nat

/-!
# Checked machine words

Unsigned machine integers of a fixed width, with the arithmetic of a build that
traps on overflow.  A word is a `BitVec`; an operation whose mathematical
result does not fit the width has no value.  Every lemma relates a word to the
natural number it denotes, so that later files reason about `ℕ` only.
-/

namespace FixedMultisig.CheckedWord

variable {width : ℕ}

def checkedAdd (left right : BitVec width) : Option (BitVec width) :=
  if left.toNat + right.toNat < 2 ^ width then some (left + right) else none

def checkedSub (left right : BitVec width) : Option (BitVec width) :=
  if right.toNat ≤ left.toNat then some (left - right) else none

def checkedMul (left right : BitVec width) : Option (BitVec width) :=
  if left.toNat * right.toNat < 2 ^ width then some (left * right) else none

/-- A power exists exactly when it fits. -/
def checkedPow (base : BitVec width) (exp : ℕ) : Option (BitVec width) :=
  if base.toNat ^ exp < 2 ^ width then
    some (BitVec.ofNat width (base.toNat ^ exp))
  else none

/-- A sum exists exactly when it fits, and then denotes the sum. -/
theorem checkedAdd_eq_some_iff {left right sum : BitVec width} :
    checkedAdd left right = some sum ↔
      left.toNat + right.toNat = sum.toNat := by
  constructor
  · intro hsum
    simp only [checkedAdd, Option.ite_none_right_eq_some,
      Option.some.injEq] at hsum
    rw [← hsum.2, BitVec.toNat_add, Nat.mod_eq_of_lt hsum.1]
  · intro hsum
    have hfits : left.toNat + right.toNat < 2 ^ width := hsum ▸ sum.isLt
    rw [checkedAdd, if_pos hfits, Option.some.injEq]
    apply BitVec.eq_of_toNat_eq
    rw [BitVec.toNat_add, Nat.mod_eq_of_lt hfits, hsum]

/-- A difference exists exactly when it is not negative. -/
theorem checkedSub_eq_some_iff {left right difference : BitVec width} :
    checkedSub left right = some difference ↔
      left.toNat = difference.toNat + right.toNat := by
  constructor
  · intro hdifference
    simp only [checkedSub, Option.ite_none_right_eq_some,
      Option.some.injEq] at hdifference
    rw [← hdifference.2, BitVec.toNat_sub_of_le hdifference.1]
    omega
  · intro hdifference
    have hle : right.toNat ≤ left.toNat := by omega
    rw [checkedSub, if_pos hle, Option.some.injEq]
    apply BitVec.eq_of_toNat_eq
    rw [BitVec.toNat_sub_of_le hle]
    omega

/-- A product exists exactly when it fits, and then denotes the product. -/
theorem checkedMul_eq_some_iff {left right product : BitVec width} :
    checkedMul left right = some product ↔
      left.toNat * right.toNat = product.toNat := by
  constructor
  · intro hproduct
    simp only [checkedMul, Option.ite_none_right_eq_some,
      Option.some.injEq] at hproduct
    rw [← hproduct.2, BitVec.toNat_mul, Nat.mod_eq_of_lt hproduct.1]
  · intro hproduct
    have hfits : left.toNat * right.toNat < 2 ^ width :=
      hproduct ▸ product.isLt
    rw [checkedMul, if_pos hfits, Option.some.injEq]
    apply BitVec.eq_of_toNat_eq
    rw [BitVec.toNat_mul, Nat.mod_eq_of_lt hfits, hproduct]

theorem checkedPow_eq_some_iff {base power : BitVec width} {exp : ℕ} :
    checkedPow base exp = some power ↔ base.toNat ^ exp = power.toNat := by
  constructor
  · intro hpower
    simp only [checkedPow, Option.ite_none_right_eq_some,
      Option.some.injEq] at hpower
    rw [← hpower.2, BitVec.toNat_ofNat, Nat.mod_eq_of_lt hpower.1]
  · intro hpower
    rw [checkedPow, if_pos (hpower ▸ power.isLt), Option.some.injEq, hpower]
    apply BitVec.eq_of_toNat_eq
    rw [BitVec.toNat_ofNat, Nat.mod_eq_of_lt power.isLt]

theorem checkedMul_eq_none_iff {left right : BitVec width} :
    checkedMul left right = none ↔
      2 ^ width ≤ left.toNat * right.toNat := by
  simp [checkedMul]

/-- The word denoting a number that fits. -/
theorem toNat_ofNat_of_lt {value : ℕ} (hfits : value < 2 ^ width) :
    (BitVec.ofNat width value).toNat = value := by
  rw [BitVec.toNat_ofNat, Nat.mod_eq_of_lt hfits]

/-- Every sum that fits exists, under the name of the number it denotes. -/
theorem checkedAdd_of_lt {left right : BitVec width}
    (hfits : left.toNat + right.toNat < 2 ^ width) :
    checkedAdd left right =
      some (BitVec.ofNat width (left.toNat + right.toNat)) :=
  checkedAdd_eq_some_iff.2 (toNat_ofNat_of_lt hfits).symm

theorem checkedSub_of_le {left right : BitVec width}
    (hle : right.toNat ≤ left.toNat) :
    checkedSub left right =
      some (BitVec.ofNat width (left.toNat - right.toNat)) := by
  rw [checkedSub_eq_some_iff, toNat_ofNat_of_lt (by omega)]
  omega

theorem checkedMul_of_lt {left right : BitVec width}
    (hfits : left.toNat * right.toNat < 2 ^ width) :
    checkedMul left right =
      some (BitVec.ofNat width (left.toNat * right.toNat)) :=
  checkedMul_eq_some_iff.2 (toNat_ofNat_of_lt hfits).symm

/-- The smaller of two words, as `Ord::min` returns it. -/
def wordMin (left right : BitVec width) : BitVec width :=
  if left ≤ right then left else right

@[simp]
theorem toNat_wordMin (left right : BitVec width) :
    (wordMin left right).toNat = min left.toNat right.toNat := by
  rw [wordMin]
  split
  · next hle => exact (Nat.min_eq_left (BitVec.le_def.1 hle)).symm
  · next hlt =>
      have hle := BitVec.le_def.1 (BitVec.le_of_lt (BitVec.not_le.1 hlt))
      exact (Nat.min_eq_right hle).symm

/-- The checked sum of a list, added up from the left as an iterator's `sum`
does it. -/
def checkedSum (words : List (BitVec width)) : Option (BitVec width) :=
  words.foldlM checkedAdd 0

private theorem foldlM_checkedAdd_eq_some {words : List (BitVec width)}
    {start sum : BitVec width}
    (hsum : words.foldlM checkedAdd start = some sum) :
    sum.toNat = start.toNat + (words.map BitVec.toNat).sum := by
  induction words generalizing start with
  | nil =>
      simp only [List.foldlM_nil, Option.pure_def, Option.some.injEq] at hsum
      simp [hsum]
  | cons word words ih =>
      rw [List.foldlM_cons, Option.bind_eq_bind,
        Option.bind_eq_some_iff] at hsum
      obtain ⟨next, hnext, hrest⟩ := hsum
      have hadd := checkedAdd_eq_some_iff.1 hnext
      rw [ih hrest, ← hadd, List.map_cons, List.sum_cons]
      omega

theorem toNat_of_checkedSum_eq_some {words : List (BitVec width)}
    {sum : BitVec width} (hsum : checkedSum words = some sum) :
    sum.toNat = (words.map BitVec.toNat).sum := by
  simpa using foldlM_checkedAdd_eq_some hsum

end FixedMultisig.CheckedWord
