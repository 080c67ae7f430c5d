import FixedMultisig.Contract.Decision

/-!
# How exactly the needed weight is rounded

`votesNeeded` is meant to round a share of a weight up to a whole number.  It
truncates the share to nine fractional digits first, so what exceeds a whole
number by less than `10⁻⁹` is lost.  This needs a percentage with more than nine
fractional digits.

Whatever is lost, the rounded weight grows with the weight and with the
percentage, and what a percentage and the rest to one ask for together is the
weight or one more.
-/

namespace FixedMultisig

open CheckedWord NestedRounding Decision

/-- The share of the weight is whole, or exceeds a whole number by at least
`10⁻⁹`. -/
def Resolved (weight : ℕ) (percentage : Decimal) : Prop :=
  weight * percentage.atomics.toNat % 1000000000000000000 = 0 ∨
    1000000000 ≤ weight * percentage.atomics.toNat % 1000000000000000000

instance (weight : ℕ) (percentage : Decimal) :
    Decidable (Resolved weight percentage) :=
  inferInstanceAs (Decidable (_ ∨ _))

/-- Nine fractional digits are enough. -/
theorem resolved_of_coarse {percentage : Decimal}
    (hcoarse : 1000000000 ∣ percentage.atomics.toNat) (weight : ℕ) :
    Resolved weight percentage := by
  have hunit : 1000000000 ∣ 1000000000000000000 := by decide
  have hrest : 1000000000 ∣
      weight * percentage.atomics.toNat % 1000000000000000000 :=
    (Nat.dvd_mod_iff hunit).2 (Dvd.dvd.mul_left hcoarse weight)
  rcases Nat.eq_zero_or_pos
    (weight * percentage.atomics.toNat % 1000000000000000000) with h | h
  · exact .inl h
  · exact .inr (Nat.le_of_dvd h hrest)

/-- Whole percentages are always rounded up exactly. -/
theorem resolved_percent (x : U64) (weight : ℕ) :
    Resolved weight (.percent x) := by
  apply resolved_of_coarse
  rw [toNat_percent]
  exact Dvd.dvd.mul_left (by decide) _

/-- A percentage of at most one gets the word of its plain number. -/
theorem votesNeeded_of_fits {weight : U64} {percentage : Decimal}
    (hone : percentage.atomics.toNat ≤ 1000000000000000000)
    (hfits : Fits weight.toNat percentage) :
    ∃ needed, votesNeeded weight percentage = some needed ∧
      needed.toNat = neededVotes weight.toNat percentage := by
  refine ⟨BitVec.ofNat 64 (neededVotes weight.toNat percentage), ?_,
    toNat_neededVotes hone weight⟩
  rw [votesNeeded_eq, if_pos hfits]

/-- `votesNeeded` is the least weight that covers the share exactly when the
share is resolved by nine fractional digits. -/
theorem votesNeeded_exact_iff {weight : U64} {percentage : Decimal}
    (hone : percentage.atomics.toNat ≤ 1000000000000000000)
    (hfits : Fits weight.toNat percentage) :
    (∃ needed, votesNeeded weight percentage = some needed ∧
      IsLeast {bound : ℕ | weight.toNat * percentage.atomics.toNat ≤
        bound * 1000000000000000000} needed.toNat) ↔
      Resolved weight.toNat percentage := by
  obtain ⟨needed, hneeded, hvalue⟩ := votesNeeded_of_fits hone hfits
  have hexact : IsLeast _ (nestedCeil 1000000000 (1000000000 * 1000000000)
      weight.toNat percentage.atomics.toNat) ↔ _ :=
    isLeast_nestedCeil_iff (by decide) (by decide)
  rw [hneeded]
  simp only [Option.some.injEq, exists_eq_left', hvalue]
  exact hexact

section Example

/-- Half of eleven, rounded up to six. -/
theorem votesNeeded_exact_half :
    ∃ needed, votesNeeded 11 (.percent 50) = some needed ∧
      IsLeast {bound : ℕ | (11 : U64).toNat *
        (Decimal.percent 50).atomics.toNat ≤ bound * 1000000000000000000}
        needed.toNat :=
  (votesNeeded_exact_iff (by decide +kernel) (by decide +kernel)).2
    (resolved_percent 50 _)

/-- One of two votes satisfies a threshold just above one half, and nobody is
needed for a quorum of `10⁻¹⁸` of one vote. -/
theorem digits_beyond_ninth_lost :
    votesNeeded 2 ⟨500000000000000001⟩ = some 1 ∧
      ¬ IsLeast {bound : ℕ | (2 : U64).toNat *
        (500000000000000001 : U128).toNat ≤ bound * 1000000000000000000} 1 ∧
      votesNeeded 1 ⟨1⟩ = some 0 ∧
      ¬ IsLeast {bound : ℕ | (1 : U64).toNat * (1 : U128).toNat ≤
        bound * 1000000000000000000} 0 := by
  refine ⟨by decide +kernel, fun hleast => ?_, by decide +kernel,
    fun hleast => ?_⟩
  · exact absurd hleast.1 (by decide +kernel)
  · exact absurd hleast.1 (by decide +kernel)

end Example

/-! ## The order, and what the rest to one asks for -/

theorem neededVotes_mono_percentage {percentage percentage' : Decimal}
    (hpercentage :
      percentage.atomics.toNat ≤ percentage'.atomics.toNat) (weight : ℕ) :
    neededVotes weight percentage ≤ neededVotes weight percentage' :=
  nestedCeil_mono (by decide) le_rfl hpercentage

/-- The pass bound and the reject bound overlap by one vote at most. -/
theorem neededVotes_add_complement_le {percentage : Decimal}
    (hone : percentage.atomics.toNat ≤ 1000000000000000000) (weight : ℕ) :
    neededVotes weight percentage + neededVotes weight percentage.complement ≤
      weight + 1 := by
  rw [neededVotes, neededVotes, toNat_complement hone]
  exact nestedCeil_add_nestedCeil_le (by decide) (by decide) hone

/-- `votesNeeded` is monotone in the weight and in the percentage, and the two
shares of a weight, rounded separately, leave no gap and overlap by one vote at
most. -/
theorem votesNeeded_mono_complementary {weight weight' : U64}
    {percentage percentage' : Decimal} (hweight : weight ≤ weight')
    (hpercentage : percentage.atomics ≤ percentage'.atomics)
    (hone : percentage'.atomics ≤ Decimal.one.atomics)
    (hfits : Fits weight'.toNat percentage')
    (hrest : Fits weight'.toNat percentage.complement) :
    (∃ needed needed', votesNeeded weight percentage = some needed ∧
      votesNeeded weight' percentage' = some needed' ∧ needed ≤ needed') ∧
    ∃ rest pass reject, Decimal.one.sub percentage = some rest ∧
      votesNeeded weight' percentage = some pass ∧
      votesNeeded weight' rest = some reject ∧
      (pass.toNat + reject.toNat = weight'.toNat ∨
        pass.toNat + reject.toNat = weight'.toNat + 1) := by
  have hone' : percentage'.atomics.toNat ≤ 1000000000000000000 :=
    BitVec.le_def.1 hone
  have hle : percentage.atomics.toNat ≤ percentage'.atomics.toNat :=
    BitVec.le_def.1 hpercentage
  have hproper : percentage.atomics.toNat ≤ 1000000000000000000 :=
    hle.trans hone'
  constructor
  · obtain ⟨needed, hneeded, hvalue⟩ := votesNeeded_of_fits hproper
      (hfits.mono (BitVec.le_def.1 hweight) hle)
    obtain ⟨needed', hneeded', hvalue'⟩ := votesNeeded_of_fits hone' hfits
    refine ⟨needed, needed', hneeded, hneeded', BitVec.le_def.2 ?_⟩
    calc
      needed.toNat = neededVotes weight.toNat percentage := hvalue
      _ ≤ neededVotes weight'.toNat percentage :=
        neededVotes_mono percentage (BitVec.le_def.1 hweight)
      _ ≤ neededVotes weight'.toNat percentage' :=
        neededVotes_mono_percentage hle _
      _ = needed'.toNat := hvalue'.symm
  · obtain ⟨pass, hpass, hpassNat⟩ := votesNeeded_of_fits hproper
      (hfits.mono le_rfl hle)
    have hcomplement :
        percentage.complement.atomics.toNat ≤ 1000000000000000000 := by
      rw [toNat_complement hproper]
      exact Nat.sub_le _ _
    obtain ⟨reject, hreject, hrejectNat⟩ :=
      votesNeeded_of_fits hcomplement hrest
    have hcover := le_neededVotes_add_complement hproper weight'.toNat
    have hoverlap := neededVotes_add_complement_le hproper weight'.toNat
    refine ⟨percentage.complement, pass, reject,
      one_sub_eq_complement hproper, hpass, hreject, ?_⟩
    omega

/-- Half of fifteen against slightly more of twenty, and the two halves of
twenty. -/
theorem votesNeeded_mono_complementary_halves :
    (∃ needed needed', votesNeeded 15 (.percent 50) = some needed ∧
      votesNeeded 20 (.percent 51) = some needed' ∧ needed ≤ needed') ∧
    ∃ rest pass reject, Decimal.one.sub (.percent 50) = some rest ∧
      votesNeeded 20 (.percent 50) = some pass ∧
      votesNeeded 20 rest = some reject ∧
      (pass.toNat + reject.toNat = (20 : U64).toNat ∨
        pass.toNat + reject.toNat = (20 : U64).toNat + 1) :=
  votesNeeded_mono_complementary (by decide) (by decide +kernel)
    (by decide +kernel) (by decide +kernel) (by decide +kernel)

end FixedMultisig
