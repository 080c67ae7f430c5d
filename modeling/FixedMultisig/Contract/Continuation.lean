import FixedMultisig.Contract.Decision

/-!
# Further votes

What further votes can still make of a tally.  A continuation counts any
votes of any weights, as long as the sum stays within the total weight.  The
worst one for a proposal casts all the weight that is left against it, and the
best one casts it in favour, except for abstentions that keep a product within
128 bits.  `Attainable` says in plain numbers whether any continuation carries
the proposal.
-/

namespace FixedMultisig

open CheckedWord NestedRounding Decision

namespace Votes

variable {votes : Votes} {totalWeight : U64}

theorem toNat_total {total : U64} (htotal : votes.total = some total) :
    total.toNat = ∑ vote, votes.tally vote := by
  rw [sum_vote]
  simp only [Votes.total, Option.bind_eq_bind, Option.bind_eq_some_iff,
    checkedAdd_eq_some_iff] at htotal
  obtain ⟨first, hfirst, second, hsecond, hsum⟩ := htotal
  simp only [tally]
  omega

/-- The sum exists and is bounded exactly when the tally is. -/
theorem total_le_iff :
    (∃ total, votes.total = some total ∧ total ≤ totalWeight) ↔
      ∑ vote, votes.tally vote ≤ totalWeight.toNat := by
  constructor
  · rintro ⟨total, htotal, hle⟩
    rw [← toNat_total htotal]
    exact BitVec.le_def.1 hle
  · intro hle
    have hword := hle.trans_lt totalWeight.isLt
    refine ⟨_, total_of_lt hword, BitVec.le_def.2 ?_⟩
    rwa [toNat_ofNat_of_lt hword]

end Votes

/-- Some finite sequence of counted votes leads from one tally to another, and
the sum of all votes never exceeds the total weight on the way. -/
inductive Continues (totalWeight : U64) (votes : Votes) : Votes → Prop
  | nil : Continues totalWeight votes votes
  | snoc {middle later : Votes} {vote : Vote} {weight : U64}
      (hbefore : Continues totalWeight votes middle)
      (hadd : middle.addVote vote weight = some later)
      (hroom : ∃ total, later.total = some total ∧ total ≤ totalWeight) :
      Continues totalWeight votes later

namespace Continues

variable {totalWeight : U64} {votes middle later : Votes}

/-- A continuation only adds to the tally. -/
theorem exists_part (hcontinues : Continues totalWeight votes later) :
    ∃ part, later.tally = votes.tally + part := by
  induction hcontinues with
  | nil => exact ⟨0, (add_zero _).symm⟩
  | snoc hbefore hadd hroom ih =>
      obtain ⟨part, hpart⟩ := ih
      exact ⟨_, by rw [Votes.tally_addVote hadd, hpart, add_assoc]⟩

theorem sum_le (hcontinues : Continues totalWeight votes later)
    (htotal : ∑ vote, votes.tally vote ≤ totalWeight.toNat) :
    ∑ vote, later.tally vote ≤ totalWeight.toNat := by
  cases hcontinues with
  | nil => exact htotal
  | snoc hbefore hadd hroom => exact Votes.total_le_iff.1 hroom

/-- Whatever weight is left can be cast for any option. -/
private theorem add (hbefore : Continues totalWeight votes middle) (vote : Vote)
    (weight : ℕ)
    (hroom : ∑ option, middle.tally option + weight ≤ totalWeight.toNat) :
    ∃ later, Continues totalWeight votes later ∧
      later.tally = middle.tally + Pi.single vote weight := by
  have hword := totalWeight.isLt
  have hweight := toNat_ofNat_of_lt (by omega : weight < 2 ^ 64)
  obtain ⟨later, hadd⟩ : ∃ later,
      middle.addVote vote (BitVec.ofNat 64 weight) = some later :=
    Votes.addVote_of_lt (by omega)
  have htally := Votes.tally_addVote hadd
  rw [hweight] at htally
  refine ⟨later, hbefore.snoc hadd (Votes.total_le_iff.2 ?_), htally⟩
  rw [htally]
  simpa only [Pi.add_apply, Finset.sum_add_distrib, sum_single] using hroom

/-- Any further weights can be cast, as long as the total weight suffices. -/
theorem exists_of_part (votes : Votes) (part : Vote → ℕ)
    (hroom : ∑ vote, (votes.tally + part) vote ≤ totalWeight.toNat) :
    ∃ later, Continues totalWeight votes later ∧
      later.tally = votes.tally + part := by
  simp only [Pi.add_apply, Finset.sum_add_distrib, sum_vote part] at hroom
  have hnil : Continues totalWeight votes votes := .nil
  obtain ⟨first, hfirst, hfirstTally⟩ := hnil.add .yes (part .yes) (by omega)
  obtain ⟨second, hsecond, hsecondTally⟩ := hfirst.add .no (part .no) (by
    simp only [hfirstTally, Pi.add_apply, Finset.sum_add_distrib, sum_single]
    omega)
  obtain ⟨third, hthird, hthirdTally⟩ := hsecond.add .abstain (part .abstain) (by
    simp only [hsecondTally, hfirstTally, Pi.add_apply,
      Finset.sum_add_distrib, sum_single]
    omega)
  obtain ⟨later, hlater, hlaterTally⟩ := hthird.add .veto (part .veto) (by
    simp only [hthirdTally, hsecondTally, hfirstTally, Pi.add_apply,
      Finset.sum_add_distrib, sum_single]
    omega)
  refine ⟨later, hlater, ?_⟩
  rw [hlaterTally, hthirdTally, hsecondTally, hfirstTally]
  funext vote
  cases vote <;> simp

end Continues

namespace Decision

variable {threshold : Threshold} {totalWeight : ℕ} {tally : Vote → ℕ}

/-! ## The worst case -/

/-- What carries a proposal before the deadline has formed the largest
products. -/
theorem carriesFits_add
    (hcarries : Carries threshold totalWeight false tally)
    (hfits : CarriesFits threshold totalWeight false tally)
    (part : Vote → ℕ) :
    CarriesFits threshold totalWeight false (tally + part) := by
  have hopinions : totalWeight - (tally .abstain + part .abstain) ≤
      totalWeight - tally .abstain :=
    Nat.sub_le_sub_left (Nat.le_add_right _ _) _
  cases threshold with
  | absoluteCount weight => trivial
  | absolutePercentage percentage => exact hfits.mono hopinions le_rfl
  | thresholdQuorum majority quorum =>
      exact ⟨hfits.1, fun _ => (hfits.2 hcarries.1).mono hopinions le_rfl⟩

/-- All the weight that is left, cast against the proposal. -/
def worst (totalWeight : ℕ) (tally : Vote → ℕ) : Vote → ℕ :=
  tally + Pi.single .no (totalWeight - ∑ vote, tally vote)

theorem sum_worst (htotal : ∑ vote, tally vote ≤ totalWeight) :
    ∑ vote, worst totalWeight tally vote = totalWeight := by
  simp only [worst, Pi.add_apply, Finset.sum_add_distrib, sum_single]
  omega

@[simp]
theorem worst_yes : worst totalWeight tally .yes = tally .yes := by
  simp [worst]

@[simp]
theorem worst_abstain : worst totalWeight tally .abstain = tally .abstain := by
  simp [worst]

/-- Once all weight is cast, the deadline makes no difference. -/
theorem opinions_worst (htotal : ∑ vote, tally vote ≤ totalWeight) :
    opinions totalWeight true (worst totalWeight tally) =
      opinions totalWeight false tally := by
  simp [opinions, sum_worst htotal]

/-- A proposal that passes at the deadline both as it stands and with
everything that is left cast against it, passes before the deadline. -/
theorem carries_of_worst (htotal : ∑ vote, tally vote ≤ totalWeight)
    (hclosed : Carries threshold totalWeight true tally)
    (hworst : Carries threshold totalWeight true (worst totalWeight tally)) :
    Carries threshold totalWeight false tally := by
  cases threshold with
  | absoluteCount weight => exact hclosed
  | absolutePercentage percentage => exact hclosed
  | thresholdQuorum majority quorum =>
      have hshare := hworst.2
      rw [opinions_worst htotal, worst_yes] at hshare
      exact ⟨hclosed.1, hshare⟩

theorem carriesFits_of_worst (htotal : ∑ vote, tally vote ≤ totalWeight)
    (hclosed : CarriesFits threshold totalWeight true tally)
    (hworst : CarriesFits threshold totalWeight true (worst totalWeight tally))
    (hcarries : Carries threshold totalWeight true (worst totalWeight tally)) :
    CarriesFits threshold totalWeight false tally := by
  cases threshold with
  | absoluteCount weight => trivial
  | absolutePercentage percentage => exact hclosed
  | thresholdQuorum majority quorum =>
      have hshare := hworst.2 hcarries.1
      rw [opinions_worst htotal] at hshare
      exact ⟨hclosed.1, fun _ => hshare⟩

/-! ## The best case -/

/-- The largest number of opinions up to a bound whose product with the
percentage fits. -/
def reach (bound : ℕ) (percentage : Decimal) : ℕ :=
  min bound ((2 ^ 128 - 1) / (1000000000 * percentage.atomics.toNat))

theorem fits_iff_le_reach {percentage : Decimal}
    (hpositive : 0 < percentage.atomics.toNat) {bound weight : ℕ}
    (hbound : weight ≤ bound) :
    Fits weight percentage ↔ weight ≤ reach bound percentage := by
  rw [reach, le_min_iff, and_iff_right hbound,
    Nat.le_div_iff_mul_le (Nat.mul_pos (by decide) hpositive), Fits]
  have hproduct : weight * (1000000000 * percentage.atomics.toNat) =
      1000000000 * weight * percentage.atomics.toNat := by
    ring
  rw [hproduct]
  omega

/-- The share of the opinions can still be reached: the no and veto votes cast
so far leave room for it. -/
def ShareAttainable (percentage : Decimal) (totalWeight : ℕ)
    (tally : Vote → ℕ) : Prop :=
  tally .yes + tally .no + tally .veto ≤
      reach (totalWeight - tally .abstain) percentage ∧
    neededVotes (reach (totalWeight - tally .abstain) percentage) percentage +
        tally .no + tally .veto ≤
      reach (totalWeight - tally .abstain) percentage

/-- Some further votes carry the proposal. -/
def Attainable (threshold : Threshold) (totalWeight : ℕ)
    (tally : Vote → ℕ) : Prop :=
  match threshold with
  | .absoluteCount weight =>
      weight.toNat + tally .no + tally .abstain + tally .veto ≤ totalWeight
  | .absolutePercentage percentage =>
      ShareAttainable percentage totalWeight tally
  | .thresholdQuorum threshold quorum =>
      Fits totalWeight quorum ∧ ShareAttainable threshold totalWeight tally

instance (percentage : Decimal) (totalWeight : ℕ) (tally : Vote → ℕ) :
    Decidable (ShareAttainable percentage totalWeight tally) :=
  inferInstanceAs (Decidable (_ ∧ _))

instance (threshold : Threshold) (totalWeight : ℕ) (tally : Vote → ℕ) :
    Decidable (Attainable threshold totalWeight tally) :=
  match threshold with
  | .absoluteCount _ => inferInstanceAs (Decidable (_ ≤ _))
  | .absolutePercentage _ => inferInstanceAs (Decidable (ShareAttainable _ _ _))
  | .thresholdQuorum _ _ => inferInstanceAs (Decidable (_ ∧ _))

theorem neededVotes_add_le {percentage : Decimal}
    (hone : percentage.atomics.toNat ≤ 1000000000000000000)
    (weight more : ℕ) :
    neededVotes (weight + more) percentage ≤
      neededVotes weight percentage + more :=
  nestedCeil_add_le (by omega) (by omega) hone weight more

/-- A share that further votes reach was attainable: between the opinions they
leave and the reach, the votes needed grow no faster than the opinions. -/
theorem shareAttainable_of_part {percentage : Decimal} (closed : Bool)
    {part : Vote → ℕ} (hmajority : Threshold.Majority percentage)
    (htotal : ∑ vote, (tally + part) vote ≤ totalWeight)
    (hfits : Fits (opinions totalWeight closed (tally + part)) percentage)
    (hneeded : neededVotes (opinions totalWeight closed (tally + part))
      percentage ≤ (tally + part) .yes) :
    ShareAttainable percentage totalWeight tally := by
  obtain ⟨hhalf, hone⟩ := hmajority
  have hcast : (tally + part) .yes + (tally + part) .no +
      (tally + part) .veto ≤ opinions totalWeight closed (tally + part) := by
    have hsum := sum_vote (tally + part)
    rw [opinions]
    split <;> omega
  have hbound : opinions totalWeight closed (tally + part) ≤
      totalWeight - tally .abstain :=
    (opinions_closed_le htotal).trans (by
      simp only [opinions, Bool.false_eq_true, if_false, Pi.add_apply]
      omega)
  have hreach := (fits_iff_le_reach (by omega) hbound).1 hfits
  generalize opinions totalWeight closed (tally + part) = cast at *
  simp only [Pi.add_apply] at hcast hneeded
  constructor
  · calc
      tally .yes + tally .no + tally .veto ≤ cast := by omega
      _ ≤ reach (totalWeight - tally .abstain) percentage := hreach
  · obtain ⟨more, hmore⟩ := Nat.exists_eq_add_of_le hreach
    rw [hmore]
    calc
      neededVotes (cast + more) percentage + tally .no + tally .veto ≤
          neededVotes cast percentage + more + tally .no + tally .veto := by
        have hgrowth := neededVotes_add_le hone cast more
        omega
      _ ≤ cast + more := by omega

/-- The best further votes: enough abstentions that the product fits, and
everything else in favour. -/
def best (percentage : Decimal) (totalWeight : ℕ) (tally : Vote → ℕ) :
    Vote → ℕ :=
  Pi.single .yes (reach (totalWeight - tally .abstain) percentage -
      (tally .yes + tally .no + tally .veto)) +
    Pi.single .abstain (totalWeight - tally .abstain -
      reach (totalWeight - tally .abstain) percentage)

theorem reach_le (bound : ℕ) (percentage : Decimal) :
    reach bound percentage ≤ bound :=
  min_le_left _ _

theorem sum_best {percentage : Decimal}
    (htotal : ∑ vote, tally vote ≤ totalWeight)
    (hattainable : ShareAttainable percentage totalWeight tally) :
    ∑ vote, (tally + best percentage totalWeight tally) vote =
      totalWeight := by
  have hroom := hattainable.1
  have hreach := reach_le (totalWeight - tally .abstain) percentage
  rw [sum_vote] at htotal
  simp only [Pi.add_apply, Finset.sum_add_distrib, best, sum_single,
    sum_vote tally]
  omega

/-- The best further votes leave as many opinions as fit. -/
theorem opinions_best {percentage : Decimal}
    (htotal : ∑ vote, tally vote ≤ totalWeight) :
    opinions totalWeight false (tally + best percentage totalWeight tally) =
      reach (totalWeight - tally .abstain) percentage := by
  have hreach := reach_le (totalWeight - tally .abstain) percentage
  have habstain : tally .abstain ≤ totalWeight := by
    rw [sum_vote] at htotal
    omega
  simp [opinions, best]
  omega

/-- The best further votes reach the share, if any do. -/
theorem needed_best {percentage : Decimal}
    (hattainable : ShareAttainable percentage totalWeight tally) :
    neededVotes (reach (totalWeight - tally .abstain) percentage) percentage ≤
      (tally + best percentage totalWeight tally) .yes := by
  obtain ⟨hroom, hneeded⟩ := hattainable
  simp [best]
  omega

theorem fits_reach {percentage : Decimal}
    (hpositive : 0 < percentage.atomics.toNat) (bound : ℕ) :
    Fits (reach bound percentage) percentage :=
  (fits_iff_le_reach hpositive (reach_le bound percentage)).2 le_rfl

/-- What is attainable is attained by further votes, before the deadline. -/
theorem exists_part_of_attainable (hvalid : threshold.Valid totalWeight)
    (htotal : ∑ vote, tally vote ≤ totalWeight)
    (hattainable : Attainable threshold totalWeight tally) :
    ∃ part, ∑ vote, (tally + part) vote ≤ totalWeight ∧
      CarriesFits threshold totalWeight false (tally + part) ∧
      Carries threshold totalWeight false (tally + part) := by
  cases threshold with
  | absoluteCount weight =>
      have hneeded : weight.toNat + tally .no + tally .abstain +
          tally .veto ≤ totalWeight := hattainable
      refine ⟨Pi.single .yes (totalWeight - ∑ vote, tally vote), ?_,
        trivial, ?_⟩
      · simp only [Pi.add_apply, Finset.sum_add_distrib, sum_single]
        omega
      · simp only [Carries, Pi.add_apply, Pi.single_eq_same, sum_vote tally]
        omega
  | absolutePercentage percentage =>
      have hpositive : 0 < percentage.atomics.toNat := by
        have hhalf := hvalid.1
        omega
      refine ⟨best percentage totalWeight tally,
        (sum_best htotal hattainable).le, ?_, ?_⟩
      · change Fits (opinions totalWeight false _) percentage
        rw [opinions_best htotal]
        exact fits_reach hpositive _
      · change neededVotes (opinions totalWeight false _) percentage ≤ _
        rw [opinions_best htotal]
        exact needed_best hattainable
  | thresholdQuorum majority quorum =>
      obtain ⟨hquorum, hshare⟩ := hattainable
      have hpositive : 0 < majority.atomics.toNat := by
        have hhalf := hvalid.1.1
        omega
      have hsum := sum_best htotal hshare
      refine ⟨best majority totalWeight tally, hsum.le,
        ⟨hquorum, fun _ => ?_⟩, ?_, ?_⟩
      · rw [opinions_best htotal]
        exact fits_reach hpositive _
      · rw [hsum]
        exact neededVotes_le hvalid.2.2 totalWeight
      · rw [opinions_best htotal]
        exact needed_best hshare

/-- What further votes attain, before or after the deadline, was
attainable. -/
theorem attainable_of_part (hvalid : threshold.Valid totalWeight)
    {closed : Bool} {part : Vote → ℕ}
    (htotal : ∑ vote, (tally + part) vote ≤ totalWeight)
    (hfits : CarriesFits threshold totalWeight closed (tally + part))
    (hcarries : Carries threshold totalWeight closed (tally + part)) :
    Attainable threshold totalWeight tally := by
  cases threshold with
  | absoluteCount weight =>
      have hneeded : weight.toNat ≤ (tally + part) .yes := hcarries
      rw [sum_vote] at htotal
      simp only [Pi.add_apply] at htotal hneeded
      simp only [Attainable]
      omega
  | absolutePercentage percentage =>
      exact shareAttainable_of_part false hvalid htotal hfits hcarries
  | thresholdQuorum majority quorum =>
      exact ⟨hfits.1, shareAttainable_of_part closed hvalid.1 htotal
        (hfits.2 hcarries.1) hcarries.2⟩

/-! ## The gap between the two -/

/-- The share is out of reach, but the no votes do not exceed what
`isRejected` lets them have. -/
def ShareOverlooked (percentage : Decimal) (totalWeight : ℕ)
    (tally : Vote → ℕ) : Prop :=
  ¬ ShareAttainable percentage totalWeight tally ∧
    (Fits (totalWeight - tally .abstain) percentage.complement →
      tally .no ≤
        neededVotes (totalWeight - tally .abstain) percentage.complement)

/-- Where no product overflows, the gap lies between the votes that the share
leaves and its complement, rounded on its own. -/
theorem shareOverlooked_iff {percentage : Decimal}
    (hmajority : Threshold.Majority percentage)
    (htotal : ∑ vote, tally vote ≤ totalWeight)
    (hfits : Fits (totalWeight - tally .abstain) percentage) :
    ShareOverlooked percentage totalWeight tally ↔
      totalWeight - tally .abstain <
          neededVotes (totalWeight - tally .abstain) percentage +
            tally .no + tally .veto ∧
        tally .no ≤
          neededVotes (totalWeight - tally .abstain) percentage.complement := by
  have hpositive : 0 < percentage.atomics.toNat := by
    have hhalf := hmajority.1
    omega
  have hreach : reach (totalWeight - tally .abstain) percentage =
      totalWeight - tally .abstain :=
    (reach_le _ _).antisymm ((fits_iff_le_reach hpositive le_rfl).1 hfits)
  have hfits' : Fits (totalWeight - tally .abstain) percentage.complement :=
    hfits.mono le_rfl (complement_le hmajority)
  rw [sum_vote] at htotal
  rw [ShareOverlooked, ShareAttainable, hreach]
  simp only [hfits', forall_const]
  omega

/-- No further votes carry the proposal, and `isRejected` does not notice. -/
def Overlooked (threshold : Threshold) (totalWeight : ℕ)
    (tally : Vote → ℕ) : Prop :=
  match threshold with
  | .absoluteCount weight =>
      tally .no ≤ totalWeight - weight.toNat ∧
        totalWeight - weight.toNat < tally .no + tally .abstain + tally .veto
  | .absolutePercentage percentage =>
      ShareOverlooked percentage totalWeight tally
  | .thresholdQuorum threshold quorum =>
      ShareOverlooked threshold totalWeight tally ∨
        (¬ Fits totalWeight quorum ∧
          (Fits (totalWeight - tally .abstain) threshold.complement →
            tally .no ≤ neededVotes (totalWeight - tally .abstain)
              threshold.complement))

instance (percentage : Decimal) (totalWeight : ℕ) (tally : Vote → ℕ) :
    Decidable (ShareOverlooked percentage totalWeight tally) :=
  inferInstanceAs (Decidable (¬ _ ∧ (_ → _)))

instance (threshold : Threshold) (totalWeight : ℕ) (tally : Vote → ℕ) :
    Decidable (Overlooked threshold totalWeight tally) :=
  match threshold with
  | .absoluteCount _ => inferInstanceAs (Decidable (_ ∧ _))
  | .absolutePercentage _ => inferInstanceAs (Decidable (ShareOverlooked _ _ _))
  | .thresholdQuorum _ _ => inferInstanceAs (Decidable (_ ∨ _))

theorem overlooked_iff (hvalid : threshold.Valid totalWeight) :
    Overlooked threshold totalWeight tally ↔
      ¬ Attainable threshold totalWeight tally ∧
        ¬ (DefeatsFits threshold totalWeight false tally ∧
          Defeats threshold totalWeight false tally) := by
  cases threshold with
  | absoluteCount weight =>
      have hreachable : weight.toNat ≤ totalWeight := hvalid.2
      simp only [Overlooked, Attainable, DefeatsFits, Defeats, true_and]
      omega
  | absolutePercentage percentage =>
      simp only [Overlooked, ShareOverlooked, Attainable, DefeatsFits, Defeats,
        not_and, Nat.not_lt]
  | thresholdQuorum majority quorum =>
      simp only [Overlooked, ShareOverlooked, Attainable, DefeatsFits, Defeats,
        opinions, Bool.false_eq_true, if_false]
      rw [← or_and_right, or_comm, ← not_and_or, not_and (b := _ < _),
        Nat.not_lt]

end Decision

end FixedMultisig
