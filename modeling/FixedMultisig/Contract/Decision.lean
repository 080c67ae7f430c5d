import FixedMultisig.Contract.Proposal
import FixedMultisig.Core.SettledTally

/-!
# Decisions in plain numbers

The two predicates of a proposal, without machine words: `Carries` is what
`isPassed` computes and `Defeats` is what `isRejected` computes, for a tally of
natural numbers and on either side of the deadline.  `CarriesFits` and
`DefeatsFits` collect the products that the computation forms; where they fit,
the word-level functions return exactly these predicates, and where they do
not, they trap.

Before the deadline both predicates survive every further vote and exclude
each other, so a decision once reached does not depend on what follows.
-/

namespace FixedMultisig

open CheckedWord NestedRounding

/-- One minus a percentage. -/
def Decimal.complement (percentage : Decimal) : Decimal :=
  ⟨decimalFractional - percentage.atomics⟩

namespace Decision

/-- The weight against which the yes votes are measured: everything that may
still be cast before the deadline, everything that was cast after it, and
never the abstentions. -/
def opinions (totalWeight : ℕ) (closed : Bool) (tally : Vote → ℕ) : ℕ :=
  (if closed then ∑ vote, tally vote else totalWeight) - tally .abstain

def Carries (threshold : Threshold) (totalWeight : ℕ) (closed : Bool)
    (tally : Vote → ℕ) : Prop :=
  match threshold with
  | .absoluteCount weight => weight.toNat ≤ tally .yes
  | .absolutePercentage percentage =>
      neededVotes (totalWeight - tally .abstain) percentage ≤ tally .yes
  | .thresholdQuorum threshold quorum =>
      neededVotes totalWeight quorum ≤ ∑ vote, tally vote ∧
        neededVotes (opinions totalWeight closed tally) threshold ≤ tally .yes

def Defeats (threshold : Threshold) (totalWeight : ℕ) (closed : Bool)
    (tally : Vote → ℕ) : Prop :=
  match threshold with
  | .absoluteCount weight => totalWeight - weight.toNat < tally .no
  | .absolutePercentage percentage =>
      neededVotes (totalWeight - tally .abstain) percentage.complement <
        tally .no
  | .thresholdQuorum threshold _ =>
      neededVotes (opinions totalWeight closed tally) threshold.complement <
        tally .no

/-- The products formed by `isPassed` fit; without the quorum the second one
is not formed. -/
def CarriesFits (threshold : Threshold) (totalWeight : ℕ) (closed : Bool)
    (tally : Vote → ℕ) : Prop :=
  match threshold with
  | .absoluteCount _ => True
  | .absolutePercentage percentage =>
      Fits (totalWeight - tally .abstain) percentage
  | .thresholdQuorum threshold quorum =>
      Fits totalWeight quorum ∧
        (neededVotes totalWeight quorum ≤ ∑ vote, tally vote →
          Fits (opinions totalWeight closed tally) threshold)

/-- The product formed by `isRejected` fits. -/
def DefeatsFits (threshold : Threshold) (totalWeight : ℕ) (closed : Bool)
    (tally : Vote → ℕ) : Prop :=
  match threshold with
  | .absoluteCount _ => True
  | .absolutePercentage percentage =>
      Fits (totalWeight - tally .abstain) percentage.complement
  | .thresholdQuorum threshold _ =>
      Fits (opinions totalWeight closed tally) threshold.complement

instance (threshold : Threshold) (totalWeight : ℕ) (closed : Bool)
    (tally : Vote → ℕ) :
    Decidable (Carries threshold totalWeight closed tally) :=
  match threshold with
  | .absoluteCount _ => inferInstanceAs (Decidable (_ ≤ _))
  | .absolutePercentage _ => inferInstanceAs (Decidable (_ ≤ _))
  | .thresholdQuorum _ _ => inferInstanceAs (Decidable (_ ∧ _))

instance (threshold : Threshold) (totalWeight : ℕ) (closed : Bool)
    (tally : Vote → ℕ) :
    Decidable (Defeats threshold totalWeight closed tally) :=
  match threshold with
  | .absoluteCount _ => inferInstanceAs (Decidable (_ < _))
  | .absolutePercentage _ => inferInstanceAs (Decidable (_ < _))
  | .thresholdQuorum _ _ => inferInstanceAs (Decidable (_ < _))

instance (threshold : Threshold) (totalWeight : ℕ) (closed : Bool)
    (tally : Vote → ℕ) :
    Decidable (CarriesFits threshold totalWeight closed tally) :=
  match threshold with
  | .absoluteCount _ => inferInstanceAs (Decidable True)
  | .absolutePercentage _ => inferInstanceAs (Decidable (Fits _ _))
  | .thresholdQuorum _ _ => inferInstanceAs (Decidable (Fits _ _ ∧ (_ → _)))

instance (threshold : Threshold) (totalWeight : ℕ) (closed : Bool)
    (tally : Vote → ℕ) :
    Decidable (DefeatsFits threshold totalWeight closed tally) :=
  match threshold with
  | .absoluteCount _ => inferInstanceAs (Decidable True)
  | .absolutePercentage _ => inferInstanceAs (Decidable (Fits _ _))
  | .thresholdQuorum _ _ => inferInstanceAs (Decidable (Fits _ _))

/-! ## The word-level functions compute the predicates -/

section Refinement

variable {percentage : Decimal}

theorem toNat_complement (hone : percentage.atomics.toNat ≤ 1000000000000000000) :
    percentage.complement.atomics.toNat =
      1000000000000000000 - percentage.atomics.toNat := by
  rw [Decimal.complement, BitVec.toNat_sub_of_le (by exact hone)]
  rfl

theorem one_sub_eq_complement
    (hone : percentage.atomics.toNat ≤ 1000000000000000000) :
    Decimal.one.sub percentage = some percentage.complement := by
  have hle : percentage.atomics.toNat ≤ Decimal.one.atomics.toNat := hone
  obtain ⟨difference, hsub, hvalue⟩ := Decimal.sub_eq_some_of_le hle
  rw [hsub, Option.some.injEq]
  apply Decimal.ext
  apply BitVec.eq_of_toNat_eq
  rw [hvalue, toNat_complement hone]
  rfl

theorem neededVotes_le (hone : percentage.atomics.toNat ≤ 1000000000000000000)
    (weight : ℕ) : neededVotes weight percentage ≤ weight :=
  nestedCeil_le_whole (by omega) hone

/-- A percentage of at most one loses nothing when it is cut to 64 bits. -/
theorem toNat_neededVotes
    (hone : percentage.atomics.toNat ≤ 1000000000000000000) (weight : U64) :
    (BitVec.ofNat 64 (neededVotes weight.toNat percentage)).toNat =
      neededVotes weight.toNat percentage :=
  toNat_ofNat_of_lt ((neededVotes_le hone weight.toNat).trans_lt weight.isLt)

theorem votesNeeded_bind {B : Type} (weight : U64) (percentage : Decimal)
    (next : U64 → Option B) :
    (votesNeeded weight percentage).bind next =
      if Fits weight.toNat percentage then
        next (BitVec.ofNat 64 (neededVotes weight.toNat percentage))
      else none := by
  rw [votesNeeded_eq]
  split <;> rfl

/-- The test of a weight against a percentage, as `isPassed` makes it. -/
theorem votesNeeded_le_test
    (hone : percentage.atomics.toNat ≤ 1000000000000000000)
    (weight yes : U64) :
    ((votesNeeded weight percentage).bind fun needed =>
        some (decide (needed ≤ yes))) =
      if Fits weight.toNat percentage then
        some (decide (neededVotes weight.toNat percentage ≤ yes.toNat))
      else none := by
  simp only [votesNeeded_bind, BitVec.le_def, toNat_neededVotes hone]

/-- The test of a weight against a percentage, as `isRejected` makes it. -/
theorem votesNeeded_lt_test
    (hone : percentage.atomics.toNat ≤ 1000000000000000000)
    (weight no : U64) :
    ((votesNeeded weight percentage).bind fun needed =>
        some (decide (needed < no))) =
      if Fits weight.toNat percentage then
        some (decide (neededVotes weight.toNat percentage < no.toNat))
      else none := by
  simp only [votesNeeded_bind, BitVec.lt_def, toNat_neededVotes hone]

variable {M : Type} {prop : Proposal M} {block : BlockInfo}

/-- The weight of all opinions, as both decisions form it. -/
theorem opinions_words
    (htotal : ∑ vote, prop.votes.tally vote ≤ prop.totalWeight.toNat) :
    ∃ cast closedOpinions openOpinions : U64,
      prop.votes.total = some cast ∧
      cast.toNat = ∑ vote, prop.votes.tally vote ∧
      checkedSub cast prop.votes.abstain = some closedOpinions ∧
      closedOpinions.toNat =
        opinions prop.totalWeight.toNat true prop.votes.tally ∧
      checkedSub prop.totalWeight prop.votes.abstain = some openOpinions ∧
      openOpinions.toNat =
        opinions prop.totalWeight.toNat false prop.votes.tally := by
  have hword := prop.totalWeight.isLt
  have hcast := toNat_ofNat_of_lt (htotal.trans_lt hword)
  have habstain : prop.votes.abstain.toNat ≤
      ∑ vote, prop.votes.tally vote := by
    rw [sum_vote]
    simp only [Votes.tally]
    omega
  refine ⟨BitVec.ofNat 64 (∑ vote, prop.votes.tally vote),
    BitVec.ofNat 64 (∑ vote, prop.votes.tally vote -
      prop.votes.abstain.toNat),
    BitVec.ofNat 64 (prop.totalWeight.toNat - prop.votes.abstain.toNat),
    Votes.total_of_lt (htotal.trans_lt hword), hcast, ?_, ?_, ?_, ?_⟩
  · rw [checkedSub_of_le (by rw [hcast]; exact habstain), hcast]
  · exact toNat_ofNat_of_lt
      ((Nat.sub_le _ _).trans_lt (htotal.trans_lt hword))
  · exact checkedSub_of_le (habstain.trans htotal)
  · exact toNat_ofNat_of_lt ((Nat.sub_le _ _).trans_lt hword)

/-- `isPassed` returns `Carries` where its products fit and traps elsewhere. -/
theorem isPassed_eq (block : BlockInfo)
    (hvalid : prop.threshold.Valid prop.totalWeight.toNat)
    (htotal : ∑ vote, prop.votes.tally vote ≤ prop.totalWeight.toNat) :
    prop.isPassed block =
      if CarriesFits prop.threshold prop.totalWeight.toNat
          (prop.expires.isExpired block) prop.votes.tally then
        some (decide (Carries prop.threshold prop.totalWeight.toNat
          (prop.expires.isExpired block) prop.votes.tally))
      else none := by
  obtain ⟨cast, closedOpinions, openOpinions, hcast, hcastNat, hclosed,
    hclosedNat, hopen, hopenNat⟩ := opinions_words htotal
  rw [Proposal.isPassed]
  cases hthreshold : prop.threshold with
  | absoluteCount weight =>
      rw [if_pos (by exact trivial), Option.some.injEq, decide_eq_decide]
      exact BitVec.le_def
  | absolutePercentage percentage =>
      rw [hthreshold] at hvalid
      simp only [Option.bind_eq_bind, Option.pure_def, hopen, Option.bind_some]
      rw [votesNeeded_le_test hvalid.2, hopenNat]
      rfl
  | thresholdQuorum threshold quorum =>
      rw [hthreshold] at hvalid
      simp only [Option.bind_eq_bind, Option.pure_def, hcast, Option.bind_some,
        votesNeeded_bind prop.totalWeight quorum, BitVec.lt_def, hcastNat,
        toNat_neededVotes hvalid.2.2]
      by_cases hfits : Fits prop.totalWeight.toNat quorum
      · by_cases hquorum : neededVotes prop.totalWeight.toNat quorum ≤
            ∑ vote, prop.votes.tally vote
        · cases prop.expires.isExpired block with
          | true =>
              simp only [hfits, hquorum, Nat.not_lt.2 hquorum, if_true, if_false,
                hclosed, Option.bind_some, votesNeeded_le_test hvalid.1.2,
                hclosedNat, CarriesFits, Carries, true_and, forall_const]
              rfl
          | false =>
              simp only [hfits, hquorum, Nat.not_lt.2 hquorum, if_true, if_false,
                Bool.false_eq_true, hopen, Option.bind_some,
                votesNeeded_le_test hvalid.1.2, hopenNat, CarriesFits, Carries,
                true_and, forall_const]
              rfl
        · simp [CarriesFits, Carries, hfits, hquorum, Nat.lt_of_not_le hquorum]
      · simp [CarriesFits, hfits]

/-- `isRejected` returns `Defeats` where its product fits and traps
elsewhere. -/
theorem isRejected_eq (block : BlockInfo)
    (hvalid : prop.threshold.Valid prop.totalWeight.toNat)
    (htotal : ∑ vote, prop.votes.tally vote ≤ prop.totalWeight.toNat) :
    prop.isRejected block =
      if DefeatsFits prop.threshold prop.totalWeight.toNat
          (prop.expires.isExpired block) prop.votes.tally then
        some (decide (Defeats prop.threshold prop.totalWeight.toNat
          (prop.expires.isExpired block) prop.votes.tally))
      else none := by
  obtain ⟨cast, closedOpinions, openOpinions, hcast, hcastNat, hclosed,
    hclosedNat, hopen, hopenNat⟩ := opinions_words htotal
  rw [Proposal.isRejected]
  cases hthreshold : prop.threshold with
  | absoluteCount weight =>
      rw [hthreshold] at hvalid
      have hrest : (BitVec.ofNat 64
          (prop.totalWeight.toNat - weight.toNat)).toNat =
          prop.totalWeight.toNat - weight.toNat :=
        toNat_ofNat_of_lt ((Nat.sub_le _ _).trans_lt prop.totalWeight.isLt)
      simp only [Option.bind_eq_bind, Option.pure_def,
        checkedSub_of_le hvalid.2, Option.bind_some, BitVec.lt_def, hrest]
      rfl
  | absolutePercentage percentage =>
      rw [hthreshold] at hvalid
      simp only [Option.bind_eq_bind, Option.pure_def, hopen, Option.bind_some,
        one_sub_eq_complement hvalid.2]
      rw [votesNeeded_lt_test (by rw [toNat_complement hvalid.2]; omega),
        hopenNat]
      rfl
  | thresholdQuorum threshold quorum =>
      rw [hthreshold] at hvalid
      have hcomplement := toNat_complement hvalid.1.2
      cases prop.expires.isExpired block with
      | true =>
          simp only [if_true, Option.bind_eq_bind, Option.pure_def, hcast,
            hclosed, Option.bind_some, one_sub_eq_complement hvalid.1.2]
          rw [votesNeeded_lt_test (by omega), hclosedNat]
          rfl
      | false =>
          simp only [Bool.false_eq_true, if_false, Option.bind_eq_bind,
            Option.pure_def, hopen, Option.bind_some,
            one_sub_eq_complement hvalid.1.2]
          rw [votesNeeded_lt_test (by omega), hopenNat]
          rfl

/-- A guarded test has a value when its guard holds. -/
private theorem ite_decide_eq_some_iff {guard test : Prop} [Decidable guard]
    [Decidable test] {value : Bool} :
    (if guard then some (decide test) else none) = some value ↔
      guard ∧ (test ↔ value = true) := by
  split <;> cases value <;> simp [*]

theorem isPassed_eq_some_iff
    (hvalid : prop.threshold.Valid prop.totalWeight.toNat)
    (htotal : ∑ vote, prop.votes.tally vote ≤ prop.totalWeight.toNat)
    {passed : Bool} :
    prop.isPassed block = some passed ↔
      CarriesFits prop.threshold prop.totalWeight.toNat
          (prop.expires.isExpired block) prop.votes.tally ∧
        (Carries prop.threshold prop.totalWeight.toNat
          (prop.expires.isExpired block) prop.votes.tally ↔ passed = true) := by
  rw [isPassed_eq block hvalid htotal, ite_decide_eq_some_iff]

theorem isRejected_eq_some_iff
    (hvalid : prop.threshold.Valid prop.totalWeight.toNat)
    (htotal : ∑ vote, prop.votes.tally vote ≤ prop.totalWeight.toNat)
    {rejected : Bool} :
    prop.isRejected block = some rejected ↔
      DefeatsFits prop.threshold prop.totalWeight.toNat
          (prop.expires.isExpired block) prop.votes.tally ∧
        (Defeats prop.threshold prop.totalWeight.toNat
          (prop.expires.isExpired block) prop.votes.tally ↔
            rejected = true) := by
  rw [isRejected_eq block hvalid htotal, ite_decide_eq_some_iff]

theorem isPassed_iff
    (hvalid : prop.threshold.Valid prop.totalWeight.toNat)
    (htotal : ∑ vote, prop.votes.tally vote ≤ prop.totalWeight.toNat) :
    prop.isPassed block = some true ↔
      CarriesFits prop.threshold prop.totalWeight.toNat
          (prop.expires.isExpired block) prop.votes.tally ∧
        Carries prop.threshold prop.totalWeight.toNat
          (prop.expires.isExpired block) prop.votes.tally := by
  rw [isPassed_eq_some_iff hvalid htotal, iff_true_right rfl]

theorem isRejected_iff
    (hvalid : prop.threshold.Valid prop.totalWeight.toNat)
    (htotal : ∑ vote, prop.votes.tally vote ≤ prop.totalWeight.toNat) :
    prop.isRejected block = some true ↔
      DefeatsFits prop.threshold prop.totalWeight.toNat
          (prop.expires.isExpired block) prop.votes.tally ∧
        Defeats prop.threshold prop.totalWeight.toNat
          (prop.expires.isExpired block) prop.votes.tally := by
  rw [isRejected_eq_some_iff hvalid htotal, iff_true_right rfl]

/-- The block matters only through the deadline. -/
theorem isPassed_congr {block' : BlockInfo}
    (hexpired : prop.expires.isExpired block =
      prop.expires.isExpired block') :
    prop.isPassed block = prop.isPassed block' := by
  rw [Proposal.isPassed, Proposal.isPassed, hexpired]

theorem isRejected_congr {block' : BlockInfo}
    (hexpired : prop.expires.isExpired block =
      prop.expires.isExpired block') :
    prop.isRejected block = prop.isRejected block' := by
  rw [Proposal.isRejected, Proposal.isRejected, hexpired]

/-- The status of an open proposal in terms of the two decisions; a decision
that is not asked for cannot trap. -/
theorem currentStatus_eq
    (hvalid : prop.threshold.Valid prop.totalWeight.toNat)
    (htotal : ∑ vote, prop.votes.tally vote ≤ prop.totalWeight.toNat)
    (hopen : prop.status = Status.open) :
    prop.currentStatus block =
      if CarriesFits prop.threshold prop.totalWeight.toNat
          (prop.expires.isExpired block) prop.votes.tally then
        if Carries prop.threshold prop.totalWeight.toNat
            (prop.expires.isExpired block) prop.votes.tally then
          some Status.passed
        else if DefeatsFits prop.threshold prop.totalWeight.toNat
            (prop.expires.isExpired block) prop.votes.tally then
          some (if Defeats prop.threshold prop.totalWeight.toNat
              (prop.expires.isExpired block) prop.votes.tally ∨
                prop.expires.isExpired block = true then
            Status.rejected else Status.open)
        else none
      else none := by
  have hpassed := isPassed_eq block hvalid htotal
  have hrejected := isRejected_eq block hvalid htotal
  by_cases hfits : CarriesFits prop.threshold prop.totalWeight.toNat
      (prop.expires.isExpired block) prop.votes.tally
  · rw [if_pos hfits] at hpassed ⊢
    by_cases hcarries : Carries prop.threshold prop.totalWeight.toNat
        (prop.expires.isExpired block) prop.votes.tally
    · rw [decide_eq_true hcarries] at hpassed
      rw [if_pos hcarries, Proposal.currentStatus_of_isPassed hopen hpassed]
    · rw [decide_eq_false hcarries] at hpassed
      rw [if_neg hcarries,
        Proposal.currentStatus_of_not_isPassed hopen hpassed, hrejected]
      split
      · simp
      · rfl
  · rw [if_neg hfits] at hpassed ⊢
    exact Proposal.currentStatus_eq_none hopen hpassed

/-- An updated proposal is passed exactly when its tally carries it. -/
theorem updateStatus_passed_iff {prop' : Proposal M}
    (hupdate : prop.updateStatus block = some prop')
    (hopen : prop.status = Status.open)
    (hvalid : prop.threshold.Valid prop.totalWeight.toNat)
    (htotal : ∑ vote, prop.votes.tally vote ≤ prop.totalWeight.toNat) :
    prop'.status = Status.passed ↔
      Carries prop.threshold prop.totalWeight.toNat
        (prop.expires.isExpired block) prop.votes.tally := by
  obtain ⟨status, hstatus, rfl⟩ :=
    Proposal.updateStatus_eq_some_iff.1 hupdate
  rw [currentStatus_eq hvalid htotal hopen] at hstatus
  split_ifs at hstatus with hfits hcarries hdefeats hlost <;>
    obtain rfl := Option.some.inj hstatus <;> simp [hcarries]

/-- A percentage of at least one half exceeds its complement. -/
theorem complement_le (hmajority : Threshold.Majority percentage) :
    percentage.complement.atomics.toNat ≤ percentage.atomics.toNat := by
  obtain ⟨hhalf, hone⟩ := hmajority
  rw [toNat_complement hone]
  omega

/-- A tally that carries a proposal has formed the larger product already. -/
theorem defeatsFits_of_carries {threshold : Threshold} {totalWeight : ℕ}
    {closed : Bool} {tally : Vote → ℕ} (hvalid : threshold.Valid totalWeight)
    (hcarries : Carries threshold totalWeight closed tally)
    (hfits : CarriesFits threshold totalWeight closed tally) :
    DefeatsFits threshold totalWeight closed tally := by
  cases threshold with
  | absoluteCount weight => trivial
  | absolutePercentage percentage =>
      exact hfits.mono le_rfl (complement_le hvalid)
  | thresholdQuorum threshold quorum =>
      exact (hfits.2 hcarries.1).mono le_rfl (complement_le hvalid.1)

/-- A status update of an open proposal succeeds exactly when the products of
both decisions fit. -/
theorem updateStatus_isSome_iff
    (hvalid : prop.threshold.Valid prop.totalWeight.toNat)
    (htotal : ∑ vote, prop.votes.tally vote ≤ prop.totalWeight.toNat)
    (hopen : prop.status = Status.open) :
    (prop.updateStatus block).isSome ↔
      CarriesFits prop.threshold prop.totalWeight.toNat
          (prop.expires.isExpired block) prop.votes.tally ∧
        DefeatsFits prop.threshold prop.totalWeight.toNat
          (prop.expires.isExpired block) prop.votes.tally := by
  have hsome : (prop.updateStatus block).isSome ↔
      (prop.currentStatus block).isSome := by
    rw [Proposal.updateStatus]
    cases prop.currentStatus block <;> simp
  rw [hsome, currentStatus_eq hvalid htotal hopen]
  split_ifs with hfits hcarries hdefeats
  · simp [hfits, defeatsFits_of_carries hvalid hcarries hfits]
  all_goals simp [*]

end Refinement

/-! ## Decisions under further votes -/

section Continuation

variable {threshold : Threshold} {totalWeight : ℕ} {closed : Bool}
variable {tally : Vote → ℕ}

theorem neededVotes_mono (percentage : Decimal) {weight weight' : ℕ}
    (hweight : weight ≤ weight') :
    neededVotes weight percentage ≤ neededVotes weight' percentage :=
  nestedCeil_mono (by omega) hweight le_rfl

/-- The pass bound and the reject bound of one percentage cover the weight
together. -/
theorem le_neededVotes_add_complement {percentage : Decimal}
    (hone : percentage.atomics.toNat ≤ 1000000000000000000) (weight : ℕ) :
    weight ≤ neededVotes weight percentage +
      neededVotes weight percentage.complement := by
  rw [neededVotes, neededVotes, toNat_complement hone]
  exact whole_le_nestedCeil_add_nestedCeil (by omega) (by omega) hone

/-- Yes and no votes are opinions. -/
theorem yes_add_no_le_opinions (closed : Bool)
    (htotal : ∑ vote, tally vote ≤ totalWeight) :
    tally .yes + tally .no ≤ opinions totalWeight closed tally := by
  have hsum := sum_vote tally
  rw [opinions]
  split <;> omega

/-- A tally never carries and defeats a proposal at once. -/
theorem not_carries_of_defeats (hvalid : threshold.Valid totalWeight)
    (htotal : ∑ vote, tally vote ≤ totalWeight)
    (hdefeats : Defeats threshold totalWeight closed tally) :
    ¬ Carries threshold totalWeight closed tally := by
  intro hcarries
  have hsum := sum_vote tally
  cases threshold with
  | absoluteCount weight =>
      have hreachable : weight.toNat ≤ totalWeight := hvalid.2
      simp only [Carries, Defeats] at hcarries hdefeats
      omega
  | absolutePercentage percentage =>
      have hcover := le_neededVotes_add_complement hvalid.2
        (totalWeight - tally .abstain)
      simp only [Carries, Defeats] at hcarries hdefeats
      omega
  | thresholdQuorum threshold quorum =>
      have hcover := le_neededVotes_add_complement hvalid.1.2
        (opinions totalWeight closed tally)
      have hopinions := yes_add_no_le_opinions closed htotal
      simp only [Carries, Defeats] at hcarries hdefeats
      omega

/-- Further votes never leave more opinions possible. -/
private theorem sub_abstain_le (totalWeight : ℕ) (tally part : Vote → ℕ) :
    totalWeight - (tally .abstain + part .abstain) ≤
      totalWeight - tally .abstain :=
  Nat.sub_le_sub_left (Nat.le_add_right _ _) _

/-- Before the deadline, what carries a proposal still carries it after any
further votes. -/
theorem carries_add (hcarries : Carries threshold totalWeight false tally)
    (part : Vote → ℕ) :
    Carries threshold totalWeight false (tally + part) := by
  have hopinions := sub_abstain_le totalWeight tally part
  cases threshold with
  | absoluteCount weight =>
      simp only [Carries, Pi.add_apply] at hcarries ⊢
      omega
  | absolutePercentage percentage =>
      have hmono := neededVotes_mono percentage hopinions
      simp only [Carries, Pi.add_apply] at hcarries ⊢
      omega
  | thresholdQuorum threshold quorum =>
      have hmono := neededVotes_mono threshold hopinions
      simp only [Carries, opinions, Bool.false_eq_true, if_false, Pi.add_apply,
        Finset.sum_add_distrib] at hcarries ⊢
      omega

/-- Before the deadline, what defeats a proposal still defeats it after any
further votes. -/
theorem defeats_add (hdefeats : Defeats threshold totalWeight false tally)
    (part : Vote → ℕ) :
    Defeats threshold totalWeight false (tally + part) := by
  have hopinions := sub_abstain_le totalWeight tally part
  cases threshold with
  | absoluteCount weight =>
      simp only [Defeats, Pi.add_apply] at hdefeats ⊢
      omega
  | absolutePercentage percentage =>
      have hmono := neededVotes_mono percentage.complement hopinions
      simp only [Defeats, Pi.add_apply] at hdefeats ⊢
      omega
  | thresholdQuorum threshold quorum =>
      have hmono := neededVotes_mono threshold.complement hopinions
      simp only [Defeats, opinions, Bool.false_eq_true, if_false,
        Pi.add_apply] at hdefeats ⊢
      omega

theorem opinions_closed_le (htotal : ∑ vote, tally vote ≤ totalWeight) :
    opinions totalWeight closed tally ≤ opinions totalWeight false tally := by
  simp only [opinions, Bool.false_eq_true, if_false]
  split <;> omega

/-- What carries a proposal before the deadline carries it at the deadline. -/
theorem carries_closed (htotal : ∑ vote, tally vote ≤ totalWeight)
    (hcarries : Carries threshold totalWeight false tally) :
    Carries threshold totalWeight closed tally := by
  cases threshold with
  | absoluteCount weight => exact hcarries
  | absolutePercentage percentage => exact hcarries
  | thresholdQuorum threshold quorum =>
      exact ⟨hcarries.1,
        (neededVotes_mono threshold (opinions_closed_le htotal)).trans
          hcarries.2⟩

/-- What defeats a proposal before the deadline defeats it at the deadline. -/
theorem defeats_closed (htotal : ∑ vote, tally vote ≤ totalWeight)
    (hdefeats : Defeats threshold totalWeight false tally) :
    Defeats threshold totalWeight closed tally := by
  cases threshold with
  | absoluteCount weight => exact hdefeats
  | absolutePercentage percentage => exact hdefeats
  | thresholdQuorum threshold quorum =>
      exact (neededVotes_mono threshold.complement
        (opinions_closed_le htotal)).trans_lt hdefeats

/-- The products formed before the deadline bound those formed after it. -/
theorem carriesFits_closed (htotal : ∑ vote, tally vote ≤ totalWeight)
    (hfits : CarriesFits threshold totalWeight false tally) :
    CarriesFits threshold totalWeight closed tally := by
  cases threshold with
  | absoluteCount weight => exact hfits
  | absolutePercentage percentage => exact hfits
  | thresholdQuorum threshold quorum =>
      exact ⟨hfits.1, fun hquorum =>
        (hfits.2 hquorum).mono (opinions_closed_le htotal) le_rfl⟩

/-- Before the deadline, the product of the rejection only shrinks. -/
theorem defeatsFits_add (hfits : DefeatsFits threshold totalWeight false tally)
    (part : Vote → ℕ) :
    DefeatsFits threshold totalWeight false (tally + part) := by
  have hopinions := sub_abstain_le totalWeight tally part
  cases threshold with
  | absoluteCount weight => trivial
  | absolutePercentage percentage => exact hfits.mono hopinions le_rfl
  | thresholdQuorum majority quorum =>
      exact Fits.mono hfits hopinions le_rfl

/-- What is sure to pass in one block is sure to pass in every later one. -/
theorem isPassed_later {M : Type} {prop : Proposal M}
    (hvalid : prop.threshold.Valid prop.totalWeight.toNat)
    (htotal : ∑ vote, prop.votes.tally vote ≤ prop.totalWeight.toNat)
    {earlier later : BlockInfo} (hle : earlier ≤ later)
    (hpassed : prop.isPassed earlier = some true) :
    prop.isPassed later = some true := by
  cases hearlier : prop.expires.isExpired earlier with
  | true =>
      have hlater := Expiration.isExpired_mono hle hearlier
      rw [← hpassed]
      exact isPassed_congr (by rw [hlater, hearlier])
  | false =>
      rw [isPassed_iff hvalid htotal, hearlier] at hpassed
      rw [isPassed_iff hvalid htotal]
      exact ⟨carriesFits_closed htotal hpassed.1,
        carries_closed htotal hpassed.2⟩

/-- The decision on a tally before the deadline. -/
def verdict (threshold : Threshold) (totalWeight : ℕ) (tally : Vote → ℕ) :
    Option Status :=
  if Carries threshold totalWeight false tally then some Status.passed
  else if Defeats threshold totalWeight false tally then
    some Status.rejected
  else none

/-- No further vote within the total weight changes a decision. -/
theorem verdict_persistent (hvalid : threshold.Valid totalWeight) :
    SettledTally.Persistent (verdict threshold totalWeight)
      fun tally => ∑ vote, tally vote ≤ totalWeight where
  keep total part decision hadmissible hverdict := by
    rw [verdict] at hverdict
    split at hverdict
    · next hcarries =>
        rw [verdict, if_pos (carries_add hcarries part), hverdict]
    · next hcarries =>
        split at hverdict
        · next hdefeats =>
            have hdefeats' := defeats_add hdefeats part
            rw [verdict, if_neg (not_carries_of_defeats hvalid hadmissible
              hdefeats'), if_pos hdefeats', hverdict]
        · cases hverdict

/-- Before the deadline a status update stores the verdict. -/
theorem updateStatus_status_eq {M : Type} {prop prop' : Proposal M}
    {block : BlockInfo} (hupdate : prop.updateStatus block = some prop')
    (hopen : prop.status = Status.open)
    (hvalid : prop.threshold.Valid prop.totalWeight.toNat)
    (htotal : ∑ vote, prop.votes.tally vote ≤ prop.totalWeight.toNat)
    (hunexpired : prop.expires.isExpired block = false) :
    prop'.status = (verdict prop.threshold prop.totalWeight.toNat
      prop.votes.tally).getD Status.open := by
  obtain ⟨status, hstatus, rfl⟩ :=
    Proposal.updateStatus_eq_some_iff.1 hupdate
  rw [currentStatus_eq hvalid htotal hopen, hunexpired] at hstatus
  rw [verdict]
  split_ifs at hstatus with hfits hcarries hdefeatsFits hdefeats <;>
    obtain rfl := Option.some.inj hstatus
  · rw [if_pos hcarries]
    rfl
  · rw [if_neg hcarries, if_pos (by simpa using hdefeats)]
    rfl
  · rw [if_neg hcarries, if_neg fun h => hdefeats (.inl h)]
    rfl

/-- A verdict is never that a proposal is open. -/
theorem verdict_ne_open (tally : Vote → ℕ) :
    verdict threshold totalWeight tally ≠ some Status.open := by
  rw [verdict]
  split_ifs <;> decide

theorem verdict_getD_eq_passed_iff {tally : Vote → ℕ} :
    (verdict threshold totalWeight tally).getD Status.open = Status.passed ↔
      Carries threshold totalWeight false tally := by
  rw [verdict]
  split_ifs with hcarries hdefeats <;> simp [hcarries]

end Continuation

end Decision

end FixedMultisig
