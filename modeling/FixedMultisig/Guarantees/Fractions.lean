import FixedMultisig.Contract.FixedPoint
import FixedMultisig.Core.RatioRounding
import FixedMultisig.Guarantees.Coalitions
import FixedMultisig.Guarantees.Rounding

/-!
# Fractions as decimals

A threshold like two thirds is no decimal of 18 digits, so it is cut before it
is ever applied.  With a small denominator the needed weight is the exact one
all the same, and the contract decides as if it compared the fractions
themselves.  Taken of a number directly, a cut fraction gives less than the
fraction itself, but by one at most for numbers up to `10¹⁸`.
-/

namespace FixedMultisig

open CheckedWord NestedRounding RatioRounding Assembly Decision

variable {M : Type} {msg : InitMsg}

theorem Decimal.toNat_fromRatio {nominator denominator : U128} {value : Decimal}
    (hvalue : Decimal.fromRatio nominator denominator = some value) :
    value.atomics.toNat =
      ratio (1000000000 * 1000000000) nominator.toNat denominator.toNat :=
  (Decimal.fromRatio_eq_some_iff.1 hvalue).2.2

/-- Percents and thousandths are the ratios they are named after. -/
theorem Decimal.fromRatio_percent (x : U64) :
    Decimal.fromRatio (x.setWidth 128) 100 = some (.percent x) ∧
      Decimal.fromRatio (x.setWidth 128) 1000 = some (.permille x) := by
  have hx := x.isLt
  have hword : (x.setWidth 128).toNat = x.toNat := by
    rw [BitVec.toNat_setWidth, Nat.mod_eq_of_lt (by omega)]
  have hhundred : (100 : U128).toNat = 100 := rfl
  have hthousand : (1000 : U128).toNat = 1000 := rfl
  constructor
  · rw [Decimal.fromRatio_eq_some_iff, toNat_percent, hword, hhundred]
    omega
  · rw [Decimal.fromRatio_eq_some_iff, toNat_permille, hword, hthousand]
    omega

/-! ## The needed weight -/

/-- A fraction of at most one, cut to a decimal, is at most one. -/
theorem Decimal.fromRatio_le_one {nominator denominator : U128} {value : Decimal}
    (hvalue : Decimal.fromRatio nominator denominator = some value)
    (hproper : nominator ≤ denominator) :
    value.atomics.toNat ≤ 1000000000000000000 := by
  obtain ⟨hdenominator, -, hatomics⟩ := Decimal.fromRatio_eq_some_iff.1 hvalue
  rw [hatomics]
  apply Nat.div_le_of_le_mul
  exact Nat.mul_le_mul_right _ (BitVec.le_def.1 hproper)

/-- The needed weight for a fraction never exceeds the fraction of the weight,
rounded up; it misses it by less than the weight and `10⁹` in units of `10⁻¹⁸`,
and with a small denominator it does not miss it at all. -/
theorem votesNeeded_fromRatio {weight needed : U64}
    {nominator denominator : U128} {percentage : Decimal}
    (hratio : Decimal.fromRatio nominator denominator = some percentage)
    (hproper : nominator ≤ denominator)
    (hneeded : votesNeeded weight percentage = some needed) :
    needed.toNat ≤ weight.toNat * nominator.toNat ⌈/⌉ denominator.toNat ∧
      weight.toNat * nominator.toNat * 10 ^ 18 <
        denominator.toNat *
          (10 ^ 18 * needed.toNat + 10 ^ 9 + weight.toNat) ∧
      (denominator.toNat * (10 ^ 9 + weight.toNat) ≤ 10 ^ 18 →
        needed.toNat =
          weight.toNat * nominator.toNat ⌈/⌉ denominator.toNat) := by
  have hdenominator := (Decimal.fromRatio_eq_some_iff.1 hratio).1
  have hfits : Fits weight.toNat percentage := by
    rw [votesNeeded_eq, Option.ite_none_right_eq_some] at hneeded
    exact hneeded.1
  obtain ⟨needed', hneeded', hvalue⟩ :=
    votesNeeded_of_fits (Decimal.fromRatio_le_one hratio hproper) hfits
  obtain rfl := Option.some.inj (hneeded'.symm.trans hneeded)
  have hscale : 0 < 1000000000 := by decide
  have hnested : needed'.toNat = nestedCeil 1000000000
      (1000000000 * 1000000000) weight.toNat
      (ratio (1000000000 * 1000000000) nominator.toNat
        denominator.toNat) := by
    rw [hvalue, neededVotes, Decimal.toNat_fromRatio hratio]
  rw [hnested]
  exact ⟨nestedCeil_ratio_le hscale hscale hdenominator,
    lt_nestedCeil_ratio hscale hscale hdenominator,
    nestedCeil_ratio_eq hscale hscale hdenominator⟩

/-- Two thirds of a hundred, rounded up. -/
theorem votesNeeded_fromRatio_thirds :
    Decimal.fromRatio 2 3 = some ⟨666666666666666666⟩ ∧
      votesNeeded 100 ⟨666666666666666666⟩ = some 67 ∧
      (67 : U64).toNat =
        (100 : U64).toNat * (2 : U128).toNat ⌈/⌉ (3 : U128).toNat :=
  have hratio : Decimal.fromRatio 2 3 = some ⟨666666666666666666⟩ := by
    decide +kernel
  have hneeded : votesNeeded 100 ⟨666666666666666666⟩ = some 67 := by
    decide +kernel
  ⟨hratio, hneeded,
    (votesNeeded_fromRatio hratio (by decide) hneeded).2.2 (by decide)⟩

/-! ## What the contract decides -/

/-- The decimal was made from a fraction whose denominator is small beside the
weight. -/
structure Stands (weight : ℕ) (nominator denominator : U128)
    (percentage : Decimal) : Prop where
  made : Decimal.fromRatio nominator denominator = some percentage
  small : denominator.toNat * (10 ^ 9 + weight) ≤ 10 ^ 18

/-- Enough for the decimal is enough for the fraction. -/
theorem Stands.neededVotes_le_iff {total weight bound : ℕ}
    {nominator denominator : U128} {percentage : Decimal}
    (hstands : Stands total nominator denominator percentage)
    (hweight : weight ≤ total) :
    neededVotes weight percentage ≤ bound ↔
      weight * nominator.toNat ≤ denominator.toNat * bound := by
  have hdenominator := (Decimal.fromRatio_eq_some_iff.1 hstands.made).1
  have hsmall : denominator.toNat * (1000000000 + weight) ≤
      1000000000 * 1000000000 :=
    (Nat.mul_le_mul_left _ (Nat.add_le_add_left hweight _)).trans hstands.small
  have hneeded : neededVotes weight percentage = nestedCeil 1000000000
      (1000000000 * 1000000000) weight
      (ratio (1000000000 * 1000000000) nominator.toNat
        denominator.toNat) := by
    rw [neededVotes, Decimal.toNat_fromRatio hstands.made]
  rw [hneeded, nestedCeil_ratio_eq (by decide) (by decide) hdenominator hsmall,
    ceilDiv_le_iff_le_mul hdenominator]

/-- What is stored as passed or executed, and what is not, in terms of the
tally. -/
theorem carries_of_stored {chain : Chain M}
    (hreachable : (multisig msg).Reachable chain) {id : U64} {prop : Proposal M}
    (hstored : chain.store.proposals id = some prop) :
    (prop.status = Status.passed ∨ prop.status = Status.executed →
      Carries msg.threshold prop.totalWeight.toNat true prop.votes.tally) ∧
    (¬ (prop.status = Status.passed ∨ prop.status = Status.executed) →
      ¬ Carries msg.threshold prop.totalWeight.toNat false
        prop.votes.tally) := by
  obtain ⟨totalWeight, -, -, rfl, motion, hsound, hportrays, htally⟩ :=
    motion_of_stored hreachable hstored
  rw [hportrays.status, htally]
  cases hphase : motion.phase with
  | voting => exact ⟨nofun, fun _ => (hsound.voting hphase).1⟩
  | carried =>
      exact ⟨fun _ => hsound.decided (.inl hphase), fun h => absurd (.inl rfl) h⟩
  | lost => exact ⟨nofun, fun _ => hsound.lost hphase⟩
  | enacted =>
      exact ⟨fun _ => hsound.decided (.inr hphase), fun h => absurd (.inr rfl) h⟩

/-- Thresholds made from fractions with small denominators are decided as the
fractions say.  By a percentage exactly those proposals pass whose yes weight
is the fraction of what did not abstain; with a quorum, what has passed has the
quorum and the fraction of the opinions cast, and what has not misses the
quorum or the fraction of everything that did not abstain. -/
theorem ratio_decides {chain : Chain M}
    (hreachable : (multisig msg).Reachable chain) {id : U64} {prop : Proposal M}
    (hstored : chain.store.proposals id = some prop)
    {nominator denominator : U128} {percentage : Decimal}
    (hstands : Stands prop.totalWeight.toNat nominator denominator
      percentage) :
    (msg.threshold = .absolutePercentage percentage →
      (prop.status = Status.passed ∨ prop.status = Status.executed ↔
        (prop.totalWeight.toNat - prop.votes.tally .abstain) *
            nominator.toNat ≤
          denominator.toNat * prop.votes.tally .yes)) ∧
    (∀ (quorumNominator quorumDenominator : U128) (quorum : Decimal),
      msg.threshold = .thresholdQuorum percentage quorum →
      Stands prop.totalWeight.toNat quorumNominator quorumDenominator quorum →
      (prop.status = Status.passed ∨ prop.status = Status.executed →
        prop.totalWeight.toNat * quorumNominator.toNat ≤
            quorumDenominator.toNat * ∑ vote, prop.votes.tally vote ∧
          (∑ vote, prop.votes.tally vote - prop.votes.tally .abstain) *
              nominator.toNat ≤
            denominator.toNat * prop.votes.tally .yes) ∧
      (¬ (prop.status = Status.passed ∨ prop.status = Status.executed) →
        quorumDenominator.toNat * ∑ vote, prop.votes.tally vote <
            prop.totalWeight.toNat * quorumNominator.toNat ∨
          denominator.toNat * prop.votes.tally .yes <
            (prop.totalWeight.toNat - prop.votes.tally .abstain) *
              nominator.toNat)) := by
  obtain ⟨hpassed, hnot⟩ := carries_of_stored hreachable hstored
  obtain ⟨-, htotal⟩ := sound_of_reachable hreachable hstored
  constructor
  · intro hthreshold
    rw [hthreshold] at hpassed hnot
    rw [← hstands.neededVotes_le_iff (Nat.sub_le _ _)]
    exact ⟨hpassed, not_imp_not.1 hnot⟩
  · intro quorumNominator quorumDenominator quorum hthreshold hquorum
    rw [hthreshold] at hpassed hnot
    constructor
    · intro hstatus
      obtain ⟨hpresent, hyes⟩ := hpassed hstatus
      refine ⟨(hquorum.neededVotes_le_iff le_rfl).1 hpresent, ?_⟩
      rw [← hstands.neededVotes_le_iff ((Nat.sub_le _ _).trans htotal)]
      exact hyes
    · intro hstatus
      have hmissed := hnot hstatus
      rw [← Nat.not_le, ← Nat.not_le, ← not_and_or,
        ← hquorum.neededVotes_le_iff le_rfl,
        ← hstands.neededVotes_le_iff (Nat.sub_le _ _)]
      exact hmissed

section Example

private def trustees : InitMsg where
  voters := [⟨"alice", 1⟩, ⟨"bob", 1⟩, ⟨"carol", 1⟩]
  threshold := .absolutePercentage ⟨666666666666666666⟩
  maxVotingPeriod := .height 100

private theorem trustees_accepted : trustees.Accepted 3 where
  nonempty := by decide
  summed := by decide
  valid := Threshold.validate_eq_ok_iff.1 (by decide)

private def trusteesChain : Chain String :=
  (Chain.deployed ⟨⟨10, 54⟩, ⟨"dave"⟩⟩ trustees).replay
    [⟨⟨⟨11, 60⟩, ⟨"alice"⟩⟩, .propose "title" "description" ["send"] none⟩,
      ⟨⟨⟨12, 66⟩, ⟨"bob"⟩⟩, .vote 1 .yes⟩]

private def trusteesProposal : Proposal String where
  title := "title"
  description := "description"
  startHeight := 11
  expires := .atHeight 111
  msgs := ["send"]
  status := .passed
  threshold := trustees.threshold
  totalWeight := 3
  votes := ⟨2, 0, 0, 0⟩

private theorem trusteesProposal_stored :
    trusteesChain.store.proposals 1 = some trusteesProposal := rfl

/-- A third is a quorum. -/
private def regents : InitMsg where
  voters := trustees.voters
  threshold := .thresholdQuorum ⟨666666666666666666⟩ ⟨333333333333333333⟩
  maxVotingPeriod := .height 100

private theorem regents_accepted : regents.Accepted 3 where
  nonempty := by decide
  summed := by decide
  valid := Threshold.validate_eq_ok_iff.1 (by decide)

private def regentsChain : Chain String :=
  (Chain.deployed ⟨⟨10, 54⟩, ⟨"dave"⟩⟩ regents).replay
    [⟨⟨⟨11, 60⟩, ⟨"alice"⟩⟩, .propose "title" "description" ["send"] none⟩,
      ⟨⟨⟨11, 60⟩, ⟨"alice"⟩⟩, .propose "title" "description" ["send"] none⟩,
      ⟨⟨⟨12, 66⟩, ⟨"bob"⟩⟩, .vote 1 .yes⟩]

private theorem regentsChain_reachable :
    (multisig regents).Reachable regentsChain :=
  reachable_replay (.of_start (start_deployed _ regents_accepted)) (by decide)

private def regentsProposal (status : Status) (yes : U64) : Proposal String :=
  { trusteesProposal with
    status
    threshold := regents.threshold
    votes := ⟨yes, 0, 0, 0⟩ }

private theorem regents_stored :
    regentsChain.store.proposals 1 = some (regentsProposal .passed 2) ∧
      regentsChain.store.proposals 2 = some (regentsProposal Status.open 1) :=
  ⟨rfl, rfl⟩

/-- Two of three are two thirds, with a quorum and without, and one is not. -/
theorem ratio_decides_trustees :
    (∃ prop, trusteesChain.store.proposals 1 = some prop ∧
      (3 - prop.votes.tally .abstain) * 2 ≤ 3 * prop.votes.tally .yes ∧
      (prop.status = Status.passed ∨ prop.status = Status.executed)) ∧
    (∃ prop, regentsChain.store.proposals 1 = some prop ∧
      prop.status = Status.passed ∧
      3 * 1 ≤ 3 * ∑ vote, prop.votes.tally vote ∧
      (∑ vote, prop.votes.tally vote - prop.votes.tally .abstain) * 2 ≤
        3 * prop.votes.tally .yes) ∧
    ∃ prop, regentsChain.store.proposals 2 = some prop ∧
      prop.status = Status.open ∧
      (3 * ∑ vote, prop.votes.tally vote < 3 * 1 ∨
        3 * prop.votes.tally .yes < (3 - prop.votes.tally .abstain) * 2) := by
  have htrustees : (multisig trustees).Reachable trusteesChain :=
    reachable_replay (.of_start (start_deployed _ trustees_accepted))
      (by decide)
  have hthirds : Stands 3 2 3 ⟨666666666666666666⟩ :=
    ⟨by decide +kernel, by decide⟩
  have hthird : Stands 3 1 3 ⟨333333333333333333⟩ :=
    ⟨by decide +kernel, by decide⟩
  have hpassed := ratio_decides htrustees trusteesProposal_stored hthirds
  have hquorum := ratio_decides regentsChain_reachable regents_stored.1 hthirds
  have hopen := ratio_decides regentsChain_reachable regents_stored.2 hthirds
  exact ⟨⟨_, trusteesProposal_stored, by decide, (hpassed.1 rfl).2 (by decide)⟩,
    ⟨_, regents_stored.1, rfl, (hquorum.2 _ _ _ rfl hthird).1 (.inl rfl)⟩,
    _, regents_stored.2, rfl, (hopen.2 _ _ _ rfl hthird).2 (by decide)⟩

end Example

/-! ## Fractions of a number -/

/-- A number by a decimal made from a fraction, against the same fraction taken
at once: never more, and less by one for each `10¹⁸` of the number or a part of
it; the same if the fraction is a decimal. -/
theorem ratio_share_close {number share exact : Uint128}
    {nominator denominator : U128} {value : Decimal}
    (hratio : Decimal.fromRatio nominator denominator = some value)
    (hshare : value.mulUint128 number = some share)
    (hexact : number.multiplyRatio nominator denominator = some exact) :
    share.value.toNat ≤ exact.value.toNat ∧
      exact.value.toNat ≤
        share.value.toNat + number.value.toNat ⌈/⌉ 10 ^ 18 ∧
      (denominator.toNat ∣ nominator.toNat * 10 ^ 18 → share = exact) := by
  obtain ⟨hdenominator, -, hvalue⟩ := Decimal.fromRatio_eq_some_iff.1 hratio
  obtain ⟨-, hshareNat⟩ := Uint128.mulDecimal_eq_some_iff.1 hshare
  obtain ⟨-, -, hexactNat⟩ := Uint128.multiplyRatio_eq_some_iff.1 hexact
  have hunit : 0 < 10 ^ 18 := by decide
  rw [hvalue] at hshareNat
  refine ⟨?_, ?_, fun hdvd => Uint128.ext_toNat ?_⟩ <;>
    rw [hshareNat, hexactNat]
  · exact mul_ratio_div_le _ _ hunit hdenominator
  · exact div_le_mul_ratio_div_add _ _ hunit hdenominator
  · exact mul_ratio_div_eq _ _ hunit hdvd

/-- A third of three, by the decimal and at once. -/
theorem ratio_share_close_third :
    Decimal.mulUint128 ⟨333333333333333333⟩ ⟨3⟩ = some ⟨0⟩ ∧
      Uint128.multiplyRatio ⟨3⟩ 1 3 = some ⟨1⟩ ∧
      (1 : U128).toNat ≤ (0 : U128).toNat + (3 : U128).toNat ⌈/⌉ 10 ^ 18 := by
  have hshare : Decimal.mulUint128 ⟨333333333333333333⟩ ⟨3⟩ = some ⟨0⟩ := by
    decide +kernel
  have hexact : Uint128.multiplyRatio ⟨3⟩ 1 3 = some ⟨1⟩ := by decide +kernel
  exact ⟨hshare, hexact,
    (ratio_share_close (by decide +kernel) hshare hexact).2.1⟩

/-- Taking two decimals apart gives what taking their sum gives, or one less. -/
theorem shares_add {number whole : Uint128} {left right sum : Decimal}
    (hsum : left.add right = some sum)
    (hwhole : number.mulDecimal sum = some whole) :
    ∃ part rest total, number.mulDecimal left = some part ∧
      number.mulDecimal right = some rest ∧ part.add rest = some total ∧
      (whole.sub total = .ok ⟨0⟩ ∨ whole.sub total = .ok ⟨1⟩) := by
  have hatomics := Decimal.add_eq_some_iff.1 hsum
  obtain ⟨hfits, hvalue⟩ := Uint128.mulDecimal_eq_some_iff.1 hwhole
  have hsplit : number.value.toNat * sum.atomics.toNat =
      number.value.toNat * left.atomics.toNat +
        number.value.toNat * right.atomics.toNat := by
    rw [← hatomics, Nat.mul_add]
  rw [hsplit] at hfits hvalue
  obtain ⟨part, hpart, hpartNat⟩ := mulDecimal_of_fits number left (by omega)
  obtain ⟨rest, hrest, hrestNat⟩ := mulDecimal_of_fits number right (by omega)
  have hclose := div_add_div_le (10 ^ 18)
    (number.value.toNat * left.atomics.toNat)
    (number.value.toNat * right.atomics.toNat)
  have hlt := whole.value.isLt
  have htotal : part.value.toNat + rest.value.toNat < 2 ^ 128 := by omega
  refine ⟨part, rest,
    ⟨BitVec.ofNat 128 (part.value.toNat + rest.value.toNat)⟩, hpart, hrest,
    Uint128.add_eq_some_iff.2 (toNat_ofNat_of_lt htotal).symm, ?_⟩
  have hzero : (0 : U128).toNat = 0 := rfl
  have hone : (1 : U128).toNat = 1 := rfl
  rw [Uint128.sub_eq_ok_iff, Uint128.sub_eq_ok_iff, toNat_ofNat_of_lt htotal,
    hzero, hone]
  omega

end FixedMultisig
