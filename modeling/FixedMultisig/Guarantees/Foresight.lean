import FixedMultisig.Contract.Continuation

/-!
# What the two predicates foresee

`isPassed` and `isRejected` are meant to say what no further votes can change.
A proposal that passes before its deadline is one that passes at its deadline
whatever is cast until then, and conversely.  A rejected proposal never passes
again, so the order in which the two are asked does not matter; what matters is
that the deadline rejects only what does not pass.  A proposal that cannot pass
any more is not always rejected, however: `isRejected` looks at the no votes
only, and rounds the share that they must exceed on its own.
-/

namespace FixedMultisig

open CheckedWord Decision

variable {M : Type} {prop : Proposal M} {block : BlockInfo}

/-- The decision on a proposal with another tally of the same total weight. -/
theorem isPassed_tally_iff {votes : Votes} {later : BlockInfo}
    (hvalid : prop.threshold.Valid prop.totalWeight.toNat)
    (hvotes : ∑ vote, votes.tally vote ≤ prop.totalWeight.toNat) :
    Proposal.isPassed { prop with votes } later = some true ↔
      CarriesFits prop.threshold prop.totalWeight.toNat
          (prop.expires.isExpired later) votes.tally ∧
        Carries prop.threshold prop.totalWeight.toNat
          (prop.expires.isExpired later) votes.tally :=
  @isPassed_iff M { prop with votes } later hvalid hvotes

/-! ## Sure to pass -/

/-- Before its deadline a proposal passes exactly when it is sure to pass at
the deadline, whatever votes follow. -/
theorem isPassed_iff_sure
    (hvalidate : prop.threshold.validate prop.totalWeight = .ok ())
    (htotal : ∃ total, prop.votes.total = some total ∧
      total ≤ prop.totalWeight)
    (hexpires : prop.expires ≠ .never)
    (hunexpired : prop.expires.isExpired block = false) :
    prop.isPassed block = some true ↔
      ∀ votes, Continues prop.totalWeight prop.votes votes →
        ∀ later, prop.expires.isExpired later = true →
          Proposal.isPassed { prop with votes } later = some true := by
  have hvalid := Threshold.validate_eq_ok_iff.1 hvalidate
  have hsum := Votes.total_le_iff.1 htotal
  rw [isPassed_iff hvalid hsum, hunexpired]
  constructor
  · rintro ⟨hfits, hcarries⟩ votes hcontinues later hlater
    have hvotes := hcontinues.sum_le hsum
    obtain ⟨part, hpart⟩ := hcontinues.exists_part
    rw [isPassed_tally_iff hvalid hvotes, hlater]
    rw [hpart] at hvotes ⊢
    exact ⟨carriesFits_closed hvotes (carriesFits_add hcarries hfits part),
      carries_closed hvotes (carries_add hcarries part)⟩
  · intro hsure
    obtain ⟨later, hlater⟩ := Expiration.exists_isExpired hexpires
    -- Two continuations suffice: no vote at all, and the worst case.
    have hnow := hsure prop.votes .nil later hlater
    obtain ⟨votes, hcontinues, hvotes⟩ :=
      Continues.exists_of_part prop.votes _ (sum_worst hsum).le
    have hworst := hsure votes hcontinues later hlater
    rw [isPassed_tally_iff hvalid hsum, hlater] at hnow
    rw [isPassed_tally_iff hvalid (hcontinues.sum_le hsum), hlater, hvotes]
      at hworst
    exact ⟨carriesFits_of_worst hsum hnow.1 hworst.1 hworst.2,
      carries_of_worst hsum hnow.2 hworst.2⟩

/-! ## Rejected for good -/

/-- `currentStatus` with `isRejected` asked before `isPassed`.  The deadline
shares a check with `isRejected` in the source; here that check is split, and
the deadline stays last. -/
def Proposal.currentStatusSwapped (prop : Proposal M) (block : BlockInfo) :
    Option Status := do
  let status ←
    if prop.status = Status.open then
      (prop.isRejected block).map fun isRejected =>
        if isRejected then Status.rejected else prop.status
    else pure prop.status
  if status = Status.open then
    (prop.isPassed block).map fun isPassed =>
      if isPassed then Status.passed
      else if prop.expires.isExpired block then Status.rejected
      else status
  else pure status

/-- `currentStatus` with its two checks exchanged as they stand: the deadline
goes first together with `isRejected`. -/
def Proposal.currentStatusExchanged (prop : Proposal M) (block : BlockInfo) :
    Option Status := do
  let status ←
    if prop.status = Status.open then
      (prop.isRejected block).map fun isRejected =>
        if isRejected || prop.expires.isExpired block then Status.rejected
        else prop.status
    else pure prop.status
  if status = Status.open then
    (prop.isPassed block).map fun isPassed =>
      if isPassed then Status.passed else status
  else pure status

/-- A rejected proposal does not pass any more: not in a later block, and
before its deadline not after further votes either. -/
theorem not_carries_of_isRejected {votes : Votes} {later : BlockInfo}
    (hvalid : prop.threshold.Valid prop.totalWeight.toNat)
    (hsum : ∑ vote, prop.votes.tally vote ≤ prop.totalWeight.toNat)
    (hrejected : prop.isRejected block = some true)
    (hcontinues : Continues prop.totalWeight prop.votes votes)
    (hclosed : prop.expires.isExpired block = true → votes = prop.votes)
    (hle : block ≤ later) :
    ¬ Carries prop.threshold prop.totalWeight.toNat
      (prop.expires.isExpired later) votes.tally := by
  have hvotes := hcontinues.sum_le hsum
  obtain ⟨part, hpart⟩ := hcontinues.exists_part
  obtain ⟨-, hdefeats⟩ := (isRejected_iff hvalid hsum).1 hrejected
  cases hexpired : prop.expires.isExpired block with
  | true =>
      rw [hclosed hexpired, Expiration.isExpired_mono hle hexpired]
      rw [hexpired] at hdefeats
      exact not_carries_of_defeats hvalid hsum hdefeats
  | false =>
      rw [hexpired] at hdefeats
      rw [hpart] at hvotes ⊢
      exact not_carries_of_defeats hvalid hvotes
        (defeats_closed hvotes (defeats_add hdefeats part))

theorem isRejected_ne_true_of_isPassed
    (hvalid : prop.threshold.Valid prop.totalWeight.toNat)
    (hsum : ∑ vote, prop.votes.tally vote ≤ prop.totalWeight.toNat)
    (hpassed : prop.isPassed block = some true) :
    prop.isRejected block = some false := by
  obtain ⟨hfits, hcarries⟩ := (isPassed_iff hvalid hsum).1 hpassed
  rw [isRejected_eq_some_iff hvalid hsum]
  refine ⟨defeatsFits_of_carries hvalid hcarries hfits, ?_⟩
  simpa using fun hdefeats =>
    not_carries_of_defeats hvalid hsum hdefeats hcarries

/-- The order of the two predicates does not matter, as they exclude each
other. -/
theorem currentStatusSwapped_eq
    (hvalid : prop.threshold.Valid prop.totalWeight.toNat)
    (hsum : ∑ vote, prop.votes.tally vote ≤ prop.totalWeight.toNat)
    (hpassed : prop.isPassed block ≠ none) :
    prop.currentStatusSwapped block = prop.currentStatus block := by
  by_cases hopen : prop.status = Status.open
  · obtain ⟨passed, hpassed⟩ := Option.ne_none_iff_exists'.1 hpassed
    cases passed with
    | true =>
        rw [Proposal.currentStatus_of_isPassed hopen hpassed]
        simp [Proposal.currentStatusSwapped, hopen, hpassed,
          isRejected_ne_true_of_isPassed hvalid hsum hpassed]
    | false =>
        rw [Proposal.currentStatus_of_not_isPassed hopen hpassed]
        cases hrejected : prop.isRejected block with
        | none => simp [Proposal.currentStatusSwapped, hopen, hrejected]
        | some rejected =>
            cases rejected <;>
              simp [Proposal.currentStatusSwapped, hopen, hpassed, hrejected]
  · simp [Proposal.currentStatusSwapped, hopen,
      Proposal.currentStatus_of_not_open hopen]

/-- The order of the two checks matters at the deadline: exchanged, they reject
what passes only then. -/
theorem currentStatusExchanged_eq_iff
    (hvalid : prop.threshold.Valid prop.totalWeight.toNat)
    (hsum : ∑ vote, prop.votes.tally vote ≤ prop.totalWeight.toNat)
    (hpassed : prop.isPassed block ≠ none) :
    prop.currentStatusExchanged block = prop.currentStatus block ↔
      ¬ (prop.status = Status.open ∧ prop.expires.isExpired block = true ∧
        prop.isPassed block = some true) := by
  by_cases hopen : prop.status = Status.open
  · obtain ⟨passed, hpassed⟩ := Option.ne_none_iff_exists'.1 hpassed
    cases passed with
    | true =>
        rw [Proposal.currentStatus_of_isPassed hopen hpassed]
        cases hexpired : prop.expires.isExpired block <;>
          simp [Proposal.currentStatusExchanged, hopen, hpassed, hexpired,
            isRejected_ne_true_of_isPassed hvalid hsum hpassed]
    | false =>
        rw [Proposal.currentStatus_of_not_isPassed hopen hpassed]
        cases hrejected : prop.isRejected block with
        | none =>
            simp [Proposal.currentStatusExchanged, hopen, hpassed, hrejected]
        | some rejected =>
            cases rejected <;> cases hexpired : prop.expires.isExpired block <;>
              simp [Proposal.currentStatusExchanged, hopen, hpassed, hrejected,
                hexpired]
  · simp [Proposal.currentStatusExchanged, hopen,
      Proposal.currentStatus_of_not_open hopen]

/-- A rejection is final and sound, and it never meets a passing.  So the two
predicates of a status can be asked in either order, with the deadline last; the
two checks as they stand can be exchanged but for open proposals that pass when
their deadline is over. -/
theorem isRejected_final
    (hvalidate : prop.threshold.validate prop.totalWeight = .ok ())
    (htotal : ∃ total, prop.votes.total = some total ∧
      total ≤ prop.totalWeight) :
    (∀ block, prop.isRejected block = some true →
      ∀ votes, Continues prop.totalWeight prop.votes votes →
        (prop.expires.isExpired block = true → votes = prop.votes) →
        ∀ later, block ≤ later →
          Proposal.isPassed { prop with votes } later ≠ none →
          Proposal.isPassed { prop with votes } later = some false) ∧
    (∀ block, ¬ (prop.isPassed block = some true ∧
      prop.isRejected block = some true)) ∧
    ∀ block, prop.isPassed block ≠ none →
      prop.currentStatusSwapped block = prop.currentStatus block ∧
      (prop.currentStatusExchanged block = prop.currentStatus block ↔
        ¬ (prop.status = Status.open ∧ prop.expires.isExpired block = true ∧
          prop.isPassed block = some true)) := by
  have hvalid := Threshold.validate_eq_ok_iff.1 hvalidate
  have hsum := Votes.total_le_iff.1 htotal
  refine ⟨?_, ?_, fun block hreturns =>
    ⟨currentStatusSwapped_eq hvalid hsum hreturns,
      currentStatusExchanged_eq_iff hvalid hsum hreturns⟩⟩
  · intro block hrejected votes hcontinues hclosed later hle hreturns
    obtain ⟨passed, hpassed⟩ := Option.ne_none_iff_exists'.1 hreturns
    have hlost := not_carries_of_isRejected hvalid hsum hrejected hcontinues
      hclosed hle
    rw [hpassed]
    cases passed with
    | false => rfl
    | true =>
        exact absurd ((isPassed_tally_iff hvalid
          (hcontinues.sum_le hsum)).1 hpassed).2 hlost
  · rintro block ⟨hpassed, hrejected⟩
    rw [isRejected_ne_true_of_isPassed hvalid hsum hpassed] at hrejected
    exact absurd (Option.some.inj hrejected) (by decide)

/-! ## Lost causes -/

/-- No further votes can carry the proposal, in any block. -/
def Proposal.Hopeless (prop : Proposal M) : Prop :=
  ∀ votes, Continues prop.totalWeight prop.votes votes →
    ∀ later, Proposal.isPassed { prop with votes } later ≠ some true

/-- Before the deadline a proposal is hopeless exactly when its tally leaves
no room for what it needs. -/
theorem hopeless_iff (block : BlockInfo)
    (hvalid : prop.threshold.Valid prop.totalWeight.toNat)
    (hsum : ∑ vote, prop.votes.tally vote ≤ prop.totalWeight.toNat)
    (hunexpired : prop.expires.isExpired block = false) :
    prop.Hopeless ↔ ¬ Attainable prop.threshold prop.totalWeight.toNat
      prop.votes.tally := by
  constructor
  · intro hhopeless hattainable
    obtain ⟨part, hroom, hfits, hcarries⟩ :=
      exists_part_of_attainable hvalid hsum hattainable
    obtain ⟨votes, hcontinues, hvotes⟩ :=
      Continues.exists_of_part prop.votes part hroom
    apply hhopeless votes hcontinues block
    rw [isPassed_tally_iff hvalid (hcontinues.sum_le hsum), hunexpired, hvotes]
    exact ⟨hfits, hcarries⟩
  · intro hlost votes hcontinues later hpassed
    have hvotes := hcontinues.sum_le hsum
    obtain ⟨part, hpart⟩ := hcontinues.exists_part
    rw [isPassed_tally_iff hvalid hvotes, hpart] at hpassed
    rw [hpart] at hvotes
    exact hlost (attainable_of_part hvalid hvotes hpassed.1 hpassed.2)

/-- A proposal that cannot pass any more is rejected before its deadline
exactly when its tally is not in the gap between the two. -/
theorem isRejected_complete_iff
    (hvalidate : prop.threshold.validate prop.totalWeight = .ok ())
    (htotal : ∃ total, prop.votes.total = some total ∧
      total ≤ prop.totalWeight)
    (hunexpired : prop.expires.isExpired block = false) :
    (prop.Hopeless → prop.isRejected block = some true) ↔
      ¬ Overlooked prop.threshold prop.totalWeight.toNat prop.votes.tally := by
  have hvalid := Threshold.validate_eq_ok_iff.1 hvalidate
  have hsum := Votes.total_le_iff.1 htotal
  rw [hopeless_iff block hvalid hsum hunexpired,
    isRejected_iff hvalid hsum, hunexpired, overlooked_iff hvalid]
  tauto

section Example

/-- An open proposal that ends at height 21. -/
private def ballotBox (threshold : Threshold) (totalWeight : U64)
    (votes : Votes) : Proposal String where
  title := "title"
  description := "description"
  startHeight := 11
  expires := .atHeight 21
  msgs := ["send"]
  status := Status.open
  threshold
  totalWeight
  votes

/-- With seven of fourteen votes and the quorum in favour, nothing changes the
outcome. -/
private def secured : Proposal String :=
  ballotBox (.thresholdQuorum (.percent 50) (.percent 40)) 14 ⟨7, 3, 2, 1⟩

theorem isPassed_iff_sure_secured :
    secured.isPassed ⟨12, 66⟩ = some true ∧
      ∀ votes, Continues secured.totalWeight secured.votes votes →
        ∀ later, secured.expires.isExpired later = true →
          Proposal.isPassed { secured with votes } later = some true :=
  ⟨by decide +kernel,
    (isPassed_iff_sure (by decide +kernel) ⟨13, by decide⟩ (by decide)
      (by decide : secured.expires.isExpired ⟨12, 66⟩ = false)).1
      (by decide +kernel)⟩

/-- Seven of fifteen votes are against it, more than forty percent of the
opinions. -/
private def refused : Proposal String :=
  ballotBox (.absolutePercentage (.percent 60)) 15 ⟨4, 7, 2, 0⟩

/-- With five votes against it, it could still have passed by the four that were
left.  After two more against it, the two that are left do not pass it, also not
at the deadline, and its status does not depend on the order of the checks. -/
theorem isRejected_final_refused :
    (Continues 15 ⟨4, 5, 2, 0⟩ ⟨8, 5, 2, 0⟩ ∧
      Proposal.isPassed { refused with votes := ⟨8, 5, 2, 0⟩ } ⟨21, 120⟩ =
        some true) ∧
    Votes.addVote ⟨4, 5, 2, 0⟩ .no 2 = some refused.votes ∧
    refused.isRejected ⟨12, 66⟩ = some true ∧
    Continues 15 refused.votes ⟨6, 7, 2, 0⟩ ∧
    Proposal.isPassed { refused with votes := ⟨6, 7, 2, 0⟩ } ⟨12, 66⟩ =
      some false ∧
    Proposal.isPassed { refused with votes := ⟨6, 7, 2, 0⟩ } ⟨21, 120⟩ =
      some false ∧
    refused.currentStatus ⟨12, 66⟩ = some Status.rejected ∧
    refused.currentStatusSwapped ⟨12, 66⟩ = some Status.rejected ∧
    refused.currentStatusExchanged ⟨12, 66⟩ = some Status.rejected := by
  have hfinal := @isRejected_final String refused (by decide +kernel)
    ⟨13, by decide⟩
  have hrejected : refused.isRejected ⟨12, 66⟩ = some true := by
    decide +kernel
  have hvotes : Continues 15 refused.votes ⟨6, 7, 2, 0⟩ :=
    .snoc .nil (show Votes.addVote _ .yes 2 = _ from rfl) ⟨15, by decide⟩
  have hcurrent : refused.currentStatus ⟨12, 66⟩ = some Status.rejected := by
    decide +kernel
  have hlost := hfinal.1 ⟨12, 66⟩ hrejected _ hvotes
    fun hexpired => absurd hexpired (by decide)
  have horder := hfinal.2.2 ⟨12, 66⟩ (by decide +kernel)
  refine ⟨⟨?_, by decide +kernel⟩, rfl, hrejected, hvotes,
    hlost ⟨12, 66⟩ (by decide) (by decide +kernel),
    hlost ⟨21, 120⟩ (by decide) (by decide +kernel), hcurrent,
    horder.1.trans hcurrent, (horder.2.2 ?_).trans hcurrent⟩
  · exact .snoc .nil (show Votes.addVote _ .yes 4 = _ from rfl)
      ⟨15, by decide⟩
  · rintro ⟨-, hexpired, -⟩
    exact absurd hexpired (by decide)

/-- One of three votes is a majority of the opinions at the deadline. -/
private def belated : Proposal String :=
  ballotBox (.thresholdQuorum (.percent 50) (.percent 30)) 3 ⟨1, 0, 0, 0⟩

/-- The two checks exclude each other there, and yet exchanging them rejects a
proposal that passes. -/
theorem exchanged_checks_differ :
    belated.threshold.validate belated.totalWeight = .ok () ∧
      (∃ total, belated.votes.total = some total ∧
        total ≤ belated.totalWeight) ∧
      belated.isPassed ⟨21, 120⟩ = some true ∧
      belated.isRejected ⟨21, 120⟩ = some false ∧
      belated.currentStatus ⟨21, 120⟩ = some Status.passed ∧
      belated.currentStatusExchanged ⟨21, 120⟩ = some Status.rejected :=
  ⟨by decide +kernel, ⟨1, by decide⟩, by decide +kernel, by decide +kernel,
    by decide +kernel, by decide +kernel⟩

theorem isRejected_complete_refused :
    ¬ Overlooked refused.threshold refused.totalWeight.toNat
        refused.votes.tally ∧
      refused.Hopeless ∧ refused.isRejected ⟨12, 66⟩ = some true := by
  have hnoted : ¬ Overlooked refused.threshold refused.totalWeight.toNat
      refused.votes.tally := by
    decide +kernel
  have hhopeless : refused.Hopeless :=
    (hopeless_iff ⟨12, 66⟩
      (Threshold.validate_eq_ok_iff.1 (by decide +kernel))
      (by decide +kernel) (by decide)).2 (by decide +kernel)
  exact ⟨hnoted, hhopeless, (isRejected_complete_iff (by decide +kernel)
    ⟨13, by decide⟩ (by decide)).2 hnoted hhopeless⟩

/-- Two of three votes are vetoes, and two are needed. -/
private def vetoed : Proposal String :=
  ballotBox (.absoluteCount 2) 3 ⟨1, 0, 0, 2⟩

/-- Two of three votes are against it, and half of three is rounded up to two
for either side. -/
private def halved : Proposal String :=
  ballotBox (.absolutePercentage (.percent 50)) 3 ⟨0, 2, 0, 0⟩

/-- Neither proposal can pass any more, and both linger as open. -/
theorem lost_causes_linger :
    (vetoed.threshold.validate vetoed.totalWeight = .ok () ∧
      vetoed.votes.total = some vetoed.totalWeight ∧
      vetoed.expires.isExpired ⟨12, 66⟩ = false ∧ vetoed.Hopeless ∧
      vetoed.isRejected ⟨12, 66⟩ = some false ∧
      vetoed.currentStatus ⟨12, 66⟩ = some Status.open) ∧
    halved.threshold.validate halved.totalWeight = .ok () ∧
      halved.votes.total = some 2 ∧
      halved.expires.isExpired ⟨12, 66⟩ = false ∧ halved.Hopeless ∧
      halved.isRejected ⟨12, 66⟩ = some false ∧
      halved.currentStatus ⟨12, 66⟩ = some Status.open := by
  have hvetoed : vetoed.Hopeless :=
    (hopeless_iff ⟨12, 66⟩
      (Threshold.validate_eq_ok_iff.1 (by decide +kernel))
      (by decide +kernel) (by decide)).2 (by decide +kernel)
  have hhalved : halved.Hopeless :=
    (hopeless_iff ⟨12, 66⟩
      (Threshold.validate_eq_ok_iff.1 (by decide +kernel))
      (by decide +kernel) (by decide)).2 (by decide +kernel)
  exact ⟨⟨by decide +kernel, by decide, by decide, hvetoed,
    by decide +kernel, by decide +kernel⟩,
    by decide +kernel, by decide, by decide, hhalved,
    by decide +kernel, by decide +kernel⟩

end Example

end FixedMultisig
