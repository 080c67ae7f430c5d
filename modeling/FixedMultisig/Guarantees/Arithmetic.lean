import FixedMultisig.Chain.Ledger

/-!
# The tally arithmetic stays in range

Sums and differences of weights are unguarded in the contract.  They are safe
because `init` bounds the threshold and the ledger bounds every tally by the
total weight.  What is left are the products inside `votesNeeded`; a call traps
only when one of them, the proposal counter or the end of the voting period
does not fit.
-/

namespace FixedMultisig

open CheckedWord Decision

variable {M : Type} {msg : InitMsg}

/-- The share of the opinions that a threshold asks for. -/
def Threshold.majority : Threshold → Option Decimal
  | .absoluteCount _ => none
  | .absolutePercentage percentage => some percentage
  | .thresholdQuorum threshold _ => some threshold

/-- The percentages that a decision under the threshold applies to a weight. -/
inductive Threshold.Applies : Threshold → Decimal → Prop
  | majority {threshold : Threshold} {percentage : Decimal}
      (hmajority : threshold.majority = some percentage) :
      Applies threshold percentage
  | complement {threshold : Threshold} {percentage complement : Decimal}
      (hmajority : threshold.majority = some percentage)
      (hsub : Decimal.one.sub percentage = some complement) :
      Applies threshold complement
  | quorum {percentage quorum : Decimal} :
      Applies (.thresholdQuorum percentage quorum) quorum

theorem Threshold.Valid.majority {threshold : Threshold} {totalWeight : ℕ}
    (hvalid : threshold.Valid totalWeight) {percentage : Decimal}
    (hmajority : threshold.majority = some percentage) :
    Threshold.Majority percentage := by
  cases threshold with
  | absoluteCount weight => cases hmajority
  | absolutePercentage share =>
      obtain rfl := Option.some.inj hmajority
      exact hvalid
  | thresholdQuorum share quorum =>
      obtain rfl := Option.some.inj hmajority
      exact hvalid.1

/-- No percentage of a valid threshold exceeds one. -/
theorem Threshold.Applies.le_one {threshold : Threshold} {totalWeight : ℕ}
    (hvalid : threshold.Valid totalWeight) {percentage : Decimal}
    (happlies : threshold.Applies percentage) :
    percentage.atomics.toNat ≤ 1000000000000000000 := by
  cases happlies with
  | majority hmajority => exact (hvalid.majority hmajority).2
  | complement hmajority hsub =>
      have hone := (hvalid.majority hmajority).2
      rw [one_sub_eq_complement hone, Option.some.injEq] at hsub
      rw [← hsub, toNat_complement hone]
      exact Nat.sub_le _ _
  | quorum => exact hvalid.2.2

/-- The cast at the end of `votesNeeded` loses nothing. -/
theorem votesNeededWide_le {weight : U64} {percentage : Decimal}
    (hone : percentage.atomics.toNat ≤ 1000000000000000000) {needed : U128}
    (hneeded : votesNeededWide weight percentage = some needed) :
    needed.toNat ≤ weight.toNat ∧
      (needed.setWidth 64).toNat = needed.toNat := by
  have hle := neededVotes_le hone weight.toNat
  have hword := weight.isLt
  rw [votesNeededWide_eq, Option.ite_none_right_eq_some,
    Option.some.injEq] at hneeded
  rw [← hneeded.2, toNat_ofNat_of_lt (by omega), BitVec.toNat_setWidth,
    toNat_ofNat_of_lt (by omega)]
  exact ⟨hle, Nat.mod_eq_of_lt (by omega)⟩

/-- Every sum, difference and cast that a decision on the proposal may form is
in range. -/
structure InBounds (prop : Proposal M) : Prop where
  slack : ∀ weight, prop.threshold = .absoluteCount weight →
    ∃ slack, checkedSub prop.totalWeight weight = some slack
  possible : ∃ opinions,
    checkedSub prop.totalWeight prop.votes.abstain = some opinions
  cast : ∃ total opinions, prop.votes.total = some total ∧
    checkedSub total prop.votes.abstain = some opinions
  complement : ∀ percentage, prop.threshold.majority = some percentage →
    ∃ complement, Decimal.one.sub percentage = some complement
  narrowed : ∀ weight percentage needed, prop.threshold.Applies percentage →
    votesNeededWide weight percentage = some needed →
    needed.toNat ≤ weight.toNat ∧ (needed.setWidth 64).toNat = needed.toNat

/-- A valid threshold and a tally within the total weight are all it takes. -/
theorem inBounds_of_sound (prop : Proposal M)
    (hvalid : prop.threshold.Valid prop.totalWeight.toNat)
    (htotal : ∑ vote, prop.votes.tally vote ≤ prop.totalWeight.toNat) :
    InBounds prop where
  slack weight hthreshold := by
    rw [hthreshold] at hvalid
    exact ⟨_, checkedSub_of_le hvalid.2⟩
  possible := by
    obtain ⟨-, -, opinions, -, -, -, -, hopen, -⟩ := opinions_words htotal
    exact ⟨opinions, hopen⟩
  cast := by
    obtain ⟨total, opinions, -, hcast, -, hclosed, -⟩ := opinions_words htotal
    exact ⟨total, opinions, hcast, hclosed⟩
  complement percentage hmajority :=
    ⟨_, one_sub_eq_complement (hvalid.majority hmajority).2⟩
  narrowed weight percentage needed happlies hneeded :=
    votesNeededWide_le (happlies.le_one hvalid) hneeded

/-- Some product that a status update at this block may form does not fit into
128 bits. -/
def ProductOverflow (prop : Proposal M) (block : BlockInfo) : Prop :=
  ¬ (CarriesFits prop.threshold prop.totalWeight.toNat
      (prop.expires.isExpired block) prop.votes.tally ∧
    DefeatsFits prop.threshold prop.totalWeight.toNat
      (prop.expires.isExpired block) prop.votes.tally)

/-- A status that cannot be computed is due to a product. -/
theorem productOverflow_of_currentStatus (prop : Proposal M)
    {block : BlockInfo} (hvalid : prop.threshold.Valid prop.totalWeight.toNat)
    (htotal : ∑ vote, prop.votes.tally vote ≤ prop.totalWeight.toNat)
    (hnone : prop.currentStatus block = none) : ProductOverflow prop block := by
  by_cases hopen : prop.status = Status.open
  · rw [ProductOverflow, ← updateStatus_isSome_iff hvalid htotal hopen,
      Proposal.updateStatus, hnone]
    simp
  · rw [Proposal.currentStatus_of_not_open hopen] at hnone
    cases hnone

/-- What can make a call trap: the end of the voting period, the proposal
counter, or a product of the status update. -/
def Overflows (store : Store M) (env : Env) : HandleMsg M → Prop
  | .propose title description msgs latest =>
      (∃ cfg, store.config = some cfg ∧
        cfg.maxVotingPeriod.after env.block = none) ∨
      (∃ count, store.proposalCount = some count ∧
        checkedAdd count 1 = none) ∨
      ∃ power cfg expires, ProposeEnabled store env latest power cfg expires ∧
        ProductOverflow (newProposal env title description msgs expires power
          cfg) env.block
  | .vote id vote =>
      ∃ power prop votes, VoteEnabled store env id power prop ∧
        prop.votes.addVote vote power = some votes ∧
        ProductOverflow { prop with votes } env.block
  | .execute _ => False
  | .close _ => False

/-- In this store neither a call nor a query of a status leaves the range of
the tally arithmetic. -/
structure ArithmeticSafe (store : Store M) : Prop where
  stored : ∀ id prop, store.proposals id = some prop → InBounds prop
  status : ∀ id prop block, store.proposals id = some prop →
    prop.currentStatus block = none → ProductOverflow prop block
  created : ∀ env title description (msgs : List M) latest power cfg expires,
    ProposeEnabled store env latest power cfg expires →
    InBounds (newProposal env title description msgs expires power cfg)
  counted : ∀ env id power prop vote, VoteEnabled store env id power prop →
    ∃ votes, prop.votes.addVote vote power = some votes ∧
      InBounds { prop with votes }
  trapped : ∀ env call,
    ((handle env call).run store).result = .error .abort →
    Overflows store env call

namespace Ledger

variable {totalWeight : U64} {store : Store M} {env : Env}

/-- A proposal that traps is not to blame on its tally. -/
theorem overflows_of_propose (haccepted : msg.Accepted totalWeight)
    (hledger : Ledger msg totalWeight store) {title description : String}
    {msgs : List M} {latest : Option Expiration}
    (habort : ((executePropose env title description msgs latest).run
      store).result = .error .abort) :
    Overflows store env (.propose title description msgs latest) := by
  by_cases henabled : ∃ power cfg expires,
      ProposeEnabled store env latest power cfg expires
  · obtain ⟨power, cfg, expires, henabled⟩ := henabled
    obtain ⟨count, hcount, -⟩ := hledger.counted
    obtain ⟨hvalid, htotal⟩ := hledger.sound_of_new haccepted henabled
    rw [executePropose_of_enabled henabled, hcount] at habort
    cases hstatus : (newProposal env title description msgs expires power
        cfg).currentStatus env.block with
    | none =>
        exact .inr (.inr ⟨power, cfg, expires, henabled,
          productOverflow_of_currentStatus _ hvalid htotal hstatus⟩)
    | some status =>
        rw [Proposal.updateStatus, hstatus] at habort
        cases hid : checkedAdd count 1 with
        | none => exact .inr (.inl ⟨count, hcount, hid⟩)
        | some id =>
            simp only [Option.bind_eq_bind, Option.bind_some, Option.pure_def,
              hid] at habort
            cases habort
  · rcases executePropose_refused title description msgs
      fun power cfg expires h => henabled ⟨power, cfg, expires, h⟩ with
      ⟨reason, hrun⟩ | ⟨hafter, -⟩
    · rw [hrun] at habort
      cases habort
    · exact .inl hafter

theorem overflows_of_vote (haccepted : msg.Accepted totalWeight)
    (hledger : Ledger msg totalWeight store) {id : U64} {vote : Vote}
    (habort : ((executeVote env id vote).run store).result = .error .abort) :
    Overflows store env (.vote id vote) := by
  by_cases henabled : ∃ power prop, VoteEnabled store env id power prop
  · obtain ⟨power, prop, henabled⟩ := henabled
    obtain ⟨votes, hvotes⟩ := hledger.addVote_of_enabled haccepted henabled vote
    obtain ⟨hvalid, htotal⟩ :=
      hledger.sound_of_counted haccepted henabled hvotes
    refine ⟨power, prop, votes, henabled, hvotes, ?_⟩
    apply productOverflow_of_currentStatus { prop with votes } hvalid htotal
    rw [executeVote_of_enabled vote henabled, Proposal.recordVote, hvotes,
      Option.bind_eq_bind, Option.bind_some, Proposal.updateStatus] at habort
    cases hstatus : Proposal.currentStatus { prop with votes } env.block with
    | none => rfl
    | some status => simp [hstatus] at habort
  · obtain ⟨reason, hrun⟩ := executeVote_of_not_enabled vote
      fun power prop h => henabled ⟨power, prop, h⟩
    rw [hrun] at habort
    cases habort

end Ledger

/-- Executing and closing form no number at all. -/
theorem not_abort_of_execute {store : Store M} {env : Env} {id : U64} :
    ((executeExecute env id).run store).result ≠ .error .abort := by
  by_cases hpassed : ∃ prop, store.proposals id = some prop ∧
      prop.status = Status.passed
  · obtain ⟨prop, hstored, hpassed⟩ := hpassed
    rw [executeExecute_of_passed hstored hpassed]
    simp
  · obtain ⟨reason, hrun⟩ : ∃ reason, (executeExecute env id).run store =
        ⟨.error (.error reason), store, []⟩ :=
      executeExecute_of_not_passed fun prop hstored hstatus =>
        hpassed ⟨prop, hstored, hstatus⟩
    rw [hrun]
    simp

theorem not_abort_of_close {store : Store M} {env : Env} {id : U64} :
    ((executeClose env id).run store).result ≠ .error .abort := by
  by_cases henabled : ∃ prop, CloseEnabled store env id prop
  · obtain ⟨prop, henabled⟩ := henabled
    rw [executeClose_of_enabled henabled]
    simp
  · obtain ⟨reason, hrun⟩ := executeClose_of_not_enabled
      fun prop h => henabled ⟨prop, h⟩
    rw [hrun]
    simp

/-- In every reachable state the tally arithmetic is safe. -/
theorem reachable_arithmeticSafe {chain : Chain M}
    (hreachable : (multisig msg).Reachable chain) :
    ArithmeticSafe chain.store := by
  obtain ⟨totalWeight, haccepted, hledger⟩ := ledger_of_reachable hreachable
  refine ⟨?_, ?_, ?_, ?_, ?_⟩
  · intro id prop hstored
    obtain ⟨hvalid, htotal⟩ := hledger.sound_of_stored haccepted hstored
    exact inBounds_of_sound _ hvalid htotal
  · intro id prop block hstored
    obtain ⟨hvalid, htotal⟩ := hledger.sound_of_stored haccepted hstored
    exact productOverflow_of_currentStatus _ hvalid htotal
  · intro env title description msgs latest power cfg expires henabled
    obtain ⟨hvalid, htotal⟩ := hledger.sound_of_new haccepted henabled
    exact inBounds_of_sound _ hvalid htotal
  · intro env id power prop vote henabled
    obtain ⟨votes, hvotes⟩ := hledger.addVote_of_enabled haccepted henabled vote
    obtain ⟨hvalid, htotal⟩ :=
      hledger.sound_of_counted haccepted henabled hvotes
    exact ⟨votes, hvotes, inBounds_of_sound _ hvalid htotal⟩
  · intro env call habort
    cases call with
    | propose title description msgs latest =>
        exact hledger.overflows_of_propose haccepted habort
    | vote id vote => exact hledger.overflows_of_vote haccepted habort
    | execute id => exact not_abort_of_execute habort
    | close id => exact not_abort_of_close habort

section Example

private def treasury : InitMsg where
  voters := [⟨"alice", 3⟩, ⟨"bob", 2⟩]
  threshold := .thresholdQuorum (.percent 60) (.percent 40)
  maxVotingPeriod := .height 10

private theorem treasury_accepted : treasury.Accepted 5 where
  nonempty := by decide
  summed := by decide
  valid := Threshold.validate_eq_ok_iff.1 (by decide +kernel)

private def treasuryPropose : Call String :=
  ⟨⟨⟨11, 60⟩, ⟨"bob"⟩⟩, .propose "title" "description" ["send"] none⟩

private def treasuryChain : Chain String :=
  (Chain.deployed ⟨⟨10, 54⟩, ⟨"carol"⟩⟩ treasury).replay [treasuryPropose]

/-- A store with a proposal that still takes votes. -/
theorem reachable_arithmeticSafe_treasury :
    (treasuryChain.store.proposals 1).map (fun prop => prop.votes.total) =
        some (some 2) ∧
      ArithmeticSafe treasuryChain.store :=
  ⟨rfl, reachable_arithmeticSafe (reachable_replay
    (.of_start (start_deployed _ treasury_accepted)) (by decide))⟩

end Example

end FixedMultisig
