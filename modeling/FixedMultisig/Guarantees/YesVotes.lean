import FixedMultisig.Guarantees.Creation

/-!
# Proposals that pass without a yes vote

The number of yes votes needed is a share of the opinions, so it shrinks to
nothing when all opinions are abstentions.  This file names the calls that
create or vote a proposal into that corner.  A run has such a call exactly when
it passes a proposal for which nobody with a positive weight has voted yes.
-/

namespace FixedMultisig

open Decision

variable {M : Type} {msg : InitMsg}

/-- A tally that carries although it has no yes vote: nothing is left that
could count against it. -/
def Unopposed (threshold : Threshold) (totalWeight : ℕ) (closed : Bool)
    (tally : Vote → ℕ) : Prop :=
  match threshold with
  | .absoluteCount _ => False
  | .absolutePercentage _ => totalWeight ≤ tally .abstain
  | .thresholdQuorum _ quorum =>
      neededVotes totalWeight quorum ≤ ∑ vote, tally vote ∧
        opinions totalWeight closed tally = 0

theorem neededVotes_eq_zero_iff {percentage : Decimal}
    (hmajority : Threshold.Majority percentage) {weight : ℕ} :
    neededVotes weight percentage = 0 ↔ weight = 0 := by
  constructor
  · intro hzero
    by_contra hweight
    have hpos : 0 < neededVotes weight percentage :=
      NestedRounding.nestedCeil_pos (by omega) (by omega)
        (Nat.pos_of_ne_zero hweight) hmajority.1
    omega
  · rintro rfl
    exact NestedRounding.nestedCeil_zero_whole ..

theorem carries_iff_unopposed {threshold : Threshold} {totalWeight : ℕ}
    {closed : Bool} {tally : Vote → ℕ} (hvalid : threshold.Valid totalWeight)
    (hyes : tally .yes = 0) :
    Carries threshold totalWeight closed tally ↔
      Unopposed threshold totalWeight closed tally := by
  cases threshold with
  | absoluteCount weight =>
      have hpositive : 0 < weight.toNat := hvalid.1
      simp only [Carries, Unopposed, hyes, iff_false]
      omega
  | absolutePercentage percentage =>
      rw [Carries, Unopposed, hyes, Nat.le_zero, neededVotes_eq_zero_iff hvalid,
        Nat.sub_eq_zero_iff_le]
  | thresholdQuorum majority quorum =>
      rw [Carries, Unopposed, hyes, Nat.le_zero,
        neededVotes_eq_zero_iff hvalid.1]

/-- Before the deadline only abstentions can leave nothing to count. -/
theorem unopposed_open_iff {threshold : Threshold} {totalWeight : ℕ}
    {tally : Vote → ℕ} (hvalid : threshold.Valid totalWeight) :
    Unopposed threshold totalWeight false tally ↔
      (∀ weight, threshold ≠ .absoluteCount weight) ∧
        totalWeight ≤ tally .abstain := by
  cases threshold with
  | absoluteCount weight => simp [Unopposed]
  | absolutePercentage percentage => simp [Unopposed]
  | thresholdQuorum majority quorum =>
      have hquorum := neededVotes_le hvalid.2.2 totalWeight
      have hsum := sum_vote tally
      simp only [Unopposed, opinions, Bool.false_eq_true, if_false, ne_eq,
        reduceCtorEq, not_false_eq_true, implies_true, true_and]
      omega

/-- A proposer without weight faces nobody if there is no weight at all, or if
the proposal is created expired and its quorum rounds to nothing. -/
theorem unopposed_new_iff {threshold : Threshold} {totalWeight : ℕ}
    {closed : Bool} (hvalid : threshold.Valid totalWeight) :
    Unopposed threshold totalWeight closed (Pi.single .yes 0) ↔
      totalWeight = 0 ∨ closed = true ∧ ∃ majority quorum,
        threshold = .thresholdQuorum majority quorum ∧
          neededVotes totalWeight quorum = 0 := by
  cases threshold with
  | absoluteCount weight =>
      have hpositive : 0 < weight.toNat := hvalid.1
      have hreachable : weight.toNat ≤ totalWeight := hvalid.2
      simp only [Unopposed, reduceCtorEq, false_and, exists_false, and_false,
        or_false, false_iff]
      omega
  | absolutePercentage percentage => simp [Unopposed]
  | thresholdQuorum majority quorum =>
      have hempty : neededVotes 0 quorum = 0 :=
        NestedRounding.nestedCeil_zero_whole ..
      cases closed with
      | true =>
          simp [Unopposed, opinions]
          rintro rfl
          exact hempty
      | false =>
          simp [Unopposed, opinions]
          rintro rfl
          exact hempty

/-! ## Careful calls -/

/-- A call that does not help a proposal to pass without a yes vote.  A
proposer has some weight, or there is weight left to oppose the proposal; an
abstention leaves a yes vote or some weight that is not abstaining. -/
def Careful (store : Store M) (call : Call M) : Prop :=
  match call.msg with
  | .propose _ _ _ latest => ∀ power cfg,
      store.voters call.env.message.sender = some power →
      store.config = some cfg →
      0 < power.toNat ∨ 0 < cfg.totalWeight.toNat ∧
        ¬ (ExpiredAtCreation latest cfg.maxVotingPeriod call.env.block ∧
          ∃ majority quorum,
            cfg.threshold = .thresholdQuorum majority quorum ∧
              neededVotes cfg.totalWeight.toNat quorum = 0)
  | .vote id .abstain => ∀ power prop,
      store.voters call.env.message.sender = some power →
      store.proposals id = some prop →
      (∃ weight, prop.threshold = .absoluteCount weight) ∨
        0 < prop.votes.tally .yes ∨
        prop.votes.tally .abstain + power.toNat < prop.totalWeight.toNat
  | _ => True

/-- Every passed proposal has a yes vote, and some ballot with a positive weight
is the reason. -/
def Voiced (store : Store M) : Prop :=
  ∀ id prop, store.proposals id = some prop →
    prop.status = Status.passed ∨ prop.status = Status.executed →
    1 ≤ prop.votes.yes.toNat ∧ ∃ addr ballot,
      store.ballots id addr = some ballot ∧ ballot.vote = .yes ∧
        1 ≤ ballot.weight.toNat

/-- What careful calls keep true of a single proposal: no decision without a
yes vote, and while it is open, something is left to count. -/
structure Audible (prop : Proposal M) : Prop where
  decided : prop.status = Status.passed ∨ prop.status = Status.executed →
    0 < prop.votes.tally .yes
  undecided : prop.status = Status.open →
    (∃ weight, prop.threshold = .absoluteCount weight) ∨
      0 < prop.votes.tally .yes ∨
      prop.votes.tally .abstain < prop.totalWeight.toNat

section Steps

variable {store : Store M} {env : Env} {totalWeight : U64}

/-- A status update of an open proposal with an opposition. -/
theorem Audible.of_updateStatus {prop prop' : Proposal M} {block : BlockInfo}
    (hupdate : prop.updateStatus block = some prop')
    (hopen : prop.status = Status.open)
    (hvalid : prop.threshold.Valid prop.totalWeight.toNat)
    (htotal : ∑ vote, prop.votes.tally vote ≤ prop.totalWeight.toNat)
    (hopposed : prop.votes.tally .yes = 0 →
      ¬ Unopposed prop.threshold prop.totalWeight.toNat
        (prop.expires.isExpired block) prop.votes.tally)
    (hroom : (∃ weight, prop.threshold = .absoluteCount weight) ∨
      0 < prop.votes.tally .yes ∨
      prop.votes.tally .abstain < prop.totalWeight.toNat) :
    Audible prop' := by
  have hpassed := updateStatus_passed_iff hupdate hopen hvalid htotal
  obtain ⟨status, hstatus, rfl⟩ :=
    Proposal.updateStatus_eq_some_iff.1 hupdate
  refine ⟨fun hdecided => ?_, fun _ => hroom⟩
  rcases hdecided with hdecided | hdecided
  · apply Nat.pos_of_ne_zero
    intro hyes
    apply hopposed hyes
    exact (carries_iff_unopposed hvalid hyes).1 (hpassed.1 hdecided)
  · obtain rfl : status = Status.executed := hdecided
    rcases Proposal.currentStatus_of_open hopen hstatus with h | h | h <;>
      cases h

theorem audible_of_propose (haccepted : msg.Accepted totalWeight)
    (hledger : Ledger msg totalWeight store) {title description : String}
    {msgs : List M} {latest : Option Expiration} {power : U64} {cfg : Config}
    {expires : Expiration} {prop : Proposal M}
    (henabled : ProposeEnabled store env latest power cfg expires)
    (hprop : (newProposal env title description msgs expires power
      cfg).updateStatus env.block = some prop)
    (hcareful : Careful store ⟨env, .propose title description msgs latest⟩) :
    Audible prop := by
  obtain ⟨hvalid, htotal⟩ := hledger.sound_of_new haccepted henabled
  have hweight := hcareful power cfg henabled.registered henabled.configured
  have hexpired := henabled.isExpired_iff
  refine .of_updateStatus hprop rfl hvalid htotal (fun hyes hunopposed => ?_) ?_
  · have hpower : power.toNat = 0 := hyes
    have hnew : Unopposed cfg.threshold cfg.totalWeight.toNat
        (expires.isExpired env.block) (Pi.single .yes 0) := by
      rw [← hpower, ← Votes.tally_initYes]
      exact hunopposed
    rw [unopposed_new_iff hvalid, hexpired] at hnew
    rcases hweight with hweight | ⟨htotalWeight, hquorum⟩
    · omega
    · rcases hnew with hnew | hnew
      · omega
      · exact hquorum hnew
  · rcases hweight with hweight | ⟨htotalWeight, -⟩
    · exact .inr (.inl hweight)
    · exact .inr (.inr htotalWeight)

theorem audible_of_vote (haccepted : msg.Accepted totalWeight)
    (hledger : Ledger msg totalWeight store) {id power : U64} {vote : Vote}
    {prop prop' : Proposal M} (henabled : VoteEnabled store env id power prop)
    (hprop : prop.recordVote vote power env.block = some prop')
    (hcareful : Careful store ⟨env, .vote id vote⟩)
    (haudible : Audible prop) : Audible prop' := by
  obtain ⟨votes, hvotes, hupdate⟩ := Proposal.recordVote_eq_some hprop
  obtain ⟨hvalid, htotal⟩ :=
    hledger.sound_of_counted haccepted henabled hvotes
  have hpower : 0 < power.toNat := henabled.powerful
  have htally : ∀ option, votes.tally option =
      prop.votes.tally option + (Pi.single vote power.toNat : Vote → ℕ) option :=
    congrFun (Votes.tally_addVote hvotes)
  have hroom : (∃ weight, prop.threshold = .absoluteCount weight) ∨
      0 < votes.tally .yes ∨
      votes.tally .abstain < prop.totalWeight.toNat := by
    rw [htally, htally]
    have hbefore := haudible.undecided henabled.isOpen
    cases vote with
    | yes => simp [hpower]
    | no => simpa using hbefore
    | veto => simpa using hbefore
    | abstain =>
        simpa using hcareful power prop henabled.registered henabled.stored
  have hopen : Proposal.status { prop with votes } = Status.open :=
    henabled.isOpen
  refine .of_updateStatus hupdate hopen hvalid htotal
    (fun hyes hunopposed => ?_) hroom
  -- A vote is counted before the deadline, where only abstentions are vacuous.
  rw [henabled.unexpired, unopposed_open_iff hvalid] at hunopposed
  rcases hroom with ⟨weight, hcount⟩ | hroom | hroom
  · exact hunopposed.1 weight hcount
  · exact absurd hyes (Nat.ne_of_gt hroom)
  · exact absurd hunopposed.2 (Nat.not_le.2 hroom)

/-- A tally with a yes vote has a ballot of positive weight to show for it. -/
theorem exists_yes_ballot (hledger : Ledger msg totalWeight store) {id : U64}
    {prop : Proposal M} (hstored : store.proposals id = some prop)
    (hyes : 0 < prop.votes.tally .yes) :
    ∃ addr ballot, store.ballots id addr = some ballot ∧
      ballot.vote = .yes ∧ 1 ≤ ballot.weight.toNat := by
  obtain ⟨poll, hrecords⟩ := hledger.recorded id prop hstored
  rw [hrecords.tally, Poll.tally, Finset.sum_pos_iff] at hyes
  obtain ⟨addr, haddr, hweight⟩ := hyes
  have hcast := (Finset.mem_filter.1 haddr).2
  rw [← hrecords.cast, Option.map_eq_some_iff] at hcast
  obtain ⟨ballot, hballot, hvote⟩ := hcast
  refine ⟨addr, ballot, hballot, hvote, ?_⟩
  rw [InitMsg.electorate_weight (hrecords.weight addr ballot hballot)] at hweight
  exact hweight

/-- A careless proposal passes without a yes vote. -/
theorem unvoiced_of_propose (haccepted : msg.Accepted totalWeight)
    (hledger : Ledger msg totalWeight store) {title description : String}
    {msgs : List M} {latest : Option Expiration} {power : U64} {cfg : Config}
    {expires : Expiration} {prop : Proposal M}
    (henabled : ProposeEnabled store env latest power cfg expires)
    (hprop : (newProposal env title description msgs expires power
      cfg).updateStatus env.block = some prop)
    (hcareless :
      ¬ Careful store ⟨env, .propose title description msgs latest⟩) :
    prop.status = Status.passed ∧ prop.votes.yes.toNat = 0 := by
  simp only [Careful, not_forall] at hcareless
  obtain ⟨power', cfg', hregistered, hconfig, hcareless⟩ := hcareless
  obtain rfl := Option.some.inj (henabled.registered.symm.trans hregistered)
  obtain rfl := Option.some.inj (henabled.configured.symm.trans hconfig)
  obtain ⟨hvalid, htotal⟩ := hledger.sound_of_new haccepted henabled
  rw [not_or, not_and_or, not_not, Nat.pos_iff_ne_zero, not_not,
    Nat.pos_iff_ne_zero, not_not, ← henabled.isExpired_iff] at hcareless
  have hunopposed := (unopposed_new_iff hvalid).2 hcareless.2
  rw [← hcareless.1, ← Votes.tally_initYes] at hunopposed
  have hcarries := (carries_iff_unopposed hvalid hcareless.1).2 hunopposed
  obtain ⟨status, -, rfl⟩ := Proposal.updateStatus_eq_some_iff.1 hprop
  exact ⟨(updateStatus_passed_iff hprop rfl hvalid htotal).2 hcarries,
    hcareless.1⟩

/-- A careless abstention passes its proposal without a yes vote. -/
theorem unvoiced_of_abstain (haccepted : msg.Accepted totalWeight)
    (hledger : Ledger msg totalWeight store) {id power : U64}
    {prop prop' : Proposal M} (henabled : VoteEnabled store env id power prop)
    (hprop : prop.recordVote .abstain power env.block = some prop')
    (hcareless : ¬ Careful store ⟨env, .vote id .abstain⟩) :
    prop'.status = Status.passed ∧ prop'.votes.yes.toNat = 0 := by
  obtain ⟨votes, hvotes, hupdate⟩ := Proposal.recordVote_eq_some hprop
  simp only [Careful, not_forall] at hcareless
  obtain ⟨power', stored, hregistered, hstored, hcareless⟩ := hcareless
  obtain rfl := Option.some.inj (henabled.registered.symm.trans hregistered)
  obtain rfl := Option.some.inj (henabled.stored.symm.trans hstored)
  rw [not_or, not_or, not_exists, Nat.not_lt, Nat.le_zero,
    Nat.not_lt] at hcareless
  obtain ⟨hcount, hyes, habstain⟩ := hcareless
  obtain ⟨hvalid, htotal⟩ :=
    hledger.sound_of_counted haccepted henabled hvotes
  have htally := Votes.tally_addVote hvotes
  have hyes' : votes.tally .yes = 0 := by simp [htally, hyes]
  have habstain' : prop.totalWeight.toNat ≤ votes.tally .abstain := by
    simpa [htally] using habstain
  have hopen : Proposal.status { prop with votes } = Status.open :=
    henabled.isOpen
  have hcarries : Carries prop.threshold prop.totalWeight.toNat
      (prop.expires.isExpired env.block) votes.tally := by
    rw [henabled.unexpired]
    exact (carries_iff_unopposed hvalid hyes').2
      ((unopposed_open_iff hvalid).2 ⟨hcount, habstain'⟩)
  have hpassed :=
    (updateStatus_passed_iff hupdate hopen hvalid htotal).2 hcarries
  obtain ⟨status, -, rfl⟩ := Proposal.updateStatus_eq_some_iff.1 hupdate
  exact ⟨hpassed, hyes'⟩

/-- A careless call that succeeds passes a proposal without a yes vote. -/
theorem Effect.unvoiced (haccepted : msg.Accepted totalWeight)
    (hledger : Ledger msg totalWeight store) {call : HandleMsg M}
    {store' : Store M} {response : HandleResponse M}
    (heffect : Effect store env call store' response)
    (hcareless : ¬ Careful store ⟨env, call⟩) :
    ∃ id prop, store'.proposals id = some prop ∧
      prop.status = Status.passed ∧ prop.votes.yes.toNat = 0 := by
  cases heffect with
  | propose henabled hprop hcount hid =>
      exact ⟨_, _, Store.putProposal_proposals_self ..,
        unvoiced_of_propose haccepted hledger henabled hprop hcareless⟩
  | @vote _ _ vote _ _ henabled hprop =>
      cases vote with
      | abstain =>
          exact ⟨_, _, Store.putProposal_proposals_self ..,
            unvoiced_of_abstain haccepted hledger henabled hprop hcareless⟩
      | _ => exact absurd trivial hcareless
  | _ => exact absurd trivial hcareless

end Steps

section Runs

variable {first last : Chain M}
variable {steps : List (Transition (Chain M) (Call M))}

/-- After careful calls, everything that passed has a yes vote. -/
theorem voiced_of_careful (hfirst : (multisig msg).start first)
    (hrun : (multisig msg).Run first steps last)
    (hcareful : ∀ move ∈ steps, ∀ response,
      (move.label.run move.source.store).result = .ok response →
      Careful move.source.store move.label) : Voiced last.store := by
  obtain ⟨totalWeight, haccepted, hledger⟩ :=
    ledger_of_reachable ⟨first, steps, hfirst, hrun⟩
  intro id prop hstored hdecided
  have haudible : Audible prop := by
    refine proposal_invariant (P := fun prop _ => Audible prop) (C := Careful)
      (fun _ _ _ _ h => h) ?_ ?_ ?_ ?_ hfirst hrun hcareful hstored
    · intro chain env title description msgs latest power cfg expires prop
        hchain hcareful henabled hprop
      obtain ⟨totalWeight, haccepted, hledger⟩ := ledger_of_reachable hchain
      exact audible_of_propose haccepted hledger henabled hprop hcareful
    · intro chain env id vote power prop prop' hchain hcareful henabled hprop
        haudible
      obtain ⟨totalWeight, haccepted, hledger⟩ := ledger_of_reachable hchain
      exact audible_of_vote haccepted hledger henabled hprop hcareful haudible
    · intro prop block hpassed haudible
      exact ⟨fun _ => haudible.decided (.inl hpassed), fun h => by cases h⟩
    · intro store env id prop henabled haudible
      refine ⟨fun h => ?_, fun h => by cases h⟩
      rcases h with h | h <;> cases h
  exact ⟨haudible.decided hdecided,
    exists_yes_ballot hledger hstored (haudible.decided hdecided)⟩

/-- In every run, all states reached are voiced exactly when all successful
calls are careful. -/
theorem run_voiced_iff (hfirst : (multisig msg).start first)
    (hrun : (multisig msg).Run first steps last) :
    (∀ move ∈ steps, Voiced move.target.store) ↔
      ∀ move ∈ steps, ∀ response,
        (move.label.run move.source.store).result = .ok response →
        Careful move.source.store move.label := by
  constructor
  · intro hvoiced move hmove response hok
    obtain ⟨hreachable, hblock, htarget⟩ := hrun.forall_mem hfirst move hmove
    obtain ⟨totalWeight, haccepted, hledger⟩ := ledger_of_reachable hreachable
    by_contra hcareless
    obtain ⟨id, prop, hstored, hpassed, hyes⟩ :=
      (effect_of_ok hok).unvoiced haccepted hledger hcareless
    have hkept : move.target.store.proposals id = some prop := by
      rw [htarget, Chain.submit, Exec.commit_of_ok hok]
      exact hstored
    have hone := (hvoiced move hmove id prop hkept (.inl hpassed)).1
    omega
  · intro hcareful move hmove
    obtain ⟨before, after, rfl⟩ := List.append_of_mem hmove
    obtain ⟨hbefore, hstep⟩ := hrun.split
    apply voiced_of_careful hfirst (hbefore.snoc hstep)
    intro move' hmove'
    apply hcareful move'
    rw [List.mem_append, List.mem_singleton] at hmove'
    rw [List.mem_append, List.mem_cons]
    tauto

end Runs

section Example

/-- Alice may propose but has no weight; Bob has all of it. -/
private def onlooker : InitMsg where
  voters := [⟨"alice", 0⟩, ⟨"bob", 1⟩]
  threshold := .absolutePercentage (.percent 50)
  maxVotingPeriod := .height 10

private theorem onlooker_accepted : onlooker.Accepted 1 where
  nonempty := by decide
  summed := by decide
  valid := Threshold.validate_eq_ok_iff.1 (by decide +kernel)

private def onlookerStart : Chain String :=
  Chain.deployed ⟨⟨10, 54⟩, ⟨"carol"⟩⟩ onlooker

private def onlookerPropose (sender : String) : Call String :=
  ⟨⟨⟨11, 60⟩, ⟨sender⟩⟩, .propose "title" "description" ["send"] none⟩

private def onlookerAbstain : Call String :=
  ⟨⟨⟨12, 66⟩, ⟨"bob"⟩⟩, .vote 1 .abstain⟩

/-- The only voter with weight abstains, and the proposal passes with no yes
vote at all. -/
theorem abstention_passes_proposal :
    (multisig onlooker).Reachable
      (onlookerStart.replay [onlookerPropose "alice", onlookerAbstain]) ∧
    ((onlookerStart.replay
      [onlookerPropose "alice", onlookerAbstain]).store.proposals 1).map
        (fun prop => (prop.status, prop.votes)) =
      some (Status.passed, ⟨0, 0, 1, 0⟩) :=
  ⟨reachable_replay (.of_start (start_deployed _ onlooker_accepted))
    (by decide), by decide +kernel⟩

/-- A proposal by the voter with weight is a careful call. -/
theorem run_voiced_onlooker :
    Voiced (onlookerStart.submit (onlookerPropose "bob")).store := by
  have hstep : (multisig onlooker).step onlookerStart (onlookerPropose "bob")
      (onlookerStart.submit (onlookerPropose "bob")) := ⟨by decide, rfl⟩
  refine (run_voiced_iff (start_deployed _ onlooker_accepted)
    (EventSystem.Run.nil.snoc hstep)).2 ?_ _ List.mem_cons_self
  intro move hmove response _
  obtain rfl := List.mem_singleton.1 hmove
  intro power cfg hregistered _
  have hpower : onlookerStart.store.voters "bob" = some 1 := rfl
  obtain rfl := Option.some.inj (hpower.symm.trans hregistered)
  exact .inl (by decide)

end Example

end FixedMultisig
