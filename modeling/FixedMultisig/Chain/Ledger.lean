import FixedMultisig.Chain.Multisig
import FixedMultisig.Contract.Decision

/-!
# The ledger of a multisig

The store keeps a configuration, a voters map, a counter, proposals with their
tallies, and ballots, each in its own item.  `Ledger` says how they fit
together: the counter names the stored proposals, and every stored proposal
with its ballots records a poll of the electorate, whose tally the proposal
carries.  The poll is the abstract counterpart of a proposal; opening a
proposal and voting on it are `Poll.record`, and everything else a call does
leaves it alone.
-/

namespace FixedMultisig

open CheckedWord

variable {M : Type} {msg : InitMsg}

/-- A proposal and the ballots stored under its id record this poll. -/
structure Records (store : Store M) (id : U64) (votes : Votes)
    (poll : Poll msg.electorate Vote) : Prop where
  cast : ∀ addr, (store.ballots id addr).map Ballot.vote = poll.cast addr
  weight : ∀ addr ballot, store.ballots id addr = some ballot →
    msg.registry addr = some ballot.weight
  tally : votes.tally = poll.tally

structure Ledger (msg : InitMsg) (totalWeight : U64) (store : Store M) :
    Prop where
  config : store.config = some (msg.config totalWeight)
  votersList : store.votersList = some msg.voters
  voters : store.voters = msg.registry
  counted : ∃ count, store.proposalCount = some count ∧
    ∀ id, (store.proposals id).isSome ↔ 1 ≤ id ∧ id ≤ count
  unstored : ∀ id, store.proposals id = none →
    ∀ addr, store.ballots id addr = none
  governed : ∀ id prop, store.proposals id = some prop →
    prop.threshold = msg.threshold ∧ prop.totalWeight = totalWeight
  recorded : ∀ id prop, store.proposals id = some prop →
    ∃ poll : Poll msg.electorate Vote, Records store id prop.votes poll

namespace Ledger

variable {totalWeight : U64} {store : Store M}

theorem initial (totalWeight : U64) :
    Ledger msg totalWeight (msg.initialStore totalWeight : Store M) where
  config := rfl
  votersList := rfl
  voters := rfl
  counted := by
    refine ⟨0, rfl, fun id => ?_⟩
    have hzero : (0 : U64).toNat = 0 := rfl
    have hone : (1 : U64).toNat = 1 := rfl
    simp only [InitMsg.initialStore, Option.isSome_none, Bool.false_eq_true,
      false_iff, BitVec.le_def, hzero, hone]
    omega
  unstored _ _ _ := rfl
  governed := by simp [InitMsg.initialStore]
  recorded := by simp [InitMsg.initialStore]

/-- What a stored proposal carries never exceeds the total weight. -/
theorem sum_tally_le (haccepted : msg.Accepted totalWeight)
    (hledger : Ledger msg totalWeight store) {id : U64} {prop : Proposal M}
    (hstored : store.proposals id = some prop) :
    ∑ vote, prop.votes.tally vote ≤ totalWeight.toNat := by
  obtain ⟨poll, hrecords⟩ := hledger.recorded id prop hstored
  rw [hrecords.tally]
  exact poll.sum_tally_le.trans haccepted.electorate_total_le

/-- A stored proposal meets the hypotheses of the lemmas about decisions. -/
theorem sound_of_stored (haccepted : msg.Accepted totalWeight)
    (hledger : Ledger msg totalWeight store) {id : U64} {prop : Proposal M}
    (hstored : store.proposals id = some prop) :
    prop.threshold.Valid prop.totalWeight.toNat ∧
      ∑ vote, prop.votes.tally vote ≤ prop.totalWeight.toNat := by
  obtain ⟨hthreshold, htotal⟩ := hledger.governed id prop hstored
  rw [hthreshold, htotal]
  exact ⟨haccepted.valid, hledger.sum_tally_le haccepted hstored⟩

/-- The ledger is kept by a write to one proposal and its ballots, as long as
the counter covers the proposal and the ballots record a poll again. -/
theorem update (hledger : Ledger msg totalWeight store) {store' : Store M}
    {id : U64} {prop : Proposal M}
    (hframe : store'.config = store.config ∧
      store'.votersList = store.votersList ∧ store'.voters = store.voters)
    (hproposals : store'.proposals = (store.putProposal id prop).proposals)
    (hballots : ∀ other, other ≠ id →
      store'.ballots other = store.ballots other)
    (hcounted : ∃ count, store'.proposalCount = some count ∧
      ∀ other, (store'.proposals other).isSome ↔ 1 ≤ other ∧ other ≤ count)
    (hgoverned : prop.threshold = msg.threshold ∧
      prop.totalWeight = totalWeight)
    (hrecorded : ∃ poll : Poll msg.electorate Vote,
      Records store' id prop.votes poll) :
    Ledger msg totalWeight store' := by
  have hself : store'.proposals id = some prop := by
    rw [hproposals, Store.putProposal_proposals_self]
  have hother : ∀ other, other ≠ id →
      store'.proposals other = store.proposals other := fun other hne => by
    rw [hproposals, Store.putProposal_proposals_of_ne _ _ _ hne]
  refine ⟨hframe.1.trans hledger.config, hframe.2.1.trans hledger.votersList,
    hframe.2.2.trans hledger.voters, hcounted, ?_, ?_, ?_⟩
  · intro other hnone
    by_cases hne : other = id
    · rw [hne, hself] at hnone
      cases hnone
    · rw [hother other hne] at hnone
      rw [hballots other hne]
      exact hledger.unstored other hnone
  · intro other new hnew
    by_cases hne : other = id
    · rw [hne, hself, Option.some.injEq] at hnew
      exact hnew ▸ hgoverned
    · rw [hother other hne] at hnew
      exact hledger.governed other new hnew
  · intro other new hnew
    by_cases hne : other = id
    · rw [hne, hself, Option.some.injEq] at hnew
      rw [hne, ← hnew]
      exact hrecorded
    · rw [hother other hne] at hnew
      obtain ⟨poll, hcast, hweight, htally⟩ := hledger.recorded other new hnew
      rw [← hballots other hne] at hcast hweight
      exact ⟨poll, hcast, hweight, htally⟩

/-- Overwriting a stored proposal does not change which ids are stored. -/
theorem counted_putProposal (hledger : Ledger msg totalWeight store) {id : U64}
    {prop : Proposal M} (hstored : store.proposals id = some prop)
    (new : Proposal M) :
    ∃ count, store.proposalCount = some count ∧
      ∀ other, ((store.putProposal id new).proposals other).isSome ↔
        1 ≤ other ∧ other ≤ count := by
  obtain ⟨count, hcount, hids⟩ := hledger.counted
  refine ⟨count, hcount, fun other => ?_⟩
  by_cases hne : other = id
  · rw [← hids, hne, hstored, Store.putProposal_proposals_self]
    simp
  · rw [store.putProposal_proposals_of_ne _ _ hne, hids]

/-- A registered address belongs to the electorate, with the weight the map
holds, which is part of the total weight. -/
theorem member (haccepted : msg.Accepted totalWeight)
    (hledger : Ledger msg totalWeight store) {addr : String} {power : U64}
    (hregistered : store.voters addr = some power) :
    addr ∈ msg.electorate.members ∧
      msg.electorate.weight addr = power.toNat ∧
      power.toNat ≤ totalWeight.toNat := by
  rw [hledger.voters] at hregistered
  have hmember : addr ∈ msg.electorate.members :=
    InitMsg.mem_electorate_iff.2 ⟨power, hregistered⟩
  have hweight := InitMsg.electorate_weight hregistered
  refine ⟨hmember, hweight, ?_⟩
  rw [← hweight]
  exact (msg.electorate.weight_le_total hmember).trans
    haccepted.electorate_total_le

/-- The configuration a proposal is created under. -/
theorem config_eq (hledger : Ledger msg totalWeight store) {cfg : Config}
    (hconfig : store.config = some cfg) : cfg = msg.config totalWeight :=
  Option.some.inj (hconfig.symm.trans hledger.config)

/-- A new proposal meets the hypotheses of the lemmas about decisions. -/
theorem sound_of_new (haccepted : msg.Accepted totalWeight)
    (hledger : Ledger msg totalWeight store) {env : Env}
    {latest : Option Expiration} {power : U64} {cfg : Config}
    {expires : Expiration}
    (henabled : ProposeEnabled store env latest power cfg expires) :
    cfg.threshold.Valid cfg.totalWeight.toNat ∧
      ∑ vote, (Votes.initYes power).tally vote ≤ cfg.totalWeight.toNat := by
  rw [hledger.config_eq henabled.configured, Votes.tally_initYes,
    sum_single]
  exact ⟨haccepted.valid, (hledger.member haccepted henabled.registered).2.2⟩

/-- Distinct registered voters who have not voted fit into the electorate
together with the votes already counted. -/
theorem cast_add_le (haccepted : msg.Accepted totalWeight)
    (hledger : Ledger msg totalWeight store) {id : U64} {prop : Proposal M}
    (hstored : store.proposals id = some prop) {voters : List String}
    (hdistinct : voters.Nodup)
    (hregistered : ∀ addr ∈ voters, ∃ power, store.voters addr = some power)
    (hfresh : ∀ addr ∈ voters, store.ballots id addr = none) :
    ∑ vote, prop.votes.tally vote +
        (voters.map msg.electorate.weight).sum ≤ msg.electorate.total := by
  obtain ⟨poll, hrecords⟩ := hledger.recorded id prop hstored
  have hmembers : ∀ addr ∈ voters, addr ∈ msg.electorate.members := by
    intro addr haddr
    obtain ⟨power, hpower⟩ := hregistered addr haddr
    exact (hledger.member haccepted hpower).1
  have huncast : ∀ addr ∈ voters, poll.cast addr = none := by
    intro addr haddr
    rw [← hrecords.cast, hfresh addr haddr]
    rfl
  rw [hrecords.tally]
  exact poll.sum_tally_add_le hdistinct hmembers huncast

/-- The stored ids, by the counter. -/
theorem isSome_iff (hledger : Ledger msg totalWeight store) {count : U64}
    (hcount : store.proposalCount = some count) (id : U64) :
    (store.proposals id).isSome ↔ 1 ≤ id ∧ id ≤ count := by
  obtain ⟨count', hcount', hids⟩ := hledger.counted
  obtain rfl := Option.some.inj (hcount.symm.trans hcount')
  exact hids id

theorem proposals_zero (hledger : Ledger msg totalWeight store) :
    store.proposals 0 = none := by
  obtain ⟨count, -, hids⟩ := hledger.counted
  rw [← Option.not_isSome_iff_eq_none, hids]
  rintro ⟨hzero, -⟩
  exact absurd hzero (by decide)

/-- A vote that may be counted fits into the electorate. -/
theorem cast_add_le_of_enabled (haccepted : msg.Accepted totalWeight)
    (hledger : Ledger msg totalWeight store) {env : Env} {id power : U64}
    {prop : Proposal M} (henabled : VoteEnabled store env id power prop) :
    ∑ vote, prop.votes.tally vote + power.toNat ≤ msg.electorate.total := by
  have hroom := hledger.cast_add_le haccepted henabled.stored
    (List.nodup_singleton env.message.sender)
    (by simpa using ⟨power, henabled.registered⟩)
    (by simpa using henabled.fresh)
  rwa [List.map_singleton, List.sum_singleton,
    (hledger.member haccepted henabled.registered).2.1] at hroom

/-- The electorate fits under the total weight of every stored proposal. -/
theorem electorate_total_le (haccepted : msg.Accepted totalWeight)
    (hledger : Ledger msg totalWeight store) {id : U64} {prop : Proposal M}
    (hstored : store.proposals id = some prop) :
    msg.electorate.total ≤ prop.totalWeight.toNat := by
  rw [(hledger.governed id prop hstored).2]
  exact haccepted.electorate_total_le

/-- A vote that may be counted fits under the total weight. -/
theorem room_of_enabled (haccepted : msg.Accepted totalWeight)
    (hledger : Ledger msg totalWeight store) {env : Env} {id power : U64}
    {prop : Proposal M} (henabled : VoteEnabled store env id power prop) :
    ∑ vote, prop.votes.tally vote + power.toNat ≤ prop.totalWeight.toNat :=
  (hledger.cast_add_le_of_enabled haccepted henabled).trans
    (hledger.electorate_total_le haccepted henabled.stored)

theorem addVote_of_enabled (haccepted : msg.Accepted totalWeight)
    (hledger : Ledger msg totalWeight store) {env : Env} {id power : U64}
    {prop : Proposal M} (henabled : VoteEnabled store env id power prop)
    (vote : Vote) :
    ∃ votes, prop.votes.addVote vote power = some votes :=
  Votes.addVote_of_lt ((hledger.room_of_enabled haccepted henabled).trans_lt
    prop.totalWeight.isLt)

/-- With a vote counted, a proposal still meets the hypotheses of the lemmas
about decisions. -/
theorem sound_of_counted (haccepted : msg.Accepted totalWeight)
    (hledger : Ledger msg totalWeight store) {env : Env} {id power : U64}
    {vote : Vote} {prop : Proposal M} {votes : Votes}
    (henabled : VoteEnabled store env id power prop)
    (hvotes : prop.votes.addVote vote power = some votes) :
    prop.threshold.Valid prop.totalWeight.toNat ∧
      ∑ option, votes.tally option ≤ prop.totalWeight.toNat := by
  have hroom := hledger.room_of_enabled haccepted henabled
  refine ⟨(hledger.sound_of_stored haccepted henabled.stored).1, ?_⟩
  rw [Votes.tally_addVote hvotes]
  simpa only [Pi.add_apply, Finset.sum_add_distrib, sum_single] using hroom

end Ledger

/-- A fresh ballot of a registered voter, counted in the tally, is one more
choice in the poll. -/
theorem Records.putBallot {store : Store M} {id : U64} {votes votes' : Votes}
    {poll : Poll msg.electorate Vote} (hrecords : Records store id votes poll)
    {addr : String} {power : U64} (hregistered : msg.registry addr = some power)
    (hfresh : store.ballots id addr = none) {vote : Vote}
    (hcounted : votes'.tally = votes.tally + Pi.single vote power.toNat) :
    ∃ hmember : addr ∈ msg.electorate.members,
      Records (store.putBallot id addr ⟨power, vote⟩) id votes'
        (poll.record hmember vote) := by
  have hmember : addr ∈ msg.electorate.members :=
    InitMsg.mem_electorate_iff.2 ⟨power, hregistered⟩
  refine ⟨hmember, fun other => ?_, fun other ballot hballot => ?_, ?_⟩
  · by_cases hother : other = addr
    · subst hother
      simp
    · rw [Store.putBallot_ballots_of_ne_addr _ _ _ _ hother,
        poll.record_cast_of_ne hmember vote hother, hrecords.cast]
  · by_cases hother : other = addr
    · subst hother
      rw [Store.putBallot_ballots_self, Option.some.injEq] at hballot
      exact hballot ▸ hregistered
    · rw [Store.putBallot_ballots_of_ne_addr _ _ _ _ hother] at hballot
      exact hrecords.weight other ballot hballot
  · have hnone : poll.cast addr = none := by
      rw [← hrecords.cast, hfresh]
      rfl
    rw [hcounted, hrecords.tally, poll.tally_record hmember hnone,
      InitMsg.electorate_weight hregistered]


namespace Ledger

variable {totalWeight : U64} {store : Store M} {env : Env}

/-- Writing back a stored proposal with another status keeps the ledger. -/
theorem putStatus (hledger : Ledger msg totalWeight store) {id : U64}
    {prop : Proposal M} (hstored : store.proposals id = some prop)
    (status : Status) :
    Ledger msg totalWeight (store.putProposal id { prop with status }) := by
  obtain ⟨poll, hcast, hweight, htally⟩ := hledger.recorded id prop hstored
  exact hledger.update ⟨rfl, rfl, rfl⟩ rfl (fun _ _ => rfl)
    (hledger.counted_putProposal hstored _) (hledger.governed id prop hstored)
    ⟨poll, hcast, hweight, htally⟩

/-- A counted vote is recorded in the poll. -/
theorem vote (hledger : Ledger msg totalWeight store) {id power : U64}
    {vote : Vote} {prop prop' : Proposal M}
    (henabled : VoteEnabled store env id power prop)
    (hprop : prop.recordVote vote power env.block = some prop') :
    Ledger msg totalWeight ((store.putBallot id env.message.sender
      ⟨power, vote⟩).putProposal id prop') := by
  obtain ⟨votes, status, hvotes, -, rfl⟩ :=
    Proposal.recordVote_eq_some_iff.1 hprop
  obtain ⟨poll, hrecords⟩ := hledger.recorded id prop henabled.stored
  obtain ⟨hmember, hrecords'⟩ := hrecords.putBallot
    (hledger.voters ▸ henabled.registered) henabled.fresh
    (Votes.tally_addVote hvotes)
  exact hledger.update ⟨rfl, rfl, rfl⟩ rfl
    (fun other hne => Store.putBallot_ballots_of_ne _ _ _ _ hne)
    (hledger.counted_putProposal henabled.stored _)
    (hledger.governed id prop henabled.stored)
    ⟨_, hrecords'.cast, hrecords'.weight, hrecords'.tally⟩

/-- The id of a new proposal has not been used. -/
theorem fresh (hledger : Ledger msg totalWeight store) {count id : U64}
    (hcount : store.proposalCount = some count)
    (hid : checkedAdd count 1 = some id) :
    store.proposals id = none := by
  have hnext := checkedAdd_eq_some_iff.1 hid
  have hone : (1 : U64).toNat = 1 := rfl
  rw [← Option.not_isSome_iff_eq_none, hledger.isSome_iff hcount,
    BitVec.le_def, BitVec.le_def]
  omega

/-- A new proposal opens a poll in which the proposer has said yes. -/
theorem propose (hledger : Ledger msg totalWeight store)
    {title description : String} {msgs : List M} {latest : Option Expiration}
    {power : U64} {cfg : Config} {expires : Expiration} {prop : Proposal M}
    {count id : U64}
    (henabled : ProposeEnabled store env latest power cfg expires)
    (hprop : (newProposal env title description msgs expires power
      cfg).updateStatus env.block = some prop)
    (hcount : store.proposalCount = some count)
    (hid : checkedAdd count 1 = some id) :
    Ledger msg totalWeight (((store.putCount id).putProposal id prop).putBallot
      id env.message.sender ⟨power, .yes⟩) := by
  obtain ⟨status, -, rfl⟩ := Proposal.updateStatus_eq_some_iff.1 hprop
  have hunstored := hledger.fresh hcount hid
  have hempty : Records store id ⟨0, 0, 0, 0⟩
      (Poll.empty : Poll msg.electorate Vote) := by
    refine ⟨fun addr => ?_, fun addr ballot hballot => ?_, ?_⟩
    · rw [hledger.unstored id hunstored addr]
      rfl
    · rw [hledger.unstored id hunstored addr] at hballot
      cases hballot
    · rw [Poll.tally_empty]
      funext vote
      cases vote <;> rfl
  have hcounted : (Votes.initYes power).tally =
      (⟨0, 0, 0, 0⟩ : Votes).tally + Pi.single .yes power.toNat := by
    rw [Votes.tally_initYes, hempty.tally, Poll.tally_empty, zero_add]
  obtain ⟨hmember, hrecords⟩ := hempty.putBallot
    (hledger.voters ▸ henabled.registered)
    (hledger.unstored id hunstored env.message.sender) hcounted
  have hconfig := hledger.config_eq henabled.configured
  refine hledger.update ⟨rfl, rfl, rfl⟩ rfl
    (fun other hne => Store.putBallot_ballots_of_ne _ _ _ _ hne)
    ⟨id, rfl, fun other => ?_⟩ (by rw [hconfig]; exact ⟨rfl, rfl⟩)
    ⟨_, hrecords.cast, hrecords.weight, hrecords.tally⟩
  obtain ⟨count', hcount', hids⟩ := hledger.counted
  obtain rfl := Option.some.inj (hcount.symm.trans hcount')
  have hnext := checkedAdd_eq_some_iff.1 hid
  have hone : (1 : U64).toNat = 1 := rfl
  rw [Store.putBallot_proposals]
  by_cases hne : other = id
  · subst hne
    rw [Store.putProposal_proposals_self, BitVec.le_def]
    simp only [Option.isSome_some, true_iff, BitVec.le_refl, and_true]
    omega
  · rw [Store.putProposal_proposals_of_ne _ _ _ hne, Store.putCount_proposals,
      hids, BitVec.le_def, BitVec.le_def, BitVec.le_def]
    have hne' : other.toNat ≠ id.toNat := fun h => hne (BitVec.eq_of_toNat_eq h)
    omega

/-- Every effect of a call keeps the ledger. -/
theorem effect (hledger : Ledger msg totalWeight store) {call : HandleMsg M}
    {store' : Store M} {response : HandleResponse M}
    (heffect : Effect store env call store' response) :
    Ledger msg totalWeight store' := by
  cases heffect with
  | propose henabled hprop hcount hid =>
      exact hledger.propose henabled hprop hcount hid
  | vote henabled hprop => exact hledger.vote henabled hprop
  | execute hstored hpassed => exact hledger.putStatus hstored _
  | close henabled => exact hledger.putStatus henabled.stored _

end Ledger

/-- The store of every reachable state is a ledger of an accepted message. -/
theorem ledger_of_reachable {chain : Chain M}
    (hreachable : (multisig msg).Reachable chain) :
    ∃ totalWeight, msg.Accepted totalWeight ∧
      Ledger msg totalWeight chain.store := by
  obtain ⟨first, steps, hfirst, hrun⟩ := hreachable
  refine store_invariant
    (P := fun store _ => ∃ totalWeight, msg.Accepted totalWeight ∧
      Ledger msg totalWeight store) (C := fun _ _ => True)
    (fun totalWeight _ haccepted => ⟨totalWeight, haccepted, .initial _⟩)
    (fun _ _ _ _ hledger => hledger) ?_ hfirst hrun (fun _ _ _ _ => trivial)
  rintro chain call store response - - ⟨totalWeight, haccepted, hledger⟩ heffect
  exact ⟨totalWeight, haccepted, hledger.effect heffect⟩

theorem ledger_of_accepted {totalWeight : U64}
    (haccepted : msg.Accepted totalWeight) {chain : Chain M}
    (hreachable : (multisig msg).Reachable chain) :
    Ledger msg totalWeight chain.store := by
  obtain ⟨totalWeight', haccepted', hledger⟩ := ledger_of_reachable hreachable
  obtain rfl := haccepted.unique haccepted'
  exact hledger

/-- In a reachable state every stored proposal meets the hypotheses of the
lemmas about decisions. -/
theorem sound_of_reachable {chain : Chain M}
    (hreachable : (multisig msg).Reachable chain) {id : U64} {prop : Proposal M}
    (hstored : chain.store.proposals id = some prop) :
    prop.threshold.Valid prop.totalWeight.toNat ∧
      ∑ vote, prop.votes.tally vote ≤ prop.totalWeight.toNat := by
  obtain ⟨totalWeight, haccepted, hledger⟩ := ledger_of_reachable hreachable
  exact hledger.sound_of_stored haccepted hstored

end FixedMultisig
