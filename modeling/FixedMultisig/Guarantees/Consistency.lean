import FixedMultisig.Chain.Ledger

/-!
# The items of the store agree

The consequences of the ledger in terms of the store alone: which ids are in
use, who may have a ballot and with which weight, and what a tally adds up to.
-/

namespace FixedMultisig

open CheckedWord

variable {M : Type} {msg : InitMsg}

/-- The weight that an address adds to an option. -/
def ballotWeight (ballot : Option Ballot) (vote : Vote) : ℕ :=
  match ballot with
  | some ballot => if ballot.vote = vote then ballot.weight.toNat else 0
  | none => 0

/-- How the stored items of a multisig fit together.  The map `voters` holds
the last listed weight of every listed address. -/
structure Consistent (msg : InitMsg) (store : Store M) (cfg : Config)
    (count : U64) : Prop where
  config : store.config = some cfg
  proposalCount : store.proposalCount = some count
  voters : ∀ addr, store.voters addr =
    (Registry.lastEntry Voter.addr msg.voters addr).map Voter.weight
  proposals : ∀ id, (store.proposals id).isSome ↔ 1 ≤ id ∧ id ≤ count
  ballots : ∀ id addr ballot, store.ballots id addr = some ballot →
    1 ≤ id ∧ id ≤ count ∧ store.voters addr = some ballot.weight
  tally : ∀ id prop, store.proposals id = some prop → ∀ vote,
    prop.votes.tally vote =
      ∑ addr ∈ (msg.voters.map Voter.addr).toFinset,
        ballotWeight (store.ballots id addr) vote
  total : ∀ id prop, store.proposals id = some prop →
    prop.totalWeight = cfg.totalWeight ∧
      ∃ total, prop.votes.total = some total ∧ total ≤ prop.totalWeight

/-- The tally of a recorded poll, added up over the stored ballots. -/
theorem Records.tally_eq_sum {store : Store M} {id : U64} {votes : Votes}
    {poll : Poll msg.electorate Vote} (hrecords : Records store id votes poll)
    (vote : Vote) :
    votes.tally vote = ∑ addr ∈ (msg.voters.map Voter.addr).toFinset,
      ballotWeight (store.ballots id addr) vote := by
  rw [hrecords.tally, Poll.tally, Finset.sum_filter]
  apply Finset.sum_congr rfl
  intro addr _
  rw [← hrecords.cast]
  cases hballot : store.ballots id addr with
  | none => rfl
  | some ballot =>
      have hregistered := hrecords.weight addr ballot hballot
      simp only [Option.map_some, Option.some.injEq, ballotWeight,
        InitMsg.electorate_weight hregistered]

/-- Every reachable store is consistent. -/
theorem reachable_consistent {chain : Chain M}
    (hreachable : (multisig msg).Reachable chain) :
    ∃ cfg count, Consistent msg chain.store cfg count := by
  obtain ⟨totalWeight, haccepted, hledger⟩ := ledger_of_reachable hreachable
  obtain ⟨count, hcount, hids⟩ := hledger.counted
  refine ⟨msg.config totalWeight, count, hledger.config, hcount,
    fun addr => congrFun hledger.voters addr, hids, ?_, ?_, ?_⟩
  · intro id addr ballot hballot
    cases hstored : chain.store.proposals id with
    | none =>
        rw [hledger.unstored id hstored addr] at hballot
        cases hballot
    | some prop =>
        obtain ⟨poll, hrecords⟩ := hledger.recorded id prop hstored
        have hused := (hids id).1 (by rw [hstored]; rfl)
        rw [hledger.voters]
        exact ⟨hused.1, hused.2, hrecords.weight addr ballot hballot⟩
  · intro id prop hstored vote
    obtain ⟨poll, hrecords⟩ := hledger.recorded id prop hstored
    exact hrecords.tally_eq_sum vote
  · intro id prop hstored
    have htotal := (hledger.governed id prop hstored).2
    have hsum := hledger.sum_tally_le haccepted hstored
    have hfits := hsum.trans_lt totalWeight.isLt
    refine ⟨htotal, _, Votes.total_of_lt hfits, ?_⟩
    rw [htotal, BitVec.le_def, toNat_ofNat_of_lt hfits]
    exact hsum

section Example

/-- Two voters, one of them listed twice. -/
private def relisted : InitMsg where
  voters := [⟨"alice", 1⟩, ⟨"bob", 2⟩, ⟨"alice", 3⟩]
  threshold := .absoluteCount 5
  maxVotingPeriod := .height 100

private theorem relisted_accepted : relisted.Accepted 6 where
  nonempty := by decide
  summed := by decide
  valid := Threshold.validate_eq_ok_iff.1 (by decide)

private def relistedCalls : List (Call String) :=
  [⟨⟨⟨11, 60⟩, ⟨"alice"⟩⟩, .propose "title" "description" ["send"] none⟩,
    ⟨⟨⟨12, 66⟩, ⟨"bob"⟩⟩, .vote 1 .no⟩]

private def relistedChain : Chain String :=
  (Chain.deployed ⟨⟨10, 54⟩, ⟨"carol"⟩⟩ relisted).replay relistedCalls

/-- The proposer's three and the other voter's two are both counted. -/
theorem reachable_consistent_relisted :
    (relistedChain.store.proposals 1).map Proposal.votes =
        some ⟨3, 2, 0, 0⟩ ∧
      ∃ cfg count, Consistent relisted relistedChain.store cfg count :=
  ⟨by decide +kernel, reachable_consistent (reachable_replay
    (.of_start (start_deployed _ relisted_accepted)) (by decide))⟩

end Example

end FixedMultisig
