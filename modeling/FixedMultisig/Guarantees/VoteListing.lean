import FixedMultisig.Contract.Queries
import FixedMultisig.Guarantees.Consistency

/-!
# The listed votes and the ballots

`listVotes` goes through the list of voters as it was given to `init`, with
the weights of that list, and shows an entry for each one whose address has a
ballot.  The ballots and the tally use the weights of the voters map, which
holds one weight for each address.  The two views agree exactly when no address
with a ballot is listed more than once.
-/

namespace FixedMultisig

variable {M : Type} {msg : InitMsg}

/-- The votes listed for a proposal are its ballots: one entry for each address
with a ballot, the entry that `queryVote` returns, and together the tally. -/
structure VotesAgree (store : Store M) (id : U64) (prop : Proposal M)
    (votes : List VoteInfo) : Prop where
  distinct : (votes.map VoteInfo.voter).Nodup
  voters : ∀ addr, addr ∈ votes.map VoteInfo.voter ↔
    (store.ballots id addr).isSome
  entries : ∀ info ∈ votes,
    ((queryVote id info.voter).run store).result = .ok ⟨some info⟩
  tally : ∀ vote, ((votes.filter fun info => info.vote = vote).map
    fun info => info.weight.toNat).sum = prop.votes.tally vote

/-- The listed addresses are those of the voters list that have a ballot. -/
theorem listedVotes_voters (store : Store M) (id : U64) (voters : List Voter) :
    (voters.filterMap (listedVote store id)).map VoteInfo.voter =
      (voters.map Voter.addr).filter fun addr =>
        (store.ballots id addr).isSome := by
  induction voters with
  | nil => rfl
  | cons voter voters ih =>
      cases hballot : store.ballots id voter.addr with
      | none =>
          rw [List.filterMap_cons_none (by rw [listedVote, hballot]; rfl), ih,
            List.map_cons, List.filter_cons_of_neg (by simp [hballot])]
      | some ballot =>
          rw [List.filterMap_cons_some (by rw [listedVote, hballot]; rfl),
            List.map_cons, ih, List.map_cons,
            List.filter_cons_of_pos (by simp [hballot])]

/-- No address is shown twice exactly when no address with a ballot is listed
twice. -/
theorem nodup_listedVotes_iff {store : Store M} {id : U64}
    {voters : List Voter} :
    ((voters.filterMap (listedVote store id)).map VoteInfo.voter).Nodup ↔
      ∀ addr, (store.ballots id addr).isSome →
        (voters.map Voter.addr).count addr ≤ 1 := by
  rw [listedVotes_voters, List.nodup_iff_count_le_one]
  apply forall_congr'
  intro addr
  by_cases hballot : (store.ballots id addr).isSome = true
  · rw [List.count_filter (p := fun addr => (store.ballots id addr).isSome)
      hballot]
    simp [hballot]
  · have hnone : List.count addr ((voters.map Voter.addr).filter fun addr =>
        (store.ballots id addr).isSome) = 0 :=
      List.count_eq_zero.2 fun h => hballot (List.mem_filter.1 h).2
    simp [hnone, hballot]

namespace Ledger

variable {totalWeight : U64} {store : Store M} {id : U64} {prop : Proposal M}

/-- An address with a ballot is listed. -/
theorem mem_addrs_of_ballot (hledger : Ledger msg totalWeight store)
    (hstored : store.proposals id = some prop) {addr : String}
    (hballot : (store.ballots id addr).isSome) :
    addr ∈ msg.voters.map Voter.addr := by
  obtain ⟨ballot, hballot⟩ := Option.isSome_iff_exists.1 hballot
  obtain ⟨poll, hrecords⟩ := hledger.recorded id prop hstored
  have hmember : addr ∈ msg.electorate.members :=
    InitMsg.mem_electorate_iff.2 ⟨_, hrecords.weight addr ballot hballot⟩
  exact List.mem_toFinset.1 hmember

/-- The weight listed for an address that is listed once is the weight of its
ballot. -/
theorem entry_eq_of_count (hledger : Ledger msg totalWeight store)
    (hstored : store.proposals id = some prop)
    (honce : ∀ addr, (store.ballots id addr).isSome →
      (msg.voters.map Voter.addr).count addr = 1)
    {info : VoteInfo}
    (hinfo : info ∈ msg.voters.filterMap (listedVote store id)) :
    (store.ballots id info.voter).map (fun ballot =>
      (⟨id, info.voter, ballot.vote, ballot.weight⟩ : VoteInfo)) =
        some info := by
  obtain ⟨voter, hvoter, hlisted⟩ := List.mem_filterMap.1 hinfo
  rw [listedVote, Option.map_eq_some_iff] at hlisted
  obtain ⟨ballot, hballot, rfl⟩ := hlisted
  obtain ⟨poll, hrecords⟩ := hledger.recorded id prop hstored
  have hcount := honce voter.addr (by rw [hballot]; rfl)
  have hlast := Registry.lastEntry_of_count Voter.addr hvoter hcount.le
  have hregistered := hrecords.weight voter.addr ballot hballot
  rw [InitMsg.registry, hlast, Option.map_some,
    Option.some.injEq] at hregistered
  simp [hballot, hregistered]

end Ledger

/-- Distinct entries that repeat the ballots add up to the tally. -/
theorem sum_listed_eq_tally {store : Store M} {id : U64} {prop : Proposal M}
    {poll : Poll msg.electorate Vote}
    (hrecords : Records store id prop.votes poll) {votes : List VoteInfo}
    (hdistinct : (votes.map VoteInfo.voter).Nodup)
    (hvoters : ∀ addr, addr ∈ votes.map VoteInfo.voter ↔
      (store.ballots id addr).isSome)
    (hentries : ∀ info ∈ votes, (store.ballots id info.voter).map (fun ballot =>
      (⟨id, info.voter, ballot.vote, ballot.weight⟩ : VoteInfo)) = some info)
    (vote : Vote) :
    ((votes.filter fun info => info.vote = vote).map
      fun info => info.weight.toNat).sum = prop.votes.tally vote := by
  have hweight : ∀ info ∈ votes,
      (if info.vote = vote then info.weight.toNat else 0) =
        ballotWeight (store.ballots id info.voter) vote := by
    intro info hinfo
    obtain ⟨ballot, hballot, hentry⟩ :=
      Option.map_eq_some_iff.1 (hentries info hinfo)
    rw [← hentry, hballot]
    rfl
  calc
    ((votes.filter fun info => info.vote = vote).map
        fun info => info.weight.toNat).sum =
        (votes.map fun info =>
          if info.vote = vote then info.weight.toNat else 0).sum := by
      rw [List.sum_map_ite]
      simp
    _ = ((votes.map VoteInfo.voter).map fun addr =>
          ballotWeight (store.ballots id addr) vote).sum := by
      rw [List.map_map, List.map_congr_left hweight]
      rfl
    _ = ∑ addr ∈ (votes.map VoteInfo.voter).toFinset,
          ballotWeight (store.ballots id addr) vote :=
      (List.sum_toFinset _ hdistinct).symm
    _ = prop.votes.tally vote := by
      rw [hrecords.tally_eq_sum]
      apply Finset.sum_subset
      · intro addr haddr
        obtain ⟨ballot, hballot⟩ := Option.isSome_iff_exists.1
          ((hvoters addr).1 (List.mem_toFinset.1 haddr))
        exact InitMsg.mem_electorate_iff.2
          ⟨_, hrecords.weight addr ballot hballot⟩
      · intro addr _ hmissing
        have hnone : store.ballots id addr = none := by
          rw [← Option.not_isSome_iff_eq_none, ← hvoters]
          exact fun h => hmissing (List.mem_toFinset.2 h)
        rw [hnone]
        rfl

/-- The listing agrees with the ballots exactly when no address with a ballot
is listed more than once. -/
theorem listVotes_agree_iff {chain : Chain M}
    (hreachable : (multisig msg).Reachable chain) {id : U64} {prop : Proposal M}
    (hstored : chain.store.proposals id = some prop)
    (startAfter : Option String) (limit : Option U32) :
    (∃ votes, ((listVotes id startAfter limit).run chain.store).result =
        .ok ⟨votes⟩ ∧ VotesAgree chain.store id prop votes) ↔
      ∀ addr, (chain.store.ballots id addr).isSome →
        (msg.voters.map Voter.addr).count addr = 1 := by
  obtain ⟨totalWeight, haccepted, hledger⟩ := ledger_of_reachable hreachable
  rw [run_listVotes hledger.votersList]
  constructor
  · rintro ⟨votes, hok, hagree⟩ addr hballot
    obtain rfl := (VoteListResponse.mk.injEq _ _).mp (Except.ok.inj hok)
    have hmem := hledger.mem_addrs_of_ballot hstored hballot
    exact le_antisymm (nodup_listedVotes_iff.1 hagree.distinct addr hballot)
      (List.count_pos_iff.2 hmem)
  · intro honce
    obtain ⟨poll, hrecords⟩ := hledger.recorded id prop hstored
    have hdistinct := nodup_listedVotes_iff.2 fun addr hballot =>
      (honce addr hballot).le
    have hvoters : ∀ addr, addr ∈ (msg.voters.filterMap
        (listedVote chain.store id)).map VoteInfo.voter ↔
          (chain.store.ballots id addr).isSome := by
      intro addr
      rw [listedVotes_voters, List.mem_filter]
      exact ⟨fun h => h.2,
        fun h => ⟨hledger.mem_addrs_of_ballot hstored h, h⟩⟩
    have hentries := fun (info : VoteInfo) (hinfo : info ∈
        msg.voters.filterMap (listedVote chain.store id)) =>
      hledger.entry_eq_of_count hstored honce hinfo
    exact ⟨_, rfl, hdistinct, hvoters,
      fun info hinfo => queryVote_ok_iff.2 (hentries info hinfo).symm,
      sum_listed_eq_tally hrecords hdistinct hvoters hentries⟩

section Example

private def listing (bob : List Voter) : InitMsg where
  voters := ⟨"alice", 1⟩ :: bob
  threshold := .absoluteCount 3
  maxVotingPeriod := .height 10

private def singly : InitMsg := listing [⟨"bob", 2⟩]

/-- Bob is listed twice; the voters map keeps the second weight. -/
private def twice : InitMsg := listing [⟨"bob", 1⟩, ⟨"bob", 2⟩]

private theorem singly_accepted : singly.Accepted 3 where
  nonempty := by decide
  summed := by decide
  valid := Threshold.validate_eq_ok_iff.1 (by decide)

private theorem twice_accepted : twice.Accepted 4 where
  nonempty := by decide
  summed := by decide
  valid := Threshold.validate_eq_ok_iff.1 (by decide)

private def listingCalls : List (Call String) :=
  [⟨⟨⟨11, 60⟩, ⟨"alice"⟩⟩, .propose "title" "description" ["send"] none⟩,
    ⟨⟨⟨12, 66⟩, ⟨"bob"⟩⟩, .vote 1 .no⟩]

private def listingChain (msg : InitMsg) : Chain String :=
  (Chain.deployed ⟨⟨10, 54⟩, ⟨"carol"⟩⟩ msg).replay listingCalls

private def listingProposal (totalWeight : U64) (status : Status) :
    Proposal String where
  title := "title"
  description := "description"
  startHeight := 11
  expires := .atHeight 21
  msgs := ["send"]
  status
  threshold := .absoluteCount 3
  totalWeight
  votes := ⟨1, 2, 0, 0⟩

private theorem singly_reachable :
    (multisig singly).Reachable (listingChain singly) :=
  reachable_replay (.of_start (start_deployed _ singly_accepted)) (by decide)

private theorem singly_stored : (listingChain singly).store.proposals 1 =
    some (listingProposal 3 Status.rejected) := rfl

theorem listVotes_agree_singly :
    ∃ votes, ((listVotes 1 none none).run (listingChain singly).store).result =
        .ok ⟨votes⟩ ∧
      VotesAgree (listingChain singly).store 1
        (listingProposal 3 Status.rejected) votes := by
  apply (listVotes_agree_iff singly_reachable singly_stored none none).2
  intro addr hballot
  have hmem := (ledger_of_accepted singly_accepted
    singly_reachable).mem_addrs_of_ballot singly_stored hballot
  simp only [singly, listing, List.map_cons, List.map_nil, List.mem_cons,
    List.not_mem_nil, or_false] at hmem ⊢
  rcases hmem with rfl | rfl <;> decide

/-- An address that is listed twice is shown twice, once with a weight that it
does not vote with, and the no votes shown add up to more than the tally. -/
theorem repeated_address_listed_twice :
    (multisig twice).Reachable (listingChain twice) ∧
      (listingChain twice).store.proposals 1 =
        some (listingProposal 4 Status.rejected) ∧
      ((queryVote 1 "bob").run (listingChain twice).store).result =
        .ok ⟨some ⟨1, "bob", .no, 2⟩⟩ ∧
      ((listVotes 1 none none).run (listingChain twice).store).result =
        .ok ⟨[⟨1, "alice", .yes, 1⟩, ⟨1, "bob", .no, 1⟩,
          ⟨1, "bob", .no, 2⟩]⟩ ∧
      ¬ ∃ votes, ((listVotes 1 none none).run
          (listingChain twice).store).result = .ok ⟨votes⟩ ∧
        VotesAgree (listingChain twice).store 1
          (listingProposal 4 Status.rejected) votes := by
  refine ⟨reachable_replay (.of_start (start_deployed _ twice_accepted))
    (by decide), rfl, rfl, rfl, ?_⟩
  rintro ⟨votes, hok, hagree⟩
  have hlisted : ((listVotes 1 none none).run
      (listingChain twice).store).result =
    .ok ⟨[⟨1, "alice", .yes, 1⟩, ⟨1, "bob", .no, 1⟩, ⟨1, "bob", .no, 2⟩]⟩ := rfl
  rw [hlisted, Except.ok.injEq, VoteListResponse.mk.injEq] at hok
  have hdistinct := hagree.distinct
  rw [← hok] at hdistinct
  exact absurd hdistinct (by decide)

end Example

end FixedMultisig
