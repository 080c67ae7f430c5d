import FixedMultisig.Core.Footprint
import FixedMultisig.Guarantees.Anonymity
import FixedMultisig.Guarantees.Pagination

/-!
# What the queries tell

No query writes or traps, and it is known which queries fail: the lookup of a
proposal that does not exist, and the listings whose walk leaves the existing
ids.  What the queries do tell is enough to foretell the contract.  The tallies
are not shown, but they follow from the ballots; the heights at which proposals
were made are not shown, and are not used.  Only the maximal voting period
remains hidden.
-/

namespace FixedMultisig

open CheckedWord

variable {M : Type} {msg msg' : InitMsg}

/-! ## Which queries answer -/

section ReadOnly

open Exec

theorem readOnly_listProposalsFrom (limit i : U64)
    (listed : List (ProposalResponse M)) :
    ReadOnly (listProposalsFrom limit i listed) := by
  -- By induction on the number of rounds that are left.
  induction hrounds : limit.toNat + 1 - i.toNat generalizing i listed with
  | zero =>
      rw [listProposalsFrom_of_lt _ (BitVec.lt_def.2 (by omega))]
      exact .pure _
  | succ rounds ih =>
      rw [listProposalsFrom, dif_pos (BitVec.le_def.2 (by omega))]
      apply ReadOnly.bind (.loadKey _ _ _)
      intro prop
      split
      · exact .lift none
      · next next hnext =>
          have hone : (1 : U64).toNat = 1 := rfl
          have hsum := checkedAdd_eq_some_iff.1 hnext
          exact ih next _ (by omega)

theorem readOnly_reverseProposalsFrom (rounds : ℕ) (i : U64)
    (listed : List (ProposalResponse M)) :
    ReadOnly (reverseProposalsFrom rounds i listed) := by
  induction rounds generalizing i listed with
  | zero => exact .pure _
  | succ rounds ih =>
      rw [reverseProposalsFrom]
      apply ReadOnly.bind (.loadKey _ _ _)
      intro prop
      exact (ReadOnly.lift _).bind fun next => ih next _

theorem readOnly_listVotesFrom (id : U64) (list : List Voter)
    (votes : List VoteInfo) :
    ReadOnly (listVotesFrom id list votes : Contract M _) := by
  induction list generalizing votes with
  | nil => exact .pure _
  | cons voter list ih =>
      rw [listVotesFrom]
      apply ReadOnly.bind (.read _)
      intro ballot
      cases ballot with
      | none => exact ih votes
      | some ballot => exact ih _

/-- No query writes, whatever the store holds. -/
theorem readOnly_query (msg : QueryMsg) :
    ReadOnly (query msg : Contract M _) := by
  cases msg with
  | threshold =>
      apply ReadOnly.map
      exact (ReadOnly.load _ _).bind fun cfg => .pure _
  | proposal id =>
      apply ReadOnly.map
      exact (ReadOnly.loadKey _ _ _).bind fun prop => .pure _
  | vote id address =>
      apply ReadOnly.map
      exact (ReadOnly.read _).bind fun ballot => .pure _
  | listProposals startAfter limit =>
      apply ReadOnly.map
      apply (ReadOnly.load _ _).bind
      intro latestProp
      exact (readOnly_listProposalsFrom _ _ _).bind fun listed => .pure _
  | reverseProposals startBefore limit =>
      apply ReadOnly.map
      apply (ReadOnly.load _ _).bind
      intro latestProp
      apply (ReadOnly.lift _).bind
      intro rounds
      exact (readOnly_reverseProposalsFrom _ _ _).bind fun listed => .pure _
  | listVotes id startAfter limit =>
      apply ReadOnly.map
      apply (ReadOnly.load _ _).bind
      intro list
      exact (readOnly_listVotesFrom id list _).bind fun votes => .pure _
  | voter address =>
      apply ReadOnly.map
      exact (ReadOnly.read _).bind fun weight => .pure _
  | listVoters startAfter limit =>
      apply ReadOnly.map
      exact (ReadOnly.load _ _).bind fun list => .pure _

end ReadOnly

/-- The queries that fail when there are `count` proposals. -/
def QueryMsg.Fails (count : U64) : QueryMsg → Prop
  | .proposal id => ¬ (1 ≤ id ∧ id ≤ count)
  | .listProposals startAfter _ => startAfter = some 0
  | .reverseProposals startBefore limit =>
      (wordMin (startBefore.getD count) count).toNat <
        min (pageSize limit) count.toNat
  | _ => False

theorem one_le_getD {startAfter : Option U64} (hzero : startAfter ≠ some 0) :
    1 ≤ startAfter.getD 1 := by
  cases startAfter with
  | none => exact BitVec.le_refl 1
  | some cursor =>
      have hone : (1 : U64).toNat = 1 := rfl
      have hcursor : cursor.toNat ≠ 0 := fun hnat =>
        hzero (congrArg some (BitVec.eq_of_toNat_eq hnat))
      rw [Option.getD_some, BitVec.le_def]
      omega

section Answers

variable {totalWeight count : U64} {store : Store M}

theorem query_of_fails (hledger : Ledger msg totalWeight store)
    (hcount : store.proposalCount = some count) {asked : QueryMsg}
    (hfails : asked.Fails count) :
    ((query asked).run store).result = .error (.error .notFound) := by
  cases asked with
  | proposal id =>
      have hnone : store.proposals id = none := by
        rw [← Option.not_isSome_iff_eq_none, hledger.isSome_iff hcount]
        exact hfails
      have hload : ((queryProposal id).run store).result =
          .error (.error .notFound) := by
        rw [queryProposal, Bucket.run_load_bind_missing hnone]
      rw [query, Exec.result_map, hload]
      rfl
  | listProposals startAfter limit =>
      obtain rfl : startAfter = some 0 := hfails
      rw [query, Exec.result_map, listProposals_zero hledger hcount]
      rfl
  | reverseProposals startBefore limit =>
      rw [query, Exec.result_map,
        reverseProposals_missing hledger hcount hfails]
      rfl
  | threshold => exact hfails.elim
  | vote id address => exact hfails.elim
  | listVotes id startAfter limit => exact hfails.elim
  | voter address => exact hfails.elim
  | listVoters startAfter limit => exact hfails.elim

theorem query_of_not_fails (hledger : Ledger msg totalWeight store)
    (hcount : store.proposalCount = some count) {asked : QueryMsg}
    (hfails : ¬ asked.Fails count) :
    ∃ response, ((query asked).run store).result = .ok response := by
  cases asked with
  | threshold =>
      rw [query, Exec.result_map, queryThreshold,
        Singleton.run_load_bind hledger.config]
      exact ⟨_, rfl⟩
  | proposal id =>
      obtain ⟨prop, hstored⟩ := Option.isSome_iff_exists.1
        ((hledger.isSome_iff hcount id).2 (Decidable.of_not_not hfails))
      rw [query, Exec.result_map,
        queryProposal_ok_iff.2 ⟨prop, hstored, rfl⟩]
      exact ⟨_, rfl⟩
  | vote id address =>
      rw [query, Exec.result_map]
      exact ⟨_, rfl⟩
  | listProposals startAfter limit =>
      obtain ⟨listed, hok, -⟩ := listProposals_lists hledger hcount startAfter
        limit (one_le_getD hfails)
      rw [query, Exec.result_map, hok]
      exact ⟨_, rfl⟩
  | reverseProposals startBefore limit =>
      obtain ⟨listed, hok, -⟩ := reverseProposals_lists hledger hcount
        startBefore limit (Nat.not_lt.1 hfails)
      rw [query, Exec.result_map, hok]
      exact ⟨_, rfl⟩
  | listVotes id startAfter limit =>
      rw [query, Exec.result_map, run_listVotes hledger.votersList]
      exact ⟨_, rfl⟩
  | voter address =>
      rw [query, Exec.result_map]
      exact ⟨_, rfl⟩
  | listVoters startAfter limit =>
      rw [query, Exec.result_map, listVoters,
        Singleton.run_load_bind hledger.votersList]
      exact ⟨_, rfl⟩

end Answers

/-- In a reachable state every query leaves the store alone and either answers
or, exactly in the cases above, says that something was not found. -/
theorem query_ends {chain : Chain M} (hreachable : (multisig msg).Reachable chain)
    (asked : QueryMsg) :
    ∃ count result, chain.store.proposalCount = some count ∧
      (query asked).run chain.store = ⟨result, chain.store, []⟩ ∧
      (asked.Fails count → result = .error (.error .notFound)) ∧
      (¬ asked.Fails count → ∃ response, result = .ok response) := by
  obtain ⟨totalWeight, -, hledger⟩ := ledger_of_reachable hreachable
  obtain ⟨count, hcount, -⟩ := hledger.counted
  obtain ⟨result, hrun⟩ := readOnly_query asked chain.store
  refine ⟨count, result, hcount, hrun, fun hfails => ?_, fun hfails => ?_⟩
  · rw [← query_of_fails hledger hcount hfails, hrun]
  · obtain ⟨response, hok⟩ := query_of_not_fails hledger hcount hfails
    rw [hrun] at hok
    exact ⟨response, hok⟩

/-! ## What the answers reveal -/

/-- The two chains cannot be told apart by queries. -/
def SameAnswers (chain chain' : Chain M) : Prop :=
  ∀ asked : QueryMsg, ((query asked).run chain'.store).result =
    ((query asked).run chain.store).result

section Reveal

theorem Threshold.toResponse_inj {threshold threshold' : Threshold}
    {totalWeight totalWeight' : U64}
    (heq : threshold.toResponse totalWeight =
      threshold'.toResponse totalWeight') :
    threshold = threshold' ∧ totalWeight = totalWeight' := by
  cases threshold <;> cases threshold' <;> cases heq <;> exact ⟨rfl, rfl⟩

theorem Votes.eq_of_tally {votes votes' : Votes}
    (htally : votes.tally = votes'.tally) : votes = votes' := by
  have hfield : ∀ vote, votes.tally vote = votes'.tally vote :=
    fun vote => congrFun htally vote
  have hyes := BitVec.eq_of_toNat_eq (hfield .yes)
  have hno := BitVec.eq_of_toNat_eq (hfield .no)
  have habstain := BitVec.eq_of_toNat_eq (hfield .abstain)
  have hveto := BitVec.eq_of_toNat_eq (hfield .veto)
  cases votes
  cases votes'
  simp_all

/-- Proposals with one response and one tally differ in their heights only. -/
theorem alike_of_toResponse_eq {prop prop' : Proposal M} {id : U64}
    (heq : prop'.toResponse id = prop.toResponse id)
    (htally : prop'.votes.tally = prop.votes.tally) : Alike prop prop' := by
  have hvotes := Votes.eq_of_tally htally
  simp only [Proposal.toResponse, ProposalResponse.mk.injEq] at heq
  obtain ⟨-, htitle, hdescription, hmsgs, hstatus, hexpires, hresponse⟩ := heq
  obtain ⟨hthreshold, htotal⟩ := Threshold.toResponse_inj hresponse
  refine ⟨prop'.startHeight, ?_⟩
  cases prop
  cases prop'
  simp_all

variable {totalWeight totalWeight' : U64} {store store' : Store M}

theorem result_threshold (hledger : Ledger msg totalWeight store) :
    ((query .threshold).run store).result =
      .ok (.threshold (msg.threshold.toResponse totalWeight)) := by
  rw [query, Exec.result_map, queryThreshold,
    Singleton.run_load_bind hledger.config]
  rfl

theorem result_listVoters (hledger : Ledger msg totalWeight store) :
    ((query (.listVoters none none)).run store).result =
      .ok (.voters ⟨msg.voters⟩) := by
  rw [query, Exec.result_map, listVoters,
    Singleton.run_load_bind hledger.votersList]
  rfl

theorem result_proposal (store : Store M) (id : U64) :
    ((query (.proposal id)).run store).result =
      match store.proposals id with
      | some prop => .ok (.proposal (prop.toResponse id))
      | none => .error (.error .notFound) := by
  rw [query, Exec.result_map, queryProposal]
  cases hstored : store.proposals id with
  | none =>
      rw [Bucket.run_load_bind_missing hstored]
      rfl
  | some prop =>
      rw [Bucket.run_load_bind hstored]
      rfl

theorem result_vote (store : Store M) (id : U64) (addr : String) :
    ((query (.vote id addr)).run store).result =
      .ok (.vote ⟨(store.ballots id addr).map fun ballot =>
        ⟨id, addr, ballot.vote, ballot.weight⟩⟩) := by
  rw [query, Exec.result_map]
  rfl

theorem isSome_eq_of_rel {A B : Type} {values : A → B → Prop}
    {value : Option A} {value' : Option B}
    (hrel : Option.Rel values value value') : value'.isSome = value.isSome := by
  cases hrel with
  | none => rfl
  | some hvalues => rfl

/-- The counter follows from the ids in use. -/
theorem count_le {count count' : U64}
    (hids : ∀ id, 1 ≤ id ∧ id ≤ count → 1 ≤ id ∧ id ≤ count') :
    count ≤ count' := by
  by_cases hone : 1 ≤ count
  · exact (hids count ⟨hone, BitVec.le_refl count⟩).2
  · have hzero : (1 : U64).toNat = 1 := rfl
    rw [BitVec.le_def] at hone ⊢
    omega

/-- Chains of one maximal voting period that answer alike store alike. -/
theorem similar_of_answers (hledger : Ledger msg totalWeight store)
    (hledger' : Ledger msg' totalWeight' store')
    (hperiod : msg'.maxVotingPeriod = msg.maxVotingPeriod)
    (hsame : ∀ asked : QueryMsg, ((query asked).run store').result =
      ((query asked).run store).result) : Similar id store store' := by
  have hthreshold := hsame .threshold
  rw [result_threshold hledger, result_threshold hledger', Except.ok.injEq,
    QueryResponse.threshold.injEq] at hthreshold
  obtain ⟨hthreshold, htotal⟩ := Threshold.toResponse_inj hthreshold
  have hvoters := hsame (.listVoters none none)
  rw [result_listVoters hledger, result_listVoters hledger', Except.ok.injEq,
    QueryResponse.voters.injEq, VoterListResponse.mk.injEq] at hvoters
  have hballots : ∀ id addr, store'.ballots id addr = store.ballots id addr := by
    intro id addr
    have hvote := hsame (.vote id addr)
    rw [result_vote, result_vote, Except.ok.injEq, QueryResponse.vote.injEq,
      VoteResponse.mk.injEq] at hvote
    refine Option.map_injective (fun ballot ballot' hinfo => ?_) hvote
    cases ballot
    cases ballot'
    simp_all
  have hproposals : ∀ id, Option.Rel Alike (store.proposals id)
      (store'.proposals id) := by
    intro id
    have hproposal := hsame (.proposal id)
    rw [result_proposal, result_proposal] at hproposal
    cases hstored : store.proposals id with
    | none =>
        cases hstored' : store'.proposals id with
        | none => exact .none
        | some prop' =>
            rw [hstored, hstored'] at hproposal
            cases hproposal
    | some prop =>
        cases hstored' : store'.proposals id with
        | none =>
            rw [hstored, hstored'] at hproposal
            cases hproposal
        | some prop' =>
            rw [hstored, hstored'] at hproposal
            obtain ⟨poll, hrecords⟩ := hledger.recorded id prop hstored
            obtain ⟨poll', hrecords'⟩ := hledger'.recorded id prop' hstored'
            have helectorate : msg'.electorate = msg.electorate := by
              rw [InitMsg.electorate, InitMsg.electorate, hvoters]
            have hcast : poll'.cast = poll.cast := by
              funext addr
              rw [← hrecords.cast, ← hrecords'.cast, hballots]
            refine .some (alike_of_toResponse_eq
              (QueryResponse.proposal.inj (Except.ok.inj hproposal)) ?_)
            rw [hrecords.tally, hrecords'.tally,
              Poll.tally_congr helectorate hcast]
  obtain ⟨count, hcount, hids⟩ := hledger.counted
  obtain ⟨count', hcount', hids'⟩ := hledger'.counted
  have hstored : ∀ id, (store'.proposals id).isSome =
      (store.proposals id).isSome :=
    fun id => isSome_eq_of_rel (hproposals id)
  exact
    { config := by
        rw [hledger.config, hledger'.config, InitMsg.config, InitMsg.config,
          hthreshold, htotal, hperiod]
      count := by
        rw [hcount, hcount']
        congr 1
        apply BitVec.le_antisymm
        · exact count_le fun id hid => (hids id).1 (hstored id ▸ (hids' id).2 hid)
        · exact count_le fun id hid => (hids' id).1 (hstored id ▸ (hids id).2 hid)
      list := by
        rw [hledger.votersList, hledger'.votersList, hvoters]
        exact congrArg some (List.map_id _).symm
      voters := fun addr => by
        rw [hledger.voters, hledger'.voters, InitMsg.registry,
          InitMsg.registry, hvoters]
        rfl
      proposals := hproposals
      ballots := hballots }

end Reveal

/-! ## Keeping the names -/

theorem Call.rename_id (call : Call M) : call.rename id = call := rfl

theorem HandleResponse.rename_id (response : HandleResponse M) :
    response.rename id = response := by
  have hentry : LogAttribute.rename id = id := by
    funext entry
    rw [LogAttribute.rename]
    split <;> rfl
  rw [HandleResponse.rename, hentry, List.map_id]

theorem QueryMsg.rename_id (asked : QueryMsg) : asked.rename id = asked := by
  cases asked <;> simp [QueryMsg.rename]

theorem QueryResponse.rename_id (response : QueryResponse M) :
    response.rename id = response := by
  have hinfo : VoteInfo.rename id = id := rfl
  have hvoter : Voter.rename id = id := rfl
  rw [QueryResponse.rename.eq_def]
  split <;> simp [hinfo, hvoter]

theorem Except.map_eq_self {E A : Type} {f : A → A} (hf : ∀ value, f value = value)
    (result : Except E A) : result.map f = result := by
  cases result with
  | error reason => rfl
  | ok value => exact congrArg Except.ok (hf value)

/-- Mirrored without other names, a run goes the same way. -/
theorem Mirrors.same {chain chain' : Chain M} {calls : List (Call M)}
    (hmirrors : Mirrors id chain chain' calls) :
    (chain'.moves calls).map Transition.result =
        (chain.moves calls).map Transition.result ∧
      SameAnswers (chain.replay calls) (chain'.replay calls) := by
  have hcalls : calls.map (Call.rename id) = calls := List.map_id _
  obtain ⟨hresponses, hanswers⟩ := hmirrors
  rw [hcalls] at hresponses hanswers
  refine ⟨hresponses.trans (List.map_congr_left fun move _ =>
    Except.map_eq_self HandleResponse.rename_id _), fun asked => ?_⟩
  have hanswer := hanswers asked
  rwa [QueryMsg.rename_id, Except.map_eq_self QueryResponse.rename_id] at hanswer

/-- Whoever knows the maximal voting period and all answers can foretell every
response and every later answer: two contracts that agree so far agree for
ever. -/
theorem answers_foretell {chain chain' : Chain M}
    (hreachable : (multisig msg).Reachable chain)
    (hreachable' : (multisig msg').Reachable chain')
    (hperiod : msg'.maxVotingPeriod = msg.maxVotingPeriod)
    (hsame : SameAnswers chain chain') (calls : List (Call M)) :
    (chain'.moves calls).map Transition.result =
        (chain.moves calls).map Transition.result ∧
      SameAnswers (chain.replay calls) (chain'.replay calls) := by
  obtain ⟨totalWeight, -, hledger⟩ := ledger_of_reachable hreachable
  obtain ⟨totalWeight', -, hledger'⟩ := ledger_of_reachable hreachable'
  have hsimilar := similar_of_answers hledger hledger' hperiod hsame
  exact (hsimilar.mirrors Function.injective_id calls).same

section Example

private def bulletin : InitMsg where
  voters := [⟨"alice", 2⟩, ⟨"bob", 1⟩]
  threshold := .absoluteCount 2
  maxVotingPeriod := .time 30

private theorem bulletin_accepted : bulletin.Accepted 3 where
  nonempty := by decide
  summed := by decide
  valid := Threshold.validate_eq_ok_iff.1 (by decide)

/-- Only the time counts for the deadline; the height is free. -/
private def bulletinChain (height : U64) : Chain String :=
  (Chain.deployed ⟨⟨10, 54⟩, ⟨"carol"⟩⟩ bulletin).replay
    [⟨⟨⟨height, 60⟩, ⟨"bob"⟩⟩, .propose "title" "description" ["send"] none⟩]

private theorem bulletinChain_reachable {height : U64} (hheight : 10 ≤ height) :
    (multisig bulletin).Reachable (bulletinChain height) :=
  reachable_replay (.of_start (start_deployed _ bulletin_accepted))
    ⟨⟨hheight, show (54 : U64) ≤ 60 by decide⟩, trivial⟩

private def bulletinProposal (startHeight : U64) : Proposal String where
  title := "title"
  description := "description"
  startHeight
  expires := .atTime 90
  msgs := ["send"]
  status := Status.open
  threshold := .absoluteCount 2
  totalWeight := 3
  votes := ⟨1, 0, 0, 0⟩

private theorem bulletinChain_store (height : U64) :
    (bulletinChain height).store =
      (((bulletin.initialStore 3).putCount 1).putProposal 1
        (bulletinProposal height)).putBallot 1 "bob" ⟨1, .yes⟩ := by
  rw [bulletinChain, Chain.replay, List.foldl_cons, List.foldl_nil,
    Chain.submit, deployed_store _ bulletin_accepted]
  rfl

/-- Proposed at two heights. -/
theorem answers_foretell_bulletin :
    (bulletinChain 11).store.proposals 1 = some (bulletinProposal 11) ∧
      (bulletinChain 12).store.proposals 1 = some (bulletinProposal 12) ∧
      SameAnswers
        ((bulletinChain 11).replay [⟨⟨⟨13, 70⟩, ⟨"alice"⟩⟩, .vote 1 .yes⟩])
        ((bulletinChain 12).replay [⟨⟨⟨13, 70⟩, ⟨"alice"⟩⟩, .vote 1 .yes⟩]) := by
  have hsimilar : Similar id (bulletinChain 11).store
      (bulletinChain 12).store := by
    rw [bulletinChain_store, bulletinChain_store]
    exact ((Similar.refl _).putProposal 1 ⟨12, rfl⟩).putBallot
      Function.injective_id 1 "bob" ⟨1, .yes⟩
  refine ⟨rfl, rfl, ?_⟩
  exact (answers_foretell (bulletinChain_reachable (by decide))
    (bulletinChain_reachable (by decide)) rfl
    (hsimilar.mirrors Function.injective_id []).same.2 _).2

/-- Nothing lies below the first proposal, and ten are asked for. -/
theorem query_ends_bulletin :
    (query (.reverseProposals (some 0) none)).run (bulletinChain 11).store =
      ⟨.error (.error .notFound), (bulletinChain 11).store, []⟩ := by
  obtain ⟨count, result, hcount, hrun, hfails, -⟩ := query_ends
    (bulletinChain_reachable (show (10 : U64) ≤ 11 by decide))
    (.reverseProposals (some 0) none)
  obtain rfl : (1 : U64) = count := Option.some.inj hcount
  rw [hrun, hfails (by change _ < _; decide)]

end Example

end FixedMultisig
