import FixedMultisig.Chain.Ledger

/-!
# What a call leaves alone

A call that returns an error has not written at all, not even temporarily.  A
call that returns a response writes one proposal, the one it addresses, and at
most one ballot on it, the sender's.
-/

namespace FixedMultisig

open CheckedWord

variable {M : Type} {msg : InitMsg}

/-- The proposal that a message is about; a new proposal gets the next id,
which is unused. -/
def Addresses (store : Store M) : HandleMsg M → U64 → Prop
  | .propose .., id => ∃ count, store.proposalCount = some count ∧
      checkedAdd count 1 = some id ∧ store.proposals id = none
  | .vote target _, id => id = target
  | .execute target, id => id = target
  | .close target, id => id = target

/-- Between the two stores only this proposal and this sender's ballot on it
may differ.  A ballot that was there stays, and a proposal that was there
keeps everything but its status and its votes. -/
structure Framed (store : Store M) (sender : String) (id : U64)
    (store' : Store M) : Prop where
  config : store'.config = store.config
  votersList : store'.votersList = store.votersList
  voters : store'.voters = store.voters
  proposals : ∀ other, other ≠ id →
    store'.proposals other = store.proposals other
  ballots : ∀ other, other ≠ id → store'.ballots other = store.ballots other
  senders : ∀ addr, addr ≠ sender →
    store'.ballots id addr = store.ballots id addr
  kept : ∀ ballot, store.ballots id sender = some ballot →
    store'.ballots id sender = some ballot
  fixed : ∀ prop, store.proposals id = some prop → ∃ status votes,
    store'.proposals id = some { prop with status, votes }

/-- Writing back a proposal with another status stays in the frame. -/
theorem framed_putStatus {store : Store M} {id : U64} {prop : Proposal M}
    (hstored : store.proposals id = some prop) (sender : String)
    (status : Status) :
    Framed store sender id (store.putProposal id { prop with status }) where
  config := rfl
  votersList := rfl
  voters := rfl
  proposals other hne := store.putProposal_proposals_of_ne id _ hne
  ballots _ _ := rfl
  senders _ _ := rfl
  kept _ hballot := hballot
  fixed prop' hstored' := by
    obtain rfl := Option.some.inj (hstored.symm.trans hstored')
    exact ⟨status, prop.votes, Store.putProposal_proposals_self ..⟩

theorem framed_vote {store : Store M} {env : Env} {id power : U64}
    {vote : Vote} {prop prop' : Proposal M}
    (henabled : VoteEnabled store env id power prop)
    (hprop : prop.recordVote vote power env.block = some prop') :
    Framed store env.message.sender id ((store.putBallot id env.message.sender
      ⟨power, vote⟩).putProposal id prop') where
  config := rfl
  votersList := rfl
  voters := rfl
  proposals other hne := Store.putProposal_proposals_of_ne _ _ _ hne
  ballots other hne := Store.putBallot_ballots_of_ne _ _ _ _ hne
  senders addr hne := Store.putBallot_ballots_of_ne_addr _ _ _ _ hne
  kept ballot hballot := by
    rw [henabled.fresh] at hballot
    cases hballot
  fixed prop'' hstored := by
    obtain rfl := Option.some.inj (henabled.stored.symm.trans hstored)
    obtain ⟨votes, status, -, -, rfl⟩ :=
      Proposal.recordVote_eq_some_iff.1 hprop
    exact ⟨status, votes, Store.putProposal_proposals_self ..⟩

/-- A new proposal and its first ballot overwrite nothing. -/
theorem framed_propose {store : Store M} {addr : String} {count id : U64}
    (prop : Proposal M) (ballot : Ballot)
    (hunstored : store.proposals id = none)
    (hunballoted : store.ballots id addr = none) :
    Framed store addr id (((store.putCount count).putProposal id prop).putBallot
      id addr ballot) where
  config := rfl
  votersList := rfl
  voters := rfl
  proposals other hne := Store.putProposal_proposals_of_ne _ _ _ hne
  ballots other hne := Store.putBallot_ballots_of_ne _ _ _ _ hne
  senders other hne := Store.putBallot_ballots_of_ne_addr _ _ _ _ hne
  kept ballot' hballot := by
    rw [hunballoted] at hballot
    cases hballot
  fixed prop' hstored := by
    rw [hunstored] at hstored
    cases hstored

/-- An effect stays in the frame of the proposal that the message addresses. -/
theorem Effect.framed {totalWeight : U64} {store store' : Store M} {env : Env}
    {call : HandleMsg M} {response : HandleResponse M}
    (hledger : Ledger msg totalWeight store)
    (heffect : Effect store env call store' response) :
    ∃ id, Addresses store call id ∧
      Framed store env.message.sender id store' := by
  cases heffect with
  | @propose _ _ _ _ _ _ _ _ count id henabled hprop hcount hid =>
      have hunstored := hledger.fresh hcount hid
      exact ⟨id, ⟨count, hcount, hid, hunstored⟩, framed_propose _ _ hunstored
        (hledger.unstored id hunstored _)⟩
  | vote henabled hprop => exact ⟨_, rfl, framed_vote henabled hprop⟩
  | execute hstored hpassed => exact ⟨_, rfl, framed_putStatus hstored _ _⟩
  | close henabled => exact ⟨_, rfl, framed_putStatus henabled.stored _ _⟩

/-- The frame of every call in every reachable state. -/
theorem handle_framed {chain : Chain M}
    (hreachable : (multisig msg).Reachable chain) (env : Env)
    (call : HandleMsg M) :
    (∀ reason,
      ((handle env call).run chain.store).result = .error (.error reason) →
        ((handle env call).run chain.store).store = chain.store ∧
          ((handle env call).run chain.store).trace = []) ∧
    (∀ halt, ((handle env call).run chain.store).result = .error halt →
      (handle env call).commit chain.store = chain.store) ∧
    (∀ response, ((handle env call).run chain.store).result = .ok response →
      ∃ id, Addresses chain.store call id ∧ Framed chain.store
        env.message.sender id ((handle env call).run chain.store).store) := by
  obtain ⟨totalWeight, -, hledger⟩ := ledger_of_reachable hreachable
  refine ⟨fun reason herror => ?_, fun halt => Exec.commit_of_error,
    fun response hok => (effect_of_ok hok).framed hledger⟩
  rw [run_eq_of_error herror]
  exact ⟨rfl, rfl⟩

section Example

private def pair : InitMsg where
  voters := [⟨"alice", 1⟩, ⟨"bob", 1⟩]
  threshold := .absoluteCount 2
  maxVotingPeriod := .height 100

private theorem pair_accepted : pair.Accepted 2 where
  nonempty := by decide
  summed := by decide
  valid := Threshold.validate_eq_ok_iff.1 (by decide)

private def pairChain : Chain String :=
  (Chain.deployed ⟨⟨10, 54⟩, ⟨"carol"⟩⟩ pair).replay
    [⟨⟨⟨11, 60⟩, ⟨"alice"⟩⟩, .propose "title" "description" ["send"] none⟩]

/-- The proposer's second vote fails; the other voter's first one succeeds and
rejects the proposal. -/
theorem handle_framed_pair :
    (((handle ⟨⟨12, 66⟩, ⟨"alice"⟩⟩ (.vote 1 .no)).run pairChain.store).store =
        pairChain.store ∧
      ((handle ⟨⟨12, 66⟩, ⟨"alice"⟩⟩ (.vote 1 .no)).run
        pairChain.store).trace = []) ∧
    ∃ id, Addresses pairChain.store (.vote 1 .no) id ∧
      Framed pairChain.store "bob" id
        ((handle ⟨⟨12, 66⟩, ⟨"bob"⟩⟩ (.vote 1 .no)).run
          pairChain.store).store := by
  have hreachable : (multisig pair).Reachable pairChain := reachable_replay
    (.of_start (start_deployed _ pair_accepted)) (by decide)
  refine ⟨(handle_framed hreachable ⟨⟨12, 66⟩, ⟨"alice"⟩⟩ (.vote 1 .no)).1
    ContractError.alreadyVoted.toStdError (by rfl),
    (handle_framed hreachable ⟨⟨12, 66⟩, ⟨"bob"⟩⟩ (.vote 1 .no)).2.2
      ⟨[], [⟨"action", "vote"⟩, ⟨"sender", "bob"⟩, ⟨"proposal_id", "1"⟩,
        ⟨"status", "Rejected"⟩], none⟩ (by rfl)⟩

end Example

end FixedMultisig
