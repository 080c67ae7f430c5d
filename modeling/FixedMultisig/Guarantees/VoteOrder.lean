import FixedMultisig.Guarantees.Agreement

/-!
# The order of votes

Voting stops at the first vote that decides a proposal, so the order of the
votes determines which of them are counted.  It does not determine the outcome:
a sequence of submissions is a tally that stops at a verdict, and the verdict
on an open proposal survives every further vote.
-/

namespace FixedMultisig

open CheckedWord Decision SettledTally

variable {M : Type} {msg : InitMsg}

/-- A vote to be submitted, with its sender and its block. -/
structure Submission where
  env : Env
  vote : Vote

def Submission.sender (submission : Submission) : String :=
  submission.env.message.sender

/-- What a chain keeps after one submission; a refused vote changes nothing. -/
def submitVote (id : U64) (store : Store M) (submission : Submission) :
    Store M :=
  (executeVote submission.env id submission.vote).commit store

def submitVotes (id : U64) (store : Store M) (submissions : List Submission) :
    Store M :=
  submissions.foldl (submitVote id) store

/-- No submission of the sequence traps. -/
def NoAbort (id : U64) : Store M → List Submission → Prop
  | _, [] => True
  | store, submission :: submissions =>
      ((executeVote submission.env id submission.vote).run store).result ≠
          .error .abort ∧
        NoAbort id (submitVote id store submission) submissions

/-- What a submission adds to the tally if it is counted. -/
def Submission.contribution (msg : InitMsg) (submission : Submission) :
    Vote → ℕ :=
  Pi.single submission.vote (msg.electorate.weight submission.sender)

theorem sum_contributions (msg : InitMsg) (submissions : List Submission) :
    ∑ vote, (submissions.map (Submission.contribution msg)).sum vote =
      ((submissions.map Submission.sender).map msg.electorate.weight).sum := by
  induction submissions with
  | nil => simp
  | cons submission submissions ih =>
      simp only [List.map_cons, List.sum_cons, Pi.add_apply,
        Finset.sum_add_distrib, ih, Submission.contribution, sum_single]

/-- Once a proposal is not open, submissions leave it as it is. -/
theorem submitVotes_of_not_open {id : U64} {prop : Proposal M}
    (hdecided : prop.status ≠ Status.open) (submissions : List Submission)
    {store : Store M} (hstored : store.proposals id = some prop) :
    (submitVotes id store submissions).proposals id = some prop := by
  induction submissions generalizing store with
  | nil => exact hstored
  | cons submission submissions ih =>
      apply ih
      have hdisabled : ∀ power prop',
          ¬ VoteEnabled store submission.env id power prop' := by
        intro power prop' henabled
        obtain rfl := Option.some.inj (hstored.symm.trans henabled.stored)
        exact hdecided henabled.isOpen
      obtain ⟨reason, hrefused⟩ :=
        executeVote_of_not_enabled submission.vote hdisabled
      rw [submitVote, Exec.commit_of_error (by rw [hrefused]), hstored]

/-- Distinct registered voters with a positive weight who have not voted on a
proposal, each in a block before its deadline. -/
structure Eligible (store : Store M) (id : U64) (prop : Proposal M)
    (submissions : List Submission) : Prop where
  distinct : (submissions.map Submission.sender).Nodup
  registered : ∀ submission ∈ submissions, ∃ power,
    store.voters submission.sender = some power ∧ 1 ≤ power
  fresh : ∀ submission ∈ submissions,
    store.ballots id submission.sender = none
  unexpired : ∀ submission ∈ submissions,
    prop.expires.isExpired submission.env.block = false

/-- Eligible submissions to a stored proposal that has room for them. -/
structure Admissible (msg : InitMsg) (store : Store M) (id : U64)
    (prop : Proposal M) (submissions : List Submission) : Prop
    extends Eligible store id prop submissions where
  voters : store.voters = msg.registry
  stored : store.proposals id = some prop
  valid : prop.threshold.Valid prop.totalWeight.toNat
  room : ∑ vote, prop.votes.tally vote +
    ((submissions.map Submission.sender).map msg.electorate.weight).sum ≤
      prop.totalWeight.toNat

section Sequence

variable {store : Store M} {id : U64} {prop : Proposal M}

theorem Admissible.enabled {submission : Submission}
    {submissions : List Submission}
    (hadmissible :
      Admissible msg store id prop (submission :: submissions))
    (hopen : prop.status = Status.open) :
    ∃ power, VoteEnabled store submission.env id power prop ∧
      msg.electorate.weight submission.sender = power.toNat := by
  obtain ⟨power, hregistered, hpowerful⟩ :=
    hadmissible.registered submission List.mem_cons_self
  exact ⟨power, ⟨hregistered, hpowerful, hadmissible.stored, hopen,
    hadmissible.unexpired submission List.mem_cons_self,
    hadmissible.fresh submission List.mem_cons_self⟩,
    InitMsg.electorate_weight (hadmissible.voters ▸ hregistered)⟩

/-- A submission that passes its guards and does not trap is counted. -/
theorem submitVote_of_enabled {submission : Submission} {power : U64}
    (henabled : VoteEnabled store submission.env id power prop)
    (hnoabort : ((executeVote submission.env id submission.vote).run
      store).result ≠ .error .abort) :
    ∃ prop',
      prop.recordVote submission.vote power submission.env.block = some prop' ∧
      submitVote id store submission = (store.putBallot id submission.sender
        ⟨power, submission.vote⟩).putProposal id prop' := by
  have hrun := executeVote_of_enabled submission.vote henabled
  cases hprop : prop.recordVote submission.vote power submission.env.block with
  | none =>
      rw [hprop] at hrun
      rw [hrun] at hnoabort
      exact absurd rfl hnoabort
  | some prop' =>
      rw [hprop] at hrun
      refine ⟨prop', rfl, ?_⟩
      rw [submitVote, Exec.commit_of_ok (by rw [hrun]), hrun]
      rfl

/-- After a submission the others are still eligible. -/
theorem Eligible.next {submission : Submission} {submissions : List Submission}
    (heligible : Eligible store id prop (submission :: submissions))
    (ballot : Ballot) {prop' : Proposal M}
    (hexpires : prop'.expires = prop.expires) :
    Eligible ((store.putBallot id submission.sender ballot).putProposal id
      prop') id prop' submissions := by
  obtain ⟨hfirst, hdistinct⟩ := List.nodup_cons.1 heligible.distinct
  refine ⟨hdistinct, ?_, ?_, ?_⟩
  · intro other hother
    exact heligible.registered other (List.mem_cons_of_mem _ hother)
  · intro other hother
    have hne : other.sender ≠ submission.sender := fun heq =>
      hfirst (heq ▸ List.mem_map_of_mem hother)
    rw [Store.putProposal_ballots,
      Store.putBallot_ballots_of_ne_addr _ _ _ _ hne]
    exact heligible.fresh other (List.mem_cons_of_mem _ hother)
  · intro other hother
    rw [hexpires]
    exact heligible.unexpired other (List.mem_cons_of_mem _ hother)

/-- One counted submission adds its contribution and updates the status to the
verdict; the rest of the sequence is still admissible. -/
theorem Admissible.step {submission : Submission}
    {submissions : List Submission}
    (hadmissible :
      Admissible msg store id prop (submission :: submissions))
    (hopen : prop.status = Status.open)
    (hnoabort : ((executeVote submission.env id submission.vote).run
      store).result ≠ .error .abort) :
    ∃ prop', Admissible msg (submitVote id store submission) id prop'
        submissions ∧
      prop'.threshold = prop.threshold ∧
      prop'.totalWeight = prop.totalWeight ∧
      prop'.votes.tally = prop.votes.tally + submission.contribution msg ∧
      prop'.status = (verdict prop'.threshold prop'.totalWeight.toNat
        prop'.votes.tally).getD Status.open := by
  obtain ⟨power, henabled, hweight⟩ := hadmissible.enabled hopen
  obtain ⟨prop', hprop, hsubmit⟩ := submitVote_of_enabled henabled hnoabort
  obtain ⟨votes, hvotes, hupdate⟩ := Proposal.recordVote_eq_some hprop
  have htally : votes.tally =
      prop.votes.tally + submission.contribution msg := by
    rw [Votes.tally_addVote hvotes, Submission.contribution, hweight]
  have hroom : ∑ vote, votes.tally vote +
      ((submissions.map Submission.sender).map
        msg.electorate.weight).sum ≤ prop.totalWeight.toNat := by
    have hbefore := hadmissible.room
    rw [List.map_cons, List.map_cons, List.sum_cons] at hbefore
    simp only [htally, Pi.add_apply, Finset.sum_add_distrib,
      Submission.contribution, sum_single]
    omega
  have hopen' : Proposal.status { prop with votes } = Status.open := hopen
  have hstatus := updateStatus_status_eq hupdate hopen' hadmissible.valid
    ((Nat.le_add_right _ _).trans hroom) henabled.unexpired
  obtain ⟨status, -, rfl⟩ := Proposal.updateStatus_eq_some_iff.1 hupdate
  rw [hsubmit]
  exact ⟨{ prop with votes, status },
    ⟨hadmissible.toEligible.next _ rfl, hadmissible.voters,
      Store.putProposal_proposals_self .., hadmissible.valid, hroom⟩,
    rfl, rfl, htally, hstatus⟩

/-- A sequence of submissions is a tally that stops at a verdict. -/
theorem submitVotes_status {submissions : List Submission}
    (hadmissible : Admissible msg store id prop submissions)
    (hstatus : prop.status = (verdict prop.threshold prop.totalWeight.toNat
      prop.votes.tally).getD Status.open)
    (hnoabort : NoAbort id store submissions) :
    ((submitVotes id store submissions).proposals id).map Proposal.status =
      some ((settle (verdict prop.threshold prop.totalWeight.toNat)
        prop.votes.tally
        (submissions.map (Submission.contribution msg))).getD Status.open) := by
  induction submissions generalizing store prop with
  | nil =>
      rw [submitVotes, List.foldl_nil, hadmissible.stored, Option.map_some,
        hstatus]
      rfl
  | cons submission submissions ih =>
      -- With a verdict the handler refuses the rest and the tally skips it.
      cases hverdict : verdict prop.threshold prop.totalWeight.toNat
          prop.votes.tally with
      | some decision =>
          rw [hverdict, Option.getD_some] at hstatus
          have hdecided : prop.status ≠ Status.open := fun hopen =>
            verdict_ne_open _ (hopen ▸ hstatus ▸ hverdict)
          rw [submitVotes_of_not_open hdecided _ hadmissible.stored,
            settle_of_verdict hverdict, Option.map_some, hstatus,
            Option.getD_some]
      | none =>
          rw [hverdict, Option.getD_none] at hstatus
          obtain ⟨prop', hadmissible', hthreshold, htotal, htally, hstatus'⟩ :=
            hadmissible.step hstatus hnoabort.1
          have hrest := ih hadmissible' hstatus' hnoabort.2
          rw [hthreshold, htotal, htally] at hrest
          rw [List.map_cons, settle, hverdict]
          exact hrest

/-- What is submitted fits under the total weight. -/
theorem Admissible.sum_le {submissions : List Submission}
    (hadmissible : Admissible msg store id prop submissions) :
    ∑ vote, (prop.votes.tally + (submissions.map
      (Submission.contribution msg)).sum) vote ≤ prop.totalWeight.toNat := by
  simp only [Pi.add_apply, Finset.sum_add_distrib, sum_contributions]
  exact hadmissible.room

/-- The status after all submissions is the verdict on everything submitted,
counted or not. -/
theorem submitVotes_status_eq_verdict {submissions : List Submission}
    (hadmissible : Admissible msg store id prop submissions)
    (hstatus : prop.status = (verdict prop.threshold prop.totalWeight.toNat
      prop.votes.tally).getD Status.open)
    (hnoabort : NoAbort id store submissions) :
    ((submitVotes id store submissions).proposals id).map Proposal.status =
      some ((verdict prop.threshold prop.totalWeight.toNat
        (prop.votes.tally + (submissions.map
          (Submission.contribution msg)).sum)).getD Status.open) := by
  rw [submitVotes_status hadmissible hstatus hnoabort,
    settle_eq_verdict (verdict_persistent hadmissible.valid)
      hadmissible.sum_le]

end Sequence

section Order

variable {chain : Chain M} {id : U64} {prop : Proposal M}

/-- Eligible submissions are admissible to a ledger. -/
theorem Eligible.admissible {totalWeight : U64} {store : Store M}
    {submissions : List Submission}
    (heligible : Eligible store id prop submissions)
    (haccepted : msg.Accepted totalWeight)
    (hledger : Ledger msg totalWeight store)
    (hstored : store.proposals id = some prop) :
    Admissible msg store id prop submissions := by
  refine ⟨heligible, hledger.voters, hstored,
    (hledger.sound_of_stored haccepted hstored).1,
    (hledger.cast_add_le haccepted hstored heligible.distinct ?_ ?_).trans
      (hledger.electorate_total_le haccepted hstored)⟩
  · intro addr haddr
    obtain ⟨submission, hmem, rfl⟩ := List.mem_map.1 haddr
    obtain ⟨power, hregistered, -⟩ := heligible.registered submission hmem
    exact ⟨power, hregistered⟩
  · intro addr haddr
    obtain ⟨submission, hmem, rfl⟩ := List.mem_map.1 haddr
    exact heligible.fresh submission hmem

/-- A proposal that is stored as open has no verdict yet. -/
theorem verdict_of_open (hreachable : (multisig msg).Reachable chain)
    (hstored : chain.store.proposals id = some prop)
    (hopen : prop.status = Status.open) :
    verdict prop.threshold prop.totalWeight.toNat prop.votes.tally = none := by
  obtain ⟨hvalid, htotal⟩ := sound_of_reachable hreachable hstored
  obtain ⟨earlier, -, hunexpired, hpassed, hrejected⟩ :=
    (justified_of_reachable hreachable hstored).undecided hopen
  rw [isPassed_eq_some_iff hvalid htotal, hunexpired] at hpassed
  rw [isRejected_eq_some_iff hvalid htotal, hunexpired] at hrejected
  rw [verdict, if_neg (by simpa using hpassed.2),
    if_neg (by simpa using hrejected.2)]

/-- The same votes of the same voters, submitted in two orders and in any
blocks before the deadline, leave a proposal with the same status. -/
theorem submitVotes_order_independent
    (hreachable : (multisig msg).Reachable chain)
    (hstored : chain.store.proposals id = some prop)
    (hopen : prop.status = Status.open)
    {submissions submissions' : List Submission}
    (hsame : (submissions.map fun submission =>
        (submission.sender, submission.vote)).Perm
      (submissions'.map fun submission =>
        (submission.sender, submission.vote)))
    (heligible : Eligible chain.store id prop submissions)
    (heligible' : Eligible chain.store id prop submissions')
    (hnoabort : NoAbort id chain.store submissions)
    (hnoabort' : NoAbort id chain.store submissions') :
    ∃ status,
      ((submitVotes id chain.store submissions).proposals id).map
        Proposal.status = some status ∧
      ((submitVotes id chain.store submissions').proposals id).map
        Proposal.status = some status := by
  have hstatus : prop.status = (verdict prop.threshold
      prop.totalWeight.toNat prop.votes.tally).getD Status.open := by
    rw [verdict_of_open hreachable hstored hopen, hopen, Option.getD_none]
  have hcontributions : ∀ list : List Submission,
      list.map (Submission.contribution msg) =
        (list.map fun submission => (submission.sender, submission.vote)).map
          fun pair => Pi.single pair.2 (msg.electorate.weight pair.1) := by
    intro list
    rw [List.map_map]
    rfl
  have hperm : (submissions.map (Submission.contribution msg)).Perm
      (submissions'.map (Submission.contribution msg)) := by
    rw [hcontributions, hcontributions]
    exact hsame.map _
  obtain ⟨totalWeight, haccepted, hledger⟩ := ledger_of_reachable hreachable
  have hadmissible := heligible.admissible haccepted hledger hstored
  have hadmissible' := heligible'.admissible haccepted hledger hstored
  refine ⟨_, submitVotes_status hadmissible hstatus hnoabort, ?_⟩
  rw [submitVotes_status hadmissible' hstatus hnoabort',
    settle_perm (verdict_persistent hadmissible.valid) hperm
      hadmissible.sum_le]

end Order

section Example

/-- Three of five is an absolute count. -/
private def quintet : InitMsg where
  voters := [⟨"alice", 1⟩, ⟨"bob", 2⟩, ⟨"carol", 2⟩]
  threshold := .absoluteCount 3
  maxVotingPeriod := .height 10

private theorem quintet_accepted : quintet.Accepted 5 where
  nonempty := by decide
  summed := by decide
  valid := Threshold.validate_eq_ok_iff.1 (by decide)

private def quintetChain : Chain String :=
  (Chain.deployed ⟨⟨10, 54⟩, ⟨"carol"⟩⟩ quintet).replay
    [⟨⟨⟨11, 60⟩, ⟨"alice"⟩⟩, .propose "title" "description" ["send"] none⟩]

private theorem quintetChain_reachable :
    (multisig quintet).Reachable quintetChain :=
  reachable_replay (.of_start (start_deployed _ quintet_accepted)) (by decide)

private def quintetProposal : Proposal String where
  title := "title"
  description := "description"
  startHeight := 11
  expires := .atHeight 21
  msgs := ["send"]
  status := Status.open
  threshold := .absoluteCount 3
  totalWeight := 5
  votes := ⟨1, 0, 0, 0⟩

private def quintetYes (height : U64) : Submission :=
  ⟨⟨⟨height, 66⟩, ⟨"bob"⟩⟩, .yes⟩

private def quintetNo (height : U64) : Submission :=
  ⟨⟨⟨height, 66⟩, ⟨"carol"⟩⟩, .no⟩

private theorem quintet_stored :
    quintetChain.store.proposals 1 = some quintetProposal := rfl

private theorem quintet_eligible {first second : Submission}
    (hdistinct : [first.sender, second.sender].Nodup)
    (hregistered : quintetChain.store.voters first.sender = some 2 ∧
      quintetChain.store.voters second.sender = some 2)
    (hfresh : quintetChain.store.ballots 1 first.sender = none ∧
      quintetChain.store.ballots 1 second.sender = none)
    (hunexpired : quintetProposal.expires.isExpired first.env.block = false ∧
      quintetProposal.expires.isExpired second.env.block = false) :
    Eligible quintetChain.store 1 quintetProposal [first, second] where
  distinct := hdistinct
  registered := by
    rw [List.forall_mem_cons, List.forall_mem_singleton]
    exact ⟨⟨2, hregistered.1, by decide⟩, ⟨2, hregistered.2, by decide⟩⟩
  fresh := by
    rwa [List.forall_mem_cons, List.forall_mem_singleton]
  unexpired := by
    rwa [List.forall_mem_cons, List.forall_mem_singleton]

/-- Bob's yes passes the proposal, so Carol's no is counted only if it comes
first; the proposal passes either way. -/
theorem submitVotes_order_independent_quintet :
    ((submitVotes 1 quintetChain.store [quintetYes 12, quintetNo 13]).proposals
        1).map Proposal.status = some Status.passed ∧
      ((submitVotes 1 quintetChain.store [quintetNo 12, quintetYes 13]).proposals
        1).map Proposal.status = some Status.passed ∧
      (submitVotes 1 quintetChain.store [quintetYes 12, quintetNo 13]).ballots
        1 "carol" = none ∧
      (submitVotes 1 quintetChain.store [quintetNo 12, quintetYes 13]).ballots
        1 "carol" = some ⟨2, .no⟩ := by
  have hpassed : ((submitVotes 1 quintetChain.store
      [quintetYes 12, quintetNo 13]).proposals 1).map Proposal.status =
        some Status.passed := rfl
  have heligible : Eligible quintetChain.store 1 quintetProposal
      [quintetYes 12, quintetNo 13] :=
    quintet_eligible (by decide) ⟨rfl, rfl⟩ ⟨rfl, rfl⟩ ⟨rfl, rfl⟩
  have heligible' : Eligible quintetChain.store 1 quintetProposal
      [quintetNo 12, quintetYes 13] :=
    quintet_eligible (by decide) ⟨rfl, rfl⟩ ⟨rfl, rfl⟩ ⟨rfl, rfl⟩
  have hsame := List.Perm.swap ("carol", Vote.no) ("bob", Vote.yes) []
  obtain ⟨status, hfirst, hsecond⟩ :=
    submitVotes_order_independent quintetChain_reachable quintet_stored rfl
      (by exact hsame) heligible heligible' ⟨nofun, nofun, trivial⟩
      ⟨nofun, nofun, trivial⟩
  exact ⟨hpassed, hsecond.trans (hfirst.symm.trans hpassed), rfl, rfl⟩

end Example

end FixedMultisig
