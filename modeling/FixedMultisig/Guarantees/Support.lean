import FixedMultisig.Guarantees.VoteOrder

/-!
# Support never hurts

A voter who turns a vote into a yes, or who joins in with a yes, never spoils a
proposal that would have passed and never gets one rejected that would not have
been.  This needs care, since an abstention lowers the weight that the yes
votes are measured against: giving it up for a yes raises the bar, but by no
more than the weight that it adds.  Of the other options nothing like it holds:
with a quorum, a vote against a proposal can be what makes it pass.
-/

namespace FixedMultisig

open Decision NestedRounding

variable {M : Type} {msg : InitMsg}

/-- Less of everything but yes, and no less in all. -/
structure MoreYes (tally tally' : Vote → ℕ) : Prop where
  no : tally' .no ≤ tally .no
  abstain : tally' .abstain ≤ tally .abstain
  veto : tally' .veto ≤ tally .veto
  total : ∑ vote, tally vote ≤ ∑ vote, tally' vote

namespace MoreYes

variable {tally tally' : Vote → ℕ}

theorem refl (tally : Vote → ℕ) : MoreYes tally tally :=
  ⟨le_rfl, le_rfl, le_rfl, le_rfl⟩

theorem add {part part' : Vote → ℕ} (hmore : MoreYes tally tally')
    (hpart : MoreYes part part') : MoreYes (tally + part) (tally' + part') where
  no := Nat.add_le_add hmore.no hpart.no
  abstain := Nat.add_le_add hmore.abstain hpart.abstain
  veto := Nat.add_le_add hmore.veto hpart.veto
  total := by
    simp only [Pi.add_apply, Finset.sum_add_distrib]
    exact Nat.add_le_add hmore.total hpart.total

/-- A vote turned into a yes. -/
theorem turned {vote vote' : Vote} (hvote : vote' = vote ∨ vote' = .yes)
    (weight : ℕ) : MoreYes (Pi.single vote weight) (Pi.single vote' weight) := by
  rcases hvote with rfl | rfl
  · exact refl _
  · refine ⟨?_, ?_, ?_, ?_⟩
    · simp
    · simp
    · simp
    · rw [sum_single, sum_single]

/-- A yes that was not cast before. -/
theorem joined (weight : ℕ) : MoreYes 0 (Pi.single .yes weight) where
  no := by simp
  abstain := by simp
  veto := by simp
  total := by simp

/-- What is given up elsewhere was won by yes. -/
theorem yes_add_le (hmore : MoreYes tally tally') :
    tally .yes + (tally .no - tally' .no) +
        (tally .abstain - tally' .abstain) + (tally .veto - tally' .veto) ≤
      tally' .yes := by
  obtain ⟨hno, habstain, hveto, htotal⟩ := hmore
  rw [sum_vote, sum_vote] at htotal
  omega

/-- The bar rises by no more than the yes votes. -/
theorem opinions_le (hmore : MoreYes tally tally') (totalWeight : ℕ)
    (closed : Bool) :
    opinions totalWeight closed tally' ≤
      opinions totalWeight closed tally + (tally' .yes - tally .yes) := by
  have hyes := hmore.yes_add_le
  obtain ⟨hno, habstain, hveto, htotal⟩ := hmore
  rw [opinions, opinions]
  cases closed with
  | false =>
      simp only [Bool.false_eq_true, if_false]
      omega
  | true =>
      simp only [if_true]
      rw [sum_vote, sum_vote]
      omega

theorem le_opinions (hmore : MoreYes tally tally') (totalWeight : ℕ)
    (closed : Bool) :
    opinions totalWeight closed tally ≤ opinions totalWeight closed tally' := by
  rw [opinions, opinions]
  apply tsub_le_tsub _ hmore.abstain
  cases closed with
  | false => exact le_rfl
  | true => exact hmore.total

/-- A percentage that was met is met with more yes votes. -/
theorem neededVotes_le (hmore : MoreYes tally tally') {percentage : Decimal}
    (hone : percentage.atomics.toNat ≤ 1000000000000000000)
    {totalWeight : ℕ} {closed : Bool}
    (hmet : neededVotes (opinions totalWeight closed tally) percentage ≤
      tally .yes) :
    neededVotes (opinions totalWeight closed tally') percentage ≤
      tally' .yes := by
  have hyes : tally .yes ≤ tally' .yes := by
    have hwon := hmore.yes_add_le
    omega
  calc neededVotes (opinions totalWeight closed tally') percentage
      ≤ neededVotes (opinions totalWeight closed tally +
          (tally' .yes - tally .yes)) percentage :=
        neededVotes_mono percentage (hmore.opinions_le totalWeight closed)
    _ ≤ neededVotes (opinions totalWeight closed tally) percentage +
          (tally' .yes - tally .yes) :=
        nestedCeil_add_le (by omega) (by omega) hone _ _
    _ ≤ tally' .yes := by omega

theorem carries {threshold : Threshold} {totalWeight : ℕ} {closed : Bool}
    (hmore : MoreYes tally tally') (hvalid : threshold.Valid totalWeight)
    (hcarries : Carries threshold totalWeight closed tally) :
    Carries threshold totalWeight closed tally' := by
  cases threshold with
  | absoluteCount weight =>
      have hyes := hmore.yes_add_le
      have hweight : weight.toNat ≤ tally .yes := hcarries
      change weight.toNat ≤ tally' .yes
      omega
  | absolutePercentage percentage =>
      have hmet : neededVotes (opinions totalWeight false tally) percentage ≤
        tally .yes := hcarries
      exact hmore.neededVotes_le hvalid.2 hmet
  | thresholdQuorum threshold quorum =>
      obtain ⟨hquorum, hmet⟩ := hcarries
      exact ⟨hquorum.trans hmore.total, hmore.neededVotes_le hvalid.1.2 hmet⟩

theorem defeats {threshold : Threshold} {totalWeight : ℕ} {closed : Bool}
    (hmore : MoreYes tally tally')
    (hdefeats : Defeats threshold totalWeight closed tally') :
    Defeats threshold totalWeight closed tally := by
  cases threshold with
  | absoluteCount weight =>
      exact lt_of_lt_of_le hdefeats hmore.no
  | absolutePercentage percentage =>
      exact lt_of_lt_of_le (lt_of_le_of_lt (neededVotes_mono _
        (hmore.le_opinions totalWeight false)) hdefeats) hmore.no
  | thresholdQuorum threshold quorum =>
      exact lt_of_lt_of_le (lt_of_le_of_lt (neededVotes_mono _
        (hmore.le_opinions totalWeight closed)) hdefeats) hmore.no

end MoreYes

theorem verdict_getD_eq_rejected_iff {threshold : Threshold} {totalWeight : ℕ}
    {tally : Vote → ℕ} :
    (verdict threshold totalWeight tally).getD Status.open = .rejected ↔
      ¬ Carries threshold totalWeight false tally ∧
        Defeats threshold totalWeight false tally := by
  rw [verdict]
  split
  · next hcarries => simp [hcarries]
  · next hcarries =>
      split
      · next hdefeats => simp [hcarries, hdefeats]
      · next hdefeats => simp [hdefeats]

/-- With a quorum of nine tenths, a vote against the proposal passes it. -/
example :
    ¬ Carries (.thresholdQuorum (.percent 50) (.percent 90)) 10 false
        (Votes.tally ⟨8, 0, 0, 0⟩) ∧
      Carries (.thresholdQuorum (.percent 50) (.percent 90)) 10 false
        (Votes.tally ⟨8, 1, 0, 0⟩) := by
  decide +kernel

/-- Every choice is kept or turned into a yes, and further voters join in with
a yes. -/
inductive Improves : List (String × Vote) → List (String × Vote) → Prop
  | nil : Improves [] []
  | turn {addr : String} {vote vote' : Vote}
      {choices choices' : List (String × Vote)}
      (hvote : vote' = vote ∨ vote' = .yes)
      (hrest : Improves choices choices') :
      Improves ((addr, vote) :: choices) ((addr, vote') :: choices')
  | join (addr : String) {choices choices' : List (String × Vote)}
      (hrest : Improves choices choices') :
      Improves choices ((addr, .yes) :: choices')

def Submission.choice (submission : Submission) : String × Vote :=
  (submission.sender, submission.vote)

/-- The tally of some choices. -/
def choiceTally (msg : InitMsg) (choices : List (String × Vote)) : Vote → ℕ :=
  (choices.map fun choice =>
    Pi.single choice.2 (msg.electorate.weight choice.1)).sum

theorem choiceTally_cons (msg : InitMsg) (choice : String × Vote)
    (choices : List (String × Vote)) :
    choiceTally msg (choice :: choices) =
      Pi.single choice.2 (msg.electorate.weight choice.1) +
        choiceTally msg choices := by
  rw [choiceTally, List.map_cons, List.sum_cons]
  rfl

theorem sum_contribution_eq (msg : InitMsg) (submissions : List Submission) :
    (submissions.map (Submission.contribution msg)).sum =
      choiceTally msg (submissions.map Submission.choice) := by
  rw [choiceTally, List.map_map]
  rfl

theorem choiceTally_perm {choices choices' : List (String × Vote)}
    (hperm : choices.Perm choices') :
    choiceTally msg choices = choiceTally msg choices' :=
  (hperm.map _).sum_eq

theorem Improves.moreYes {choices choices' : List (String × Vote)}
    (himproves : Improves choices choices') :
    MoreYes (choiceTally msg choices) (choiceTally msg choices') := by
  induction himproves with
  | nil => exact .refl _
  | turn hvote hrest ih =>
      rw [choiceTally_cons, choiceTally_cons]
      exact (MoreYes.turned hvote _).add ih
  | join addr hrest ih =>
      rw [choiceTally_cons]
      have hjoined := (MoreYes.joined (msg.electorate.weight addr)).add ih
      rwa [zero_add] at hjoined

section Outcome

variable {chain : Chain M} {id : U64} {prop : Proposal M}

/-- The status that the submissions lead to, as a verdict on their tally. -/
theorem submitVotes_status_of_open
    (hreachable : (multisig msg).Reachable chain)
    (hstored : chain.store.proposals id = some prop)
    (hopen : prop.status = Status.open) {submissions : List Submission}
    (heligible : Eligible chain.store id prop submissions)
    (hnoabort : NoAbort id chain.store submissions) :
    ((submitVotes id chain.store submissions).proposals id).map
        Proposal.status =
      some ((verdict prop.threshold prop.totalWeight.toNat (prop.votes.tally +
        choiceTally msg (submissions.map Submission.choice))).getD
          Status.open) := by
  obtain ⟨totalWeight, haccepted, hledger⟩ := ledger_of_reachable hreachable
  rw [← sum_contribution_eq]
  apply submitVotes_status_eq_verdict
    (heligible.admissible haccepted hledger hstored) _ hnoabort
  rw [verdict_of_open hreachable hstored hopen, hopen, Option.getD_none]

/-- Turning votes into yes and joining in with yes, in whatever order and
blocks the votes are then submitted, keeps a proposal passed that would have
passed, and rejects none that would not have been rejected. -/
theorem yes_never_hurts (hreachable : (multisig msg).Reachable chain)
    (hstored : chain.store.proposals id = some prop)
    (hopen : prop.status = Status.open)
    {submissions submissions' : List Submission}
    {choices : List (String × Vote)}
    (himproves : Improves (submissions.map Submission.choice) choices)
    (hperm : choices.Perm (submissions'.map Submission.choice))
    (heligible : Eligible chain.store id prop submissions)
    (heligible' : Eligible chain.store id prop submissions')
    (hnoabort : NoAbort id chain.store submissions)
    (hnoabort' : NoAbort id chain.store submissions') :
    (((submitVotes id chain.store submissions).proposals id).map
          Proposal.status = some .passed →
        ((submitVotes id chain.store submissions').proposals id).map
          Proposal.status = some .passed) ∧
      (((submitVotes id chain.store submissions').proposals id).map
          Proposal.status = some .rejected →
        ((submitVotes id chain.store submissions).proposals id).map
          Proposal.status = some .rejected) := by
  rw [submitVotes_status_of_open hreachable hstored hopen heligible hnoabort,
    submitVotes_status_of_open hreachable hstored hopen heligible' hnoabort',
    ← choiceTally_perm hperm]
  simp only [Option.some.injEq, verdict_getD_eq_passed_iff,
    verdict_getD_eq_rejected_iff]
  have hchoices : MoreYes (choiceTally msg (submissions.map _))
      (choiceTally msg choices) := himproves.moreYes
  have hmore := (MoreYes.refl prop.votes.tally).add hchoices
  have hvalid := (sound_of_reachable hreachable hstored).1
  constructor
  · exact hmore.carries hvalid
  · rintro ⟨hnot, hdefeats⟩
    exact ⟨mt (hmore.carries hvalid) hnot, hmore.defeats hdefeats⟩

/-- Only weights count, not who holds them.  Where two contracts have the same
threshold and the same total weight and two open proposals have the same tally,
votes that come to the same weights for each option lead to the same status,
however many addresses cast them in whatever order and blocks. -/
theorem heads_never_count {M' : Type} {msg' : InitMsg} {chain' : Chain M'}
    {id' : U64} {prop' : Proposal M'}
    (hreachable : (multisig msg).Reachable chain)
    (hreachable' : (multisig msg').Reachable chain')
    (hstored : chain.store.proposals id = some prop)
    (hstored' : chain'.store.proposals id' = some prop')
    (hopen : prop.status = Status.open) (hopen' : prop'.status = Status.open)
    (hthreshold : prop'.threshold = prop.threshold)
    (htotal : prop'.totalWeight = prop.totalWeight)
    (htally : prop'.votes.tally = prop.votes.tally)
    {submissions submissions' : List Submission}
    (heligible : Eligible chain.store id prop submissions)
    (heligible' : Eligible chain'.store id' prop' submissions')
    (hnoabort : NoAbort id chain.store submissions)
    (hnoabort' : NoAbort id' chain'.store submissions')
    (hchoices : choiceTally msg' (submissions'.map Submission.choice) =
      choiceTally msg (submissions.map Submission.choice)) :
    ((submitVotes id' chain'.store submissions').proposals id').map
        Proposal.status =
      ((submitVotes id chain.store submissions).proposals id).map
        Proposal.status := by
  rw [submitVotes_status_of_open hreachable hstored hopen heligible hnoabort,
    submitVotes_status_of_open hreachable' hstored' hopen' heligible' hnoabort',
    hthreshold, htotal, htally, hchoices]

end Outcome

section Example

private def chorus : InitMsg where
  voters := [⟨"alice", 1⟩, ⟨"bob", 2⟩, ⟨"carol", 2⟩]
  threshold := .absolutePercentage (.percent 60)
  maxVotingPeriod := .height 10

private theorem chorus_accepted : chorus.Accepted 5 where
  nonempty := by decide
  summed := by decide
  valid := Threshold.validate_eq_ok_iff.1 (by decide)

private def chorusChain : Chain String :=
  (Chain.deployed ⟨⟨10, 54⟩, ⟨"carol"⟩⟩ chorus).replay
    [⟨⟨⟨11, 60⟩, ⟨"alice"⟩⟩, .propose "title" "description" ["send"] none⟩]

private theorem chorusChain_reachable :
    (multisig chorus).Reachable chorusChain :=
  reachable_replay (.of_start (start_deployed _ chorus_accepted)) (by decide)

private def chorusProposal : Proposal String where
  title := "title"
  description := "description"
  startHeight := 11
  expires := .atHeight 21
  msgs := ["send"]
  status := Status.open
  threshold := chorus.threshold
  totalWeight := 5
  votes := ⟨1, 0, 0, 0⟩

private theorem chorus_stored :
    chorusChain.store.proposals 1 = some chorusProposal := rfl

private def chorusVote (sender : String) (vote : Vote) : Submission :=
  ⟨⟨⟨12, 66⟩, ⟨sender⟩⟩, vote⟩

private theorem chorus_eligible {submissions : List Submission}
    (hdistinct : (submissions.map Submission.sender).Nodup)
    (hsenders : ∀ submission ∈ submissions,
      (submission.sender = "bob" ∨ submission.sender = "carol") ∧
        submission.env.block = ⟨12, 66⟩) :
    Eligible chorusChain.store 1 chorusProposal submissions where
  distinct := hdistinct
  registered submission hmem := by
    rcases (hsenders submission hmem).1 with hsender | hsender <;>
      exact ⟨2, by rw [hsender]; rfl, by decide⟩
  fresh submission hmem := by
    rcases (hsenders submission hmem).1 with hsender | hsender <;>
      rw [hsender] <;> rfl
  unexpired submission hmem := by
    rw [(hsenders submission hmem).2]
    rfl

private def chorusBefore : List Submission :=
  [chorusVote "bob" .abstain, chorusVote "carol" .yes]

private def chorusAfter : List Submission :=
  [chorusVote "carol" .yes, chorusVote "bob" .yes]

private theorem chorus_improves :
    Improves (chorusBefore.map Submission.choice)
      [("bob", .yes), ("carol", .yes)] :=
  .turn (.inr rfl) (.turn (.inl rfl) .nil)

private theorem chorus_noAbort :
    NoAbort 1 chorusChain.store chorusBefore ∧
      NoAbort 1 chorusChain.store chorusAfter :=
  ⟨⟨nofun, nofun, trivial⟩, ⟨nofun, nofun, trivial⟩⟩

/-- Bob abstains, or says yes after Carol. -/
theorem yes_never_hurts_chorus :
    ((submitVotes 1 chorusChain.store chorusAfter).proposals 1).map
      Proposal.status = some .passed :=
  (yes_never_hurts chorusChain_reachable chorus_stored rfl chorus_improves
    (.swap _ _ _) (chorus_eligible (by decide) (by decide))
    (chorus_eligible (by decide) (by decide)) chorus_noAbort.1
    chorus_noAbort.2).1 (by decide +kernel)

/-- Carol's weight, held by two. -/
private def choir : InitMsg where
  voters := [⟨"alice", 1⟩, ⟨"bob", 2⟩, ⟨"carol", 1⟩, ⟨"dave", 1⟩]
  threshold := .absolutePercentage (.percent 60)
  maxVotingPeriod := .height 10

private theorem choir_accepted : choir.Accepted 5 where
  nonempty := by decide
  summed := by decide
  valid := Threshold.validate_eq_ok_iff.1 (by decide)

private def choirChain : Chain String :=
  (Chain.deployed ⟨⟨10, 54⟩, ⟨"carol"⟩⟩ choir).replay
    [⟨⟨⟨11, 60⟩, ⟨"alice"⟩⟩, .propose "title" "description" ["send"] none⟩]

private theorem choir_stored :
    choirChain.store.proposals 1 = some chorusProposal := rfl

private def choirVotes : List Submission :=
  [chorusVote "dave" .yes, chorusVote "carol" .yes]

private theorem choir_eligible :
    Eligible choirChain.store 1 chorusProposal choirVotes where
  distinct := by decide
  registered submission hmem := by
    simp only [choirVotes, List.mem_cons, List.not_mem_nil, or_false] at hmem
    rcases hmem with rfl | rfl <;> exact ⟨1, rfl, by decide⟩
  fresh submission hmem := by
    simp only [choirVotes, List.mem_cons, List.not_mem_nil, or_false] at hmem
    rcases hmem with rfl | rfl <;> rfl
  unexpired submission hmem := by
    simp only [choirVotes, List.mem_cons, List.not_mem_nil, or_false] at hmem
    rcases hmem with rfl | rfl <;> rfl

/-- Carol alone, or the two who hold her weight. -/
theorem heads_never_count_choir :
    ((submitVotes 1 choirChain.store choirVotes).proposals 1).map
        Proposal.status =
      ((submitVotes 1 chorusChain.store [chorusVote "carol" .yes]).proposals
        1).map Proposal.status :=
  heads_never_count chorusChain_reachable
    (reachable_replay (.of_start (start_deployed _ choir_accepted))
      (by decide))
    chorus_stored choir_stored rfl rfl rfl rfl rfl
    (chorus_eligible (by decide) (by decide)) choir_eligible
    ⟨nofun, trivial⟩ ⟨nofun, nofun, trivial⟩ (by decide +kernel)

end Example

end FixedMultisig
