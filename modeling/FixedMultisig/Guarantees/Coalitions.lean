import FixedMultisig.Chain.Refinement
import FixedMultisig.Guarantees.Creation

/-!
# What a coalition can rely on

The contract refines an assembly, and where a motion stands follows there from
its poll alone.  Read back into the store, this says what voters can rely on in
every reachable state: a coalition that is strong enough on its own gets its
way as soon as its ballots are counted, whoever else votes, in whatever order
and whatever deadline the proposer chose; and no proposal passes by a
percentage with more weight against it than for it.
-/

namespace FixedMultisig

open Decision Assembly

variable {M : Type} {msg : InitMsg}

/-- This weight alone rejects, also if everybody else votes for it. -/
def Blocking (threshold : Threshold) (totalWeight weight : ℕ) : Prop :=
  match threshold with
  | .absoluteCount needed => totalWeight - needed.toNat < weight
  | .absolutePercentage percentage =>
      neededVotes totalWeight percentage.complement < weight
  | .thresholdQuorum threshold _ =>
      neededVotes totalWeight threshold.complement < weight

theorem carries_single_yes {threshold : Threshold} {totalWeight weight : ℕ}
    (houtright : Outright threshold totalWeight weight) :
    Carries threshold totalWeight false (Pi.single .yes weight) := by
  cases threshold with
  | absoluteCount needed => simpa [Carries, Outright] using houtright
  | absolutePercentage percentage =>
      simpa [Carries, Outright] using houtright
  | thresholdQuorum threshold quorum =>
      simpa [Carries, Outright, opinions] using houtright

theorem defeats_single_no {threshold : Threshold} {totalWeight weight : ℕ}
    (hblocking : Blocking threshold totalWeight weight) :
    Defeats threshold totalWeight false (Pi.single .no weight) := by
  cases threshold with
  | absoluteCount needed => simpa [Defeats, Blocking] using hblocking
  | absolutePercentage percentage =>
      simpa [Defeats, Blocking] using hblocking
  | thresholdQuorum threshold quorum =>
      simpa [Defeats, Blocking, opinions] using hblocking

/-- A stored proposal is a motion whose poll bears out where it stands. -/
theorem motion_of_stored {chain : Chain M}
    (hreachable : (multisig msg).Reachable chain) {id : U64} {prop : Proposal M}
    (hstored : chain.store.proposals id = some prop) :
    ∃ totalWeight, msg.Accepted totalWeight ∧
      prop.threshold = msg.threshold ∧ prop.totalWeight = totalWeight ∧
      ∃ motion : Motion (msg.rules totalWeight) (Matter M), motion.Sound ∧
        Portrays chain.store id prop motion ∧
        prop.votes.tally = motion.poll.tally := by
  obtain ⟨totalWeight, haccepted, minutes, hminutes, hdepicts⟩ :=
    depicts_of_reachable hreachable
  obtain ⟨hthreshold, hweight⟩ := hdepicts.ledger.governed id prop hstored
  obtain ⟨motion, hfound, hportrays⟩ := hdepicts.portrayed id prop hstored
  exact ⟨totalWeight, haccepted, hthreshold, hweight, motion,
    haccepted.lawful.sound_of_reachable hminutes motion (mem_of_find hfound),
    hportrays, hportrays.tally_eq hdepicts.ledger hstored⟩

/-- A coalition whose weight passes outright has passed the proposal once all
of its ballots say yes, and one whose weight blocks has rejected it once they
all say no. -/
theorem coalition_decides {chain : Chain M}
    (hreachable : (multisig msg).Reachable chain) {id : U64} {prop : Proposal M}
    (hstored : chain.store.proposals id = some prop)
    (coalition : Finset String) :
    ((∀ addr ∈ coalition,
        (chain.store.ballots id addr).map Ballot.vote = some .yes) →
      Outright prop.threshold prop.totalWeight.toNat
        (∑ addr ∈ coalition, msg.electorate.weight addr) →
      prop.status = Status.passed ∨ prop.status = Status.executed) ∧
    ((∀ addr ∈ coalition,
        (chain.store.ballots id addr).map Ballot.vote = some .no) →
      Blocking prop.threshold prop.totalWeight.toNat
        (∑ addr ∈ coalition, msg.electorate.weight addr) →
      prop.status = Status.rejected) := by
  obtain ⟨totalWeight, haccepted, hthreshold, rfl, motion, hsound, hportrays,
    -⟩ := motion_of_stored hreachable hstored
  rw [hthreshold]
  constructor
  · intro hyes houtright
    have hphase := hsound.of_bloc_carries haccepted.lawful
      (fun addr haddr => (hportrays.cast addr).symm.trans (hyes addr haddr))
      (carries_single_yes houtright)
    rw [hportrays.status]
    exact hphase.imp (congrArg statusOf) (congrArg statusOf)
  · intro hno hblocking
    have hphase := hsound.of_bloc_defeats haccepted.lawful
      (fun addr haddr => (hportrays.cast addr).symm.trans (hno addr haddr))
      (defeats_single_no hblocking)
    rw [hportrays.status]
    exact congrArg statusOf hphase

/-! ## Majorities -/

/-- A percentage of at least one half is no less than half of a weight. -/
theorem le_two_mul_neededVotes {percentage : Decimal}
    (hmajority : Threshold.Majority percentage) (weight : ℕ) :
    weight ≤ 2 * neededVotes weight percentage := by
  have hcomplement : neededVotes weight percentage.complement ≤
      neededVotes weight percentage :=
    NestedRounding.nestedCeil_mono (by omega) le_rfl (complement_le hmajority)
  have hcover := le_neededVotes_add_complement hmajority.2 weight
  omega

/-- What a tally shows for a proposal that has passed. -/
def Supported (threshold : Threshold) (totalWeight : ℕ) (tally : Vote → ℕ) :
    Prop :=
  match threshold with
  | .absoluteCount needed => needed.toNat ≤ tally .yes
  | .absolutePercentage _ => tally .no + tally .veto ≤ tally .yes
  | .thresholdQuorum _ quorum =>
      tally .no + tally .veto ≤ tally .yes ∧
        neededVotes totalWeight quorum ≤ ∑ vote, tally vote

theorem supported_of_carries {threshold : Threshold} {totalWeight : ℕ}
    (hvalid : threshold.Valid totalWeight) {closed : Bool} {tally : Vote → ℕ}
    (htotal : ∑ vote, tally vote ≤ totalWeight)
    (hcarries : Carries threshold totalWeight closed tally) :
    Supported threshold totalWeight tally := by
  cases threshold with
  | absoluteCount needed => exact hcarries
  | absolutePercentage percentage =>
      have hhalf := le_two_mul_neededVotes hvalid
        (totalWeight - tally .abstain)
      have hneeded : neededVotes (totalWeight - tally .abstain) percentage ≤
        tally .yes := hcarries
      rw [sum_vote] at htotal
      simp only [Supported]
      omega
  | thresholdQuorum threshold quorum =>
      obtain ⟨hquorum, hneeded⟩ := hcarries
      have hhalf := le_two_mul_neededVotes hvalid.1
        (opinions totalWeight closed tally)
      have hopinions : tally .yes + tally .no + tally .veto ≤
          opinions totalWeight closed tally := by
        rw [opinions, sum_vote]
        rw [sum_vote] at htotal
        split <;> omega
      refine ⟨?_, hquorum⟩
      omega

/-- What has passed is carried by its tally, before or after its deadline. -/
theorem carries_of_passed {chain : Chain M}
    (hreachable : (multisig msg).Reachable chain) {id : U64} {prop : Proposal M}
    (hstored : chain.store.proposals id = some prop)
    (hpassed : prop.status = Status.passed ∨ prop.status = Status.executed) :
    ∃ closed, Carries prop.threshold prop.totalWeight.toNat closed
      prop.votes.tally := by
  obtain ⟨totalWeight, haccepted, hthreshold, rfl, motion, hsound, hportrays,
    htally⟩ := motion_of_stored hreachable hstored
  have hphase : motion.phase = .carried ∨ motion.phase = .enacted := by
    rw [hportrays.status] at hpassed
    exact hpassed.imp (fun h => statusOf_injective h)
      (fun h => statusOf_injective h)
  have hcarries := hsound.decided hphase
  rw [← htally] at hcarries
  rw [hthreshold]
  exact ⟨_, hcarries⟩

/-- No proposal passes by a percentage with more weight against it than for
it, or without its quorum; by an absolute count it has that count. -/
theorem passed_supported {chain : Chain M}
    (hreachable : (multisig msg).Reachable chain) {id : U64} {prop : Proposal M}
    (hstored : chain.store.proposals id = some prop)
    (hpassed : prop.status = Status.passed ∨ prop.status = Status.executed) :
    Supported prop.threshold prop.totalWeight.toNat prop.votes.tally := by
  obtain ⟨hvalid, htotal⟩ := sound_of_reachable hreachable hstored
  obtain ⟨closed, hcarries⟩ := carries_of_passed hreachable hstored hpassed
  exact supported_of_carries hvalid htotal hcarries

/-! ## Common supporters -/

/-- The yes votes that a proposal with this tally needs at least. -/
def backing (threshold : Threshold) (totalWeight : ℕ) (tally : Vote → ℕ) : ℕ :=
  match threshold with
  | .absoluteCount weight => weight.toNat
  | .absolutePercentage percentage =>
      neededVotes (totalWeight - tally .abstain) percentage
  | .thresholdQuorum threshold _ =>
      neededVotes (∑ vote, tally vote - tally .abstain) threshold

theorem backing_le_of_carries {threshold : Threshold} {totalWeight : ℕ}
    {closed : Bool} {tally : Vote → ℕ}
    (htotal : ∑ vote, tally vote ≤ totalWeight)
    (hcarries : Carries threshold totalWeight closed tally) :
    backing threshold totalWeight tally ≤ tally .yes := by
  cases threshold with
  | absoluteCount weight => exact hcarries
  | absolutePercentage percentage => exact hcarries
  | thresholdQuorum threshold quorum =>
      apply (neededVotes_mono threshold _).trans hcarries.2
      rw [opinions]
      split
      · exact le_rfl
      · exact Nat.sub_le_sub_right htotal _

/-- Two proposals that have passed and need more than the electorate together
have a supporter in common.  With an absolute count of more than half, any two
have: proposals that nobody supports together do not both pass. -/
theorem passed_share_supporter {chain : Chain M}
    (hreachable : (multisig msg).Reachable chain) {id id' : U64}
    {prop prop' : Proposal M}
    (hstored : chain.store.proposals id = some prop)
    (hstored' : chain.store.proposals id' = some prop')
    (hpassed : prop.status = .passed ∨ prop.status = .executed)
    (hpassed' : prop'.status = .passed ∨ prop'.status = .executed)
    (hexceed : msg.electorate.total <
      backing prop.threshold prop.totalWeight.toNat prop.votes.tally +
        backing prop'.threshold prop'.totalWeight.toNat prop'.votes.tally) :
    ∃ addr, (chain.store.ballots id addr).map Ballot.vote = some .yes ∧
      (chain.store.ballots id' addr).map Ballot.vote = some .yes := by
  obtain ⟨closed, hcarries⟩ := carries_of_passed hreachable hstored hpassed
  obtain ⟨closed', hcarries'⟩ := carries_of_passed hreachable hstored' hpassed'
  have hbacked := backing_le_of_carries
    (sound_of_reachable hreachable hstored).2 hcarries
  have hbacked' := backing_le_of_carries
    (sound_of_reachable hreachable hstored').2 hcarries'
  obtain ⟨totalWeight, -, hledger⟩ := ledger_of_reachable hreachable
  obtain ⟨poll, hrecords⟩ := hledger.recorded id prop hstored
  obtain ⟨poll', hrecords'⟩ := hledger.recorded id' prop' hstored'
  rw [hrecords.tally] at hexceed hbacked
  rw [hrecords'.tally] at hexceed hbacked'
  obtain ⟨addr, hyes, hyes'⟩ := poll.exists_common poll'
    (hexceed.trans_le (Nat.add_le_add hbacked hbacked'))
  exact ⟨addr, (hrecords.cast addr).trans hyes,
    (hrecords'.cast addr).trans hyes'⟩

section Example

private def bench : InitMsg where
  voters := [⟨"alice", 3⟩, ⟨"bob", 2⟩, ⟨"carol", 4⟩]
  threshold := .absolutePercentage (.percent 50)
  maxVotingPeriod := .height 100

private theorem bench_accepted : bench.Accepted 9 where
  nonempty := by decide
  summed := by decide
  valid := Threshold.validate_eq_ok_iff.1 (by decide)

private def benchChain : Chain String :=
  (Chain.deployed ⟨⟨10, 54⟩, ⟨"dave"⟩⟩ bench).replay
    [⟨⟨⟨11, 60⟩, ⟨"alice"⟩⟩, .propose "title" "description" ["send"] none⟩,
      ⟨⟨⟨12, 66⟩, ⟨"carol"⟩⟩, .vote 1 .no⟩,
      ⟨⟨⟨13, 72⟩, ⟨"bob"⟩⟩, .vote 1 .yes⟩]

private theorem benchChain_reachable : (multisig bench).Reachable benchChain :=
  reachable_replay (.of_start (start_deployed _ bench_accepted)) (by decide)

private def benchProposal : Proposal String where
  title := "title"
  description := "description"
  startHeight := 11
  expires := .atHeight 111
  msgs := ["send"]
  status := .passed
  threshold := bench.threshold
  totalWeight := 9
  votes := ⟨5, 4, 0, 0⟩

private theorem benchProposal_stored :
    benchChain.store.proposals 1 = some benchProposal := by
  rfl

private def benchOpposed : Chain String :=
  (Chain.deployed ⟨⟨10, 54⟩, ⟨"dave"⟩⟩ bench).replay
    [⟨⟨⟨11, 60⟩, ⟨"alice"⟩⟩, .propose "title" "description" ["send"] none⟩,
      ⟨⟨⟨12, 66⟩, ⟨"carol"⟩⟩, .vote 1 .no⟩,
      ⟨⟨⟨13, 72⟩, ⟨"bob"⟩⟩, .vote 1 .no⟩]

private theorem benchOpposed_reachable :
    (multisig bench).Reachable benchOpposed :=
  reachable_replay (.of_start (start_deployed _ bench_accepted)) (by decide)

private theorem benchOpposed_stored :
    benchOpposed.store.proposals 1 =
      some { benchProposal with status := .rejected, votes := ⟨3, 6, 0, 0⟩ } := by
  rfl

/-- Five of nine pass a proposal against four, and six of nine reject it. -/
theorem coalition_decides_bench :
    (∃ prop, benchChain.store.proposals 1 = some prop ∧
      (∀ addr ∈ ({"alice", "bob"} : Finset String),
        (benchChain.store.ballots 1 addr).map Ballot.vote = some .yes) ∧
      (prop.status = Status.passed ∨ prop.status = Status.executed)) ∧
    ∃ prop, benchOpposed.store.proposals 1 = some prop ∧
      (∀ addr ∈ ({"bob", "carol"} : Finset String),
        (benchOpposed.store.ballots 1 addr).map Ballot.vote = some .no) ∧
      prop.status = Status.rejected := by
  have hyes : ∀ addr ∈ ({"alice", "bob"} : Finset String),
      (benchChain.store.ballots 1 addr).map Ballot.vote = some .yes := by
    decide +kernel
  have hno : ∀ addr ∈ ({"bob", "carol"} : Finset String),
      (benchOpposed.store.ballots 1 addr).map Ballot.vote = some .no := by
    decide +kernel
  have houtright : Outright bench.threshold 9
      (∑ addr ∈ {"alice", "bob"}, bench.electorate.weight addr) :=
    show neededVotes 9 (.percent 50) ≤ _ by decide +kernel
  have hblocking : Blocking bench.threshold 9
      (∑ addr ∈ {"bob", "carol"}, bench.electorate.weight addr) :=
    show neededVotes 9 (Decimal.complement (.percent 50)) < _ by decide +kernel
  exact ⟨⟨_, benchProposal_stored, hyes,
      (coalition_decides benchChain_reachable benchProposal_stored _).1 hyes
        houtright⟩,
    _, benchOpposed_stored, hno,
    (coalition_decides benchOpposed_reachable benchOpposed_stored _).2 hno
      hblocking⟩

theorem passed_supported_bench :
    ∃ prop, benchChain.store.proposals 1 = some prop ∧
      prop.status = Status.passed ∧
      prop.votes.tally .no + prop.votes.tally .veto ≤
        prop.votes.tally .yes :=
  ⟨_, benchProposal_stored, rfl,
    passed_supported benchChain_reachable benchProposal_stored (.inl rfl)⟩

private def council : InitMsg where
  voters := [⟨"alice", 3⟩, ⟨"bob", 2⟩, ⟨"carol", 4⟩]
  threshold := .absoluteCount 5
  maxVotingPeriod := .height 100

private theorem council_accepted : council.Accepted 9 where
  nonempty := by decide
  summed := by decide
  valid := Threshold.validate_eq_ok_iff.1 (by decide)

private def councilChain : Chain String :=
  (Chain.deployed ⟨⟨10, 54⟩, ⟨"dave"⟩⟩ council).replay
    [⟨⟨⟨11, 60⟩, ⟨"alice"⟩⟩, .propose "first" "description" ["send"] none⟩,
      ⟨⟨⟨12, 66⟩, ⟨"carol"⟩⟩, .propose "second" "description" ["keep"] none⟩,
      ⟨⟨⟨13, 72⟩, ⟨"bob"⟩⟩, .vote 1 .yes⟩,
      ⟨⟨⟨13, 72⟩, ⟨"bob"⟩⟩, .vote 2 .yes⟩]

private def councilProposal (title : String) (height : U64) (msgs : List String)
    (yes : U64) : Proposal String where
  title
  description := "description"
  startHeight := height
  expires := .atHeight (height + 100)
  msgs
  status := .passed
  threshold := .absoluteCount 5
  totalWeight := 9
  votes := ⟨yes, 0, 0, 0⟩

private theorem council_stored :
    councilChain.store.proposals 1 =
        some (councilProposal "first" 11 ["send"] 5) ∧
      councilChain.store.proposals 2 =
        some (councilProposal "second" 12 ["keep"] 6) :=
  ⟨rfl, rfl⟩

/-- Without Bob one of the two would not have passed. -/
theorem passed_share_supporter_council :
    ∃ addr, (councilChain.store.ballots 1 addr).map Ballot.vote = some .yes ∧
      (councilChain.store.ballots 2 addr).map Ballot.vote = some .yes :=
  passed_share_supporter
    (reachable_replay (.of_start (start_deployed _ council_accepted))
      (by decide)) council_stored.1 council_stored.2 (.inl rfl) (.inl rfl)
    (show council.electorate.total < 5 + 5 by decide +kernel)

end Example

end FixedMultisig
