import FixedMultisig.Chain.Refinement

/-!
# How much can be done

Calls are accepted only while they get something done.  A member votes once on
a proposal, moving it included, and after that one call at most ends it.  The
accepted calls of a run are therefore bounded by the proposals that were moved
in it, and once all of this is done, nothing is accepted until a member moves
another proposal.
-/

namespace FixedMultisig

open Assembly

variable {M : Type} {msg : InitMsg}

/-- Accepted calls are at most one for each proposal and member, and one more
for each proposal. -/
theorem run_bounded {first last : Chain M}
    {steps : List (Transition (Chain M) (Call M))}
    (hfirst : (multisig msg).start first)
    (hrun : (multisig msg).Run first steps last) :
    ∃ count, last.store.proposalCount = some count ∧
      (steps.filter Transition.isAccepted).length ≤
        count.toNat * (msg.electorate.members.card + 1) := by
  obtain ⟨totalWeight, haccepted, hstore⟩ := start_cases hfirst
  have hdepicts : Depicts first.store ([] : Minutes M msg totalWeight) :=
    hstore ▸ .initial totalWeight
  obtain ⟨entries, minutes, hentries, hanswers, hlast⟩ :=
    hdepicts.run haccepted hrun
  obtain ⟨count, hcount, hlength⟩ := hlast.counted
  refine ⟨count, hcount, ?_⟩
  rw [hanswers.length_eq, hlength]
  exact length_le_of_run hentries

section Example

private def foreman : InitMsg where
  voters := [⟨"alice", 2⟩, ⟨"bob", 1⟩]
  threshold := .absoluteCount 3
  maxVotingPeriod := .height 100

private theorem foreman_accepted : foreman.Accepted 3 where
  nonempty := by decide
  summed := by decide
  valid := Threshold.validate_eq_ok_iff.1 (by decide)

private def foremanStart : Chain String :=
  Chain.deployed ⟨⟨10, 54⟩, ⟨"carol"⟩⟩ foreman

private def foremanCalls : List (Call String) :=
  [⟨⟨⟨11, 60⟩, ⟨"alice"⟩⟩, .propose "title" "description" ["send"] none⟩,
    ⟨⟨⟨12, 66⟩, ⟨"alice"⟩⟩, .vote 1 .no⟩,
    ⟨⟨⟨13, 72⟩, ⟨"bob"⟩⟩, .vote 1 .yes⟩,
    ⟨⟨⟨14, 78⟩, ⟨"carol"⟩⟩, .execute 1⟩,
    ⟨⟨⟨15, 84⟩, ⟨"carol"⟩⟩, .execute 1⟩]

/-- Two members and one proposal: three calls are accepted, and no more. -/
theorem run_bounded_foreman :
    (foremanStart.moves foremanCalls).map Transition.isAccepted =
        [true, false, true, true, false] ∧
      (foremanStart.replay foremanCalls).store.proposalCount = some 1 ∧
      foreman.electorate.members.card = 2 ∧
      ((foremanStart.moves foremanCalls).filter
        Transition.isAccepted).length ≤ 1 * (2 + 1) := by
  have hcount : (foremanStart.replay foremanCalls).store.proposalCount =
      some 1 := rfl
  have hmembers : foreman.electorate.members.card = 2 := by decide +kernel
  have hrun : (multisig foreman).Run foremanStart
      (foremanStart.moves foremanCalls) (foremanStart.replay foremanCalls) :=
    run_replay (by decide)
  obtain ⟨count, hcount', hbounded⟩ :=
    run_bounded (start_deployed _ foreman_accepted) hrun
  obtain rfl := Option.some.inj (hcount.symm.trans hcount')
  rw [hmembers] at hbounded
  exact ⟨by decide +kernel, hcount, hmembers, hbounded⟩

end Example

end FixedMultisig
