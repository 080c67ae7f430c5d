import FixedMultisig.Chain.Ledger

/-!
# Stored and current status

The contract stores the status that a proposal had at its last write, and the
decision functions say what the status should be in a given block.  Before the
deadline the two agree.  After it they agree on what has been decided, and the
one way in which they differ is a proposal that is stored as open and passes
only because the missing votes no longer count against it.
-/

namespace FixedMultisig

open Decision

variable {M : Type} {msg : InitMsg}

/-- A status with its reason: a passed or executed proposal was sure to pass in
some earlier block, and an open one was undecided in some earlier block before
its deadline. -/
structure Justified (prop : Proposal M) (block : BlockInfo) : Prop where
  passed : prop.status = Status.passed ∨ prop.status = Status.executed →
    ∃ earlier ≤ block, prop.isPassed earlier = some true
  undecided : prop.status = Status.open → ∃ earlier ≤ block,
    prop.expires.isExpired earlier = false ∧
      prop.isPassed earlier = some false ∧
      prop.isRejected earlier = some false

namespace Justified

variable {prop prop' : Proposal M} {block later : BlockInfo}

theorem mono (hjustified : Justified prop block) (hle : block ≤ later) :
    Justified prop later where
  passed hpassed := by
    obtain ⟨earlier, hearlier, hreason⟩ := hjustified.passed hpassed
    exact ⟨earlier, BlockInfo.le_trans hearlier hle, hreason⟩
  undecided hopen := by
    obtain ⟨earlier, hearlier, hreason⟩ := hjustified.undecided hopen
    exact ⟨earlier, BlockInfo.le_trans hearlier hle, hreason⟩

/-- A status update of an open proposal gives its status a reason. -/
theorem of_updateStatus (hopen : prop.status = Status.open)
    (hupdate : prop.updateStatus block = some prop') :
    Justified prop' block := by
  obtain ⟨status, hstatus, rfl⟩ :=
    Proposal.updateStatus_eq_some_iff.1 hupdate
  constructor
  · intro hpassed
    rcases hpassed with rfl | rfl
    · exact ⟨block, BlockInfo.le_refl block,
        (Proposal.currentStatus_eq_passed_iff hopen).1 hstatus⟩
    · rcases Proposal.currentStatus_of_open hopen hstatus with h | h | h <;>
        cases h
  · rintro rfl
    obtain ⟨hpassed, hrejected, hunexpired⟩ :=
      (Proposal.currentStatus_eq_open_iff hopen).1 hstatus
    exact ⟨block, BlockInfo.le_refl block, hunexpired, hpassed, hrejected⟩

end Justified

/-- The status of every stored proposal is justified. -/
theorem justified_of_reachable {chain : Chain M}
    (hreachable : (multisig msg).Reachable chain) {id : U64} {prop : Proposal M}
    (hstored : chain.store.proposals id = some prop) :
    Justified prop chain.block := by
  obtain ⟨first, steps, hfirst, hrun⟩ := hreachable
  refine proposal_invariant (P := Justified) (C := fun _ _ => True)
    (fun prop earlier later hle h => h.mono hle) ?_ ?_ ?_ ?_ hfirst hrun
    (fun _ _ _ _ => trivial) hstored
  · intro _ env title description msgs latest power cfg expires prop _ _ _ hprop
    exact .of_updateStatus rfl hprop
  · intro _ env id vote power prop prop' _ _ henabled hprop _
    obtain ⟨votes, -, hupdate⟩ := Proposal.recordVote_eq_some hprop
    have hopen : Proposal.status { prop with votes } = Status.open :=
      henabled.isOpen
    exact .of_updateStatus hopen hupdate
  · intro prop block hpassed hjustified
    exact ⟨fun _ => hjustified.passed (.inl hpassed), fun h => by cases h⟩
  · intro store env id prop henabled hjustified
    refine ⟨fun h => ?_, fun h => by cases h⟩
    rcases h with h | h <;> cases h

section Stored

variable {chain : Chain M} {id : U64} {prop : Proposal M} {block : BlockInfo}

theorem isPassed_of_passed (hreachable : (multisig msg).Reachable chain)
    (hstored : chain.store.proposals id = some prop)
    (hblock : chain.block ≤ block)
    (hpassed : prop.status = Status.passed ∨ prop.status = Status.executed) :
    prop.isPassed block = some true := by
  obtain ⟨hvalid, htotal⟩ := sound_of_reachable hreachable hstored
  obtain ⟨earlier, hearlier, hreason⟩ :=
    (justified_of_reachable hreachable hstored).passed hpassed
  exact isPassed_later hvalid htotal (BlockInfo.le_trans hearlier hblock)
    hreason

theorem undecided_of_open (hreachable : (multisig msg).Reachable chain)
    (hstored : chain.store.proposals id = some prop)
    (hopen : prop.status = Status.open)
    (hunexpired : prop.expires.isExpired block = false) :
    prop.isPassed block = some false ∧ prop.isRejected block = some false := by
  obtain ⟨earlier, -, hearlier, hpassed, hrejected⟩ :=
    (justified_of_reachable hreachable hstored).undecided hopen
  have hdeadline : prop.expires.isExpired block =
      prop.expires.isExpired earlier := by rw [hunexpired, hearlier]
  exact ⟨by rw [isPassed_congr hdeadline, hpassed],
    by rw [isRejected_congr hdeadline, hrejected]⟩

/-- In every block from the last one on: passed and executed proposals still
pass, an open proposal before its deadline neither passes nor is rejected, and
before the deadline the stored status is the current one. -/
theorem stored_status_justified (hreachable : (multisig msg).Reachable chain)
    (hstored : chain.store.proposals id = some prop)
    (hblock : chain.block ≤ block) :
    (prop.status = Status.passed ∨ prop.status = Status.executed →
      prop.isPassed block = some true) ∧
    (prop.status = Status.open → prop.expires.isExpired block = false →
      prop.isPassed block = some false ∧
        prop.isRejected block = some false) ∧
    (prop.expires.isExpired block = false →
      prop.currentStatus block = some prop.status) := by
  refine ⟨isPassed_of_passed hreachable hstored hblock,
    undecided_of_open hreachable hstored, fun hunexpired => ?_⟩
  by_cases hopen : prop.status = Status.open
  · obtain ⟨hpassed, hrejected⟩ :=
      undecided_of_open hreachable hstored hopen hunexpired
    rw [hopen, Proposal.currentStatus_eq_open_iff hopen]
    exact ⟨hpassed, hrejected, hunexpired⟩
  · exact Proposal.currentStatus_of_not_open hopen

end Stored

/-! ## Passing at the deadline -/

/-- An open proposal after its deadline, with the quorum met and enough yes
votes among the opinions that were given. -/
def LateMajority (prop : Proposal M) (block : BlockInfo) : Prop :=
  prop.status = Status.open ∧ prop.expires.isExpired block = true ∧
    ∃ threshold quorum, prop.threshold = .thresholdQuorum threshold quorum ∧
      neededVotes prop.totalWeight.toNat quorum ≤
        ∑ vote, prop.votes.tally vote ∧
      neededVotes (∑ vote, prop.votes.tally vote - prop.votes.tally .abstain)
        threshold ≤ prop.votes.tally .yes

section Late

variable {chain : Chain M} {id : U64} {prop : Proposal M} {block : BlockInfo}

/-- The proposals stored as open that pass. -/
theorem isPassed_open_iff (hreachable : (multisig msg).Reachable chain)
    (hstored : chain.store.proposals id = some prop)
    (hopen : prop.status = Status.open) :
    prop.isPassed block = some true ↔ LateMajority prop block := by
  obtain ⟨hvalid, htotal⟩ := sound_of_reachable hreachable hstored
  obtain ⟨earlier, -, hearlier, hundecided, -⟩ :=
    (justified_of_reachable hreachable hstored).undecided hopen
  rw [isPassed_eq_some_iff hvalid htotal, hearlier,
    iff_false_right (by decide)] at hundecided
  obtain ⟨hfits, hcarries⟩ := hundecided
  rw [isPassed_iff hvalid htotal,
    and_iff_right (carriesFits_closed htotal hfits), LateMajority,
    and_iff_right hopen]
  cases hexpired : prop.expires.isExpired block with
  | false => simp [hcarries]
  | true =>
      cases hthreshold : prop.threshold with
      | absoluteCount weight =>
          rw [hthreshold] at hcarries
          have hclosed : ¬ Carries (.absoluteCount weight)
              prop.totalWeight.toNat true prop.votes.tally := hcarries
          simpa using hclosed
      | absolutePercentage percentage =>
          rw [hthreshold] at hcarries
          have hclosed : ¬ Carries (.absolutePercentage percentage)
              prop.totalWeight.toNat true prop.votes.tally := hcarries
          simpa using hclosed
      | thresholdQuorum threshold quorum => simp [Carries, opinions]

theorem execute_ok_iff {store : Store M} {env : Env} :
    (∃ response, ((handle env (.execute id)).run store).result =
        .ok response) ↔
      ∃ prop, store.proposals id = some prop ∧
        prop.status = Status.passed := by
  constructor
  · rintro ⟨response, hok⟩
    have heffect := effect_of_ok hok
    generalize ((handle env (.execute id)).run store).store = store' at heffect
    cases heffect with
    | execute hstored hpassed => exact ⟨_, hstored, hpassed⟩
  · rintro ⟨prop, hstored, hpassed⟩
    exact ⟨executeResponse env id prop, by
      rw [handle, executeExecute_of_passed hstored hpassed]⟩

theorem close_error_of_passed {store : Store M} {env : Env}
    (hstored : store.proposals id = some prop)
    (hpassed : prop.status = Status.passed) :
    ∃ halt, ((handle env (.close id)).run store).result = .error halt := by
  have hdisabled : ∀ prop', ¬ CloseEnabled store env id prop' := by
    intro prop' henabled
    obtain rfl := Option.some.inj (hstored.symm.trans henabled.stored)
    exact henabled.undecided (by simp [hpassed])
  obtain ⟨reason, hrefused⟩ := executeClose_of_not_enabled hdisabled
  exact ⟨.error reason, by rw [handle, hrefused]⟩

/-- What is currently passed can be executed and cannot be closed, except for
late majorities: those can be closed and not executed. -/
theorem current_passed_executable_iff
    (hreachable : (multisig msg).Reachable chain)
    (hstored : chain.store.proposals id = some prop) {env : Env} :
    (prop.currentStatus env.block = some Status.passed →
      (∃ halt, ((handle env (.close id)).run chain.store).result =
        .error halt) ∧
      ∃ response, ((handle env (.execute id)).run chain.store).result =
        .ok response) ↔
      ¬ LateMajority prop env.block := by
  constructor
  · intro hagree hlate
    have hcurrent : prop.currentStatus env.block = some Status.passed :=
      Proposal.currentStatus_of_isPassed hlate.1
        ((isPassed_open_iff hreachable hstored hlate.1).2 hlate)
    obtain ⟨prop', hstored', hpassed⟩ :=
      execute_ok_iff.1 (hagree hcurrent).2
    obtain rfl := Option.some.inj (hstored.symm.trans hstored')
    rw [hlate.1] at hpassed
    cases hpassed
  · intro hlate hcurrent
    have hpassed : prop.status = Status.passed := by
      by_cases hopen : prop.status = Status.open
      · rw [Proposal.currentStatus_eq_passed_iff hopen,
          isPassed_open_iff hreachable hstored hopen] at hcurrent
        exact absurd hcurrent hlate
      · rw [Proposal.currentStatus_of_not_open hopen] at hcurrent
        exact Option.some.inj hcurrent
    exact ⟨close_error_of_passed hstored hpassed,
      execute_ok_iff.2 ⟨prop, hstored, hpassed⟩⟩

end Late

section Example

/-- Three voters, of whom one is a quorum. -/
private def trio : InitMsg where
  voters := [⟨"alice", 1⟩, ⟨"bob", 1⟩, ⟨"carol", 1⟩]
  threshold := .thresholdQuorum (.percent 50) (.percent 30)
  maxVotingPeriod := .height 10

private theorem trio_accepted : trio.Accepted 3 where
  nonempty := by decide
  summed := by decide
  valid := Threshold.validate_eq_ok_iff.1 (by decide +kernel)

private def trioPropose : Call String :=
  ⟨⟨⟨11, 60⟩, ⟨"alice"⟩⟩, .propose "title" "description" ["send"] none⟩

private def trioVote : Call String := ⟨⟨⟨12, 66⟩, ⟨"bob"⟩⟩, .vote 1 .yes⟩

private def trioChain (calls : List (Call String)) : Chain String :=
  (Chain.deployed ⟨⟨10, 54⟩, ⟨"carol"⟩⟩ trio).replay calls

private theorem trioChain_reachable {calls : List (Call String)}
    (hordered : Ordered ⟨10, 54⟩ calls) :
    (multisig trio).Reachable (trioChain calls) :=
  reachable_replay (.of_start (start_deployed _ trio_accepted)) hordered

private def trioProposal (status : Status) (yes : U64) : Proposal String where
  title := "title"
  description := "description"
  startHeight := 11
  expires := .atHeight 21
  msgs := ["send"]
  status
  threshold := trio.threshold
  totalWeight := 3
  votes := ⟨yes, 0, 0, 0⟩

private theorem trioPassed_stored :
    (trioChain [trioPropose, trioVote]).store.proposals 1 =
      some (trioProposal Status.passed 2) := rfl

private theorem trioOpen_stored :
    (trioChain [trioPropose]).store.proposals 1 =
      some (trioProposal Status.open 1) := rfl

/-- One of three votes leaves the proposal open and undecided.  Two of three pass
it early, and they still do so at the deadline. -/
theorem stored_status_justified_trio :
    ((trioChain [trioPropose]).store.proposals 1 =
        some (trioProposal Status.open 1) ∧
      (trioProposal Status.open 1).isPassed ⟨12, 66⟩ = some false ∧
      (trioProposal Status.open 1).isRejected ⟨12, 66⟩ = some false ∧
      (trioProposal Status.open 1).currentStatus ⟨12, 66⟩ =
        some Status.open) ∧
    (trioChain [trioPropose, trioVote]).store.proposals 1 =
        some (trioProposal Status.passed 2) ∧
      (trioProposal Status.passed 2).isPassed ⟨13, 72⟩ = some true ∧
      (trioProposal Status.passed 2).currentStatus ⟨13, 72⟩ =
        some Status.passed ∧
      (trioProposal Status.passed 2).isPassed ⟨21, 120⟩ = some true := by
  have hopen : (multisig trio).Reachable (trioChain [trioPropose]) :=
    trioChain_reachable (by decide)
  have hpassed : (multisig trio).Reachable (trioChain [trioPropose, trioVote]) :=
    trioChain_reachable (by decide)
  obtain ⟨-, hundecided, hagrees⟩ := stored_status_justified hopen
    trioOpen_stored (by decide : _ ≤ (⟨12, 66⟩ : BlockInfo))
  obtain ⟨hearly, -, hagrees'⟩ := stored_status_justified hpassed
    trioPassed_stored (by decide : _ ≤ (⟨13, 72⟩ : BlockInfo))
  obtain ⟨hlate, -, -⟩ := stored_status_justified hpassed trioPassed_stored
    (by decide : _ ≤ (⟨21, 120⟩ : BlockInfo))
  obtain ⟨hnotPassed, hnotRejected⟩ := hundecided rfl (by decide)
  exact ⟨⟨trioOpen_stored, hnotPassed, hnotRejected, hagrees (by decide)⟩,
    trioPassed_stored, hearly (.inl rfl), hagrees' (by decide),
    hlate (.inl rfl)⟩

/-- One of three votes is a majority of the opinions at the deadline, but the
proposal is still stored as open: it is closed, and it is not executed. -/
theorem late_majority_lost :
    (multisig trio).Reachable (trioChain [trioPropose]) ∧
      (trioChain [trioPropose]).block ≤ ⟨21, 120⟩ ∧
      (trioChain [trioPropose]).store.proposals 1 =
        some (trioProposal Status.open 1) ∧
      (trioProposal Status.open 1).currentStatus ⟨21, 120⟩ =
        some Status.passed ∧
      ((handle ⟨⟨21, 120⟩, ⟨"carol"⟩⟩ (.close 1)).run
        (trioChain [trioPropose]).store).result =
          .ok (closeResponse ⟨⟨21, 120⟩, ⟨"carol"⟩⟩ 1) ∧
      ((handle ⟨⟨21, 120⟩, ⟨"carol"⟩⟩ (.execute 1)).run
        (trioChain [trioPropose]).store).result =
          .error (.error ContractError.wrongExecuteStatus.toStdError) :=
  ⟨trioChain_reachable (by decide), by decide, by rfl, by decide +kernel,
    by rfl, by rfl⟩

/-- After the second vote there is no late majority. -/
theorem current_passed_executable_trio :
    (trioChain [trioPropose, trioVote]).store.proposals 1 =
        some (trioProposal Status.passed 2) ∧
      (trioProposal Status.passed 2).currentStatus ⟨21, 120⟩ =
        some Status.passed ∧
      (∃ halt, ((handle ⟨⟨21, 120⟩, ⟨"carol"⟩⟩ (.close 1)).run
        (trioChain [trioPropose, trioVote]).store).result = .error halt) ∧
      ∃ response, ((handle ⟨⟨21, 120⟩, ⟨"carol"⟩⟩ (.execute 1)).run
        (trioChain [trioPropose, trioVote]).store).result =
          .ok response := by
  have hcurrent : (trioProposal Status.passed 2).currentStatus ⟨21, 120⟩ =
      some Status.passed := by
    decide +kernel
  have hlate : ¬ LateMajority (trioProposal Status.passed 2) ⟨21, 120⟩ :=
    fun hlate => absurd hlate.1 (by decide)
  exact ⟨trioPassed_stored, hcurrent, (current_passed_executable_iff
    (trioChain_reachable (by decide : Ordered _ [trioPropose, trioVote]))
    trioPassed_stored).2 hlate hcurrent⟩

end Example

end FixedMultisig
