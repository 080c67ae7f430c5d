import FixedMultisig.Guarantees.Creation
import FixedMultisig.Guarantees.Lifecycle

/-!
# Deadlines

Every proposal has a deadline.  It is of the kind of the voting period, no
later than the end of the period that begins when the proposal is created, and
it never moves.  From the deadline on a proposal takes no ballot, keeps its
tally and can no longer become passed.
-/

namespace FixedMultisig

variable {M : Type} {msg : InitMsg}

/-- The clamp only compares expirations of one kind, and `never` is above all
of them. -/
theorem sameKind_of_clampExpires {latest : Option Expiration}
    {maxExpires expires : Expiration} {period : Duration} {block : BlockInfo}
    (hmax : period.after block = some maxExpires)
    (hclamp : clampExpires latest maxExpires = some expires) :
    expires.SameKind period := by
  have hkind := Duration.sameKind_of_after hmax
  rw [clampExpires] at hclamp
  split at hclamp
  · next hgt =>
      obtain rfl := Option.some.inj hclamp
      exact hkind
  · cases hclamp
  · next order hne hle =>
      obtain rfl := Option.some.inj hclamp
      -- The choice is comparable to the end of the period and not above it.
      revert hkind hne hle
      generalize latest.getD maxExpires = chosen
      intro hkind hne hle
      cases chosen <;> cases maxExpires <;> cases period <;>
        simp_all [Expiration.SameKind, Expiration.partialCmp]

/-- The deadline of a proposal that this call creates. -/
structure Bounded (period : Duration) (creation : Call M) (prop : Proposal M) :
    Prop where
  kind : prop.expires.SameKind period
  created : ∃ title description latest,
    creation.msg = .propose title description prop.msgs latest
  limit : ∃ maxExpires, period.after creation.env.block = some maxExpires ∧
    ∀ block, maxExpires.isExpired block → prop.expires.isExpired block

theorem bounded_of_enabled {store : Store M} {env : Env}
    {title description : String} {latest : Option Expiration} {power : U64}
    {cfg : Config} {expires : Expiration} {prop : Proposal M}
    (henabled : ProposeEnabled store env latest power cfg expires)
    (hprop : (newProposal env title description prop.msgs expires power
      cfg).updateStatus env.block = some prop) :
    Bounded cfg.maxVotingPeriod
      ⟨env, .propose title description prop.msgs latest⟩ prop := by
  obtain ⟨maxExpires, hmax, hclamp⟩ := henabled.clamped
  have hexpires : prop.expires = expires := by
    obtain ⟨status, -, hprop⟩ := Proposal.updateStatus_eq_some_iff.1 hprop
    rw [hprop]
    rfl
  refine ⟨?_, ⟨title, description, latest, rfl⟩, maxExpires, hmax, ?_⟩
  · rw [hexpires]
    exact sameKind_of_clampExpires hmax hclamp
  · intro block hblock
    rw [hexpires]
    exact (isExpired_of_clampExpires hclamp).2 (.inr hblock)

/-- A proposal keeps its deadline. -/
theorem Fate.expires_eq {env : Env} {id : U64} {call : HandleMsg M}
    {prop prop' : Proposal M} (hfate : Fate env id call prop prop') :
    prop'.expires = prop.expires := by
  cases hfate with
  | voted hopen hprop =>
      obtain ⟨votes, status, -, -, rfl⟩ :=
        Proposal.recordVote_eq_some_iff.1 hprop
      rfl
  | _ => rfl

theorem Bounded.of_fate {period : Duration} {creation : Call M} {env : Env}
    {id : U64} {call : HandleMsg M} {prop prop' : Proposal M}
    (hbounded : Bounded period creation prop)
    (hfate : Fate env id call prop prop') : Bounded period creation prop' where
  kind := by
    rw [hfate.expires_eq]
    exact hbounded.kind
  created := by
    rw [hfate.msgs_eq]
    exact hbounded.created
  limit := by
    rw [hfate.expires_eq]
    exact hbounded.limit

/-- From its deadline on, a call leaves the ballots and the tally of a
proposal alone and does not pass it. -/
theorem Effect.settled {totalWeight : U64} {store store' : Store M} {env : Env}
    {call : HandleMsg M} {response : HandleResponse M}
    (hledger : Ledger msg totalWeight store)
    (heffect : Effect store env call store' response) {id : U64}
    {prop : Proposal M} (hstored : store.proposals id = some prop)
    (hexpired : prop.expires.isExpired env.block = true) :
    store'.ballots id = store.ballots id ∧
      ∃ status, store'.proposals id = some { prop with status } ∧
        (status = prop.status ∨ status ≠ Status.passed) := by
  -- A call that writes another status is not a vote, or is about another id.
  have hput : ∀ {target : U64} {old : Proposal M} {status : Status},
      store.proposals target = some old → status ≠ Status.passed →
      ∃ status', (store.putProposal target { old with status }).proposals id =
          some { prop with status := status' } ∧
        (status' = prop.status ∨ status' ≠ Status.passed) := by
    intro target old status hold hstatus
    by_cases hne : id = target
    · subst hne
      obtain rfl := Option.some.inj (hstored.symm.trans hold)
      exact ⟨status, Store.putProposal_proposals_self .., .inr hstatus⟩
    · exact ⟨prop.status,
        (Store.putProposal_proposals_of_ne _ _ _ hne).trans hstored, .inl rfl⟩
  cases heffect with
  | @propose _ _ _ _ _ _ _ new count fresh henabled hprop hcount hid =>
      have hne : id ≠ fresh := by
        rintro rfl
        rw [hledger.fresh hcount hid] at hstored
        cases hstored
      exact ⟨Store.putBallot_ballots_of_ne _ _ _ _ hne, prop.status,
        (Store.putProposal_proposals_of_ne _ new _ hne).trans hstored, .inl rfl⟩
  | @vote target power vote old new henabled hprop =>
      have hne : id ≠ target := by
        rintro rfl
        obtain rfl := Option.some.inj (hstored.symm.trans henabled.stored)
        rw [henabled.unexpired] at hexpired
        cases hexpired
      exact ⟨Store.putBallot_ballots_of_ne _ _ _ _ hne, prop.status,
        (Store.putProposal_proposals_of_ne _ new _ hne).trans hstored, .inl rfl⟩
  | execute hexecuted hpassed => exact ⟨rfl, hput hexecuted (by decide)⟩
  | close henabled => exact ⟨rfl, hput henabled.stored (by decide)⟩

section Runs

variable {chain next first last : Chain M} {call : Call M}
variable {steps : List (Transition (Chain M) (Call M))}

/-- The effect of a call that stored a proposal under an unused id. -/
theorem step_opened (hstep : (multisig msg).step chain call next) {id : U64}
    {prop : Proposal M} (hnone : chain.store.proposals id = none)
    (hstored : next.store.proposals id = some prop) :
    ∃ response, Effect chain.store call.env call.msg next.store response := by
  rcases (step_cases hstep).2.2 with ⟨response, -, heffect⟩ | ⟨halt, -, hsame⟩
  · exact ⟨response, heffect⟩
  · rw [hsame, hnone] at hstored
    cases hstored

theorem step_bounded (hreachable : (multisig msg).Reachable chain)
    (hstep : (multisig msg).step chain call next) {id : U64}
    {prop : Proposal M} (hnone : chain.store.proposals id = none)
    (hstored : next.store.proposals id = some prop) :
    Bounded msg.maxVotingPeriod call prop := by
  obtain ⟨totalWeight, -, hledger⟩ := ledger_of_reachable hreachable
  obtain ⟨response, heffect⟩ := step_opened hstep hnone hstored
  obtain ⟨env, call⟩ := call
  obtain ⟨title, description, latest, power, cfg, expires, rfl, henabled, hprop,
    -⟩ := heffect.opened hnone hstored
  have hbounded := bounded_of_enabled henabled hprop
  rwa [hledger.config_eq henabled.configured] at hbounded

theorem step_settled (hreachable : (multisig msg).Reachable chain)
    (hstep : (multisig msg).step chain call next) {id : U64}
    {prop : Proposal M} (hstored : chain.store.proposals id = some prop)
    (hexpired : prop.expires.isExpired call.env.block = true) :
    next.store.ballots id = chain.store.ballots id ∧
      ∃ status, next.store.proposals id = some { prop with status } ∧
        (status = prop.status ∨ status ≠ Status.passed) := by
  obtain ⟨totalWeight, -, hledger⟩ := ledger_of_reachable hreachable
  rcases (step_cases hstep).2.2 with ⟨response, -, heffect⟩ | ⟨halt, -, hsame⟩
  · exact heffect.settled hledger hstored hexpired
  · rw [hsame]
    exact ⟨rfl, prop.status, hstored, .inl rfl⟩

/-- What a run says about deadlines: every stored proposal was created by a
call of the run and ends no later than the voting period after it; it begins
with the proposer's yes; from its deadline on neither its ballots nor its tally
change; and what is passed later than at its creation is passed in time. -/
structure Deadlines (steps : List (Transition (Chain M) (Call M)))
    (last : Chain M) : Prop where
  bounded : ∀ id prop, last.store.proposals id = some prop →
    prop.expires ≠ .never ∧ ∃ cfg, last.store.config = some cfg ∧
      ∃ creation ∈ steps, creation.source.store.proposals id = none ∧
        (creation.target.store.proposals id).isSome ∧
        Bounded cfg.maxVotingPeriod creation.label prop
  opened : ∀ move ∈ steps, ∀ id prop,
    move.source.store.proposals id = none →
    move.target.store.proposals id = some prop →
    ∃ power, prop.votes = Votes.initYes power ∧ ∀ addr,
      move.target.store.ballots id addr =
        if addr = move.label.env.message.sender then some ⟨power, .yes⟩
        else none
  closed : ∀ move ∈ steps, ∀ id prop,
    move.source.store.proposals id = some prop →
    prop.expires.isExpired move.label.env.block →
    move.target.store.ballots id = move.source.store.ballots id ∧
      ∃ prop', move.target.store.proposals id = some prop' ∧
        prop'.votes = prop.votes
  passed : ∀ move ∈ steps, ∀ id prop prop',
    move.source.store.proposals id = some prop →
    move.target.store.proposals id = some prop' →
    prop.status ≠ Status.passed → prop'.status = Status.passed →
    prop.expires.isExpired move.label.env.block = false

/-- Every run keeps the deadlines. -/
theorem run_deadlines (hfirst : (multisig msg).start first)
    (hrun : (multisig msg).Run first steps last) : Deadlines steps last where
  bounded id prop hstored := by
    obtain ⟨totalWeight, -, hledger⟩ :=
      ledger_of_reachable ⟨first, steps, hfirst, hrun⟩
    obtain ⟨creation, hmem, hold, hnew, hbounded⟩ := creation_invariant
      (Q := Bounded msg.maxVotingPeriod)
      (fun _ _ _ _ _ hreachable hstep => step_bounded hreachable hstep)
      (fun _ _ _ _ _ _ hfate hbounded => hbounded.of_fate hfate)
      hfirst hrun hstored
    exact ⟨hbounded.kind.ne_never, _, hledger.config, creation, hmem, hold,
      hnew, hbounded⟩
  opened move hmove id prop hnone hstored := by
    obtain ⟨hreachable, hstep⟩ := hrun.forall_mem hfirst move hmove
    obtain ⟨totalWeight, -, hledger⟩ := ledger_of_reachable hreachable
    obtain ⟨response, heffect⟩ := step_opened hstep hnone hstored
    obtain ⟨title, description, latest, power, cfg, expires, -, -, hprop,
      hballots⟩ := heffect.opened hnone hstored
    obtain ⟨status, -, hprop⟩ := Proposal.updateStatus_eq_some_iff.1 hprop
    refine ⟨power, by rw [hprop]; rfl, fun addr => ?_⟩
    rw [hballots]
    split
    · next haddr => rw [haddr, Store.putBallot_ballots_self]
    · next haddr =>
        rw [Store.putBallot_ballots_of_ne_addr _ _ _ _ haddr]
        exact hledger.unstored id hnone addr
  closed move hmove id prop hstored hexpired := by
    obtain ⟨hreachable, hstep⟩ := hrun.forall_mem hfirst move hmove
    obtain ⟨hballots, status, hnext, -⟩ :=
      step_settled hreachable hstep hstored hexpired
    exact ⟨hballots, _, hnext, rfl⟩
  passed move hmove id prop prop' hstored hnext hbefore hafter := by
    obtain ⟨hreachable, hstep⟩ := hrun.forall_mem hfirst move hmove
    by_contra hexpired
    obtain ⟨-, status, hsettled, hstatus⟩ := step_settled hreachable hstep
      hstored (Bool.of_not_eq_false hexpired)
    obtain rfl := Option.some.inj (hnext.symm.trans hsettled)
    rcases hstatus with hsame | hother
    · exact hbefore (hsame ▸ hafter)
    · exact hother hafter

end Runs

section Example

private def tardy : InitMsg where
  voters := [⟨"alice", 1⟩, ⟨"bob", 1⟩]
  threshold := .absoluteCount 2
  maxVotingPeriod := .height 10

private theorem tardy_accepted : tardy.Accepted 2 where
  nonempty := by decide
  summed := by decide
  valid := Threshold.validate_eq_ok_iff.1 (by decide)

private def tardyStart : Chain String :=
  Chain.deployed ⟨⟨10, 54⟩, ⟨"carol"⟩⟩ tardy

/-- The proposer asks for a proposal that never expires. -/
private def tardyPropose : Call String :=
  ⟨⟨⟨11, 60⟩, ⟨"alice"⟩⟩,
    .propose "title" "description" ["send"] (some .never)⟩

private def tardyVote : Call String := ⟨⟨⟨21, 120⟩, ⟨"bob"⟩⟩, .vote 1 .yes⟩

private def tardySteps : List (Transition (Chain String) (Call String)) :=
  [⟨tardyStart, tardyPropose, tardyStart.submit tardyPropose⟩,
    ⟨tardyStart.submit tardyPropose, tardyVote,
      (tardyStart.submit tardyPropose).submit tardyVote⟩]

/-- The proposal ends with the voting period, and the vote that would pass it
comes too late. -/
theorem run_deadlines_tardy :
    (((tardyStart.submit tardyPropose).submit tardyVote).store.proposals
        1).map (fun prop => (prop.expires, prop.status, prop.votes)) =
      some (.atHeight 21, Status.open, ⟨1, 0, 0, 0⟩) ∧
    Deadlines tardySteps ((tardyStart.submit tardyPropose).submit tardyVote) := by
  have hpropose : (multisig tardy).step tardyStart tardyPropose
      (tardyStart.submit tardyPropose) := ⟨by decide, rfl⟩
  have hvote : (multisig tardy).step (tardyStart.submit tardyPropose)
      tardyVote ((tardyStart.submit tardyPropose).submit tardyVote) :=
    ⟨by decide, rfl⟩
  exact ⟨rfl, run_deadlines (start_deployed _ tardy_accepted)
    ((EventSystem.Run.nil.snoc hpropose).snoc hvote)⟩

end Example

end FixedMultisig
