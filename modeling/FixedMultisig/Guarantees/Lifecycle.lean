import FixedMultisig.Chain.Ledger

/-!
# The life of a proposal

A proposal is created open, passed or rejected, moves along three arrows only,
and dispatches its messages at most once.  What can happen to one proposal in
one call is collected in `Fate`; the statements about runs follow from it.
-/

namespace FixedMultisig

open CheckedWord

variable {M : Type} {msg : InitMsg}

/-- The arrows of the status diagram. -/
inductive StatusStep : Status → Status → Prop
  | pass : StatusStep Status.open Status.passed
  | reject : StatusStep Status.open Status.rejected
  | execute : StatusStep Status.passed Status.executed

theorem StatusStep.ne_pending {before after : Status}
    (hstep : StatusStep before after) : after ≠ Status.pending := by
  cases hstep <;> decide

/-- What a successful call does to one proposal that is already stored. -/
inductive Fate (env : Env) (id : U64) :
    HandleMsg M → Proposal M → Proposal M → Prop
  | untouched {call : HandleMsg M} {prop : Proposal M} : Fate env id call prop prop
  | voted {vote : Vote} {power : U64} {prop prop' : Proposal M}
      (hopen : prop.status = Status.open)
      (hprop : prop.recordVote vote power env.block = some prop') :
      Fate env id (.vote id vote) prop prop'
  | executed {prop : Proposal M} (hpassed : prop.status = Status.passed) :
      Fate env id (.execute id) prop { prop with status := Status.executed }
  | closed {prop : Proposal M}
      (hundecided :
        prop.status ∉ [Status.executed, Status.rejected, Status.passed])
      (hexpired : prop.expires.isExpired env.block = true) :
      Fate env id (.close id) prop { prop with status := Status.rejected }

/-- A call that writes one proposal leaves the others untouched. -/
theorem Fate.of_putProposal {store : Store M} {env : Env}
    {call : HandleMsg M} {id target : U64} {prop old new : Proposal M}
    (hwritten : store.proposals target = some old)
    (hstored : store.proposals id = some prop)
    (hfate : Fate env target call old new) :
    ∃ prop', (store.putProposal target new).proposals id = some prop' ∧
      Fate env id call prop prop' := by
  by_cases hne : id = target
  · subst hne
    obtain rfl := Option.some.inj (hstored.symm.trans hwritten)
    exact ⟨new, Store.putProposal_proposals_self .., hfate⟩
  · exact ⟨prop, (Store.putProposal_proposals_of_ne _ _ _ hne).trans hstored,
      .untouched⟩

/-- Every effect is a fate for every stored proposal. -/
theorem Effect.fate {totalWeight : U64} {store store' : Store M} {env : Env}
    {call : HandleMsg M} {response : HandleResponse M}
    (hledger : Ledger msg totalWeight store)
    (heffect : Effect store env call store' response) {id : U64}
    {prop : Proposal M} (hstored : store.proposals id = some prop) :
    ∃ prop', store'.proposals id = some prop' ∧ Fate env id call prop prop' := by
  cases heffect with
  | @propose _ _ _ _ _ _ _ new count fresh henabled hprop hcount hid =>
      have hne : id ≠ fresh := by
        rintro rfl
        rw [hledger.fresh hcount hid] at hstored
        cases hstored
      exact ⟨prop, (Store.putProposal_proposals_of_ne _ new _ hne).trans hstored,
        .untouched⟩
  | vote henabled hprop =>
      exact Fate.of_putProposal henabled.stored hstored
        (.voted henabled.isOpen hprop)
  | execute hexecuted hpassed =>
      exact Fate.of_putProposal hexecuted hstored (.executed hpassed)
  | close henabled =>
      exact Fate.of_putProposal henabled.stored hstored
        (.closed henabled.undecided henabled.expired)

namespace Fate

variable {env : Env} {id : U64} {call : HandleMsg M} {prop prop' : Proposal M}

/-- Nothing ever changes the messages of a proposal. -/
theorem msgs_eq (hfate : Fate env id call prop prop') :
    prop'.msgs = prop.msgs := by
  cases hfate with
  | voted hopen hprop =>
      obtain ⟨votes, status, -, -, rfl⟩ :=
        Proposal.recordVote_eq_some_iff.1 hprop
      rfl
  | _ => rfl

theorem statusStep (hfate : Fate env id call prop prop')
    (hpending : prop.status ≠ Status.pending) :
    prop'.status = prop.status ∨ StatusStep prop.status prop'.status := by
  cases hfate with
  | untouched => exact .inl rfl
  | voted hopen hprop =>
      obtain ⟨votes, status, -, hstatus, rfl⟩ :=
        Proposal.recordVote_eq_some_iff.1 hprop
      rw [hopen]
      have hopen' : Proposal.status { prop with votes } = Status.open := hopen
      rcases Proposal.currentStatus_of_open hopen' hstatus with rfl | rfl | rfl
      · exact .inl rfl
      · exact .inr .pass
      · exact .inr .reject
  | executed hpassed =>
      rw [hpassed]
      exact .inr .execute
  | closed hundecided hexpired =>
      have hopen : prop.status = Status.open := by
        revert hundecided hpending
        cases prop.status <;> decide
      rw [hopen]
      exact .inr .reject

/-- A decided proposal is only ever touched by its execution. -/
theorem eq_of_decided (hfate : Fate env id call prop prop')
    (hdecided : prop.status ∈
      [Status.executed, Status.rejected, Status.passed]) :
    prop' = prop ∨ prop.status = Status.passed ∧ call = .execute id := by
  cases hfate with
  | untouched => exact .inl rfl
  | voted hopen hprop =>
      rw [hopen] at hdecided
      exact absurd hdecided (by decide)
  | executed hpassed => exact .inr ⟨hpassed, rfl⟩
  | closed hundecided hexpired => exact absurd hdecided hundecided

end Fate

/-- A new proposal is open, passed or rejected. -/
theorem created_status {env : Env} {title description : String} {msgs : List M}
    {expires : Expiration} {power : U64} {cfg : Config} {prop : Proposal M}
    (hprop : (newProposal env title description msgs expires power
      cfg).updateStatus env.block = some prop) :
    prop.msgs = msgs ∧ (prop.status = Status.open ∨
      prop.status = Status.passed ∨ prop.status = Status.rejected) := by
  obtain ⟨status, hstatus, rfl⟩ := Proposal.updateStatus_eq_some_iff.1 hprop
  exact ⟨rfl, Proposal.currentStatus_of_open rfl hstatus⟩

/-- What a call has done that stored a proposal under an unused id. -/
theorem Effect.opened {store store' : Store M} {env : Env}
    {call : HandleMsg M} {response : HandleResponse M}
    (heffect : Effect store env call store' response) {id : U64}
    {prop : Proposal M} (hnone : store.proposals id = none)
    (hstored : store'.proposals id = some prop) :
    ∃ title description latest power cfg expires,
      call = .propose title description prop.msgs latest ∧
        ProposeEnabled store env latest power cfg expires ∧
        (newProposal env title description prop.msgs expires power
          cfg).updateStatus env.block = some prop ∧
        store'.ballots = (store.putBallot id env.message.sender
          ⟨power, .yes⟩).ballots := by
  cases heffect with
  | @propose title description msgs latest power cfg expires _ _ _ henabled
      hprop =>
      rw [Store.putBallot_proposals] at hstored
      obtain ⟨rfl, rfl⟩ := Store.eq_of_putProposal _ _ _ hnone hstored
      have hmsgs := (created_status hprop).1
      exact ⟨title, description, latest, power, cfg, expires, by rw [hmsgs],
        henabled, by rw [hmsgs]; exact hprop, rfl⟩
  | vote henabled hprop =>
      obtain ⟨rfl, -⟩ := Store.eq_of_putProposal _ _ _ hnone hstored
      rw [henabled.stored] at hnone
      cases hnone
  | execute hexecuted hpassed =>
      obtain ⟨rfl, -⟩ := Store.eq_of_putProposal _ _ _ hnone hstored
      rw [hexecuted] at hnone
      cases hnone
  | close henabled =>
      obtain ⟨rfl, -⟩ := Store.eq_of_putProposal _ _ _ hnone hstored
      rw [henabled.stored] at hnone
      cases hnone

/-- Only a proposal creates a proposal. -/
theorem Effect.created {store store' : Store M} {env : Env}
    {call : HandleMsg M} {response : HandleResponse M}
    (heffect : Effect store env call store' response) {id : U64}
    {prop : Proposal M} (hnone : store.proposals id = none)
    (hstored : store'.proposals id = some prop) :
    (∃ title description latest,
      call = .propose title description prop.msgs latest) ∧
      (prop.status = Status.open ∨ prop.status = Status.passed ∨
        prop.status = Status.rejected) := by
  obtain ⟨title, description, latest, power, cfg, expires, hcall, -, hprop, -⟩ :=
    heffect.opened hnone hstored
  exact ⟨⟨title, description, latest, hcall⟩, (created_status hprop).2⟩

/-- No stored proposal is ever pending. -/
theorem not_pending {chain : Chain M}
    (hreachable : (multisig msg).Reachable chain) {id : U64} {prop : Proposal M}
    (hstored : chain.store.proposals id = some prop) :
    prop.status ≠ Status.pending := by
  obtain ⟨first, steps, hfirst, hrun⟩ := hreachable
  refine proposal_invariant (P := fun prop _ => prop.status ≠ Status.pending)
    (C := fun _ _ => True) (fun _ _ _ _ h => h) ?_ ?_ (fun _ _ _ _ h => nomatch h)
    (fun _ _ _ _ _ _ h => nomatch h) hfirst hrun (fun _ _ _ _ => trivial) hstored
  · intro _ env title description msgs latest power cfg expires prop _ _ _ hprop
    rcases (created_status hprop).2 with h | h | h <;> rw [h] <;> decide
  · intro _ env id vote power prop prop' _ _ henabled hprop hpending
    have hfate : Fate env id (.vote id vote) prop prop' :=
      .voted henabled.isOpen hprop
    rcases hfate.statusStep hpending with h | h
    · exact h ▸ hpending
    · exact h.ne_pending

/-! ## Steps and runs -/

section Runs

variable {chain next first last : Chain M} {call : Call M}
variable {steps : List (Transition (Chain M) (Call M))}

theorem step_fate (hreachable : (multisig msg).Reachable chain)
    (hstep : (multisig msg).step chain call next) {id : U64}
    {prop : Proposal M} (hstored : chain.store.proposals id = some prop) :
    ∃ prop', next.store.proposals id = some prop' ∧
      Fate call.env id call.msg prop prop' := by
  obtain ⟨totalWeight, -, hledger⟩ := ledger_of_reachable hreachable
  rcases (step_cases hstep).2.2 with ⟨response, -, heffect⟩ | ⟨halt, -, hsame⟩
  · exact heffect.fate hledger hstored
  · exact ⟨prop, by rw [hsame, hstored], .untouched⟩

theorem step_created (hstep : (multisig msg).step chain call next) {id : U64}
    {prop : Proposal M} (hnone : chain.store.proposals id = none)
    (hstored : next.store.proposals id = some prop) :
    (∃ title description latest,
      call.msg = .propose title description prop.msgs latest) ∧
      (prop.status = Status.open ∨ prop.status = Status.passed ∨
        prop.status = Status.rejected) := by
  rcases (step_cases hstep).2.2 with ⟨response, -, heffect⟩ | ⟨halt, -, hsame⟩
  · exact heffect.created hnone hstored
  · rw [hsame, hnone] at hstored
    cases hstored

/-- What a call settles about the proposal it creates, and no later call
changes, holds of every proposal that a run stores. -/
theorem creation_invariant {Q : Call M → Proposal M → Prop}
    (hopened : ∀ (chain : Chain M) call next id prop,
      (multisig msg).Reachable chain → (multisig msg).step chain call next →
      chain.store.proposals id = none →
      next.store.proposals id = some prop → Q call prop)
    (hkept : ∀ creation env id call prop prop',
      Fate env id call prop prop' → Q creation prop → Q creation prop')
    (hfirst : (multisig msg).start first)
    (hrun : (multisig msg).Run first steps last) {id : U64} {prop : Proposal M}
    (hstored : last.store.proposals id = some prop) :
    ∃ creation ∈ steps, creation.source.store.proposals id = none ∧
      (creation.target.store.proposals id).isSome ∧
      Q creation.label prop := by
  induction hrun generalizing prop with
  | nil =>
      obtain ⟨totalWeight, -, hstore⟩ := start_cases hfirst
      rw [hstore] at hstored
      cases hstored
  | @snoc steps chain next call hrun hstep ih =>
      have hreachable : (multisig msg).Reachable chain :=
        ⟨first, steps, hfirst, hrun⟩
      cases hbefore : chain.store.proposals id with
      | none =>
          exact ⟨⟨chain, call, next⟩, by simp, hbefore, by simp [hstored],
            hopened chain call next id prop hreachable hstep hbefore hstored⟩
      | some prop' =>
          obtain ⟨prop'', hafter, hfate⟩ := step_fate hreachable hstep hbefore
          obtain rfl := Option.some.inj (hstored.symm.trans hafter)
          obtain ⟨creation, hmem, hold, hnew, hcreation⟩ := ih hbefore
          exact ⟨creation, List.mem_append_left _ hmem, hold, hnew,
            hkept _ _ _ _ _ _ hfate hcreation⟩

/-- Every proposal stored after a run was created in it, with the messages it
still has. -/
theorem creation_of_stored (hfirst : (multisig msg).start first)
    (hrun : (multisig msg).Run first steps last) {id : U64} {prop : Proposal M}
    (hstored : last.store.proposals id = some prop) :
    ∃ creation ∈ steps, ∃ title description latest,
      creation.label.msg = .propose title description prop.msgs latest ∧
        creation.source.store.proposals id = none ∧
        (creation.target.store.proposals id).isSome := by
  obtain ⟨creation, hmem, hold, hnew, title, description, latest, hmsg⟩ :=
    creation_invariant
      (Q := fun call prop => ∃ title description latest,
        call.msg = .propose title description prop.msgs latest)
      (fun _ _ _ _ _ _ hstep hbefore hafter =>
        (step_created hstep hbefore hafter).1)
      (fun _ _ _ _ _ _ hfate hcreation => by rwa [hfate.msgs_eq])
      hfirst hrun hstored
  exact ⟨creation, hmem, title, description, latest, hmsg, hold, hnew⟩

/-- The successful executions of one proposal. -/
def Executes (id : U64) (move : Transition (Chain M) (Call M)) : Bool :=
  match move.label.msg, (move.label.run move.source.store).result with
  | .execute target, .ok _ => target = id
  | _, _ => false

theorem executes_iff {id : U64} {move : Transition (Chain M) (Call M)} :
    Executes id move = true ↔ move.label.msg = .execute id ∧
      ∃ response, (move.label.run move.source.store).result = .ok response := by
  rw [Executes]
  split
  · next target response hmsg hok =>
      rw [hmsg, hok]
      simp
  · next hnone =>
      simp only [Bool.false_eq_true, false_iff, not_and, not_exists]
      intro hmsg response hok
      exact hnone id response hmsg hok

/-- A successful execution starts from a passed proposal, returns its messages
and leaves it executed. -/
theorem step_executed (hstep : (multisig msg).step chain call next) {id : U64}
    (hmsg : call.msg = .execute id) {response : HandleResponse M}
    (hok : (call.run chain.store).result = .ok response) :
    ∃ prop, chain.store.proposals id = some prop ∧
      prop.status = Status.passed ∧ response.messages = prop.msgs ∧
      next.store.proposals id =
        some { prop with status := Status.executed } := by
  obtain ⟨hblock, rfl⟩ := hstep
  have heffect := effect_of_ok hok
  rw [Chain.submit, Exec.commit_of_ok hok]
  rw [hmsg] at heffect ⊢
  generalize ((handle call.env (.execute id)).run chain.store).store = store
    at heffect ⊢
  cases heffect with
  | execute hstored hpassed =>
      exact ⟨_, hstored, hpassed, rfl, Store.putProposal_proposals_self ..⟩

/-- Only executions return messages. -/
theorem step_silent (hsilent : ∀ id, call.msg ≠ .execute id)
    {store : Store M} {response : HandleResponse M}
    (hok : (call.run store).result = .ok response) :
    response.messages = [] := by
  have heffect := effect_of_ok hok
  generalize ((handle call.env call.msg).run store).store = store' at heffect
  obtain ⟨env, call⟩ := call
  cases heffect with
  | execute hstored hpassed => exact absurd rfl (hsilent _)
  | _ => rfl

/-- An execution needs a proposal that is not executed yet and leaves one that
stays executed, so there is at most one. -/
theorem countP_executes_le_one (hfirst : (multisig msg).start first)
    (hrun : (multisig msg).Run first steps last) (id : U64) :
    steps.countP (Executes id) ≤ 1 := by
  refine (hrun.countP_le_one hfirst (Executes id)
    (fun chain => ∃ prop, chain.store.proposals id = some prop ∧
      prop.status = Status.executed) ?_ ?_).1
  · intro chain call next _ hstep hexecutes
    obtain ⟨hmsg, response, hok⟩ := executes_iff.1 hexecutes
    obtain ⟨prop, hstored, hpassed, -, hnext⟩ := step_executed hstep hmsg hok
    refine ⟨fun ⟨prop', hstored', hexecuted⟩ => ?_, _, hnext, rfl⟩
    obtain rfl := Option.some.inj (hstored.symm.trans hstored')
    rw [hpassed] at hexecuted
    cases hexecuted
  · rintro chain call next hchain hstep ⟨prop, hstored, hexecuted⟩
    obtain ⟨prop', hstored', hfate⟩ := step_fate hchain hstep hstored
    rcases hfate.eq_of_decided (by simp [hexecuted]) with rfl | ⟨hpassed, -⟩
    · exact ⟨prop', hstored', hexecuted⟩
    · rw [hexecuted] at hpassed
      cases hpassed

/-- What a run does to the proposals: where their status starts and how it
moves, that a passed proposal stays as it is and can be executed by anyone in
any block until it is executed, and that messages are returned once, by an
execution, as they were proposed. -/
structure Lifecycle (steps : List (Transition (Chain M) (Call M))) : Prop where
  created : ∀ move ∈ steps, ∀ id prop,
    move.source.store.proposals id = none →
    move.target.store.proposals id = some prop →
    prop.status = Status.open ∨ prop.status = Status.passed ∨
      prop.status = Status.rejected
  moved : ∀ move ∈ steps, ∀ id prop,
    move.source.store.proposals id = some prop →
    ∃ prop', move.target.store.proposals id = some prop' ∧
      (prop'.status = prop.status ∨ StatusStep prop.status prop'.status)
  notPending : ∀ move ∈ steps, ∀ id prop,
    move.target.store.proposals id = some prop → prop.status ≠ Status.pending
  final : ∀ move ∈ steps, ∀ id prop,
    move.source.store.proposals id = some prop →
    prop.status = Status.rejected ∨ prop.status = Status.executed →
    move.target.store.proposals id = some prop
  passed : ∀ move ∈ steps, ∀ id prop,
    move.source.store.proposals id = some prop →
    prop.status = Status.passed → Executes id move = false →
    move.target.store.proposals id = some prop
  executable : ∀ move ∈ steps, ∀ id prop,
    move.target.store.proposals id = some prop →
    prop.status = Status.passed → ∀ env, ∃ response,
      ((handle env (.execute id)).run move.target.store).result = .ok response
  once : ∀ id, steps.countP (Executes id) ≤ 1
  dispatched : ∀ before move after, steps = before ++ move :: after →
    ∀ id response, move.label.msg = .execute id →
    (move.label.run move.source.store).result = .ok response →
    ∃ creation ∈ before, ∃ title description latest,
      creation.label.msg =
          .propose title description response.messages latest ∧
        creation.source.store.proposals id = none ∧
        (creation.target.store.proposals id).isSome
  silent : ∀ move ∈ steps, (∀ id, move.label.msg ≠ .execute id) →
    ∀ response, (move.label.run move.source.store).result = .ok response →
    response.messages = []

/-- A decided proposal is changed by no step except its own execution. -/
theorem step_decided (hreachable : (multisig msg).Reachable chain)
    (hstep : (multisig msg).step chain call next) {id : U64}
    {prop : Proposal M} (hstored : chain.store.proposals id = some prop)
    (hdecided : prop.status ∈
      [Status.executed, Status.rejected, Status.passed])
    (hexecutes : prop.status = Status.passed →
      Executes id ⟨chain, call, next⟩ = false) :
    next.store.proposals id = some prop := by
  rcases (step_cases hstep).2.2 with ⟨response, hok, heffect⟩ |
    ⟨halt, -, hsame⟩
  · obtain ⟨totalWeight, -, hledger⟩ := ledger_of_reachable hreachable
    obtain ⟨prop', hstored', hfate⟩ := heffect.fate hledger hstored
    rcases hfate.eq_of_decided hdecided with rfl | ⟨hpassed, hmsg⟩
    · exact hstored'
    · have hexecuted : Executes id ⟨chain, call, next⟩ = true :=
        executes_iff.2 ⟨hmsg, response, hok⟩
      rw [hexecutes hpassed] at hexecuted
      cases hexecuted
  · rw [hsame, hstored]

/-- Every run has this lifecycle. -/
theorem run_lifecycle (hfirst : (multisig msg).start first)
    (hrun : (multisig msg).Run first steps last) : Lifecycle steps where
  created move hmove id prop hnone hstored :=
    (step_created (hrun.forall_mem hfirst move hmove).2 hnone hstored).2
  moved move hmove id prop hstored := by
    obtain ⟨hreachable, hstep⟩ := hrun.forall_mem hfirst move hmove
    obtain ⟨prop', hstored', hfate⟩ := step_fate hreachable hstep hstored
    exact ⟨prop', hstored', hfate.statusStep (not_pending hreachable hstored)⟩
  notPending move hmove id prop hstored := by
    obtain ⟨hreachable, hstep⟩ := hrun.forall_mem hfirst move hmove
    exact not_pending (hreachable.step hstep) hstored
  final move hmove id prop hstored hfinal := by
    obtain ⟨hreachable, hstep⟩ := hrun.forall_mem hfirst move hmove
    refine step_decided hreachable hstep hstored ?_ fun hpassed => ?_
    · rcases hfinal with h | h <;> simp [h]
    · rcases hfinal with h | h <;> rw [h] at hpassed <;> cases hpassed
  passed move hmove id prop hstored hpassed hexecutes := by
    obtain ⟨hreachable, hstep⟩ := hrun.forall_mem hfirst move hmove
    exact step_decided hreachable hstep hstored (by simp [hpassed])
      fun _ => hexecutes
  executable move _ id prop hstored hpassed env := by
    refine ⟨executeResponse env id prop, ?_⟩
    rw [handle, executeExecute_of_passed hstored hpassed]
  once := countP_executes_le_one hfirst hrun
  dispatched before move after hsteps id response hmsg hok := by
    rw [hsteps] at hrun
    obtain ⟨hbefore, hstep⟩ := hrun.split
    obtain ⟨prop, hstored, -, hmessages, -⟩ := step_executed hstep hmsg hok
    rw [hmessages]
    exact creation_of_stored hfirst hbefore hstored
  silent move _ hsilent response hok := step_silent hsilent hok

end Runs

section Example

private def soloist : InitMsg where
  voters := [⟨"alice", 1⟩]
  threshold := .absoluteCount 1
  maxVotingPeriod := .height 100

private theorem soloist_accepted : soloist.Accepted 1 where
  nonempty := by decide
  summed := by decide
  valid := Threshold.validate_eq_ok_iff.1 (by decide)

private def soloistStart : Chain String :=
  Chain.deployed ⟨⟨10, 54⟩, ⟨"carol"⟩⟩ soloist

private def soloistPropose : Call String :=
  ⟨⟨⟨11, 60⟩, ⟨"alice"⟩⟩, .propose "title" "description" ["send"] none⟩

private def soloistExecute : Call String :=
  ⟨⟨⟨12, 66⟩, ⟨"carol"⟩⟩, .execute 1⟩

private def soloistSteps : List (Transition (Chain String) (Call String)) :=
  [⟨soloistStart, soloistPropose, soloistStart.submit soloistPropose⟩,
    ⟨soloistStart.submit soloistPropose, soloistExecute,
      (soloistStart.submit soloistPropose).submit soloistExecute⟩]

/-- A run that passes a proposal at once and executes it. -/
theorem run_lifecycle_soloist :
    soloistSteps.map (Executes 1) = [false, true] ∧ Lifecycle soloistSteps := by
  have hpropose : (multisig soloist).step soloistStart soloistPropose
      (soloistStart.submit soloistPropose) := ⟨by decide, rfl⟩
  have hexecute : (multisig soloist).step (soloistStart.submit soloistPropose)
      soloistExecute ((soloistStart.submit soloistPropose).submit
        soloistExecute) := ⟨by decide, rfl⟩
  exact ⟨by decide +kernel, run_lifecycle (start_deployed _ soloist_accepted)
    ((EventSystem.Run.nil.snoc hpropose).snoc hexecute)⟩

end Example

end FixedMultisig
