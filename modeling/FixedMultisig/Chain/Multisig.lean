import FixedMultisig.Contract.HandlerEffects
import FixedMultisig.Contract.Initialization
import FixedMultisig.Core.EventSystem

/-!
# The contract on a chain

A chain holds the store of the contract and the block of the last call.  Calls
come from any sender and carry any message, in blocks that never go back in
height or time; a call that returns no value leaves the store as it was.  The
multisig of an initialization message is this system started from a store that
`init` accepted.
-/

namespace FixedMultisig

variable {M : Type}

structure Chain (M : Type) where
  store : Store M
  block : BlockInfo

structure Call (M : Type) where
  env : Env
  msg : HandleMsg M

def Call.run (call : Call M) (store : Store M) :
    Outcome (Store M) StdError (HandleResponse M) :=
  (handle call.env call.msg).run store

def Chain.submit (chain : Chain M) (call : Call M) : Chain M where
  store := (handle call.env call.msg).commit chain.store
  block := call.env.block

/-- The contract just after a successful `init`. -/
def Chain.deployed (env : Env) (msg : InitMsg) : Chain M where
  store := (init env msg).commit Store.empty
  block := env.block

def multisig (msg : InitMsg) : EventSystem (Chain M) (Call M) where
  start chain := ∃ env response,
    ((init env msg).run (Store.empty : Store M)).result = .ok response ∧
      chain = Chain.deployed env msg
  step chain call next :=
    chain.block ≤ call.env.block ∧ next = chain.submit call

/-- The chain after a list of calls. -/
def Chain.replay (chain : Chain M) (calls : List (Call M)) : Chain M :=
  calls.foldl Chain.submit chain

/-- The transitions of a list of calls. -/
def Chain.moves : Chain M → List (Call M) → List (Transition (Chain M) (Call M))
  | _, [] => []
  | chain, call :: calls =>
      ⟨chain, call, chain.submit call⟩ :: (chain.submit call).moves calls

/-- The call of a transition returned a response. -/
def Transition.isAccepted (move : Transition (Chain M) (Call M)) : Bool :=
  (move.label.run move.source.store).result.isOk

theorem Transition.isAccepted_of_ok {move : Transition (Chain M) (Call M)}
    {response : HandleResponse M}
    (hok : (move.label.run move.source.store).result = .ok response) :
    move.isAccepted = true := by
  rw [isAccepted, hok]
  rfl

theorem Transition.isAccepted_of_error {move : Transition (Chain M) (Call M)}
    {halt : Halt StdError}
    (herror : (move.label.run move.source.store).result = .error halt) :
    move.isAccepted = false := by
  rw [isAccepted, herror]
  rfl

/-- The blocks of the calls never go back, from the given block on. -/
def Ordered : BlockInfo → List (Call M) → Prop
  | _, [] => True
  | block, call :: calls =>
      block ≤ call.env.block ∧ Ordered call.env.block calls

instance Ordered.decidable :
    (block : BlockInfo) → (calls : List (Call M)) → Decidable (Ordered block calls)
  | _, [] => inferInstanceAs (Decidable True)
  | block, call :: calls =>
      have := Ordered.decidable call.env.block calls
      inferInstanceAs (Decidable (block ≤ call.env.block ∧ _))

variable {msg : InitMsg}

theorem start_deployed (env : Env) {totalWeight : U64}
    (haccepted : msg.Accepted totalWeight) :
    (multisig msg).start (Chain.deployed env msg : Chain M) := by
  obtain ⟨trace, hinit⟩ := init_of_accepted (M := M) env haccepted
  exact ⟨env, {}, by rw [hinit], rfl⟩

theorem deployed_store (env : Env) {totalWeight : U64}
    (haccepted : msg.Accepted totalWeight) :
    (Chain.deployed env msg : Chain M).store = msg.initialStore totalWeight := by
  obtain ⟨trace, hinit⟩ := init_of_accepted (M := M) env haccepted
  have hok : ((init env msg).run (Store.empty : Store M)).result = .ok {} := by
    rw [hinit]
  rw [Chain.deployed, Exec.commit_of_ok hok, hinit]

/-- A start state holds the initial store of an accepted message. -/
theorem start_cases {chain : Chain M} (hstart : (multisig msg).start chain) :
    ∃ totalWeight, msg.Accepted totalWeight ∧
      chain.store = msg.initialStore totalWeight := by
  obtain ⟨env, response, hok, rfl⟩ := hstart
  by_cases haccepted : ∃ totalWeight, msg.Accepted totalWeight
  · obtain ⟨totalWeight, haccepted⟩ := haccepted
    exact ⟨totalWeight, haccepted, deployed_store env haccepted⟩
  · obtain ⟨halt, herror⟩ := init_of_not_accepted (M := M) env
      fun totalWeight h => haccepted ⟨totalWeight, h⟩
    rw [herror] at hok
    cases hok

theorem reachable_replay {chain : Chain M}
    (hchain : (multisig msg).Reachable chain) {calls : List (Call M)}
    (hordered : Ordered chain.block calls) :
    (multisig msg).Reachable (chain.replay calls) := by
  induction calls generalizing chain with
  | nil => exact hchain
  | cons call calls ih =>
      exact ih (hchain.step ⟨hordered.1, rfl⟩) hordered.2

theorem run_replay {chain : Chain M} {calls : List (Call M)}
    (hordered : Ordered chain.block calls) :
    (multisig msg).Run chain (chain.moves calls) (chain.replay calls) := by
  induction calls generalizing chain with
  | nil => exact .nil
  | cons call calls ih => exact .cons ⟨hordered.1, rfl⟩ (ih hordered.2)

/-- A step has the effect of its call, or changes nothing but the block. -/
theorem step_cases {chain next : Chain M} {call : Call M}
    (hstep : (multisig msg).step chain call next) :
    chain.block ≤ next.block ∧ next.block = call.env.block ∧
      ((∃ response, (call.run chain.store).result = .ok response ∧
        Effect chain.store call.env call.msg next.store response) ∨
      (∃ halt, (call.run chain.store).result = .error halt ∧
        next.store = chain.store)) := by
  obtain ⟨hblock, rfl⟩ := hstep
  exact ⟨hblock, rfl, commit_cases chain.store call.env call.msg⟩

/-- The invariant rule for stores.  The invariant holds of every initial store
and survives later blocks; every successful call of the run has the property
`C` in the store it meets, and an effect of such a call keeps the invariant. -/
theorem store_invariant {P : Store M → BlockInfo → Prop}
    {C : Store M → Call M → Prop}
    (hstart : ∀ totalWeight block, msg.Accepted totalWeight →
      P (msg.initialStore totalWeight) block)
    (hblock : ∀ store earlier later, earlier ≤ later → P store earlier →
      P store later)
    (heffect : ∀ (chain : Chain M) (call : Call M) store response,
      (multisig msg).Reachable chain → C chain.store call →
      P chain.store call.env.block →
      Effect chain.store call.env call.msg store response →
      P store call.env.block)
    {first last : Chain M} {steps : List (Transition (Chain M) (Call M))}
    (hfirst : (multisig msg).start first)
    (hrun : (multisig msg).Run first steps last)
    (hcalls : ∀ move ∈ steps, ∀ response,
      (move.label.run move.source.store).result = .ok response →
      C move.source.store move.label) :
    P last.store last.block := by
  obtain ⟨totalWeight, haccepted, hstore⟩ := start_cases hfirst
  refine hrun.invariant (P := fun chain => P chain.store chain.block) hfirst
    (hstore ▸ hstart totalWeight first.block haccepted) ?_ hcalls
  intro chain call next hchain hP hcall hstep
  obtain ⟨hle, hnext, hcases⟩ := step_cases hstep
  have hlater := hblock _ _ _ hle hP
  rcases hcases with ⟨response, hok, heffect'⟩ | ⟨halt, -, hsame⟩
  · rw [hnext] at hlater ⊢
    exact heffect chain call next.store response hchain (hcall response hok)
      hlater heffect'
  · rw [hsame]
    exact hlater

/-- The invariant rule for single proposals, with one premise for each thing
that can happen to a proposal. -/
theorem proposal_invariant {P : Proposal M → BlockInfo → Prop}
    {C : Store M → Call M → Prop}
    (hblock : ∀ prop earlier later, earlier ≤ later → P prop earlier →
      P prop later)
    (hpropose : ∀ (chain : Chain M) env title description msgs latest power
        cfg expires prop,
      (multisig msg).Reachable chain →
      C chain.store ⟨env, .propose title description msgs latest⟩ →
      ProposeEnabled chain.store env latest power cfg expires →
      (newProposal env title description msgs expires power cfg).updateStatus
        env.block = some prop → P prop env.block)
    (hvote : ∀ (chain : Chain M) env id vote power prop prop',
      (multisig msg).Reachable chain →
      C chain.store ⟨env, .vote id vote⟩ →
      VoteEnabled chain.store env id power prop →
      prop.recordVote vote power env.block = some prop' →
      P prop env.block → P prop' env.block)
    (hexecute : ∀ prop block, prop.status = Status.passed → P prop block →
      P { prop with status := Status.executed } block)
    (hclose : ∀ (store : Store M) env id prop, CloseEnabled store env id prop →
      P prop env.block → P { prop with status := Status.rejected } env.block)
    {first last : Chain M} {steps : List (Transition (Chain M) (Call M))}
    (hfirst : (multisig msg).start first)
    (hrun : (multisig msg).Run first steps last)
    (hcalls : ∀ move ∈ steps, ∀ response,
      (move.label.run move.source.store).result = .ok response →
      C move.source.store move.label)
    {id : U64} {prop : Proposal M}
    (hstored : last.store.proposals id = some prop) : P prop last.block := by
  refine store_invariant
    (P := fun store block => ∀ id prop, store.proposals id = some prop →
      P prop block)
    (fun totalWeight block _ id prop hstored => by cases hstored)
    (fun store earlier later hle hP id prop hstored =>
      hblock prop earlier later hle (hP id prop hstored))
    ?_ hfirst hrun hcalls id prop hstored
  intro chain call store response hchain hcall hP heffect id prop hstored
  obtain ⟨env, msg'⟩ := call
  -- The one proposal that the call writes; all others are as before.
  have hothers : ∀ {written : U64} {new : Proposal M},
      store.proposals = (chain.store.putProposal written new).proposals →
      P new env.block → P prop env.block := by
    intro written new hproposals hnew
    rw [hproposals] at hstored
    by_cases hid : id = written
    · subst hid
      rw [Store.putProposal_proposals_self, Option.some.injEq] at hstored
      exact hstored ▸ hnew
    · rw [Store.putProposal_proposals_of_ne _ _ _ hid] at hstored
      exact hP id prop hstored
  cases heffect with
  | propose henabled hprop hcount hid =>
      exact hothers rfl (hpropose chain env _ _ _ _ _ _ _ _ hchain hcall
        henabled hprop)
  | vote henabled hprop =>
      exact hothers rfl (hvote chain env _ _ _ _ _ hchain hcall henabled hprop
        (hP _ _ henabled.stored))
  | execute hexecutable hpassed =>
      exact hothers rfl (hexecute _ _ hpassed (hP _ _ hexecutable))
  | close henabled =>
      exact hothers rfl (hclose _ _ _ _ henabled (hP _ _ henabled.stored))

end FixedMultisig
