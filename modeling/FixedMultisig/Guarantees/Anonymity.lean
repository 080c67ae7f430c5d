import FixedMultisig.Chain.Multisig
import FixedMultisig.Contract.Queries
import FixedMultisig.Core.Relational

/-!
# Addresses are names

An address is used as a key and as a text in a log, and for nothing else.  So
renaming all addresses, without giving two of them one name, renames every
response and every answer and changes nothing besides.  No address is special:
not the empty one, not one that looks like a key, not the one that deployed the
contract.  The same comparison shows that the height at which a proposal was
made is stored but never used.
-/

namespace FixedMultisig

open CheckedWord

variable {M : Type}

/-! ## Renaming -/

section Rename

variable (name : String → String)

def Voter.rename (voter : Voter) : Voter :=
  { voter with addr := name voter.addr }

def Env.rename (env : Env) : Env :=
  { env with message := ⟨name env.message.sender⟩ }

def InitMsg.rename (msg : InitMsg) : InitMsg :=
  { msg with voters := msg.voters.map (Voter.rename name) }

/-- The sender is the only address in a log. -/
def LogAttribute.rename (entry : LogAttribute) : LogAttribute :=
  if entry.key = "sender" then { entry with value := name entry.value }
  else entry

def HandleResponse.rename (response : HandleResponse M) : HandleResponse M :=
  { response with log := response.log.map (LogAttribute.rename name) }

def Call.rename (call : Call M) : Call M :=
  { call with env := call.env.rename name }

def QueryMsg.rename : QueryMsg → QueryMsg
  | .vote proposalId address => .vote proposalId (name address)
  | .voter address => .voter (name address)
  | .listVotes proposalId startAfter limit =>
      .listVotes proposalId (startAfter.map name) limit
  | .listVoters startAfter limit => .listVoters (startAfter.map name) limit
  | msg => msg

def VoteInfo.rename (info : VoteInfo) : VoteInfo :=
  { info with voter := name info.voter }

def QueryResponse.rename : QueryResponse M → QueryResponse M
  | .vote ⟨info⟩ => .vote ⟨info.map (VoteInfo.rename name)⟩
  | .votes ⟨infos⟩ => .votes ⟨infos.map (VoteInfo.rename name)⟩
  | .voters ⟨list⟩ => .voters ⟨list.map (Voter.rename name)⟩
  | response => response

end Rename

/-! ## Stores that differ in names -/

/-- The same proposal, made at any height. -/
def Alike (prop prop' : Proposal M) : Prop :=
  ∃ startHeight, prop' = { prop with startHeight }

theorem Alike.refl (prop : Proposal M) : Alike prop prop :=
  ⟨prop.startHeight, rfl⟩

theorem Alike.toResponse_eq {prop prop' : Proposal M} (halike : Alike prop prop')
    (id : U64) : prop'.toResponse id = prop.toResponse id := by
  obtain ⟨startHeight, rfl⟩ := halike
  rfl

/-- The height a proposal was made at plays no part in its status. -/
theorem Alike.updateStatus {prop prop' : Proposal M}
    (halike : Alike prop prop') (block : BlockInfo) :
    Option.Rel Alike (prop.updateStatus block) (prop'.updateStatus block) := by
  obtain ⟨startHeight, rfl⟩ := halike
  have hsame : Proposal.currentStatus { prop with startHeight } block =
      prop.currentStatus block := rfl
  rw [Proposal.updateStatus, Proposal.updateStatus, hsame]
  cases prop.currentStatus block with
  | none => exact .none
  | some status => exact .some ⟨startHeight, rfl⟩

/-- The same store under other names. -/
structure Similar (name : String → String) (store store' : Store M) : Prop where
  config : store'.config = store.config
  count : store'.proposalCount = store.proposalCount
  list : store'.votersList = store.votersList.map (List.map (Voter.rename name))
  voters : ∀ addr, store'.voters (name addr) = store.voters addr
  proposals : ∀ id, Option.Rel Alike (store.proposals id) (store'.proposals id)
  ballots : ∀ id addr, store'.ballots id (name addr) = store.ballots id addr

/-- The store with other start heights. -/
def Store.putStartHeights (store : Store M) (heights : U64 → U64) : Store M :=
  { store with
    proposals := fun id => (store.proposals id).map fun prop =>
      { prop with startHeight := heights id } }

section Names

variable {name : String → String}

theorem Similar.empty : Similar name (Store.empty : Store M) Store.empty where
  config := rfl
  count := rfl
  list := rfl
  voters _ := rfl
  proposals _ := .none
  ballots _ _ := rfl

theorem Similar.refl (store : Store M) : Similar id store store where
  config := rfl
  count := rfl
  list := by
    have hvoter : Voter.rename id = id := rfl
    rw [hvoter, List.map_id_fun, Option.map_id]
    rfl
  voters _ := rfl
  proposals id := by
    cases store.proposals id with
    | none => exact .none
    | some prop => exact .some (Alike.refl prop)
  ballots _ _ := rfl

theorem Similar.putStartHeights (store : Store M) (heights : U64 → U64) :
    Similar id store (store.putStartHeights heights) :=
  { Similar.refl store with
    proposals := fun id => by
      change Option.Rel Alike (store.proposals id)
        ((store.proposals id).map _)
      cases store.proposals id with
      | none => exact .none
      | some prop => exact .some ⟨heights id, rfl⟩ }

theorem Similar.putCount {store store' : Store M}
    (hsimilar : Similar name store store') (count : U64) :
    Similar name (store.putCount count) (store'.putCount count) :=
  { hsimilar with count := rfl }

theorem Similar.putProposal {store store' : Store M}
    (hsimilar : Similar name store store') (id : U64) {prop prop' : Proposal M}
    (halike : Alike prop prop') :
    Similar name (store.putProposal id prop) (store'.putProposal id prop') where
  config := hsimilar.config
  count := hsimilar.count
  list := hsimilar.list
  voters := hsimilar.voters
  proposals other := by
    by_cases hother : other = id
    · subst hother
      rw [Store.putProposal_proposals_self, Store.putProposal_proposals_self]
      exact .some halike
    · rw [Store.putProposal_proposals_of_ne _ _ _ hother,
        Store.putProposal_proposals_of_ne _ _ _ hother]
      exact hsimilar.proposals other
  ballots := hsimilar.ballots

variable (hname : Function.Injective name)

include hname

theorem Similar.putVoter {store store' : Store M}
    (hsimilar : Similar name store store') (addr : String) (weight : U64) :
    Similar name (store.putVoter addr weight)
      (store'.putVoter (name addr) weight) :=
  { hsimilar with
    voters := fun other => by
      change Function.update store'.voters (name addr) (some weight)
          (name other) = Function.update store.voters addr (some weight) other
      by_cases hother : other = addr
      · rw [hother, Function.update_self, Function.update_self]
      · rw [Function.update_of_ne hother,
          Function.update_of_ne (hname.ne hother), hsimilar.voters] }

theorem Similar.putBallot {store store' : Store M}
    (hsimilar : Similar name store store') (id : U64) (addr : String)
    (ballot : Ballot) :
    Similar name (store.putBallot id addr ballot)
      (store'.putBallot id (name addr) ballot) :=
  { hsimilar with
    ballots := fun other addr' => by
      by_cases hother : other = id
      · subst hother
        by_cases haddr : addr' = addr
        · rw [haddr, Store.putBallot_ballots_self, Store.putBallot_ballots_self]
        · rw [Store.putBallot_ballots_of_ne_addr _ _ _ _ haddr,
            Store.putBallot_ballots_of_ne_addr _ _ _ _ (hname.ne haddr),
            hsimilar.ballots]
      · rw [Store.putBallot_ballots_of_ne _ _ _ _ hother,
          Store.putBallot_ballots_of_ne _ _ _ _ hother, hsimilar.ballots] }

/-! ## Calls -/

section Calls

open Exec

/-- The response to the renamed call. -/
def Renamed (name : String → String) (response response' : HandleResponse M) :
    Prop :=
  response' = response.rename name

omit hname in
theorem matched_sender (env : Env) :
    Matched (Similar name) Eq
      (voters.mayLoad env.message.sender : Contract M (Option U64))
      (voters.mayLoad (env.rename name).message.sender) :=
  .read fun _ _ hsimilar => (hsimilar.voters _).symm

omit hname in
theorem matched_loadProposal (id : U64) :
    Matched (Similar name) Alike
      (proposals.load StdError.notFound id : Contract M (Proposal M))
      (proposals.load StdError.notFound id) :=
  .loadKey fun _ _ hsimilar => hsimilar.proposals id

omit hname in
theorem matched_saveProposal (id : U64) {prop prop' : Proposal M}
    (halike : Alike prop prop') :
    Matched (Similar name) Eq
      (proposals.save id prop : Contract M PUnit) (proposals.save id prop') :=
  .saveKey fun _ _ hsimilar => hsimilar.putProposal id halike

theorem matched_saveBallot (id : U64) (env : Env) (ballot : Ballot) :
    Matched (Similar name) Eq
      ((ballots id).save env.message.sender ballot : Contract M PUnit)
      ((ballots id).save (env.rename name).message.sender ballot) :=
  .saveKey fun _ _ hsimilar => hsimilar.putBallot hname id _ ballot

omit hname in
theorem matched_nextId :
    Matched (Similar name) Eq
      (proposalCount.update StdError.notFound fun id =>
        lift (checkedAdd id 1) : Contract M U64)
      (proposalCount.update StdError.notFound fun id =>
        lift (checkedAdd id 1)) := by
  apply Matched.update (fun _ _ hsimilar => optionRel_eq hsimilar.count.symm)
  · rintro count _ rfl store store' hsimilar
    exact hsimilar.putCount count
  · rintro count _ rfl
    exact .lift (optionRel_eq rfl)

theorem matched_propose (env : Env) (title description : String)
    (msgs : List M) (latest : Option Expiration) :
    Matched (Similar name) (Renamed name)
      (executePropose env title description msgs latest)
      (executePropose (env.rename name) title description msgs latest) := by
  unfold executePropose
  apply (matched_sender env).bind_eq
  intro voterPower
  apply Matched.bind_eq
  · cases voterPower with
    | none => exact .fail _
    | some power => exact .pure rfl
  intro votePower
  apply Matched.bind_eq (.load fun _ _ hsimilar =>
    optionRel_eq hsimilar.config.symm)
  intro cfg
  apply Matched.bind_eq (.lift (optionRel_eq rfl))
  intro maxExpires
  apply Matched.bind_eq
  · split
    · exact .pure rfl
    · exact .fail _
    · exact .pure rfl
  intro expires
  apply Matched.bind (.lift ((Alike.refl _).updateStatus env.block))
  rintro prop _ ⟨startHeight, rfl⟩
  apply matched_nextId.bind_eq
  intro id
  apply (matched_saveProposal id ⟨startHeight, rfl⟩).bind_eq
  intro _
  apply (matched_saveBallot hname id env _).bind_eq
  intro _
  exact .pure rfl

theorem matched_vote (env : Env) (id : U64) (vote : Vote) :
    Matched (Similar name) (Renamed name)
      (executeVote env id vote : Contract M _)
      (executeVote (env.rename name) id vote) := by
  unfold executeVote
  apply (matched_sender env).bind_eq
  intro voterPower
  apply Matched.bind_eq
  · cases voterPower with
    | none => exact .fail _
    | some power =>
        change Matched _ _ (if 1 ≤ power then _ else _)
          (if 1 ≤ power then _ else _)
        split
        · exact .pure rfl
        · exact .fail _
  intro votePower
  apply (matched_loadProposal id).bind
  rintro prop _ ⟨startHeight, rfl⟩
  apply Matched.guard Iff.rfl
  apply Matched.guard Iff.rfl
  apply Matched.bind_eq (.read fun _ _ hsimilar =>
    (hsimilar.ballots id _).symm)
  intro ballot
  cases ballot with
  | some ballot => exact .fail_bind
  | none =>
      apply (matched_saveBallot hname id env _).bind_eq
      intro _
      apply Matched.bind_eq (.lift (optionRel_eq rfl))
      intro votes
      apply Matched.bind (.lift
        (Alike.updateStatus ⟨startHeight, rfl⟩ env.block))
      rintro prop _ ⟨startHeight', rfl⟩
      apply (matched_saveProposal id ⟨startHeight', rfl⟩).bind_eq
      intro _
      exact .pure rfl

omit hname in
theorem matched_execute (env : Env) (id : U64) :
    Matched (Similar name) (Renamed name)
      (executeExecute env id : Contract M _)
      (executeExecute (env.rename name) id) := by
  unfold executeExecute
  apply (matched_loadProposal id).bind
  rintro prop _ ⟨startHeight, rfl⟩
  apply Matched.guard Iff.rfl
  apply (matched_saveProposal id ⟨startHeight, rfl⟩).bind_eq
  intro _
  exact .pure rfl

omit hname in
theorem matched_close (env : Env) (id : U64) :
    Matched (Similar name) (Renamed name)
      (executeClose env id : Contract M _)
      (executeClose (env.rename name) id) := by
  unfold executeClose
  apply (matched_loadProposal id).bind
  rintro prop _ ⟨startHeight, rfl⟩
  apply Matched.guard Iff.rfl
  apply Matched.guard Iff.rfl
  apply (matched_saveProposal id ⟨startHeight, rfl⟩).bind_eq
  intro _
  exact .pure rfl

theorem matched_handle (env : Env) (msg : HandleMsg M) :
    Matched (Similar name) (Renamed name) (handle env msg)
      (handle (env.rename name) msg) := by
  cases msg with
  | propose title description msgs latest =>
      exact matched_propose hname env title description msgs latest
  | vote id vote => exact matched_vote hname env id vote
  | execute id => exact matched_execute env id
  | close id => exact matched_close env id

theorem matched_init (env : Env) (msg : InitMsg) :
    Matched (Similar name) Eq (init env msg : Contract M (InitResponse M))
      (init (env.rename name) (msg.rename name)) := by
  have hweights : (msg.rename name).voters.map Voter.weight =
      msg.voters.map Voter.weight := by
    rw [InitMsg.rename, List.map_map]
    rfl
  unfold init
  rw [hweights]
  apply Matched.guard (by simp [InitMsg.rename])
  apply Matched.bind_eq (.lift (optionRel_eq rfl))
  intro totalWeight
  apply Matched.bind_eq (.ofExcept _)
  intro _
  apply Matched.bind_eq (.save fun _ _ hsimilar =>
    { hsimilar with config := rfl })
  intro _
  apply Matched.bind_eq (.save fun _ _ hsimilar =>
    { hsimilar with list := rfl })
  intro _
  apply Matched.bind_eq
  · apply Matched.forM (List.forall₂_map_right_iff.2
      (List.forall₂_same.2 fun _ _ => rfl))
    rintro voter _ rfl
    exact .saveKey fun _ _ hsimilar =>
      hsimilar.putVoter hname voter.addr voter.weight
  intro _
  apply Matched.bind_eq (.save fun _ _ hsimilar => hsimilar.putCount 0)
  intro _
  exact .pure rfl

/-! ## Queries -/

omit hname

/-- The forward listing shows nothing that differs. -/
theorem matched_listProposalsFrom (limit i : U64)
    (listed : List (ProposalResponse M)) :
    Matched (Similar name) Eq (listProposalsFrom limit i listed)
      (listProposalsFrom limit i listed) := by
  -- By induction on the number of rounds that are left.
  induction hrounds : limit.toNat + 1 - i.toNat generalizing i listed with
  | zero =>
      rw [listProposalsFrom_of_lt _ (BitVec.lt_def.2 (by omega))]
      exact .pure rfl
  | succ rounds ih =>
      rw [listProposalsFrom, dif_pos (BitVec.le_def.2 (by omega))]
      apply (matched_loadProposal i).bind
      rintro prop _ ⟨startHeight, rfl⟩
      split
      · exact .lift .none
      · next next hnext =>
          have hone : (1 : U64).toNat = 1 := rfl
          have hsum := checkedAdd_eq_some_iff.1 hnext
          exact ih next _ (by omega)

theorem matched_reverseProposalsFrom (rounds : ℕ) (i : U64)
    (listed : List (ProposalResponse M)) :
    Matched (Similar name) Eq (reverseProposalsFrom rounds i listed)
      (reverseProposalsFrom rounds i listed) := by
  induction rounds generalizing i listed with
  | zero => exact .pure rfl
  | succ rounds ih =>
      rw [reverseProposalsFrom]
      apply (matched_loadProposal i).bind
      rintro prop _ ⟨startHeight, rfl⟩
      apply Matched.bind_eq (.lift (optionRel_eq rfl))
      intro next
      exact ih next _

theorem matched_listVotesFrom (id : U64) (list : List Voter)
    (votes : List VoteInfo) :
    Matched (Similar name) (fun votes votes' =>
        votes' = votes.map (VoteInfo.rename name))
      (listVotesFrom id list votes : Contract M _)
      (listVotesFrom id (list.map (Voter.rename name))
        (votes.map (VoteInfo.rename name))) := by
  induction list generalizing votes with
  | nil => exact .pure rfl
  | cons voter list ih =>
      rw [List.map_cons, listVotesFrom, listVotesFrom]
      apply Matched.bind_eq (.read fun _ _ hsimilar =>
        (hsimilar.ballots id _).symm)
      intro ballot
      cases ballot with
      | none => exact ih votes
      | some ballot =>
          have hvotes := ih (votes ++ [⟨id, voter.addr, ballot.vote,
            voter.weight⟩])
          rw [List.map_append] at hvotes
          exact hvotes

theorem matched_latest :
    Matched (Similar name) Eq
      (proposalCount.load StdError.notFound : Contract M U64)
      (proposalCount.load StdError.notFound) :=
  .load fun _ _ hsimilar => optionRel_eq hsimilar.count.symm

theorem matched_listProposals (startAfter : Option U64) (limit : Option U32) :
    Matched (Similar name) Eq
      (listProposals startAfter limit : Contract M _)
      (listProposals startAfter limit) := by
  unfold listProposals
  apply matched_latest.bind_eq
  intro latestProp
  apply (matched_listProposalsFrom _ _ _).bind_eq
  intro listed
  exact .pure rfl

theorem matched_reverseProposals (startBefore : Option U64)
    (limit : Option U32) :
    Matched (Similar name) Eq
      (reverseProposals startBefore limit : Contract M _)
      (reverseProposals startBefore limit) := by
  unfold reverseProposals
  apply matched_latest.bind_eq
  intro latestProp
  apply Matched.bind_eq (.lift (optionRel_eq rfl))
  intro rounds
  apply (matched_reverseProposalsFrom _ _ _).bind_eq
  intro listed
  exact .pure rfl

theorem matched_votersList :
    Matched (Similar name) (fun list list' =>
        list' = list.map (Voter.rename name))
      (votersList.load StdError.notFound : Contract M (List Voter))
      (votersList.load StdError.notFound) := by
  apply Matched.load
  intro store store' hsimilar
  change Option.Rel _ store.votersList store'.votersList
  rw [hsimilar.list]
  cases store.votersList with
  | none => exact .none
  | some list => exact .some rfl

theorem matched_queryVote (id : U64) (address : String) :
    Matched (Similar name) (fun response response' =>
        response' = ⟨response.vote.map (VoteInfo.rename name)⟩)
      (queryVote id address : Contract M _) (queryVote id (name address)) := by
  unfold queryVote
  apply Matched.bind_eq (.read fun _ _ hsimilar =>
    (hsimilar.ballots id _).symm)
  intro ballot
  cases ballot with
  | none => exact .pure rfl
  | some ballot => exact .pure rfl

theorem matched_listVotes (id : U64) (startAfter : Option String)
    (limit : Option U32) :
    Matched (Similar name) (fun response response' =>
        response' = ⟨response.votes.map (VoteInfo.rename name)⟩)
      (listVotes id startAfter limit : Contract M _)
      (listVotes id (startAfter.map name) limit) := by
  unfold listVotes
  apply matched_votersList.bind
  rintro list _ rfl
  apply (matched_listVotesFrom id list []).bind
  rintro votes _ rfl
  exact .pure rfl

theorem matched_listVoters (startAfter : Option String) (limit : Option U32) :
    Matched (Similar name) (fun response response' =>
        response' = ⟨response.voters.map (Voter.rename name)⟩)
      (listVoters startAfter limit : Contract M _)
      (listVoters (startAfter.map name) limit) := by
  unfold listVoters
  apply matched_votersList.bind
  rintro list _ rfl
  exact .pure rfl

/-- Every answer is renamed, and nothing else about it changes. -/
theorem matched_query (msg : QueryMsg) :
    Matched (Similar name) (fun response response' =>
        response' = response.rename name)
      (query msg : Contract M _) (query (msg.rename name)) := by
  cases msg with
  | threshold =>
      apply Matched.map
      · apply Matched.bind_eq (.load fun _ _ hsimilar =>
          optionRel_eq hsimilar.config.symm)
        intro cfg
        exact .pure rfl
      · rintro response _ rfl
        rfl
  | proposal id =>
      apply Matched.map
      · apply (matched_loadProposal id).bind
        intro prop prop' halike
        exact .pure (halike.toResponse_eq id).symm
      · rintro response _ rfl
        rfl
  | vote id address =>
      apply (matched_queryVote id address).map
      rintro response _ rfl
      rfl
  | listProposals startAfter limit =>
      apply (matched_listProposals startAfter limit).map
      rintro response _ rfl
      rfl
  | reverseProposals startBefore limit =>
      apply (matched_reverseProposals startBefore limit).map
      rintro response _ rfl
      rfl
  | listVotes id startAfter limit =>
      apply (matched_listVotes id startAfter limit).map
      rintro response _ rfl
      rfl
  | voter address =>
      apply Matched.map
      · apply Matched.bind_eq (.read fun _ _ hsimilar =>
          (hsimilar.voters _).symm)
        intro weight
        exact .pure rfl
      · rintro response _ rfl
        rfl
  | listVoters startAfter limit =>
      apply (matched_listVoters startAfter limit).map
      rintro response _ rfl
      rfl

end Calls

/-! ## Runs -/

/-- What the caller of a move is told. -/
def Transition.result (move : Transition (Chain M) (Call M)) :
    Except (Halt StdError) (HandleResponse M) :=
  (move.label.run move.source.store).result

/-- The renamed calls on the second chain go as the calls on the first one:
the same responses, and afterwards the same answers, under other names. -/
structure Mirrors (name : String → String) (chain chain' : Chain M)
    (calls : List (Call M)) : Prop where
  responses : (chain'.moves (calls.map (Call.rename name))).map
      Transition.result =
    (chain.moves calls).map fun move =>
      move.result.map (HandleResponse.rename name)
  answers : ∀ msg : QueryMsg,
    ((query (msg.rename name)).run
        (chain'.replay (calls.map (Call.rename name))).store).result =
      ((query msg).run (chain.replay calls).store).result.map
        (QueryResponse.rename name)

theorem Similar.submit {chain chain' : Chain M}
    (hsimilar : Similar name chain.store chain'.store) (call : Call M) :
    Similar name (chain.submit call).store
      (chain'.submit (call.rename name)).store :=
  (matched_handle hname call.env call.msg).commit hsimilar

theorem Similar.replay {chain chain' : Chain M}
    (hsimilar : Similar name chain.store chain'.store) (calls : List (Call M)) :
    Similar name (chain.replay calls).store
      (chain'.replay (calls.map (Call.rename name))).store := by
  induction calls generalizing chain chain' with
  | nil => exact hsimilar
  | cons call calls ih => exact ih (hsimilar.submit hname call)

theorem Similar.responses {chain chain' : Chain M}
    (hsimilar : Similar name chain.store chain'.store) (calls : List (Call M)) :
    (chain'.moves (calls.map (Call.rename name))).map Transition.result =
      (chain.moves calls).map fun move =>
        move.result.map (HandleResponse.rename name) := by
  induction calls generalizing chain chain' with
  | nil => rfl
  | cons call calls ih =>
      have hresult := Exec.agree_map_iff.1
        (matched_handle hname call.env call.msg _ _ hsimilar).1
      rw [List.map_cons, Chain.moves, Chain.moves, List.map_cons,
        List.map_cons, ih (hsimilar.submit hname call)]
      exact congrArg (· :: _) hresult

theorem Similar.mirrors {chain chain' : Chain M}
    (hsimilar : Similar name chain.store chain'.store) (calls : List (Call M)) :
    Mirrors name chain chain' calls where
  responses := hsimilar.responses hname calls
  answers msg := Exec.agree_map_iff.1
    (matched_query msg _ _ (hsimilar.replay hname calls)).1

/-- Deploying with renamed voters and making renamed calls gives renamed
results throughout; other start heights under the same names give the same
results. -/
theorem run_renamed (env : Env) (msg : InitMsg) (calls : List (Call M)) :
    ((init (env.rename name) (msg.rename name)).run
        (Store.empty : Store M)).result =
      ((init env msg).run (Store.empty : Store M)).result ∧
    Mirrors name (Chain.deployed env msg)
      (Chain.deployed (env.rename name) (msg.rename name)) calls ∧
    ∀ (chain : Chain M) (heights : U64 → U64),
      Mirrors id chain
        { chain with store := chain.store.putStartHeights heights } calls := by
  have hinit : Exec.Matched (Similar name) Eq
      (init env msg : Contract M (InitResponse M)) _ :=
    matched_init hname env msg
  refine ⟨(Exec.agree_eq_iff.1 (hinit _ _ Similar.empty).1).symm, ?_,
    fun chain heights => ?_⟩
  · have hsimilar : Similar name (Chain.deployed env msg : Chain M).store
        (Chain.deployed (env.rename name) (msg.rename name)).store :=
      hinit.commit Similar.empty
    exact hsimilar.mirrors hname calls
  · exact (Similar.putStartHeights chain.store heights).mirrors
      Function.injective_id calls

end Names

section Example

private def masked (addr : String) : String := "masked-" ++ addr

private def charter : InitMsg where
  voters := [⟨"alice", 3⟩, ⟨"", 2⟩]
  threshold := .absoluteCount 4
  maxVotingPeriod := .height 100

private def charterCalls : List (Call String) :=
  [⟨⟨⟨11, 60⟩, ⟨"alice"⟩⟩, .propose "title" "description" ["send"] none⟩,
    ⟨⟨⟨12, 66⟩, ⟨""⟩⟩, .vote 1 .yes⟩]

/-- The voter without a name gets one, and after the first call nothing tells
when it was made. -/
theorem run_renamed_masked :
    Mirrors masked
      (Chain.deployed ⟨⟨10, 54⟩, ⟨"alice"⟩⟩ charter : Chain String)
      (Chain.deployed ⟨⟨10, 54⟩, ⟨"masked-alice"⟩⟩
        ⟨[⟨"masked-alice", 3⟩, ⟨"masked-", 2⟩], .absoluteCount 4, .height 100⟩)
      charterCalls ∧
    Mirrors id
      ((Chain.deployed ⟨⟨10, 54⟩, ⟨"alice"⟩⟩ charter).replay
        (charterCalls.take 1))
      { (Chain.deployed ⟨⟨10, 54⟩, ⟨"alice"⟩⟩ charter).replay
          (charterCalls.take 1) with
        store := ((Chain.deployed ⟨⟨10, 54⟩, ⟨"alice"⟩⟩ charter).replay
          (charterCalls.take 1)).store.putStartHeights fun _ => 0 }
      charterCalls := by
  have hinjective : Function.Injective masked := fun addr addr' hmasked => by
    simpa [masked] using hmasked
  obtain ⟨-, hrenamed, hheights⟩ :=
    run_renamed hinjective ⟨⟨10, 54⟩, ⟨"alice"⟩⟩ charter charterCalls
  exact ⟨hrenamed, hheights _ _⟩

end Example

end FixedMultisig
