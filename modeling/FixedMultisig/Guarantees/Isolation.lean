import FixedMultisig.Chain.Ledger
import FixedMultisig.Core.Footprint
import FixedMultisig.Core.Interleaving

/-!
# Proposals do not interfere

A call that names a proposal reads and writes this proposal and its ballots,
next to the configuration and the voters, which never change.  So what becomes
of a proposal, and what its voters are told, is decided by the calls that name
it, in their order; calls about other proposals may come in between in any way.
Only creating proposals shares something, the counter.
-/

namespace FixedMultisig

variable {M : Type} {msg : InitMsg}

/-- The proposal a message names. -/
def HandleMsg.target : HandleMsg M → Option U64
  | .propose _ _ _ _ => none
  | .vote id _ => some id
  | .execute id => some id
  | .close id => some id

/-- What the store keeps about one proposal, and what it keeps for all. -/
@[ext]
structure Slice (M : Type) where
  config : Option Config
  votersList : Option (List Voter)
  voters : String → Option U64
  proposal : Option (Proposal M)
  ballots : String → Option Ballot

def Store.slice (store : Store M) (id : U64) : Slice M where
  config := store.config
  votersList := store.votersList
  voters := store.voters
  proposal := store.proposals id
  ballots := store.ballots id

theorem Store.putProposal_slice_self (store : Store M) (id : U64)
    (prop : Proposal M) :
    (store.putProposal id prop).slice id =
      { store.slice id with proposal := some prop } := by
  simp [slice]

theorem Store.putProposal_slice_of_ne (store : Store M) {id other : U64}
    (prop : Proposal M) (hother : other ≠ id) :
    (store.putProposal id prop).slice other = store.slice other := by
  simp [slice, putProposal_proposals_of_ne _ _ _ hother]

theorem Store.putBallot_slice_self (store : Store M) (id : U64) (addr : String)
    (ballot : Ballot) :
    (store.putBallot id addr ballot).slice id =
      { store.slice id with
        ballots := Function.update (store.slice id).ballots addr
          (some ballot) } := by
  simp [slice, putBallot]

theorem Store.putBallot_slice_of_ne (store : Store M) {id other : U64}
    (addr : String) (ballot : Ballot) (hother : other ≠ id) :
    (store.putBallot id addr ballot).slice other = store.slice other := by
  simp [slice, putBallot_ballots_of_ne _ _ _ _ hother]

/-! ## What the handlers read -/

/-- A relation of stores that fixes the slice of a proposal and survives
writes to it. -/
structure Tracks (id : U64) (related : Store M → Store M → Prop) : Prop where
  slice : ∀ {store store'}, related store store' →
    store.slice id = store'.slice id
  putProposal : ∀ prop {store store'}, related store store' →
    related (store.putProposal id prop) (store'.putProposal id prop)
  putBallot : ∀ addr ballot {store store'}, related store store' →
    related (store.putBallot id addr ballot) (store'.putBallot id addr ballot)

section Congruence

open Exec

variable {id : U64} {related : Store M → Store M → Prop}

theorem Tracks.congruent_vote (htracks : Tracks id related) (env : Env)
    (vote : Vote) :
    Congruent related (executeVote env id vote : Contract M _) := by
  unfold executeVote
  apply Congruent.bind (.mayLoad fun store store' hrelated =>
    congrArg (fun slice => slice.voters env.message.sender)
      (htracks.slice hrelated))
  intro voterPower
  apply Congruent.bind
  · cases voterPower with
    | none => exact .fail _
    | some power =>
        change Congruent related (if 1 ≤ power then _ else _)
        split
        · exact .pure power
        · exact .fail _
  intro votePower
  apply Congruent.bind (.loadKey fun store store' hrelated =>
    congrArg Slice.proposal (htracks.slice hrelated))
  intro prop
  apply Congruent.guard
  apply Congruent.guard
  apply Congruent.bind (.mayLoad fun store store' hrelated =>
    congrArg (fun slice => slice.ballots env.message.sender)
      (htracks.slice hrelated))
  intro ballot
  cases ballot with
  | some ballot => exact fun _ _ hrelated => ⟨rfl, hrelated⟩
  | none =>
      apply Congruent.bind (.saveKey fun _ _ => htracks.putBallot _ _)
      intro _
      apply Congruent.bind (.lift _)
      intro votes
      apply Congruent.bind (.lift _)
      intro prop
      apply Congruent.bind (.saveKey fun _ _ => htracks.putProposal _)
      intro _
      exact .pure _

theorem Tracks.congruent_execute (htracks : Tracks id related) (env : Env) :
    Congruent related (executeExecute env id : Contract M _) := by
  unfold executeExecute
  apply Congruent.bind (.loadKey fun store store' hrelated =>
    congrArg Slice.proposal (htracks.slice hrelated))
  intro prop
  apply Congruent.guard
  apply Congruent.bind (.saveKey fun _ _ => htracks.putProposal _)
  intro _
  exact .pure _

theorem Tracks.congruent_close (htracks : Tracks id related) (env : Env) :
    Congruent related (executeClose env id : Contract M _) := by
  unfold executeClose
  apply Congruent.bind (.loadKey fun store store' hrelated =>
    congrArg Slice.proposal (htracks.slice hrelated))
  intro prop
  apply Congruent.guard
  apply Congruent.guard
  apply Congruent.bind (.saveKey fun _ _ => htracks.putProposal _)
  intro _
  exact .pure _

/-- A call that names a proposal reads its slice only. -/
theorem Tracks.congruent_handle (htracks : Tracks id related) (env : Env)
    {call : HandleMsg M} (htarget : call.target = some id) :
    Congruent related (handle env call) := by
  cases call with
  | propose title description msgs latest => cases htarget
  | vote other vote =>
      obtain rfl := Option.some.inj htarget
      exact htracks.congruent_vote env vote
  | execute other =>
      obtain rfl := Option.some.inj htarget
      exact htracks.congruent_execute env
  | close other =>
      obtain rfl := Option.some.inj htarget
      exact htracks.congruent_close env

/-- Equal slices. -/
theorem tracks_slice (id : U64) :
    Tracks id fun store store' : Store M => store.slice id = store'.slice id where
  slice hrelated := hrelated
  putProposal prop _ _ hrelated := by
    rw [Store.putProposal_slice_self, Store.putProposal_slice_self, hrelated]
  putBallot addr ballot _ _ hrelated := by
    rw [Store.putBallot_slice_self, Store.putBallot_slice_self, hrelated]

/-- Equal slices and equal counters. -/
def SameShare (id : U64) (store store' : Store M) : Prop :=
  store.proposalCount = store'.proposalCount ∧ store.slice id = store'.slice id

theorem SameShare.putProposal {store store' : Store M}
    (hsame : SameShare id store store') (other : U64) (prop : Proposal M) :
    SameShare id (store.putProposal other prop)
      (store'.putProposal other prop) := by
  refine ⟨hsame.1, ?_⟩
  by_cases hother : id = other
  · subst hother
    exact (tracks_slice id).putProposal prop hsame.2
  · rw [Store.putProposal_slice_of_ne _ _ hother,
      Store.putProposal_slice_of_ne _ _ hother, hsame.2]

theorem SameShare.putBallot {store store' : Store M}
    (hsame : SameShare id store store') (other : U64) (addr : String)
    (ballot : Ballot) :
    SameShare id (store.putBallot other addr ballot)
      (store'.putBallot other addr ballot) := by
  refine ⟨hsame.1, ?_⟩
  by_cases hother : id = other
  · subst hother
    exact (tracks_slice id).putBallot addr ballot hsame.2
  · rw [Store.putBallot_slice_of_ne _ _ _ hother,
      Store.putBallot_slice_of_ne _ _ _ hother, hsame.2]

theorem tracks_sameShare (id : U64) :
    Tracks id (SameShare id : Store M → Store M → Prop) where
  slice hrelated := hrelated.2
  putProposal prop _ _ hrelated := hrelated.putProposal id prop
  putBallot addr ballot _ _ hrelated := hrelated.putBallot id addr ballot

/-- A new proposal reads the counter, next to what is kept for all. -/
theorem congruent_propose (id : U64) (env : Env) (title description : String)
    (msgs : List M) (latest : Option Expiration) :
    Congruent (SameShare id)
      (executePropose env title description msgs latest) := by
  unfold executePropose
  apply Congruent.bind (.mayLoad fun store store' hsame =>
    congrArg (fun slice => slice.voters env.message.sender) hsame.2)
  intro voterPower
  apply Congruent.bind
  · cases voterPower with
    | none => exact .fail _
    | some power => exact .pure power
  intro votePower
  apply Congruent.bind (.load fun store store' hsame =>
    congrArg Slice.config hsame.2)
  intro cfg
  apply Congruent.bind (.lift _)
  intro maxExpires
  apply Congruent.bind
  · split
    · exact .pure _
    · exact .fail _
    · exact .pure _
  intro expires
  apply Congruent.bind (.lift _)
  intro prop
  apply Congruent.bind
  · apply Congruent.update (fun store store' hsame => hsame.1)
    · exact fun value store store' hsame => ⟨rfl, hsame.2⟩
    · exact fun value => .lift _
  intro proposalId
  apply Congruent.bind (.saveKey fun _ _ hsame => hsame.putProposal _ _)
  intro _
  apply Congruent.bind (.saveKey fun _ _ hsame => hsame.putBallot _ _ _)
  intro _
  exact .pure _

end Congruence

/-! ## What the handlers write -/

section Effects

variable {store store' : Store M} {env : Env} {call : HandleMsg M}
variable {response : HandleResponse M} {id : U64}

/-- A call that names another proposal leaves the slice and the counter. -/
theorem Effect.sameShare_of_ne (heffect : Effect store env call store' response)
    {other : U64} (htarget : call.target = some other) (hother : id ≠ other) :
    SameShare id store' store := by
  cases heffect with
  | propose henabled hprop hcount hid => cases htarget
  | vote henabled hprop =>
      obtain rfl := Option.some.inj htarget
      refine ⟨rfl, ?_⟩
      rw [Store.putProposal_slice_of_ne _ _ hother,
        Store.putBallot_slice_of_ne _ _ _ hother]
  | execute hstored hpassed =>
      obtain rfl := Option.some.inj htarget
      exact ⟨rfl, Store.putProposal_slice_of_ne _ _ hother⟩
  | close henabled =>
      obtain rfl := Option.some.inj htarget
      exact ⟨rfl, Store.putProposal_slice_of_ne _ _ hother⟩

/-- In a ledger a call that does not name a stored proposal leaves its slice:
a new proposal gets an unused id. -/
theorem Effect.slice_eq (heffect : Effect store env call store' response)
    {totalWeight : U64} (hledger : Ledger msg totalWeight store)
    (hstored : (store.proposals id).isSome)
    (htarget : call.target ≠ some id) : store'.slice id = store.slice id := by
  cases hnamed : call.target with
  | some other =>
      have hother : id ≠ other := by
        rintro rfl
        exact htarget hnamed
      exact (heffect.sameShare_of_ne hnamed hother).2
  | none =>
      cases heffect with
      | @propose title description msgs latest power cfg expires prop count new
          henabled hprop hcount hid =>
          have hnew : id ≠ new := by
            rintro rfl
            rw [hledger.fresh hcount hid] at hstored
            cases hstored
          rw [Store.putBallot_slice_of_ne _ _ _ hnew,
            Store.putProposal_slice_of_ne _ _ hnew]
          rfl
      | vote henabled hprop => cases hnamed
      | execute hstored hpassed => cases hnamed
      | close henabled => cases hnamed

/-- A stored proposal stays stored. -/
theorem Effect.isSome (heffect : Effect store env call store' response)
    (hstored : (store.proposals id).isSome) : (store'.proposals id).isSome := by
  have hput : ∀ (store : Store M) other prop, (store.proposals id).isSome →
      ((store.putProposal other prop).proposals id).isSome := by
    intro store other prop hstored
    by_cases hother : id = other
    · subst hother
      rw [Store.putProposal_proposals_self]
      rfl
    · rw [Store.putProposal_proposals_of_ne _ _ _ hother]
      exact hstored
  cases heffect with
  | propose henabled hprop hcount hid => exact hput _ _ _ hstored
  | vote henabled hprop => exact hput _ _ _ hstored
  | execute hfound hpassed => exact hput _ _ _ hstored
  | close henabled => exact hput _ _ _ hstored

end Effects

/-! ## Lists of calls -/

/-- What the wanted calls are told, while all calls are made. -/
def Chain.answers (wanted : Call M → Bool) :
    Chain M → List (Call M) → List (Except (Halt StdError) (HandleResponse M))
  | _, [] => []
  | chain, call :: calls =>
      if wanted call then
        (call.run chain.store).result :: (chain.submit call).answers wanted calls
      else (chain.submit call).answers wanted calls

/-- The result of a wanted move is among the answers. -/
theorem Chain.mem_answers {wanted : Call M → Bool} {chain : Chain M}
    {calls : List (Call M)} {move : Transition (Chain M) (Call M)}
    (hmove : move ∈ chain.moves calls) (hwanted : wanted move.label = true) :
    (move.label.run move.source.store).result ∈ chain.answers wanted calls := by
  induction calls generalizing chain with
  | nil => cases hmove
  | cons call calls ih =>
      rw [answers]
      rcases List.mem_cons.1 hmove with rfl | hmove
      · rw [if_pos hwanted]
        exact List.mem_cons_self
      · split
        · exact List.mem_cons_of_mem _ (ih hmove)
        · exact ih hmove

/-- The call names this proposal. -/
def Call.names (id : U64) (call : Call M) : Bool := call.msg.target = some id

/-- The call names this proposal or creates one. -/
def Call.concerns (id : U64) (call : Call M) : Bool :=
  call.msg.target = some id ∨ call.msg.target = none

theorem Call.congruent_of_concerns {id : U64} {call : Call M}
    (hconcerns : call.concerns id = true) :
    Exec.Congruent (SameShare id) (handle call.env call.msg) := by
  obtain ⟨env, call⟩ := call
  cases hnamed : call.target with
  | some other =>
      obtain rfl : other = id := by simpa [concerns, hnamed] using hconcerns
      exact (tracks_sameShare other).congruent_handle env hnamed
  | none =>
      cases call with
      | propose title description msgs latest =>
          exact congruent_propose id env title description msgs latest
      | vote other vote => cases hnamed
      | execute other => cases hnamed
      | close other => cases hnamed

/-- Calls seen through the counter and the slices. -/
def shareViews (M : Type) :
    Views (Store M) (Call M) (Except (Halt StdError) (HandleResponse M)) U64
      (Option U64 × Slice M) where
  step store call := (handle call.env call.msg).commit store
  result store call := (call.run store).result
  view id store := (store.proposalCount, store.slice id)
  concerns := Call.concerns
  Valid _ _ := True
  valid_step _ _ := trivial
  frame {id store call} _ hconcerns := by
    simp only [Call.concerns, decide_eq_false_iff_not, not_or] at hconcerns
    obtain ⟨other, htarget⟩ := Option.ne_none_iff_exists'.1 hconcerns.2
    have hother : id ≠ other := by
      rintro rfl
      exact hconcerns.1 htarget
    rcases commit_cases store call.env call.msg with
      ⟨response, -, heffect⟩ | ⟨halt, -, hsame⟩
    · obtain ⟨hcount, hslice⟩ := heffect.sameShare_of_ne htarget hother
      exact Prod.ext hcount hslice
    · rw [hsame]
  congr_step _ _ hconcerns hview := by
    obtain ⟨hcount, hslice⟩ := (Call.congruent_of_concerns hconcerns).commit
      (Prod.ext_iff.1 hview)
    exact Prod.ext hcount hslice
  congr_result _ _ hconcerns hview :=
    (Call.congruent_of_concerns hconcerns _ _ (Prod.ext_iff.1 hview)).1

/-- Calls seen through the slices of stored proposals. -/
def sliceViews (M : Type) (msg : InitMsg) :
    Views (Store M) (Call M) (Except (Halt StdError) (HandleResponse M)) U64
      (Slice M) where
  step store call := (handle call.env call.msg).commit store
  result store call := (call.run store).result
  view id store := store.slice id
  concerns := Call.names
  Valid id store := (∃ totalWeight, Ledger msg totalWeight store) ∧
    (store.proposals id).isSome
  valid_step {id store} call hvalid := by
    obtain ⟨⟨totalWeight, hledger⟩, hstored⟩ := hvalid
    rcases commit_cases store call.env call.msg with
      ⟨response, -, heffect⟩ | ⟨halt, -, hsame⟩
    · exact ⟨⟨totalWeight, hledger.effect heffect⟩, heffect.isSome hstored⟩
    · rw [hsame]
      exact ⟨⟨totalWeight, hledger⟩, hstored⟩
  frame {id store call} hvalid hnames := by
    obtain ⟨⟨totalWeight, hledger⟩, hstored⟩ := hvalid
    have htarget : call.msg.target ≠ some id := by simpa [Call.names] using hnames
    rcases commit_cases store call.env call.msg with
      ⟨response, -, heffect⟩ | ⟨halt, -, hsame⟩
    · exact heffect.slice_eq hledger hstored htarget
    · rw [hsame]
  congr_step {id _ _ call} _ _ hnames hview :=
    ((tracks_slice id).congruent_handle call.env (of_decide_eq_true hnames)).commit
      hview
  congr_result {id _ _ call} _ _ hnames hview :=
    ((tracks_slice id).congruent_handle call.env (of_decide_eq_true hnames) _ _
      hview).1

section Replay

variable {W : Type}
variable {views : Views (Store M) (Call M)
  (Except (Halt StdError) (HandleResponse M)) U64 W}

/-- Replaying calls on a chain is running them on its store. -/
theorem replay_store
    (hstep : views.step = fun store call =>
      (handle call.env call.msg).commit store)
    (chain : Chain M) (calls : List (Call M)) :
    (chain.replay calls).store = views.run chain.store calls := by
  induction calls generalizing chain with
  | nil => rfl
  | cons call calls ih =>
      refine (ih (chain.submit call)).trans ?_
      rw [Views.run, Views.run, List.foldl_cons, hstep]
      rfl

theorem answers_eq_observed
    (hstep : views.step = fun store call =>
      (handle call.env call.msg).commit store)
    (hresult : views.result = fun store call => (call.run store).result)
    (id : U64) (chain : Chain M) (calls : List (Call M)) :
    chain.answers (views.concerns id) calls =
      views.observed id chain.store calls := by
  induction calls generalizing chain with
  | nil => rfl
  | cons call calls ih =>
      rw [Chain.answers, Views.observed, ih, hstep, hresult]
      rfl

end Replay

/-- In a reachable state, calls that do not name a stored proposal make no
difference to its slice and to the answers of those that do. -/
theorem slice_replay {chain : Chain M}
    (hreachable : (multisig msg).Reachable chain) {id : U64} {prop : Proposal M}
    (hstored : chain.store.proposals id = some prop) (calls : List (Call M)) :
    (chain.replay calls).store.slice id =
        (chain.replay (calls.filter (Call.names id))).store.slice id ∧
      chain.answers (Call.names id) calls =
        chain.answers (Call.names id) (calls.filter (Call.names id)) := by
  obtain ⟨totalWeight, -, hledger⟩ := ledger_of_reachable hreachable
  have hvalid : (sliceViews M msg).Valid id chain.store :=
    ⟨⟨totalWeight, hledger⟩, Option.isSome_of_mem hstored⟩
  obtain ⟨hview, hobserved⟩ := Views.run_congr hvalid hvalid rfl calls
  rw [← replay_store rfl, ← replay_store rfl] at hview
  rw [← answers_eq_observed rfl rfl, ← answers_eq_observed rfl rfl]
    at hobserved
  exact ⟨hview, hobserved⟩

/-- A slice that no call of the list concerns stays as it is. -/
theorem slice_replay_of_unconcerned (chain : Chain M) {id : U64}
    {calls : List (Call M)} (hcalls : ∀ call ∈ calls, call.concerns id = false) :
    (chain.replay calls).store.slice id = chain.store.slice id := by
  have hvalid : (shareViews M).Valid id chain.store := trivial
  have hnone : calls.filter ((shareViews M).concerns id) = [] :=
    List.filter_eq_nil_iff.2 fun call hcall => by
      simp [shareViews, hcalls call hcall]
  obtain ⟨hview, -⟩ := Views.run_congr hvalid hvalid rfl calls
  rw [hnone, ← replay_store rfl] at hview
  exact congrArg Prod.snd hview

/-- What becomes of a stored proposal and its ballots, and what the calls that
name it are told, is the same whether or not all other calls are made. -/
theorem proposal_isolated {chain : Chain M}
    (hreachable : (multisig msg).Reachable chain) {id : U64} {prop : Proposal M}
    (hstored : chain.store.proposals id = some prop) (calls : List (Call M)) :
    (chain.replay calls).store.proposals id =
        (chain.replay (calls.filter (Call.names id))).store.proposals id ∧
      (chain.replay calls).store.ballots id =
        (chain.replay (calls.filter (Call.names id))).store.ballots id ∧
      chain.answers (Call.names id) calls =
        chain.answers (Call.names id) (calls.filter (Call.names id)) := by
  obtain ⟨hslice, hanswers⟩ := slice_replay hreachable hstored calls
  exact ⟨congrArg Slice.proposal hslice, congrArg Slice.ballots hslice,
    hanswers⟩

/-- Two orders of calls that agree on the calls about each proposal, and on
those that create one, leave the same store and tell these calls the same. -/
theorem interleavings_agree (chain : Chain M) {calls calls' : List (Call M)}
    (hagree : ∀ id, calls.filter (Call.concerns id) =
      calls'.filter (Call.concerns id)) :
    (chain.replay calls).store = (chain.replay calls').store ∧
      ∀ id, chain.answers (Call.concerns id) calls =
        chain.answers (Call.concerns id) calls' := by
  have hvalid : ∀ id, (shareViews M).Valid id chain.store := fun _ => trivial
  have hviews := Views.run_of_filters hvalid hagree
  rw [← replay_store rfl, ← replay_store rfl] at hviews
  constructor
  · apply Store.ext
    · exact congrArg (fun share => share.2.config) (hviews 0).1
    · exact congrArg Prod.fst (hviews 0).1
    · exact congrArg (fun share => share.2.votersList) (hviews 0).1
    · exact congrArg (fun share => share.2.voters) (hviews 0).1
    · exact funext fun id =>
        congrArg (fun share => share.2.proposal) (hviews id).1
    · exact funext fun id =>
        congrArg (fun share => share.2.ballots) (hviews id).1
  · intro id
    have hobserved := (hviews id).2
    rw [← answers_eq_observed rfl rfl, ← answers_eq_observed rfl rfl]
      at hobserved
    exact hobserved

section Example

private def arcade : InitMsg where
  voters := [⟨"alice", 2⟩, ⟨"bob", 2⟩, ⟨"carol", 1⟩]
  threshold := .absoluteCount 3
  maxVotingPeriod := .height 100

private theorem arcade_accepted : arcade.Accepted 5 where
  nonempty := by decide
  summed := by decide
  valid := Threshold.validate_eq_ok_iff.1 (by decide)

private def arcadeChain : Chain String :=
  (Chain.deployed ⟨⟨10, 54⟩, ⟨"dave"⟩⟩ arcade).replay
    [⟨⟨⟨11, 60⟩, ⟨"alice"⟩⟩, .propose "first" "description" ["send"] none⟩,
      ⟨⟨⟨12, 66⟩, ⟨"bob"⟩⟩, .propose "second" "description" ["keep"] none⟩]

private def arcadeProposal : Proposal String where
  title := "first"
  description := "description"
  startHeight := 11
  expires := .atHeight 111
  msgs := ["send"]
  status := Status.open
  threshold := arcade.threshold
  totalWeight := 5
  votes := ⟨2, 0, 0, 0⟩

private def arcadeVote (height : U64) (sender : String) (id : U64)
    (vote : Vote) : Call String :=
  ⟨⟨⟨height, 5 * height⟩, ⟨sender⟩⟩, .vote id vote⟩

private def arcadeVotes : List (Call String) :=
  [arcadeVote 13 "carol" 2 .no, arcadeVote 14 "bob" 1 .yes,
    arcadeVote 15 "alice" 2 .no, arcadeVote 16 "carol" 1 .no]

/-- The second vote on the first proposal is too late; the votes on the second
proposal make no difference to that. -/
theorem proposal_isolated_arcade :
    (arcadeChain.answers (Call.names 1) arcadeVotes).map Except.isOk =
        [true, false] ∧
      arcadeChain.answers (Call.names 1) arcadeVotes =
        arcadeChain.answers (Call.names 1)
          (arcadeVotes.filter (Call.names 1)) :=
  ⟨by decide +kernel, (proposal_isolated
    (reachable_replay (.of_start (start_deployed _ arcade_accepted))
      (by decide)) (show arcadeChain.store.proposals 1 = some arcadeProposal
        from rfl) arcadeVotes).2.2⟩

private def arcadeReordered : List (Call String) :=
  [arcadeVote 14 "bob" 1 .yes, arcadeVote 16 "carol" 1 .no,
    arcadeVote 13 "carol" 2 .no, arcadeVote 15 "alice" 2 .no]

/-- First the votes on one proposal, then those on the other. -/
theorem interleavings_agree_arcade :
    (arcadeChain.replay arcadeVotes).store =
      (arcadeChain.replay arcadeReordered).store := by
  refine (interleavings_agree arcadeChain fun id => ?_).1
  by_cases hfirst : 1#64 = id
  · subst hfirst
    rfl
  · by_cases hsecond : 2#64 = id
    · subst hsecond
      rfl
    · simp [arcadeVotes, arcadeReordered, arcadeVote, Call.concerns,
        HandleMsg.target, hfirst, hsecond]

end Example

end FixedMultisig
