import FixedMultisig.Chain.Ledger

/-!
# Recounting a run

A ballot is cast by an accepted vote, or by an accepted proposal for its
proposer.  Anyone who has seen a run can list what was cast in it and count
again.  The list holds no address twice on one proposal, it is exactly what the
store keeps as ballots, and the weights of its entries add up to the tallies:
no ballot is lost and none is counted twice, over the whole run.
-/

namespace FixedMultisig

open CheckedWord

variable {M : Type} {msg : InitMsg}

/-- A ballot as an observer of the run writes it down. -/
structure Cast where
  id : U64
  addr : String
  vote : Vote
  deriving DecidableEq

/-- What an accepted call casts, by the store it leaves. -/
def Call.cast (call : Call M) (left : Store M) : Option Cast :=
  match call.msg with
  | .propose _ _ _ _ =>
      left.proposalCount.map fun id => ⟨id, call.env.message.sender, .yes⟩
  | .vote id vote => some ⟨id, call.env.message.sender, vote⟩
  | .execute _ => none
  | .close _ => none

def Transition.cast (move : Transition (Chain M) (Call M)) : Option Cast :=
  if move.isAccepted then move.label.cast move.target.store else none

/-- The weight cast for an option on a proposal. -/
def castWeight (msg : InitMsg) (casts : List Cast) (id : U64) (vote : Vote) : ℕ :=
  ((casts.filter fun cast => cast.id = id ∧ cast.vote = vote).map
    fun cast => msg.electorate.weight cast.addr).sum

theorem castWeight_concat (casts : List Cast) (cast : Cast) (id : U64)
    (vote : Vote) :
    castWeight msg (casts ++ [cast]) id vote =
      castWeight msg casts id vote +
        if cast.id = id ∧ cast.vote = vote then
          msg.electorate.weight cast.addr else 0 := by
  by_cases hcast : cast.id = id ∧ cast.vote = vote
  · simp [castWeight, List.filter_append, hcast]
  · simp [castWeight, List.filter_append, hcast]

/-- The store holds what was cast. -/
structure Recounted (msg : InitMsg) (store : Store M) (casts : List Cast) :
    Prop where
  once : (casts.map fun cast => (cast.id, cast.addr)).Nodup
  ballots : ∀ id addr ballot, store.ballots id addr = some ballot ↔
    ⟨id, addr, ballot.vote⟩ ∈ casts ∧ msg.registry addr = some ballot.weight
  registered : ∀ cast ∈ casts, ∃ power, msg.registry cast.addr = some power
  tallies : ∀ id prop, store.proposals id = some prop →
    ∀ vote, prop.votes.tally vote = castWeight msg casts id vote

namespace Recounted

variable {store : Store M} {casts : List Cast}

/-- Without a ballot nothing was cast. -/
theorem not_mem_of_none (hrecounted : Recounted msg store casts) {id : U64}
    {addr : String} (hnone : store.ballots id addr = none) {cast : Cast}
    (hcast : cast ∈ casts) (hid : cast.id = id) : cast.addr ≠ addr := by
  rintro rfl
  obtain ⟨power, hpower⟩ := hrecounted.registered cast hcast
  have hballot := (hrecounted.ballots id cast.addr ⟨power, cast.vote⟩).2
    ⟨hid ▸ hcast, hpower⟩
  rw [hnone] at hballot
  cases hballot

/-- One more ballot, in a store that differs in this ballot only. -/
theorem concat (hrecounted : Recounted msg store casts) {store' : Store M}
    {id power : U64} {addr : String} {vote : Vote} {new : Proposal M}
    (hpower : msg.registry addr = some power)
    (hnone : store.ballots id addr = none)
    (hballots : store'.ballots =
      (store.putBallot id addr ⟨power, vote⟩).ballots)
    (hproposals : store'.proposals = (store.putProposal id new).proposals)
    (hnew : ∀ option, new.votes.tally option =
      castWeight msg (casts ++ [⟨id, addr, vote⟩]) id option) :
    Recounted msg store' (casts ++ [⟨id, addr, vote⟩]) where
  once := by
    rw [List.map_append, List.nodup_append]
    refine ⟨hrecounted.once, List.nodup_singleton _, ?_⟩
    rintro _ hmem _ hlast rfl
    obtain ⟨cast, hcast, hkey⟩ := List.mem_map.1 hmem
    obtain ⟨hid, haddr⟩ := Prod.ext_iff.1 (hkey.trans (List.mem_singleton.1 hlast))
    exact hrecounted.not_mem_of_none hnone hcast hid haddr
  ballots other other' ballot := by
    rw [hballots, List.mem_append, List.mem_singleton, Cast.mk.injEq]
    by_cases hid : other = id
    · subst hid
      by_cases haddr : other' = addr
      · subst haddr
        rw [Store.putBallot_ballots_self, Option.some.injEq]
        have hfresh : (⟨other, other', ballot.vote⟩ : Cast) ∉ casts :=
          fun hmem => hrecounted.not_mem_of_none hnone hmem rfl rfl
        rw [hpower, Option.some.injEq]
        constructor
        · rintro rfl
          exact ⟨.inr ⟨rfl, rfl, rfl⟩, rfl⟩
        · rintro ⟨hmem, hweight⟩
          obtain ⟨-, -, hvote⟩ := hmem.resolve_left hfresh
          cases ballot
          simp_all
      · rw [Store.putBallot_ballots_of_ne_addr _ _ _ _ haddr,
          hrecounted.ballots]
        simp [haddr]
    · rw [Store.putBallot_ballots_of_ne _ _ _ _ hid, hrecounted.ballots]
      simp [hid]
  registered cast hcast := by
    rcases List.mem_append.1 hcast with hcast | hcast
    · exact hrecounted.registered cast hcast
    · rw [List.mem_singleton.1 hcast]
      exact ⟨power, hpower⟩
  tallies other prop hstored option := by
    rw [hproposals] at hstored
    by_cases hother : other = id
    · subst hother
      rw [Store.putProposal_proposals_self, Option.some.injEq] at hstored
      exact hstored ▸ hnew option
    · rw [Store.putProposal_proposals_of_ne _ _ _ hother] at hstored
      rw [castWeight_concat, hrecounted.tallies other prop hstored,
        if_neg fun h => hother h.1.symm, Nat.add_zero]

/-- Another status of a stored proposal. -/
theorem putStatus (hrecounted : Recounted msg store casts) {id : U64}
    {prop : Proposal M} (hstored : store.proposals id = some prop)
    (status : Status) :
    Recounted msg (store.putProposal id { prop with status }) casts where
  once := hrecounted.once
  ballots := hrecounted.ballots
  registered := hrecounted.registered
  tallies other found hfound := by
    by_cases hother : other = id
    · subst hother
      rw [Store.putProposal_proposals_self, Option.some.injEq] at hfound
      exact hfound ▸ hrecounted.tallies other prop hstored
    · rw [Store.putProposal_proposals_of_ne _ _ _ hother] at hfound
      exact hrecounted.tallies other found hfound

/-- The effect of a call is recounted by what the call casts. -/
theorem effect {totalWeight : U64} (hledger : Ledger msg totalWeight store)
    (hrecounted : Recounted msg store casts) {env : Env} {call : HandleMsg M}
    {store' : Store M} {response : HandleResponse M}
    (heffect : Effect store env call store' response) :
    Recounted msg store'
      (casts ++ (Call.cast ⟨env, call⟩ store').toList) := by
  cases heffect with
  | @propose title description msgs latest power cfg expires prop count id
      henabled hprop hcount hid =>
      obtain ⟨status, -, rfl⟩ := Proposal.updateStatus_eq_some_iff.1 hprop
      have hpower := hledger.voters ▸ henabled.registered
      have hnone := hledger.unstored id (hledger.fresh hcount hid)
      have hempty : ∀ option, castWeight msg casts id option = 0 := by
        intro option
        have hfilter : casts.filter (fun cast =>
            cast.id = id ∧ cast.vote = option) = [] := by
          apply List.filter_eq_nil_iff.2
          intro cast hcast
          have hid : cast.id ≠ id := fun hid =>
            hrecounted.not_mem_of_none (hnone cast.addr) hcast hid rfl
          simp [hid]
        rw [castWeight, hfilter]
        rfl
      refine hrecounted.concat hpower (hnone _) rfl rfl fun option => ?_
      rw [castWeight_concat, hempty, InitMsg.electorate_weight hpower]
      change (Votes.initYes power).tally option = _
      rw [Votes.tally_initYes]
      cases option <;> simp
  | @vote id power vote prop prop' henabled hprop =>
      obtain ⟨votes, status, hvotes, -, rfl⟩ :=
        Proposal.recordVote_eq_some_iff.1 hprop
      have hpower := hledger.voters ▸ henabled.registered
      refine hrecounted.concat hpower henabled.fresh rfl rfl fun option => ?_
      rw [castWeight_concat, InitMsg.electorate_weight hpower,
        ← hrecounted.tallies id prop henabled.stored]
      change votes.tally option = _
      rw [Votes.tally_addVote hvotes, Pi.add_apply, Pi.single_apply]
      simp only [true_and, eq_comm]
  | execute hstored hpassed =>
      simpa [Call.cast] using hrecounted.putStatus hstored _
  | close henabled =>
      simpa [Call.cast] using hrecounted.putStatus henabled.stored _

end Recounted

/-- Recounting any run gives the stored ballots and tallies. -/
theorem run_recounted {first last : Chain M}
    {steps : List (Transition (Chain M) (Call M))}
    (hfirst : (multisig msg).start first)
    (hrun : (multisig msg).Run first steps last) :
    Recounted msg last.store (steps.filterMap Transition.cast) := by
  induction hrun with
  | nil =>
      obtain ⟨totalWeight, -, hstore⟩ := start_cases hfirst
      rw [hstore]
      exact
        { once := List.nodup_nil
          ballots := fun id addr ballot => by
            simp [InitMsg.initialStore]
          registered := fun cast hcast => by cases hcast
          tallies := fun id prop hstored => by cases hstored }
  | @snoc steps chain next call hrun hstep ih =>
      obtain ⟨totalWeight, -, hledger⟩ := ledger_of_reachable ⟨first, steps,
        hfirst, hrun⟩
      obtain ⟨-, -, hcases⟩ := step_cases hstep
      rw [filterMap_concat]
      rcases hcases with ⟨response, hok, heffect⟩ | ⟨halt, herror, hsame⟩
      · have hcast : Transition.cast ⟨chain, call, next⟩ =
            call.cast next.store := by
          rw [Transition.cast, if_pos (Transition.isAccepted_of_ok hok)]
        rw [hcast]
        exact ih.effect hledger heffect
      · have hcast : Transition.cast ⟨chain, call, next⟩ = none := by
          rw [Transition.cast, Transition.isAccepted_of_error herror]
          rfl
        rw [hcast, Option.toList_none,
          List.append_nil, hsame]
        exact ih

section Example

private def teller : InitMsg where
  voters := [⟨"alice", 3⟩, ⟨"bob", 2⟩]
  threshold := .absoluteCount 4
  maxVotingPeriod := .height 100

private theorem teller_accepted : teller.Accepted 5 where
  nonempty := by decide
  summed := by decide
  valid := Threshold.validate_eq_ok_iff.1 (by decide)

/-- Alice votes again in vain. -/
private def tellerMoves : List (Transition (Chain String) (Call String)) :=
  (Chain.deployed ⟨⟨10, 54⟩, ⟨"carol"⟩⟩ teller).moves
    [⟨⟨⟨11, 60⟩, ⟨"alice"⟩⟩, .propose "title" "description" ["send"] none⟩,
      ⟨⟨⟨12, 66⟩, ⟨"alice"⟩⟩, .vote 1 .yes⟩,
      ⟨⟨⟨13, 72⟩, ⟨"bob"⟩⟩, .vote 1 .veto⟩]

theorem run_recounted_teller :
    tellerMoves.filterMap Transition.cast =
        [⟨1, "alice", .yes⟩, ⟨1, "bob", .veto⟩] ∧
      Recounted teller (((Chain.deployed ⟨⟨10, 54⟩, ⟨"carol"⟩⟩ teller).replay
        [⟨⟨⟨11, 60⟩, ⟨"alice"⟩⟩, .propose "title" "description" ["send"] none⟩,
          ⟨⟨⟨12, 66⟩, ⟨"alice"⟩⟩, .vote 1 .yes⟩,
          ⟨⟨⟨13, 72⟩, ⟨"bob"⟩⟩, .vote 1 .veto⟩]).store : Store String)
        (tellerMoves.filterMap Transition.cast) :=
  ⟨by decide +kernel, run_recounted (start_deployed _ teller_accepted)
    (run_replay (by decide))⟩

end Example

end FixedMultisig
