import FixedMultisig.Guarantees.Deadlines
import FixedMultisig.Guarantees.Isolation

/-!
# Winding up

Nothing stays undecided for ever.  Every deadline comes, and from then on one
call ends each proposal that is still open or passed, whoever makes it: closing
rejects what is open, executing dispatches what has passed.  Since proposals do
not interfere, all of them are ended by one call each, in any order of their
ids, and none of these calls is refused.
-/

namespace FixedMultisig

variable {M : Type} {msg : InitMsg}

/-- The call that ends a proposal after its deadline. -/
def Proposal.ending (prop : Proposal M) (env : Env) (id : U64) :
    Option (Call M) :=
  match prop.status with
  | .passed => some ⟨env, .execute id⟩
  | Status.open => some ⟨env, .close id⟩
  | _ => none

/-- The proposal as its ending leaves it. -/
def Proposal.ended (prop : Proposal M) : Proposal M :=
  { prop with
    status := if prop.status = .passed ∨ prop.status = .executed then .executed
      else .rejected }

/-- The ids that the counter has given out. -/
def Store.ids (store : Store M) : List U64 :=
  (List.range' 1 ((store.proposalCount.getD 0).toNat)).map (BitVec.ofNat 64)

/-- One call for each proposal that has not ended. -/
def Store.windUp (store : Store M) (env : Env) : List (Call M) :=
  store.ids.filterMap fun id =>
    (store.proposals id).bind fun prop => prop.ending env id

/-- Every deadline in the store is over. -/
def Overdue (store : Store M) (block : BlockInfo) : Prop :=
  ∀ id prop, store.proposals id = some prop →
    prop.expires.isExpired block = true

section Ids

variable {totalWeight : U64} {store : Store M}

theorem mem_ids_iff (hledger : Ledger msg totalWeight store) {id : U64} :
    id ∈ store.ids ↔ (store.proposals id).isSome := by
  obtain ⟨count, hcount, hids⟩ := hledger.counted
  rw [hids, Store.ids, hcount, Option.getD_some, List.mem_map]
  constructor
  · rintro ⟨n, hn, rfl⟩
    rw [List.mem_range'_1] at hn
    rw [BitVec.le_def, BitVec.le_def,
      CheckedWord.toNat_ofNat_of_lt (by omega)]
    exact ⟨hn.1, by omega⟩
  · rintro ⟨hone, hle⟩
    rw [BitVec.le_def] at hone hle
    refine ⟨id.toNat, ?_, BitVec.ofNat_toNat ..⟩
    rw [List.mem_range'_1]
    exact ⟨hone, by omega⟩

theorem nodup_ids (store : Store M) : store.ids.Nodup := by
  rw [Store.ids]
  apply List.Nodup.map_on _ (List.nodup_range' ..)
  intro n hn m hm heq
  rw [List.mem_range'_1] at hn hm
  have hnat := congrArg BitVec.toNat heq
  rwa [CheckedWord.toNat_ofNat_of_lt (by omega),
    CheckedWord.toNat_ofNat_of_lt (by omega)] at hnat

end Ids

theorem Proposal.ending_names {prop : Proposal M} {env : Env} {key id : U64}
    {call : Call M} (hending : prop.ending env id = some call) :
    Call.names key call = true ↔ key = id := by
  rw [ending] at hending
  split at hending <;> cases hending
  · simp [Call.names, HandleMsg.target, eq_comm]
  · simp [Call.names, HandleMsg.target, eq_comm]

/-- The calls that wind up name a stored proposal once. -/
theorem windUp_filter {totalWeight : U64} {store : Store M}
    (hledger : Ledger msg totalWeight store) {id : U64} {prop : Proposal M}
    (hstored : store.proposals id = some prop) (env : Env) :
    (store.windUp env).filter (Call.names id) =
      (prop.ending env id).toList := by
  rw [Store.windUp, filter_filterMap_of_nodup (fun {key other call} hmake => ?_)
    id (nodup_ids store), if_pos ((mem_ids_iff hledger).2 (by rw [hstored]; rfl)),
    hstored, Option.bind_some]
  obtain ⟨found, -, hending⟩ := Option.bind_eq_some_iff.1 hmake
  exact Proposal.ending_names hending

/-- Whatever is wound up is stored. -/
theorem exists_of_mem_windUp {store : Store M} {env : Env} {call : Call M}
    (hcall : call ∈ store.windUp env) :
    ∃ id prop, store.proposals id = some prop ∧
      prop.ending env id = some call := by
  obtain ⟨id, -, hmake⟩ := List.mem_filterMap.1 hcall
  obtain ⟨prop, hstored, hending⟩ := Option.bind_eq_some_iff.1 hmake
  exact ⟨id, prop, hstored, hending⟩

theorem Proposal.ended_of_rejected {prop : Proposal M}
    (hstatus : prop.status = .rejected) : prop.ended = prop := by
  cases prop
  cases hstatus
  rfl

theorem Proposal.ended_of_executed {prop : Proposal M}
    (hstatus : prop.status = .executed) : prop.ended = prop := by
  cases prop
  cases hstatus
  rfl

/-- A single accepted call about a proposal. -/
theorem replay_accepted {chain : Chain M} {call : Call M}
    {response : HandleResponse M}
    (hok : (call.run chain.store).result = .ok response) (id : U64) :
    (chain.replay [call]).store = (call.run chain.store).store ∧
      ∀ answer ∈ chain.answers (Call.names id) [call], answer.isOk = true := by
  refine ⟨Exec.commit_of_ok hok, fun answer hanswer => ?_⟩
  rw [Chain.answers, Chain.answers] at hanswer
  split at hanswer
  · rw [List.mem_singleton.1 hanswer, hok]
    rfl
  · cases hanswer

/-- After its deadline one accepted call ends a proposal. -/
theorem replay_ending {chain : Chain M}
    (hreachable : (multisig msg).Reachable chain) {id : U64} {prop : Proposal M}
    (hstored : chain.store.proposals id = some prop) {env : Env}
    (hexpired : prop.expires.isExpired env.block = true) :
    (chain.replay (prop.ending env id).toList).store.proposals id =
        some prop.ended ∧
      ∀ answer ∈ chain.answers (Call.names id) (prop.ending env id).toList,
        answer.isOk = true := by
  cases hstatus : prop.status with
  | pending => exact absurd hstatus (not_pending hreachable hstored)
  | «open» =>
      have henabled : CloseEnabled chain.store env id prop :=
        ⟨hstored, by rw [hstatus]; decide, hexpired⟩
      have hrun : Call.run ⟨env, .close id⟩ chain.store = _ :=
        executeClose_of_enabled henabled
      obtain ⟨hstore, hanswers⟩ := replay_accepted (by rw [hrun]) id
      rw [Proposal.ending, hstatus]
      refine ⟨?_, hanswers⟩
      rw [Option.toList_some, hstore, hrun, Store.putProposal_proposals_self,
        Proposal.ended, hstatus]
      rfl
  | rejected =>
      rw [Proposal.ending, hstatus, Proposal.ended_of_rejected hstatus]
      exact ⟨hstored, fun answer hanswer => by cases hanswer⟩
  | passed =>
      have hrun : Call.run ⟨env, .execute id⟩ chain.store = _ :=
        executeExecute_of_passed hstored hstatus
      obtain ⟨hstore, hanswers⟩ := replay_accepted (by rw [hrun]) id
      rw [Proposal.ending, hstatus]
      refine ⟨?_, hanswers⟩
      rw [Option.toList_some, hstore, hrun, Store.putProposal_proposals_self,
        Proposal.ended, hstatus]
      rfl
  | executed =>
      rw [Proposal.ending, hstatus, Proposal.ended_of_executed hstatus]
      exact ⟨hstored, fun answer hanswer => by cases hanswer⟩

/-- Stored proposals have a deadline. -/
theorem expires_ne_never {chain : Chain M}
    (hreachable : (multisig msg).Reachable chain) {id : U64} {prop : Proposal M}
    (hstored : chain.store.proposals id = some prop) :
    prop.expires ≠ .never := by
  obtain ⟨first, steps, hfirst, hrun⟩ := hreachable
  apply proposal_invariant (P := fun prop _ => prop.expires ≠ .never)
    (C := fun _ _ => True) (fun _ _ _ _ h => h) ?_ ?_ (fun _ _ _ h => h)
    (fun _ _ _ _ _ h => h) hfirst hrun (fun _ _ _ _ => trivial) hstored
  · intro _ env title description msgs latest power cfg expires prop _ _
      henabled hprop
    obtain ⟨maxExpires, hmax, hclamp⟩ := henabled.clamped
    obtain ⟨status, -, rfl⟩ := Proposal.updateStatus_eq_some_iff.1 hprop
    exact (sameKind_of_clampExpires hmax hclamp).ne_never
  · intro _ env id vote power prop prop' _ _ _ hprop hexpires
    obtain ⟨votes, status, -, -, rfl⟩ :=
      Proposal.recordVote_eq_some_iff.1 hprop
    exact hexpires

theorem le_last (value : U64) : value ≤ BitVec.allOnes 64 := by
  rw [BitVec.le_def, BitVec.toNat_allOnes]
  exact Nat.le_pred_of_lt value.isLt

/-- In the last block of all every deadline is over. -/
theorem isExpired_last {expires : Expiration} (hexpires : expires ≠ .never) :
    expires.isExpired ⟨BitVec.allOnes 64, BitVec.allOnes 64⟩ = true := by
  cases expires with
  | atHeight height => exact decide_eq_true (le_last height)
  | atTime time => exact decide_eq_true (le_last time)
  | never => exact absurd rfl hexpires

theorem ordered_of_block {block : BlockInfo} {calls : List (Call M)}
    {start : BlockInfo} (hstart : start ≤ block)
    (hcalls : ∀ call ∈ calls, call.env.block = block) : Ordered start calls := by
  induction calls generalizing start with
  | nil => trivial
  | cons call calls ih =>
      have hcall := hcalls call List.mem_cons_self
      refine ⟨hcall ▸ hstart, ih (hcall ▸ BlockInfo.le_refl _) ?_⟩
      exact fun other hother => hcalls other (List.mem_cons_of_mem _ hother)

section WindUp

variable {chain : Chain M} (hreachable : (multisig msg).Reachable chain)

theorem Proposal.ending_env {prop : Proposal M} {env : Env} {id : U64}
    {call : Call M} (hending : prop.ending env id = some call) :
    call.env = env := by
  rw [ending] at hending
  split at hending <;> cases hending <;> rfl

theorem Chain.label_mem_of_mem_moves {calls : List (Call M)}
    {move : Transition (Chain M) (Call M)}
    (hmove : move ∈ chain.moves calls) : move.label ∈ calls := by
  induction calls generalizing chain with
  | nil => cases hmove
  | cons call calls ih =>
      rcases List.mem_cons.1 hmove with rfl | hmove
      · exact List.mem_cons_self
      · exact List.mem_cons_of_mem _ (ih hmove)

/-- What is not stored is not touched. -/
theorem windUp_unstored {id : U64} (hnone : chain.store.proposals id = none)
    (env : Env) :
    (chain.replay (chain.store.windUp env)).store.proposals id = none := by
  refine (congrArg Slice.proposal
    (slice_replay_of_unconcerned chain fun call hcall => ?_)).trans hnone
  obtain ⟨other, prop, hstored, hending⟩ := exists_of_mem_windUp hcall
  have hother : other ≠ id := by
    rintro rfl
    rw [hnone] at hstored
    cases hstored
  have htarget : call.msg.target = some other :=
    of_decide_eq_true ((Proposal.ending_names hending).2 rfl)
  simp [Call.concerns, htarget, hother]

include hreachable

/-- What is stored gets its own call. -/
theorem windUp_stored {id : U64} {prop : Proposal M}
    (hstored : chain.store.proposals id = some prop) {env : Env}
    (hexpired : prop.expires.isExpired env.block = true) :
    (chain.replay (chain.store.windUp env)).store.proposals id =
        some prop.ended ∧
      ∀ answer ∈ chain.answers (Call.names id) (chain.store.windUp env),
        answer.isOk = true := by
  obtain ⟨totalWeight, -, hledger⟩ := ledger_of_reachable hreachable
  obtain ⟨hslice, hanswers⟩ := slice_replay hreachable hstored
    (chain.store.windUp env)
  rw [windUp_filter hledger hstored] at hslice hanswers
  obtain ⟨hended, hok⟩ := replay_ending hreachable hstored hexpired
  exact ⟨(congrArg Slice.proposal hslice).trans hended, hanswers ▸ hok⟩

end WindUp

/-- From every reachable state there is a block in which all deadlines are
over; in each such block anyone can end all proposals with one accepted call
each.  What has passed by then is executed, and everything else is rejected. -/
theorem reachable_winds_up {chain : Chain M}
    (hreachable : (multisig msg).Reachable chain) (sender : String) :
    (∃ block, chain.block ≤ block ∧ Overdue chain.store block) ∧
    ∀ block, chain.block ≤ block → Overdue chain.store block →
      Ordered chain.block (chain.store.windUp ⟨block, ⟨sender⟩⟩) ∧
      (∀ move ∈ chain.moves (chain.store.windUp ⟨block, ⟨sender⟩⟩),
        move.isAccepted = true) ∧
      ∀ id, (chain.replay
          (chain.store.windUp ⟨block, ⟨sender⟩⟩)).store.proposals id =
        (chain.store.proposals id).map Proposal.ended := by
  refine ⟨⟨⟨BitVec.allOnes 64, BitVec.allOnes 64⟩, ⟨le_last _, le_last _⟩,
    fun id prop hstored => isExpired_last (expires_ne_never hreachable hstored)⟩,
    fun block hblock hoverdue => ⟨?_, ?_, fun id => ?_⟩⟩
  · apply ordered_of_block hblock
    intro call hcall
    obtain ⟨id, prop, -, hending⟩ := exists_of_mem_windUp hcall
    rw [Proposal.ending_env hending]
  · intro move hmove
    obtain ⟨id, prop, hstored, hending⟩ :=
      exists_of_mem_windUp (Chain.label_mem_of_mem_moves hmove)
    exact (windUp_stored hreachable hstored (hoverdue id prop hstored)).2 _
      (Chain.mem_answers hmove ((Proposal.ending_names hending).2 rfl))
  · cases hstored : chain.store.proposals id with
    | none => exact windUp_unstored hstored _
    | some prop =>
        exact (windUp_stored hreachable hstored (hoverdue id prop hstored)).1

section Example

private def caretaker : InitMsg where
  voters := [⟨"alice", 2⟩, ⟨"bob", 1⟩]
  threshold := .absoluteCount 2
  maxVotingPeriod := .time 30

private theorem caretaker_accepted : caretaker.Accepted 3 where
  nonempty := by decide
  summed := by decide
  valid := Threshold.validate_eq_ok_iff.1 (by decide)

/-- One proposal passes, the other stays open. -/
private def caretakerChain : Chain String :=
  (Chain.deployed ⟨⟨10, 54⟩, ⟨"carol"⟩⟩ caretaker).replay
    [⟨⟨⟨11, 60⟩, ⟨"alice"⟩⟩, .propose "first" "description" ["send"] none⟩,
      ⟨⟨⟨12, 66⟩, ⟨"bob"⟩⟩, .propose "second" "description" ["keep"] none⟩]

private theorem caretakerChain_reachable :
    (multisig caretaker).Reachable caretakerChain :=
  reachable_replay (.of_start (start_deployed _ caretaker_accepted)) (by decide)

private def caretakerProposal (title : String) (height time : U64)
    (msgs : List String) (status : Status) (yes : U64) : Proposal String where
  title
  description := "description"
  startHeight := height
  expires := .atTime time
  msgs
  status
  threshold := .absoluteCount 2
  totalWeight := 3
  votes := ⟨yes, 0, 0, 0⟩

private theorem caretaker_stored :
    caretakerChain.store.proposals 1 =
        some (caretakerProposal "first" 11 90 ["send"] .passed 2) ∧
      caretakerChain.store.proposals 2 =
        some (caretakerProposal "second" 12 96 ["keep"] Status.open 1) :=
  ⟨rfl, rfl⟩

private theorem caretaker_overdue :
    Overdue caretakerChain.store ⟨20, 96⟩ := by
  intro id prop hstored
  obtain ⟨totalWeight, -, hledger⟩ :=
    ledger_of_reachable caretakerChain_reachable
  have hid : id ∈ [1, 2] := (mem_ids_iff hledger).2 (by rw [hstored]; rfl)
  rw [List.mem_pair] at hid
  rcases hid with rfl | rfl
  · obtain rfl := Option.some.inj (hstored.symm.trans caretaker_stored.1)
    decide
  · obtain rfl := Option.some.inj (hstored.symm.trans caretaker_stored.2)
    decide

/-- Dave executes what has passed and closes what is open. -/
theorem reachable_winds_up_caretaker :
    (∃ block, caretakerChain.block ≤ block ∧
      Overdue caretakerChain.store block) ∧
    caretakerChain.store.windUp ⟨⟨20, 96⟩, ⟨"dave"⟩⟩ =
      [⟨⟨⟨20, 96⟩, ⟨"dave"⟩⟩, .execute 1⟩, ⟨⟨⟨20, 96⟩, ⟨"dave"⟩⟩, .close 2⟩] ∧
    (∀ move ∈ caretakerChain.moves
        (caretakerChain.store.windUp ⟨⟨20, 96⟩, ⟨"dave"⟩⟩),
      move.isAccepted = true) ∧
    (caretakerChain.replay (caretakerChain.store.windUp
        ⟨⟨20, 96⟩, ⟨"dave"⟩⟩)).store.proposals 1 =
      some (caretakerProposal "first" 11 90 ["send"] .executed 2) ∧
    (caretakerChain.replay (caretakerChain.store.windUp
        ⟨⟨20, 96⟩, ⟨"dave"⟩⟩)).store.proposals 2 =
      some (caretakerProposal "second" 12 96 ["keep"] .rejected 1) := by
  obtain ⟨hsome, hall⟩ := reachable_winds_up caretakerChain_reachable "dave"
  obtain ⟨-, haccepted, hended⟩ :=
    hall ⟨20, 96⟩ (by decide) caretaker_overdue
  refine ⟨hsome, rfl, haccepted, (hended 1).trans ?_, (hended 2).trans ?_⟩
  · rw [caretaker_stored.1]
    rfl
  · rw [caretaker_stored.2]
    rfl

end Example

end FixedMultisig
