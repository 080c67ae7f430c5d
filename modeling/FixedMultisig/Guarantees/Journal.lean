import FixedMultisig.Chain.Multisig
import FixedMultisig.Core.Numeral

/-!
# The journal of a run

Clients do not read the store; they follow the log that every accepted call
returns.  This is enough: who writes down the logs of a run, and nothing else,
knows the ids in use, the stored status of every proposal and who has voted on
it.  The status an `execute` or a `close` leads to is not in its log, but it
follows from the action.
-/

namespace FixedMultisig

open CheckedWord

variable {M : Type} {msg : InitMsg}

/-- What one log says. -/
structure Notice where
  action : String
  sender : String
  id : String
  status : Option String
  deriving DecidableEq

/-- The first value under a key. -/
def valueOf (key : String) (log : List LogAttribute) : Option String :=
  (log.find? fun entry => entry.key = key).map LogAttribute.value

def Notice.read (log : List LogAttribute) : Option Notice := do
  let action ← valueOf "action" log
  let sender ← valueOf "sender" log
  let id ← valueOf "proposal_id" log
  return ⟨action, sender, id, valueOf "status" log⟩

namespace Notice

/-- The status of the proposal after the logged call. -/
def outcome (notice : Notice) : String :=
  notice.status.getD
    (if notice.action = "execute" then Status.executed.toDebug
    else Status.rejected.toDebug)

def isProposal (notice : Notice) : Bool := notice.action = "propose"

/-- The logged call leaves a ballot of its sender. -/
def casts (notice : Notice) : Bool :=
  notice.action = "propose" ∨ notice.action = "vote"

end Notice

/-- What an observer notes of a move: the log of the response, if any. -/
def Transition.notice (move : Transition (Chain M) (Call M)) : Option Notice :=
  match (move.label.run move.source.store).result with
  | .ok response => Notice.read response.log
  | .error _ => none

theorem Transition.notice_of_ok {move : Transition (Chain M) (Call M)}
    {response : HandleResponse M}
    (hok : (move.label.run move.source.store).result = .ok response) :
    move.notice = Notice.read response.log := by
  rw [notice, hok]

theorem Transition.notice_of_error {move : Transition (Chain M) (Call M)}
    {halt : Halt StdError}
    (herror : (move.label.run move.source.store).result = .error halt) :
    move.notice = none := by
  rw [notice, herror]

/-- The last outcome under each id. -/
def book (notices : List Notice) : String → Option String :=
  notices.foldl
    (fun known notice => Function.update known notice.id (some notice.outcome))
    fun _ => none

theorem book_concat (notices : List Notice) (notice : Notice) :
    book (notices ++ [notice]) =
      Function.update (book notices) notice.id (some notice.outcome) := by
  rw [book, List.foldl_append]
  rfl

/-- Ids are known by their texts. -/
theorem toString_toNat_inj {id other : U64} :
    toString id.toNat = toString other.toNat ↔ id = other := by
  constructor
  · intro htext
    have hlist := congrArg (fun text => Numeral.value text.toList) htext
    simp only [Nat.toString_eq_repr, Nat.toList_repr,
      Numeral.value_toDigits] at hlist
    exact BitVec.eq_of_toNat_eq hlist
  · rintro rfl
    rfl

/-! ## What the logs tell -/

section Read

theorem read_propose (env : Env) (id : U64) (prop : Proposal M) :
    Notice.read (proposeResponse env id prop).log =
      some ⟨"propose", env.message.sender, toString id.toNat,
        some prop.status.toDebug⟩ := by
  simp [Notice.read, valueOf, proposeResponse]

theorem read_vote (env : Env) (id : U64) (prop : Proposal M) :
    Notice.read (voteResponse env id prop).log =
      some ⟨"vote", env.message.sender, toString id.toNat,
        some prop.status.toDebug⟩ := by
  simp [Notice.read, valueOf, voteResponse]

theorem read_execute (env : Env) (id : U64) (prop : Proposal M) :
    Notice.read (executeResponse env id prop).log =
      some ⟨"execute", env.message.sender, toString id.toNat, none⟩ := by
  simp [Notice.read, valueOf, executeResponse]

theorem read_close (env : Env) (id : U64) :
    Notice.read (closeResponse env id : HandleResponse M).log =
      some ⟨"close", env.message.sender, toString id.toNat, none⟩ := by
  simp [Notice.read, valueOf, closeResponse]

end Read

/-- The journal agrees with the store. -/
structure Logged (store : Store M) (notices : List Notice) : Prop where
  /-- The ids were given out in order, from one to the counter. -/
  numbered : ∃ count, store.proposalCount = some count ∧
    (notices.filter Notice.isProposal).map Notice.id =
      (List.range' 1 count.toNat).map toString
  statuses : ∀ id : U64, book notices (toString id.toNat) =
    (store.proposals id).map fun prop => prop.status.toDebug
  ballots : ∀ (id : U64) addr, (store.ballots id addr).isSome ↔
    ∃ notice ∈ notices, notice.casts = true ∧
      notice.id = toString id.toNat ∧ notice.sender = addr

namespace Logged

variable {store : Store M} {notices : List Notice}

/-- The statuses after a notice about a proposal that was put. -/
theorem concat_statuses (hlogged : Logged store notices) {store' : Store M}
    {notice : Notice} {id : U64} {prop : Proposal M}
    (hid : notice.id = toString id.toNat)
    (houtcome : notice.outcome = prop.status.toDebug)
    (hproposals : store'.proposals = (store.putProposal id prop).proposals)
    (other : U64) :
    book (notices ++ [notice]) (toString other.toNat) =
      (store'.proposals other).map fun prop => prop.status.toDebug := by
  rw [book_concat, hproposals, hid]
  by_cases hother : other = id
  · rw [hother, Function.update_self, Store.putProposal_proposals_self, houtcome]
    rfl
  · rw [Function.update_of_ne (mt toString_toNat_inj.1 hother),
      Store.putProposal_proposals_of_ne _ _ _ hother, hlogged.statuses]

/-- A notice about a ballot that was put. -/
theorem concat_ballots (hlogged : Logged store notices) {store' : Store M}
    {notice : Notice} {id : U64} {ballot : Ballot}
    (hcasts : notice.casts = true) (hid : notice.id = toString id.toNat)
    (hballots : store'.ballots =
      (store.putBallot id notice.sender ballot).ballots)
    (other : U64) (addr : String) :
    (store'.ballots other addr).isSome ↔
      ∃ found ∈ notices ++ [notice], found.casts = true ∧
        found.id = toString other.toNat ∧ found.sender = addr := by
  have hold := hlogged.ballots other addr
  rw [hballots]
  simp only [List.mem_append, List.mem_singleton, or_and_right, exists_or,
    exists_eq_left, ← hold]
  by_cases hother : other = id
  · subst hother
    by_cases haddr : addr = notice.sender
    · subst haddr
      simp [Store.putBallot_ballots_self, hcasts, hid]
    · rw [Store.putBallot_ballots_of_ne_addr _ _ _ _ haddr]
      simp [Ne.symm haddr]
  · rw [Store.putBallot_ballots_of_ne _ _ _ _ hother]
    have hfar : notice.id ≠ toString other.toNat := by
      rw [hid]
      exact mt toString_toNat_inj.1 (Ne.symm hother)
    exact ⟨.inl, fun hsome => hsome.resolve_right fun hlast => hfar hlast.2.1⟩

/-- A notice that casts nothing. -/
theorem concat_silent (hlogged : Logged store notices) {store' : Store M}
    {notice : Notice} (hcasts : notice.casts = false)
    (hballots : store'.ballots = store.ballots) (other : U64) (addr : String) :
    (store'.ballots other addr).isSome ↔
      ∃ found ∈ notices ++ [notice], found.casts = true ∧
        found.id = toString other.toNat ∧ found.sender = addr := by
  rw [hballots, hlogged.ballots other addr]
  simp [List.mem_append, or_and_right, exists_or, hcasts]

/-- A notice of a call that does not create a proposal. -/
theorem concat_numbered (hlogged : Logged store notices) {store' : Store M}
    {notice : Notice} (hproposal : notice.isProposal = false)
    (hcount : store'.proposalCount = store.proposalCount) :
    ∃ count, store'.proposalCount = some count ∧
      ((notices ++ [notice]).filter Notice.isProposal).map Notice.id =
        (List.range' 1 count.toNat).map toString := by
  obtain ⟨count, hstored, hids⟩ := hlogged.numbered
  refine ⟨count, hcount.trans hstored, ?_⟩
  rw [List.filter_append, List.filter_cons_of_neg (by simp [hproposal]),
    List.filter_nil, List.append_nil, hids]

/-- The log of an effect keeps the journal up to date. -/
theorem effect (hlogged : Logged store notices) {env : Env}
    {call : HandleMsg M} {store' : Store M} {response : HandleResponse M}
    (heffect : Effect store env call store' response) :
    Logged store' (notices ++ (Notice.read response.log).toList) := by
  cases heffect with
  | @propose title description msgs latest power cfg expires prop count id
      henabled hprop hcount hid =>
      rw [read_propose, Option.toList_some]
      refine ⟨⟨id, rfl, ?_⟩, hlogged.concat_statuses rfl rfl rfl,
        hlogged.concat_ballots (by rfl) rfl rfl⟩
      obtain ⟨found, hfound, hids⟩ := hlogged.numbered
      rw [hcount, Option.some.injEq] at hfound
      subst hfound
      have hone : (1 : U64).toNat = 1 := rfl
      have hnext : id.toNat = count.toNat + 1 := by
        have hsum := (checkedAdd_eq_some_iff.1 hid)
        omega
      rw [List.filter_append, List.map_append, hids, hnext,
        List.range'_1_concat, List.map_append, Nat.add_comm 1, ← hnext]
      rfl
  | @vote id power vote prop prop' henabled hprop =>
      rw [read_vote, Option.toList_some]
      exact ⟨hlogged.concat_numbered (by rfl) rfl,
        hlogged.concat_statuses rfl rfl rfl,
        hlogged.concat_ballots (by rfl) rfl rfl⟩
  | execute hstored hpassed =>
      rw [read_execute, Option.toList_some]
      exact ⟨hlogged.concat_numbered (by rfl) rfl,
        hlogged.concat_statuses rfl rfl rfl,
        hlogged.concat_silent (by rfl) rfl⟩
  | close henabled =>
      rw [read_close, Option.toList_some]
      exact ⟨hlogged.concat_numbered (by rfl) rfl,
        hlogged.concat_statuses rfl rfl rfl,
        hlogged.concat_silent (by rfl) rfl⟩

end Logged

/-- The logs of a run tell the statuses, the ids and the voters. -/
theorem run_logged {first last : Chain M}
    {steps : List (Transition (Chain M) (Call M))}
    (hfirst : (multisig msg).start first)
    (hrun : (multisig msg).Run first steps last) :
    Logged last.store (steps.filterMap Transition.notice) := by
  induction hrun with
  | nil =>
      obtain ⟨totalWeight, -, hstore⟩ := start_cases hfirst
      rw [hstore]
      exact
        { numbered := ⟨0, rfl, rfl⟩
          statuses := fun id => rfl
          ballots := fun id addr => by simp [InitMsg.initialStore] }
  | @snoc steps chain next call hrun hstep ih =>
      obtain ⟨-, -, hcases⟩ := step_cases hstep
      rw [filterMap_concat]
      rcases hcases with ⟨response, hok, heffect⟩ | ⟨halt, herror, hsame⟩
      · have hnotice : Transition.notice ⟨chain, call, next⟩ =
            Notice.read response.log := Transition.notice_of_ok hok
        rw [hnotice]
        exact ih.effect heffect
      · have hnotice : Transition.notice ⟨chain, call, next⟩ = none :=
          Transition.notice_of_error herror
        rw [hnotice, Option.toList_none, List.append_nil, hsame]
        exact ih

section Example

private def follower : InitMsg where
  voters := [⟨"alice", 3⟩, ⟨"bob", 2⟩]
  threshold := .absoluteCount 4
  maxVotingPeriod := .height 100

private theorem follower_accepted : follower.Accepted 5 where
  nonempty := by decide
  summed := by decide
  valid := Threshold.validate_eq_ok_iff.1 (by decide)

private def followerCalls : List (Call String) :=
  [⟨⟨⟨11, 60⟩, ⟨"alice"⟩⟩, .propose "title" "description" ["send"] none⟩,
    ⟨⟨⟨12, 66⟩, ⟨"carol"⟩⟩, .execute 1⟩,
    ⟨⟨⟨13, 72⟩, ⟨"bob"⟩⟩, .vote 1 .yes⟩,
    ⟨⟨⟨14, 78⟩, ⟨"carol"⟩⟩, .execute 1⟩]

private def followerNotices : List Notice :=
  ((Chain.deployed ⟨⟨10, 54⟩, ⟨"carol"⟩⟩ follower).moves
    followerCalls).filterMap Transition.notice

/-- The refused call leaves no notice. -/
theorem run_logged_follower :
    followerNotices =
        [⟨"propose", "alice", "1", some "Open"⟩,
          ⟨"vote", "bob", "1", some "Passed"⟩,
          ⟨"execute", "carol", "1", none⟩] ∧
      Logged ((Chain.deployed ⟨⟨10, 54⟩, ⟨"carol"⟩⟩ follower).replay
        followerCalls).store followerNotices :=
  ⟨by decide +kernel, run_logged (start_deployed _ follower_accepted)
    (run_replay (by decide))⟩

end Example

end FixedMultisig
