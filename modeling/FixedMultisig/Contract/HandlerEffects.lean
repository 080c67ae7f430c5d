import FixedMultisig.Contract.Handlers

/-!
# What a call can do

One inversion for all handlers.  `Effect` lists the four things a successful
call does, each with every guard it passed and the exact store it leaves;
`handle_cases` says that a call has such an effect, or returns an error having
written nothing, or traps.  Later files split a step into these cases and do
not unfold a handler again.
-/

namespace FixedMultisig

open CheckedWord

variable {M : Type}

/-- The expiration of a new proposal: the proposer's choice, cut to the
longest allowed one; nothing if the two cannot be compared. -/
def clampExpires (latest : Option Expiration) (maxExpires : Expiration) :
    Option Expiration :=
  match (latest.getD maxExpires).partialCmp maxExpires with
  | some .gt => some maxExpires
  | none => none
  | some _ => some (latest.getD maxExpires)

/-- A proposal as it is built, before its first status update. -/
def newProposal (env : Env) (title description : String) (msgs : List M)
    (expires : Expiration) (votePower : U64) (cfg : Config) : Proposal M where
  title
  description
  startHeight := env.block.height
  expires
  msgs
  status := Status.open
  votes := Votes.initYes votePower
  threshold := cfg.threshold
  totalWeight := cfg.totalWeight

/-- The proposal after one more counted vote and a status update. -/
def Proposal.recordVote (prop : Proposal M) (vote : Vote) (power : U64)
    (block : BlockInfo) : Option (Proposal M) := do
  let votes ← prop.votes.addVote vote power
  { prop with votes }.updateStatus block

theorem Proposal.recordVote_eq_some {prop prop' : Proposal M} {vote : Vote}
    {power : U64} {block : BlockInfo}
    (hprop : prop.recordVote vote power block = some prop') :
    ∃ votes, prop.votes.addVote vote power = some votes ∧
      Proposal.updateStatus { prop with votes } block = some prop' := by
  rwa [recordVote, Option.bind_eq_bind, Option.bind_eq_some_iff] at hprop

theorem Proposal.recordVote_eq_some_iff {prop prop' : Proposal M} {vote : Vote}
    {power : U64} {block : BlockInfo} :
    prop.recordVote vote power block = some prop' ↔
      ∃ votes status, prop.votes.addVote vote power = some votes ∧
        Proposal.currentStatus { prop with votes } block = some status ∧
        prop' = { prop with votes, status } := by
  rw [recordVote, Option.bind_eq_bind, Option.bind_eq_some_iff]
  simp only [updateStatus_eq_some_iff, exists_and_left]

/-- The guards of a proposal. -/
structure ProposeEnabled (store : Store M) (env : Env)
    (latest : Option Expiration) (power : U64) (cfg : Config)
    (expires : Expiration) : Prop where
  registered : store.voters env.message.sender = some power
  configured : store.config = some cfg
  clamped : ∃ maxExpires, cfg.maxVotingPeriod.after env.block = some maxExpires ∧
    clampExpires latest maxExpires = some expires

/-- The guards of a vote. -/
structure VoteEnabled (store : Store M) (env : Env) (id power : U64)
    (prop : Proposal M) : Prop where
  registered : store.voters env.message.sender = some power
  powerful : 1 ≤ power
  stored : store.proposals id = some prop
  isOpen : prop.status = Status.open
  unexpired : prop.expires.isExpired env.block = false
  fresh : store.ballots id env.message.sender = none

/-- The guards of closing a proposal. -/
structure CloseEnabled (store : Store M) (env : Env) (id : U64)
    (prop : Proposal M) : Prop where
  stored : store.proposals id = some prop
  undecided : prop.status ∉ [Status.executed, Status.rejected, Status.passed]
  expired : prop.expires.isExpired env.block = true

/-- The longest expiration is not cut. -/
theorem clampExpires_none (maxExpires : Expiration) :
    clampExpires none maxExpires = some maxExpires := by
  have hself : ∀ value, Expiration.cmp value value = .eq := fun value => by
    rw [Expiration.cmp, if_neg (BitVec.lt_irrefl value), if_pos rfl]
  cases maxExpires <;> simp [clampExpires, Expiration.partialCmp, hself]

theorem enabled_of_registered {store : Store M} {env : Env} {power : U64}
    {cfg : Config} {maxExpires : Expiration}
    (hregistered : store.voters env.message.sender = some power)
    (hconfig : store.config = some cfg)
    (hmax : cfg.maxVotingPeriod.after env.block = some maxExpires) :
    ProposeEnabled store env none power cfg maxExpires :=
  ⟨hregistered, hconfig, maxExpires, hmax, clampExpires_none maxExpires⟩

def proposeResponse (env : Env) (id : U64) (prop : Proposal M) :
    HandleResponse M where
  messages := []
  log := [
    ⟨"action", "propose"⟩,
    ⟨"sender", env.message.sender⟩,
    ⟨"proposal_id", toString id.toNat⟩,
    ⟨"status", prop.status.toDebug⟩]
  data := none

def voteResponse (env : Env) (id : U64) (prop : Proposal M) :
    HandleResponse M where
  messages := []
  log := [
    ⟨"action", "vote"⟩,
    ⟨"sender", env.message.sender⟩,
    ⟨"proposal_id", toString id.toNat⟩,
    ⟨"status", prop.status.toDebug⟩]
  data := none

def executeResponse (env : Env) (id : U64) (prop : Proposal M) :
    HandleResponse M where
  messages := prop.msgs
  log := [
    ⟨"action", "execute"⟩,
    ⟨"sender", env.message.sender⟩,
    ⟨"proposal_id", toString id.toNat⟩]
  data := none

def closeResponse (env : Env) (id : U64) : HandleResponse M where
  messages := []
  log := [
    ⟨"action", "close"⟩,
    ⟨"sender", env.message.sender⟩,
    ⟨"proposal_id", toString id.toNat⟩]
  data := none

/-- Everything a successful call does. -/
inductive Effect (store : Store M) (env : Env) :
    HandleMsg M → Store M → HandleResponse M → Prop
  | propose {title description : String} {msgs : List M}
      {latest : Option Expiration} {power : U64} {cfg : Config}
      {expires : Expiration} {prop : Proposal M} {count id : U64}
      (henabled : ProposeEnabled store env latest power cfg expires)
      (hprop : (newProposal env title description msgs expires power
        cfg).updateStatus env.block = some prop)
      (hcount : store.proposalCount = some count)
      (hid : checkedAdd count 1 = some id) :
      Effect store env (.propose title description msgs latest)
        (((store.putCount id).putProposal id prop).putBallot id
          env.message.sender ⟨power, .yes⟩)
        (proposeResponse env id prop)
  | vote {id power : U64} {vote : Vote} {prop prop' : Proposal M}
      (henabled : VoteEnabled store env id power prop)
      (hprop : prop.recordVote vote power env.block = some prop') :
      Effect store env (.vote id vote)
        ((store.putBallot id env.message.sender ⟨power, vote⟩).putProposal id
          prop')
        (voteResponse env id prop')
  | execute {id : U64} {prop : Proposal M}
      (hstored : store.proposals id = some prop)
      (hpassed : prop.status = Status.passed) :
      Effect store env (.execute id)
        (store.putProposal id { prop with status := Status.executed })
        (executeResponse env id prop)
  | close {id : U64} {prop : Proposal M}
      (henabled : CloseEnabled store env id prop) :
      Effect store env (.close id)
        (store.putProposal id { prop with status := Status.rejected })
        (closeResponse env id)

/-- The three ways a call ends: it returns an error before its first write, it
traps, or it has an effect. -/
inductive Ending (store : Store M) (env : Env) (msg : HandleMsg M) :
    Outcome (Store M) StdError (HandleResponse M) → Prop
  | refused (reason : StdError) :
      Ending store env msg ⟨.error (.error reason), store, []⟩
  | trapped (left : Store M) (trace : List (Store M)) :
      Ending store env msg ⟨.error .abort, left, trace⟩
  | done {left : Store M} {response : HandleResponse M}
      (trace : List (Store M)) (heffect : Effect store env msg left response) :
      Ending store env msg ⟨.ok response, left, trace⟩

/-! ## Outcomes of the handlers -/

section Outcomes

variable {store : Store M} {env : Env}

/-- A proposal whose guards hold is decided by its first status update and by
the counter. -/
theorem executePropose_of_enabled {title description : String} {msgs : List M}
    {latest : Option Expiration} {power : U64} {cfg : Config}
    {expires : Expiration}
    (henabled : ProposeEnabled store env latest power cfg expires) :
    (executePropose env title description msgs latest).run store =
      match (newProposal env title description msgs expires power
          cfg).updateStatus env.block with
      | none => ⟨.error .abort, store, []⟩
      | some prop =>
          match store.proposalCount with
          | none => ⟨.error (.error .notFound), store, []⟩
          | some count =>
              match checkedAdd count 1 with
              | none => ⟨.error .abort, store, []⟩
              | some id =>
                  ⟨.ok (proposeResponse env id prop),
                    ((store.putCount id).putProposal id prop).putBallot id
                      env.message.sender ⟨power, .yes⟩,
                    [store.putCount id,
                      (store.putCount id).putProposal id prop,
                      ((store.putCount id).putProposal id prop).putBallot id
                        env.message.sender ⟨power, .yes⟩]⟩ := by
  obtain ⟨hregistered, hconfig, maxExpires, hmax, hclamp⟩ := henabled
  have hexpires : (match (latest.getD maxExpires).partialCmp maxExpires with
      | some .gt => pure maxExpires
      | none => Exec.fail ContractError.wrongExpiration.toStdError
      | some _ => pure (latest.getD maxExpires) :
        Contract M Expiration) = pure expires := by
    rw [clampExpires] at hclamp
    split at hclamp <;> simp_all
  rw [executePropose]
  simp only [Bucket.run_mayLoad_bind, voters_get, hregistered,
    Exec.run_pure_bind]
  rw [Singleton.run_load_bind hconfig, hmax, Exec.run_lift_some_bind]
  refine (Exec.run_bind_of_eq_pure hexpires _ store).trans ?_
  change (Exec.lift ((newProposal env title description msgs expires power
    cfg).updateStatus env.block) >>= _).run store = _
  cases (newProposal env title description msgs expires power
    cfg).updateStatus env.block with
  | none => rfl
  | some prop =>
      rw [Exec.run_lift_some_bind]
      cases hcount : store.proposalCount with
      | none => rw [Singleton.run_update_bind_missing hcount]
      | some count =>
          cases hid : checkedAdd count 1 with
          | none =>
              rw [Singleton.run_update_bind_halt hcount
                (by rw [hid, Exec.run_lift_none])]
              simp only [hid]
          | some id =>
              rw [Singleton.run_update_bind hcount (by rw [hid]; rfl)]
              simp only [hid]
              rfl

/-- Without its guards a proposal is refused, or the maximal voting period
overflows. -/
theorem executePropose_refused (title description : String)
    (msgs : List M) {latest : Option Expiration}
    (hdisabled : ∀ power cfg expires,
      ¬ ProposeEnabled store env latest power cfg expires) :
    (∃ reason, (executePropose env title description msgs latest).run store =
      ⟨.error (.error reason), store, []⟩) ∨
    ((∃ cfg, store.config = some cfg ∧
        cfg.maxVotingPeriod.after env.block = none) ∧
      (executePropose env title description msgs latest).run store =
        ⟨.error .abort, store, []⟩) := by
  rw [executePropose, Bucket.run_mayLoad_bind, voters_get]
  cases hregistered : store.voters env.message.sender with
  | none => exact .inl ⟨_, rfl⟩
  | some power =>
      rw [Exec.run_pure_bind]
      cases hconfig : store.config with
      | none =>
          rw [Singleton.run_load_bind_missing hconfig]
          exact .inl ⟨_, rfl⟩
      | some cfg =>
          rw [Singleton.run_load_bind hconfig]
          cases hmax : cfg.maxVotingPeriod.after env.block with
          | none => exact .inr ⟨⟨cfg, rfl, hmax⟩, rfl⟩
          | some maxExpires =>
              rw [Exec.run_lift_some_bind]
              cases hcomp : (latest.getD maxExpires).partialCmp maxExpires with
              | none => exact .inl ⟨_, rfl⟩
              | some order =>
                  exfalso
                  have hclamp : ∃ expires,
                      clampExpires latest maxExpires = some expires := by
                    cases order <;> simp [clampExpires, hcomp]
                  obtain ⟨expires, hclamp⟩ := hclamp
                  exact hdisabled power cfg expires
                    ⟨hregistered, hconfig, maxExpires, hmax, hclamp⟩

theorem executePropose_of_not_enabled {title description : String}
    {msgs : List M} {latest : Option Expiration}
    (hdisabled : ∀ power cfg expires,
      ¬ ProposeEnabled store env latest power cfg expires) :
    Ending store env (.propose title description msgs latest)
      ((executePropose env title description msgs latest).run store) := by
  rcases executePropose_refused title description msgs hdisabled with
    ⟨reason, hrun⟩ | ⟨-, hrun⟩
  · rw [hrun]
    exact .refused reason
  · rw [hrun]
    exact .trapped store []

theorem executePropose_ending {title description : String} {msgs : List M}
    {latest : Option Expiration} :
    Ending store env (.propose title description msgs latest)
      ((executePropose env title description msgs latest).run store) := by
  by_cases henabled : ∃ power cfg expires,
      ProposeEnabled store env latest power cfg expires
  · obtain ⟨power, cfg, expires, henabled⟩ := henabled
    rw [executePropose_of_enabled henabled]
    cases hprop : (newProposal env title description msgs expires power
      cfg).updateStatus env.block with
    | none => exact .trapped _ _
    | some prop =>
        cases hcount : store.proposalCount with
        | none => exact .refused _
        | some count =>
            cases hid : checkedAdd count 1 with
            | none =>
                simp only [hid]
                exact .trapped _ _
            | some id =>
                simp only [hid]
                exact .done _ (.propose henabled hprop hcount hid)
  · exact executePropose_of_not_enabled fun power cfg expires hpropose =>
      henabled ⟨power, cfg, expires, hpropose⟩

/-- A vote whose guards hold is decided by the tally arithmetic.  The ballot
is written before that, so a trap leaves it behind. -/
theorem executeVote_of_enabled {id power : U64} {prop : Proposal M}
    (vote : Vote) (henabled : VoteEnabled store env id power prop) :
    (executeVote env id vote).run store =
      match prop.recordVote vote power env.block with
      | none =>
          ⟨.error .abort,
            store.putBallot id env.message.sender ⟨power, vote⟩,
            [store.putBallot id env.message.sender ⟨power, vote⟩]⟩
      | some prop' =>
          ⟨.ok (voteResponse env id prop'),
            (store.putBallot id env.message.sender
              ⟨power, vote⟩).putProposal id prop',
            [store.putBallot id env.message.sender ⟨power, vote⟩,
              (store.putBallot id env.message.sender
                ⟨power, vote⟩).putProposal id prop']⟩ := by
  obtain ⟨hregistered, hpowerful, hstored, hopen, hunexpired, hfresh⟩ :=
    henabled
  rw [executeVote]
  simp only [Bucket.run_mayLoad_bind, voters_get, hregistered, hpowerful,
    if_true, Exec.run_pure_bind]
  rw [Bucket.run_load_bind hstored]
  simp only [hopen, ne_eq, not_true_eq_false, if_false, hunexpired,
    Bool.false_eq_true, Bucket.run_mayLoad_bind, ballots_get, hfresh]
  rw [Bucket.save, Exec.run_write_bind, ballots_set, Proposal.recordVote]
  cases prop.votes.addVote vote power with
  | none => rfl
  | some votes =>
      rw [Exec.run_lift_some_bind, ← hopen, Option.bind_eq_bind,
        Option.bind_some]
      cases Proposal.updateStatus { prop with votes } env.block with
      | none => rfl
      | some prop' => rfl

/-- Without its guards a vote is refused before its first write. -/
theorem executeVote_of_not_enabled {id : U64} (vote : Vote)
    (hdisabled : ∀ power prop, ¬ VoteEnabled store env id power prop) :
    ∃ reason, (executeVote env id vote).run store =
      ⟨.error (.error reason), store, []⟩ := by
  rw [executeVote, Bucket.run_mayLoad_bind, voters_get]
  cases hregistered : store.voters env.message.sender with
  | none => exact ⟨_, rfl⟩
  | some power =>
      by_cases hpowerful : 1 ≤ power
      · simp only [hpowerful, if_true, Exec.run_pure_bind]
        cases hstored : store.proposals id with
        | none => exact ⟨_, Bucket.run_load_bind_missing hstored⟩
        | some prop =>
            rw [Bucket.run_load_bind hstored]
            by_cases hopen : prop.status = Status.open
            · cases hunexpired : prop.expires.isExpired env.block with
              | true =>
                  simp only [hopen, ne_eq, not_true_eq_false, if_false,
                    if_true, Exec.run_fail_bind]
                  exact ⟨_, rfl⟩
              | false =>
                  cases hfresh : store.ballots id env.message.sender with
                  | some ballot =>
                      simp only [hopen, ne_eq, not_true_eq_false, if_false,
                        Bool.false_eq_true, Bucket.run_mayLoad_bind,
                        ballots_get, hfresh, Exec.run_fail_bind]
                      exact ⟨_, rfl⟩
                  | none =>
                      exact (hdisabled power prop ⟨hregistered, hpowerful,
                        hstored, hopen, hunexpired, hfresh⟩).elim
            · simp only [ne_eq, hopen, not_false_eq_true, if_true,
                Exec.run_fail_bind]
              exact ⟨_, rfl⟩
      · simp only [hpowerful, if_false, Exec.run_fail_bind]
        exact ⟨_, rfl⟩

theorem executeVote_ending {id : U64} {vote : Vote} :
    Ending store env (.vote id vote) ((executeVote env id vote).run store) := by
  by_cases henabled : ∃ power prop, VoteEnabled store env id power prop
  · obtain ⟨power, prop, henabled⟩ := henabled
    rw [executeVote_of_enabled vote henabled]
    cases hprop : prop.recordVote vote power env.block with
    | none => exact .trapped _ _
    | some prop' => exact .done _ (.vote henabled hprop)
  · obtain ⟨reason, hrefused⟩ := executeVote_of_not_enabled vote
      fun power prop hvote => henabled ⟨power, prop, hvote⟩
    rw [hrefused]
    exact .refused reason

theorem executeExecute_of_passed {id : U64} {prop : Proposal M}
    (hstored : store.proposals id = some prop)
    (hpassed : prop.status = Status.passed) :
    (executeExecute env id).run store =
      ⟨.ok (executeResponse env id prop),
        store.putProposal id { prop with status := Status.executed },
        [store.putProposal id { prop with status := Status.executed }]⟩ := by
  rw [executeExecute, Bucket.run_load_bind hstored]
  simp only [hpassed, ne_eq, not_true_eq_false, if_false]
  rfl

theorem executeExecute_of_not_passed {id : U64}
    (hpassed : ∀ prop, store.proposals id = some prop →
      prop.status ≠ Status.passed) :
    ∃ reason, (executeExecute env id).run store =
      ⟨.error (.error reason), store, []⟩ := by
  rw [executeExecute]
  cases hstored : store.proposals id with
  | none => exact ⟨_, Bucket.run_load_bind_missing hstored⟩
  | some prop =>
      rw [Bucket.run_load_bind hstored]
      simp only [ne_eq, hpassed prop hstored, not_false_eq_true, if_true,
        Exec.run_fail_bind]
      exact ⟨_, rfl⟩

theorem executeClose_of_enabled {id : U64} {prop : Proposal M}
    (henabled : CloseEnabled store env id prop) :
    (executeClose env id).run store =
      ⟨.ok (closeResponse env id),
        store.putProposal id { prop with status := Status.rejected },
        [store.putProposal id { prop with status := Status.rejected }]⟩ := by
  rw [executeClose, Bucket.run_load_bind henabled.stored]
  simp only [henabled.undecided, henabled.expired, if_false, not_true_eq_false]
  rfl

theorem executeClose_of_not_enabled {id : U64}
    (hdisabled : ∀ prop, ¬ CloseEnabled store env id prop) :
    ∃ reason, (executeClose env id).run store =
      ⟨.error (.error reason), store, []⟩ := by
  rw [executeClose]
  cases hstored : store.proposals id with
  | none => exact ⟨_, Bucket.run_load_bind_missing hstored⟩
  | some prop =>
      rw [Bucket.run_load_bind hstored]
      by_cases hundecided :
          prop.status ∈ [Status.executed, Status.rejected, Status.passed]
      · simp only [hundecided, if_true, Exec.run_fail_bind]
        exact ⟨_, rfl⟩
      · have hunexpired : ¬ prop.expires.isExpired env.block = true :=
          fun hexpired => hdisabled prop ⟨hstored, hundecided, hexpired⟩
        simp only [hundecided, hunexpired, if_false]
        exact ⟨_, rfl⟩

/-- Every call ends in one of the three ways. -/
theorem handle_ending (store : Store M) (env : Env) (msg : HandleMsg M) :
    Ending store env msg ((handle env msg).run store) := by
  cases msg with
  | propose title description msgs latest => exact executePropose_ending
  | vote id vote => exact executeVote_ending
  | execute id =>
      by_cases hpassed : ∃ prop, store.proposals id = some prop ∧
          prop.status = Status.passed
      · obtain ⟨prop, hstored, hpassed⟩ := hpassed
        rw [handle, executeExecute_of_passed hstored hpassed]
        exact .done _ (.execute hstored hpassed)
      · obtain ⟨reason, hrefused⟩ := executeExecute_of_not_passed
          fun prop hstored hstatus => hpassed ⟨prop, hstored, hstatus⟩
        rw [handle, hrefused]
        exact .refused reason
  | close id =>
      by_cases henabled : ∃ prop, CloseEnabled store env id prop
      · obtain ⟨prop, henabled⟩ := henabled
        rw [handle, executeClose_of_enabled henabled]
        exact .done _ (.close henabled)
      · obtain ⟨reason, hrefused⟩ := executeClose_of_not_enabled
          fun prop hclose => henabled ⟨prop, hclose⟩
        rw [handle, hrefused]
        exact .refused reason

/-- A call that returns a response has an effect. -/
theorem effect_of_ok {msg : HandleMsg M} {response : HandleResponse M}
    (hok : ((handle env msg).run store).result = .ok response) :
    Effect store env msg ((handle env msg).run store).store response := by
  have hending := handle_ending store env msg
  revert hok hending
  generalize (handle env msg).run store = outcome
  intro hok hending
  cases hending with
  | refused reason => cases hok
  | trapped left trace => cases hok
  | done trace heffect =>
      obtain rfl := Except.ok.inj hok
      exact heffect

/-- A call that returns an error has written nothing. -/
theorem run_eq_of_error {msg : HandleMsg M} {reason : StdError}
    (herror : ((handle env msg).run store).result = .error (.error reason)) :
    (handle env msg).run store = ⟨.error (.error reason), store, []⟩ := by
  have hending := handle_ending store env msg
  revert herror hending
  generalize (handle env msg).run store = outcome
  intro herror hending
  cases hending with
  | refused reason' =>
      obtain rfl := Halt.error.inj (Except.error.inj herror)
      rfl
  | trapped left trace => cases herror
  | done trace heffect => cases herror

/-- What the chain keeps of a call: its effect, or the store as it was. -/
theorem commit_cases (store : Store M) (env : Env) (msg : HandleMsg M) :
    (∃ response, ((handle env msg).run store).result = .ok response ∧
      Effect store env msg ((handle env msg).commit store) response) ∨
    (∃ halt, ((handle env msg).run store).result = .error halt ∧
      (handle env msg).commit store = store) := by
  cases hresult : ((handle env msg).run store).result with
  | ok response =>
      refine .inl ⟨response, rfl, ?_⟩
      rw [Exec.commit_of_ok hresult]
      exact effect_of_ok hresult
  | error halt => exact .inr ⟨halt, rfl, Exec.commit_of_error hresult⟩

end Outcomes

end FixedMultisig
