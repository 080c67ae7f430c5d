import FixedMultisig.Chain.Ledger
import FixedMultisig.Core.Assembly

/-!
# The contract refines an assembly

A store with its counter, proposals and ballots depicts the minutes of an
assembly of the electorate: the counter is the number of motions, the entry
under an id is the motion with this number, and its ballots are the poll of the
motion.  The rules are those of the configuration, in natural numbers.

Every accepted call is one step of the assembly, and a call that is refused
has no step; only a trap separates the two levels.  A run of the contract is
therefore a run of the assembly, in which exactly the accepted calls occur and
which issues exactly the messages that the contract dispatches.
-/

namespace FixedMultisig

open CheckedWord Decision Assembly

variable {M : Type} {msg : InitMsg}

/-- What a proposal is about. -/
structure Matter (M : Type) where
  title : String
  description : String
  startHeight : U64
  msgs : List M

def Proposal.matter (prop : Proposal M) : Matter M where
  title := prop.title
  description := prop.description
  startHeight := prop.startHeight
  msgs := prop.msgs

/-- The rules of a configuration. -/
abbrev InitMsg.rules (msg : InitMsg) (totalWeight : U64) :
    Rules String Vote Expiration BlockInfo where
  electorate := msg.electorate
  assent := .yes
  carries := Carries msg.threshold totalWeight.toNat
  defeats := Defeats msg.threshold totalWeight.toNat
  ended := Expiration.isExpired
  grant block wanted :=
    (msg.maxVotingPeriod.after block).bind (clampExpires wanted)

/-- The rules of an accepted configuration are lawful. -/
theorem InitMsg.Accepted.lawful {totalWeight : U64}
    (haccepted : msg.Accepted totalWeight) : (msg.rules totalWeight).Lawful where
  carries_late hsum hcarries :=
    carries_closed (hsum.trans haccepted.electorate_total_le) hcarries
  defeats_late hsum hdefeats :=
    defeats_closed (hsum.trans haccepted.electorate_total_le) hdefeats
  exclusive hsum hdefeats :=
    not_carries_of_defeats haccepted.valid
      (hsum.trans haccepted.electorate_total_le) hdefeats
  carries_more part hcarries := carries_add hcarries part
  defeats_more part hdefeats := defeats_add hdefeats part

/-- The minutes kept under a configuration. -/
abbrev Minutes (M : Type) (msg : InitMsg) (totalWeight : U64) :=
  List (Motion (msg.rules totalWeight) (Matter M))

/-- The deed of a call. -/
def Call.deed (call : Call M) :
    Deed String Vote Expiration BlockInfo (Matter M) :=
  match call.msg with
  | .propose title description msgs latest =>
      .submit call.env.message.sender
        ⟨title, description, call.env.block.height, msgs⟩ latest call.env.block
  | .vote id vote => .cast call.env.message.sender id.toNat vote call.env.block
  | .execute id => .enact id.toNat
  | .close id => .close id.toNat call.env.block

/-- The status of a motion in this phase. -/
def statusOf : Phase → Status
  | .voting => Status.open
  | .carried => .passed
  | .lost => .rejected
  | .enacted => .executed

theorem statusOf_injective : Function.Injective statusOf := by
  intro phase phase' hstatus
  cases phase <;> cases phase' <;> first | rfl | cases hstatus

/-- A stored proposal with its ballots is this motion. -/
structure Portrays {totalWeight : U64} (store : Store M) (id : U64)
    (prop : Proposal M)
    (motion : Motion (msg.rules totalWeight) (Matter M)) : Prop where
  content : motion.content = prop.matter
  deadline : motion.deadline = prop.expires
  status : prop.status = statusOf motion.phase
  cast : ∀ addr, (store.ballots id addr).map Ballot.vote = motion.poll.cast addr

/-- The store depicts the minutes. -/
structure Depicts {totalWeight : U64} (store : Store M)
    (minutes : Minutes M msg totalWeight) : Prop where
  ledger : Ledger msg totalWeight store
  counted : ∃ count, store.proposalCount = some count ∧
    count.toNat = minutes.length
  portrayed : ∀ id prop, store.proposals id = some prop →
    ∃ motion, find minutes id.toNat = some motion ∧
      Portrays store id prop motion

section Settle

variable {totalWeight : U64}

/-- A status update of an open proposal settles its motion. -/
theorem statusOf_settle (haccepted : msg.Accepted totalWeight)
    {prop prop' : Proposal M} {block : BlockInfo}
    (hupdate : prop.updateStatus block = some prop')
    (hopen : prop.status = Status.open)
    (hgoverned : prop.threshold = msg.threshold ∧
      prop.totalWeight = totalWeight)
    (htotal : ∑ vote, prop.votes.tally vote ≤ totalWeight.toNat) :
    prop'.status = statusOf ((msg.rules totalWeight).settle
      (prop.expires.isExpired block) prop.votes.tally) := by
  obtain ⟨status, hstatus, rfl⟩ := Proposal.updateStatus_eq_some_iff.1 hupdate
  obtain ⟨hthreshold, hweight⟩ := hgoverned
  rw [currentStatus_eq (by rw [hthreshold, hweight]; exact haccepted.valid)
    (by rw [hweight]; exact htotal) hopen, hthreshold, hweight,
    Option.ite_none_right_eq_some] at hstatus
  replace hstatus := hstatus.2
  by_cases hcarries : Carries msg.threshold totalWeight.toNat
      (prop.expires.isExpired block) prop.votes.tally
  · rw [Rules.settle_eq_carried_iff.2 hcarries]
    rw [if_pos hcarries] at hstatus
    exact (Option.some.inj hstatus).symm
  · rw [if_neg hcarries, Option.ite_none_right_eq_some] at hstatus
    replace hstatus := Option.some.inj hstatus.2
    by_cases hlost : Defeats msg.threshold totalWeight.toNat
        (prop.expires.isExpired block) prop.votes.tally ∨
          prop.expires.isExpired block = true
    · rw [Rules.settle_eq_lost_iff.2 ⟨hcarries, hlost⟩]
      rw [if_pos hlost] at hstatus
      exact hstatus.symm
    · have hvoting := not_or.1 hlost
      rw [Rules.settle_eq_voting_iff.2
        ⟨hcarries, hvoting.1, Bool.eq_false_iff.2 hvoting.2⟩]
      rw [if_neg hlost] at hstatus
      exact hstatus.symm

end Settle

/-! ## Steps -/

section Steps

variable {totalWeight : U64} {store : Store M}
variable {minutes : Minutes M msg totalWeight}

theorem Portrays.tally_eq {id : U64} {prop : Proposal M}
    {motion : Motion (msg.rules totalWeight) (Matter M)}
    (hportrays : Portrays store id prop motion)
    (hledger : Ledger msg totalWeight store)
    (hstored : store.proposals id = some prop) :
    prop.votes.tally = motion.poll.tally := by
  obtain ⟨poll, hrecords⟩ := hledger.recorded id prop hstored
  obtain rfl : poll = motion.poll := Poll.eq_of_cast (funext fun addr => by
    rw [← hrecords.cast, hportrays.cast])
  exact hrecords.tally

theorem Portrays.of_ballots_eq {store' : Store M} {id : U64}
    {prop : Proposal M} {motion : Motion (msg.rules totalWeight) (Matter M)}
    (hportrays : Portrays store id prop motion)
    (hballots : store'.ballots id = store.ballots id) :
    Portrays store' id prop motion where
  content := hportrays.content
  deadline := hportrays.deadline
  status := hportrays.status
  cast := hballots ▸ hportrays.cast

/-- Nothing has happened in an initial store. -/
theorem Depicts.initial (totalWeight : U64) :
    Depicts (msg.initialStore totalWeight : Store M)
      ([] : Minutes M msg totalWeight) where
  ledger := .initial totalWeight
  counted := ⟨0, rfl, rfl⟩
  portrayed _ _ hstored := by cases hstored

/-- The motion with the number of a stored proposal is this proposal. -/
theorem Depicts.stored_of_find (hdepicts : Depicts store minutes) {id : U64}
    {motion : Motion (msg.rules totalWeight) (Matter M)}
    (hfound : find minutes id.toNat = some motion) :
    ∃ prop, store.proposals id = some prop ∧ Portrays store id prop motion := by
  obtain ⟨count, hcount, hlength⟩ := hdepicts.counted
  have hnumber := find_isSome_iff.1 (Option.isSome_of_mem hfound)
  have hstored : (store.proposals id).isSome := by
    rw [hdepicts.ledger.isSome_iff hcount, BitVec.le_def, BitVec.le_def, hlength]
    exact hnumber
  obtain ⟨prop, hprop⟩ := Option.isSome_iff_exists.1 hstored
  obtain ⟨motion', hfound', hportrays⟩ := hdepicts.portrayed id prop hprop
  obtain rfl := Option.some.inj (hfound.symm.trans hfound')
  exact ⟨prop, hprop, hportrays⟩

/-- Another motion under a stored id, for a write to this id and its ballots. -/
theorem Depicts.amend (hdepicts : Depicts store minutes) {store' : Store M}
    {id : U64} {prop new : Proposal M}
    {motion : Motion (msg.rules totalWeight) (Matter M)}
    (hstored : store.proposals id = some prop)
    (hledger : Ledger msg totalWeight store')
    (hcount : store'.proposalCount = store.proposalCount)
    (hproposals : store'.proposals = (store.putProposal id new).proposals)
    (hballots : ∀ other, other ≠ id →
      store'.ballots other = store.ballots other)
    (hnew : Portrays store' id new motion) :
    Depicts store' (amend minutes id.toNat motion) where
  ledger := hledger
  counted := by
    rw [hcount, length_amend]
    exact hdepicts.counted
  portrayed other found hfound := by
    obtain ⟨old, hold, -⟩ := hdepicts.portrayed id prop hstored
    rw [hproposals] at hfound
    by_cases hother : other = id
    · subst hother
      rw [Store.putProposal_proposals_self, Option.some.injEq] at hfound
      exact ⟨motion, find_amend_self hold, hfound ▸ hnew⟩
    · rw [Store.putProposal_proposals_of_ne _ _ _ hother] at hfound
      obtain ⟨motion', hmotion', hportrays⟩ :=
        hdepicts.portrayed other found hfound
      have hnumber : other.toNat ≠ id.toNat :=
        fun h => hother (BitVec.eq_of_toNat_eq h)
      exact ⟨motion', (find_amend_of_ne hold hnumber).trans hmotion',
        hportrays.of_ballots_eq (hballots other hother)⟩

/-- One more motion, for a write to the next id and its ballots. -/
theorem Depicts.append (hdepicts : Depicts store minutes) {store' : Store M}
    {count id : U64} {new : Proposal M}
    {motion : Motion (msg.rules totalWeight) (Matter M)}
    (hcount : store.proposalCount = some count)
    (hid : checkedAdd count 1 = some id)
    (hledger : Ledger msg totalWeight store')
    (hcount' : store'.proposalCount = some id)
    (hproposals : store'.proposals = (store.putProposal id new).proposals)
    (hballots : ∀ other, other ≠ id →
      store'.ballots other = store.ballots other)
    (hnew : Portrays store' id new motion) :
    Depicts store' (minutes ++ [motion]) := by
  obtain ⟨count', hcounted, hlength⟩ := hdepicts.counted
  obtain rfl := Option.some.inj (hcount.symm.trans hcounted)
  have hnext : id.toNat = minutes.length + 1 := by
    rw [← checkedAdd_eq_some_iff.1 hid, hlength]
    rfl
  refine ⟨hledger, ⟨id, hcount', ?_⟩, fun other found hfound => ?_⟩
  · rw [List.length_append, List.length_singleton, hnext]
  · rw [hproposals] at hfound
    by_cases hother : other = id
    · subst hother
      rw [Store.putProposal_proposals_self, Option.some.injEq] at hfound
      exact ⟨motion, by rw [hnext]; exact find_append_self, hfound ▸ hnew⟩
    · rw [Store.putProposal_proposals_of_ne _ _ _ hother] at hfound
      obtain ⟨motion', hmotion', hportrays⟩ :=
        hdepicts.portrayed other found hfound
      have hnumber : other.toNat ≠ minutes.length + 1 :=
        fun h => hother (BitVec.eq_of_toNat_eq (h.trans hnext.symm))
      exact ⟨motion', (find_append_of_ne hnumber).trans hmotion',
        hportrays.of_ballots_eq (hballots other hother)⟩

variable (haccepted : msg.Accepted totalWeight)
variable (hdepicts : Depicts store minutes)

include haccepted hdepicts

/-- A motion of the caller, settled like the new proposal. -/
theorem Depicts.propose {env : Env} {title description : String}
    {msgs : List M} {latest : Option Expiration} {power : U64} {cfg : Config}
    {expires : Expiration} {prop : Proposal M} {count id : U64}
    (henabled : ProposeEnabled store env latest power cfg expires)
    (hprop : (newProposal env title description msgs expires power
      cfg).updateStatus env.block = some prop)
    (hcount : store.proposalCount = some count)
    (hid : checkedAdd count 1 = some id) :
    ∃ next : Minutes M msg totalWeight,
      Step minutes ⟨Call.deed ⟨env, .propose title description msgs latest⟩,
        none⟩ next ∧
      Depicts (((store.putCount id).putProposal id prop).putBallot id
        env.message.sender ⟨power, .yes⟩) next := by
  have hledger := hdepicts.ledger
  have hledger' := hledger.propose henabled hprop hcount hid
  have hunstored := hledger.unstored id (hledger.fresh hcount hid)
  obtain ⟨hmember, -, hpower⟩ :=
    hledger.member haccepted henabled.registered
  obtain ⟨maxExpires, hmax, hclamp⟩ := henabled.clamped
  have hconfig := hledger.config_eq henabled.configured
  have hgranted : (msg.rules totalWeight).grant env.block latest =
      some expires := by
    rw [hconfig] at hmax
    exact (congrArg (Option.bind · _) hmax).trans hclamp
  have htally : (Votes.initYes power).tally =
      ((Poll.empty : Poll msg.electorate Vote).record hmember .yes).tally := by
    rw [Poll.tally_record _ hmember rfl, Poll.tally_empty, zero_add,
      Votes.tally_initYes, InitMsg.electorate_weight
        (hledger.voters ▸ henabled.registered)]
  have hstatus := statusOf_settle haccepted hprop rfl
    (by rw [hconfig]; exact ⟨rfl, rfl⟩)
    (by
      change ∑ vote, (Votes.initYes power).tally vote ≤ _
      rw [Votes.tally_initYes, sum_single]
      exact hpower)
  obtain ⟨status, -, rfl⟩ := Proposal.updateStatus_eq_some_iff.1 hprop
  refine ⟨_, .submit hmember hgranted, ?_⟩
  refine hdepicts.append hcount hid hledger' rfl rfl
    (fun other hother => Store.putBallot_ballots_of_ne _ _ _ _ hother)
    { content := rfl
      deadline := rfl
      status := hstatus.trans (by rw [Motion.settled, ← htally]; rfl)
      cast := fun addr => ?_ }
  by_cases haddr : addr = env.message.sender
  · subst haddr
    rw [Store.putBallot_ballots_self]
    exact (Poll.record_cast_self _ hmember _).symm
  · rw [Store.putBallot_ballots_of_ne_addr _ _ _ _ haddr]
    refine Eq.trans ?_ (Poll.record_cast_of_ne _ hmember _ haddr).symm
    exact congrArg (Option.map _) (hunstored addr)

/-- A vote of the caller, settled like the proposal. -/
theorem Depicts.vote {env : Env} {id power : U64} {vote : Vote}
    {prop prop' : Proposal M} (henabled : VoteEnabled store env id power prop)
    (hprop : prop.recordVote vote power env.block = some prop') :
    ∃ next : Minutes M msg totalWeight,
      Step minutes ⟨Call.deed ⟨env, .vote id vote⟩, none⟩ next ∧
      Depicts ((store.putBallot id env.message.sender
        ⟨power, vote⟩).putProposal id prop') next := by
  have hledger := hdepicts.ledger
  obtain ⟨motion, hfound, hportrays⟩ :=
    hdepicts.portrayed id prop henabled.stored
  obtain ⟨hmember, hweight, -⟩ :=
    hledger.member haccepted henabled.registered
  have hfresh : motion.poll.cast env.message.sender = none := by
    rw [← hportrays.cast, henabled.fresh]
    rfl
  have hvoting : motion.phase = .voting :=
    statusOf_injective (hportrays.status.symm.trans henabled.isOpen)
  have hledger' := hledger.vote henabled hprop
  obtain ⟨votes, hvotes, hupdate⟩ := Proposal.recordVote_eq_some hprop
  have htally : votes.tally = (motion.poll.record hmember vote).tally := by
    rw [Votes.tally_addVote hvotes, hportrays.tally_eq hledger henabled.stored,
      Poll.tally_record _ hmember hfresh]
    exact congrArg _ (congrArg _ hweight.symm)
  have hgoverned := hledger.governed id prop henabled.stored
  have hsound := (hledger.sound_of_counted haccepted henabled hvotes).2
  have hstatus := statusOf_settle haccepted hupdate henabled.isOpen hgoverned
    (hgoverned.2 ▸ hsound)
  obtain ⟨status, -, rfl⟩ := Proposal.updateStatus_eq_some_iff.1 hupdate
  refine ⟨_, .cast hmember ?_ hfound hvoting ?_ hfresh, ?_⟩
  · exact hweight ▸ henabled.powerful
  · rw [hportrays.deadline]
    exact henabled.unexpired
  refine hdepicts.amend henabled.stored hledger' rfl rfl
    (fun other hother => Store.putBallot_ballots_of_ne _ _ _ _ hother)
    { content := hportrays.content
      deadline := hportrays.deadline
      status := hstatus.trans ?_
      cast := fun addr => ?_ }
  · rw [Motion.settled, ← htally, hportrays.deadline]
  · by_cases haddr : addr = env.message.sender
    · subst haddr
      refine Eq.trans ?_ (Poll.record_cast_self _ hmember _).symm
      exact congrArg _ (Store.putBallot_ballots_self _ _ _ _)
    · refine Eq.trans ?_ (Poll.record_cast_of_ne _ hmember _ haddr).symm
      rw [← hportrays.cast]
      exact congrArg _ (Store.putBallot_ballots_of_ne_addr _ _ _ _ haddr)

omit haccepted in
theorem Depicts.execute {env : Env} {id : U64} {prop : Proposal M}
    (hstored : store.proposals id = some prop)
    (hpassed : prop.status = Status.passed) :
    ∃ next : Minutes M msg totalWeight,
      Step minutes ⟨Call.deed ⟨env, .execute id⟩, some prop.matter⟩ next ∧
      Depicts (store.putProposal id { prop with status := Status.executed })
        next := by
  obtain ⟨motion, hfound, hportrays⟩ := hdepicts.portrayed id prop hstored
  have hcarried : motion.phase = .carried :=
    statusOf_injective (hportrays.status.symm.trans hpassed)
  rw [← hportrays.content]
  refine ⟨_, .enact hfound hcarried, ?_⟩
  exact hdepicts.amend hstored (hdepicts.ledger.putStatus hstored _) rfl rfl
    (fun _ _ => rfl)
    { content := hportrays.content
      deadline := hportrays.deadline
      status := rfl
      cast := hportrays.cast }

omit haccepted in
theorem Depicts.close {env : Env} {id : U64} {prop : Proposal M}
    (henabled : CloseEnabled store env id prop) :
    ∃ next : Minutes M msg totalWeight,
      Step minutes ⟨Call.deed (⟨env, .close id⟩ : Call M), none⟩ next ∧
      Depicts (store.putProposal id { prop with status := Status.rejected })
        next := by
  obtain ⟨motion, hfound, hportrays⟩ :=
    hdepicts.portrayed id prop henabled.stored
  have hvoting : motion.phase = .voting := by
    have hundecided := henabled.undecided
    rw [hportrays.status] at hundecided
    cases hphase : motion.phase <;> simp [hphase, statusOf] at hundecided ⊢
  have hended := henabled.expired
  rw [← hportrays.deadline] at hended
  refine ⟨_, .close hfound hvoting hended, ?_⟩
  exact hdepicts.amend henabled.stored
    (hdepicts.ledger.putStatus henabled.stored _) rfl rfl (fun _ _ => rfl)
    { content := hportrays.content
      deadline := hportrays.deadline
      status := rfl
      cast := hportrays.cast }

/-- Forward: an accepted call is a step, and what it dispatches is what the
step puts into effect. -/
theorem Depicts.effect {env : Env} {call : HandleMsg M} {store' : Store M}
    {response : HandleResponse M}
    (heffect : Effect store env call store' response) :
    ∃ issued, ∃ next : Minutes M msg totalWeight,
      Step minutes ⟨Call.deed ⟨env, call⟩, issued⟩ next ∧
      Depicts store' next ∧
      response.messages = issued.elim [] Matter.msgs := by
  cases heffect with
  | propose henabled hprop hcount hid =>
      obtain ⟨next, hstep, hnext⟩ :=
        hdepicts.propose haccepted henabled hprop hcount hid
      exact ⟨none, next, hstep, hnext, rfl⟩
  | vote henabled hprop =>
      obtain ⟨next, hstep, hnext⟩ := hdepicts.vote haccepted henabled hprop
      exact ⟨none, next, hstep, hnext, rfl⟩
  | execute hstored hpassed =>
      obtain ⟨next, hstep, hnext⟩ := hdepicts.execute hstored hpassed
      exact ⟨some _, next, hstep, hnext, rfl⟩
  | close henabled =>
      obtain ⟨next, hstep, hnext⟩ := hdepicts.close henabled
      exact ⟨none, next, hstep, hnext, rfl⟩

omit haccepted in
/-- A member of the electorate is registered with its weight. -/
theorem Depicts.registered {addr : String}
    (hmember : addr ∈ msg.electorate.members) :
    ∃ power, store.voters addr = some power ∧
      msg.electorate.weight addr = power.toNat := by
  obtain ⟨power, hpower⟩ := InitMsg.mem_electorate_iff.1 hmember
  exact ⟨power, hdepicts.ledger.voters ▸ hpower,
    InitMsg.electorate_weight hpower⟩

omit haccepted in
/-- Backward: a call whose deed is a step is not refused. -/
theorem Depicts.not_refused {call : Call M} {issued : Option (Matter M)}
    {next : Minutes M msg totalWeight}
    (hstep : Step minutes ⟨call.deed, issued⟩ next) (reason : StdError) :
    (call.run store).result ≠ .error (.error reason) := by
  obtain ⟨env, call⟩ := call
  have hledger := hdepicts.ledger
  cases call with
  | propose title description msgs latest =>
      cases hstep with
      | submit hmember hgranted =>
          obtain ⟨power, hpower, -⟩ := hdepicts.registered hmember
          obtain ⟨maxExpires, hmax, hclamp⟩ :=
            Option.bind_eq_some_iff.1 hgranted
          have henabled : ProposeEnabled store env latest power
              (msg.config totalWeight) _ :=
            ⟨hpower, hledger.config, maxExpires, hmax, hclamp⟩
          rw [Call.run, handle, executePropose_of_enabled henabled]
          obtain ⟨count, hcount, -⟩ := hledger.counted
          split
          · simp
          · rw [hcount]
            split
            · contradiction
            · split <;> simp
  | vote id vote =>
      cases hstep with
      | cast hmember hweight hfound hvoting hintime hfresh =>
          obtain ⟨power, hpower, hpower'⟩ := hdepicts.registered hmember
          obtain ⟨prop, hstored, hportrays⟩ := hdepicts.stored_of_find hfound
          have hballot : store.ballots id env.message.sender = none := by
            rw [← hportrays.cast, Option.map_eq_none_iff] at hfresh
            exact hfresh
          have henabled : VoteEnabled store env id power prop :=
            { registered := hpower
              powerful := by
                rw [BitVec.le_def, ← hpower']
                exact hweight
              stored := hstored
              isOpen := by rw [hportrays.status, hvoting]; rfl
              unexpired := hportrays.deadline ▸ hintime
              fresh := hballot }
          rw [Call.run, handle, executeVote_of_enabled vote henabled]
          split <;> simp
  | execute id =>
      cases hstep with
      | enact hfound hcarried =>
          obtain ⟨prop, hstored, hportrays⟩ := hdepicts.stored_of_find hfound
          have hpassed : prop.status = Status.passed := by
            rw [hportrays.status, hcarried]
            rfl
          rw [Call.run, handle, executeExecute_of_passed hstored hpassed]
          simp
  | close id =>
      cases hstep with
      | close hfound hvoting hended =>
          obtain ⟨prop, hstored, hportrays⟩ := hdepicts.stored_of_find hfound
          have henabled : CloseEnabled store env id prop :=
            { stored := hstored
              undecided := by
                rw [hportrays.status, hvoting]
                simp [statusOf]
              expired := hportrays.deadline ▸ hended }
          rw [Call.run, handle, executeClose_of_enabled henabled]
          simp

/-- A call that does not trap is accepted exactly when its deed is a step. -/
theorem Depicts.accepted_iff {call : Call M}
    (htrap : (call.run store).result ≠ .error .abort) :
    (∃ response, (call.run store).result = .ok response) ↔
      ∃ issued, ∃ next : Minutes M msg totalWeight,
        Step minutes ⟨call.deed, issued⟩ next := by
  constructor
  · rintro ⟨response, hok⟩
    obtain ⟨issued, next, hstep, -, -⟩ :=
      hdepicts.effect haccepted (effect_of_ok hok)
    exact ⟨issued, next, hstep⟩
  · rintro ⟨issued, next, hstep⟩
    cases hresult : (call.run store).result with
    | ok response => exact ⟨response, rfl⟩
    | error halt =>
        cases halt with
        | error reason =>
            exact absurd hresult (hdepicts.not_refused hstep reason)
        | abort => exact absurd hresult htrap

/-- A step by the deed of a call is taken by the call, unless it traps. -/
theorem Depicts.submit {chain : Chain M} (hchain : chain.store = store)
    {call : Call M} {issued : Option (Matter M)}
    {next : Minutes M msg totalWeight}
    (hstep : Step minutes ⟨call.deed, issued⟩ next) :
    (call.run chain.store).result = .error .abort ∨
      Depicts (chain.submit call).store next := by
  subst hchain
  by_cases htrap : (call.run chain.store).result = .error .abort
  · exact .inl htrap
  · obtain ⟨response, hok⟩ :=
      (hdepicts.accepted_iff haccepted htrap).2 ⟨issued, next, hstep⟩
    obtain ⟨issued', next', hstep', hnext, -⟩ :=
      hdepicts.effect haccepted (effect_of_ok hok)
    obtain rfl := (hstep.unique hstep').2
    refine .inr ?_
    rw [Chain.submit, Exec.commit_of_ok hok]
    exact hnext

end Steps

/-- Every reachable store depicts minutes that the assembly reaches. -/
theorem depicts_of_reachable {chain : Chain M}
    (hreachable : (multisig msg).Reachable chain) :
    ∃ totalWeight, msg.Accepted totalWeight ∧
      ∃ minutes : Minutes M msg totalWeight,
        (system (msg.rules totalWeight) (Matter M)).Reachable minutes ∧
        Depicts chain.store minutes := by
  obtain ⟨first, steps, hfirst, hrun⟩ := hreachable
  apply store_invariant (P := fun store _ => ∃ totalWeight,
    msg.Accepted totalWeight ∧ ∃ minutes : Minutes M msg totalWeight,
      (system (msg.rules totalWeight) (Matter M)).Reachable minutes ∧
      Depicts store minutes) (C := fun _ _ => True)
    ?_ (fun _ _ _ _ h => h) ?_ hfirst hrun (fun _ _ _ _ => trivial)
  · intro totalWeight _ haccepted
    exact ⟨totalWeight, haccepted, [], .of_start rfl, .initial totalWeight⟩
  · rintro chain call store response - -
      ⟨totalWeight, haccepted, minutes, hminutes, hdepicts⟩ heffect
    obtain ⟨issued, next, hstep, hnext, -⟩ := hdepicts.effect haccepted heffect
    exact ⟨totalWeight, haccepted, next, hminutes.step hstep, hnext⟩

/-! ## Runs -/

/-- The call is this entry: its deed, and what it puts into effect. -/
structure Answers {msg : InitMsg} {totalWeight : U64}
    (move : Transition (Chain M) (Call M))
    (entry : Transition (Minutes M msg totalWeight)
      (Entry String Vote Expiration BlockInfo (Matter M))) : Prop where
  deed : entry.label.deed = move.label.deed
  dispatched : ∃ response,
    (move.label.run move.source.store).result = .ok response ∧
      response.messages = entry.label.issued.elim [] Matter.msgs
  source : Depicts move.source.store entry.source
  target : Depicts move.target.store entry.target

/-- From a store that depicts minutes, a run of the contract is a run of the
assembly from these minutes. -/
theorem Depicts.run {totalWeight : U64} (haccepted : msg.Accepted totalWeight)
    {chain last : Chain M} {minutes : Minutes M msg totalWeight}
    (hdepicts : Depicts chain.store minutes)
    {steps : List (Transition (Chain M) (Call M))}
    (hrun : (multisig msg).Run chain steps last) :
    ∃ (entries : List (Transition (Minutes M msg totalWeight) _))
      (next : Minutes M msg totalWeight),
      (system (msg.rules totalWeight) (Matter M)).Run minutes entries next ∧
      List.Forall₂ Answers (steps.filter Transition.isAccepted) entries ∧
      Depicts last.store next := by
  induction hrun with
  | nil => exact ⟨[], minutes, .nil, .nil, hdepicts⟩
  | @snoc steps chain next call hrun hstep ih =>
      obtain ⟨entries, middle, hentries, hanswers, hmiddle⟩ := ih
      obtain ⟨-, -, hcases⟩ := step_cases hstep
      rw [List.filter_append, List.filter_singleton]
      rcases hcases with ⟨response, hok, heffect⟩ | ⟨halt, herror, hsame⟩
      · obtain ⟨issued, minutes', hstep', hdepicts', hmessages⟩ :=
          hmiddle.effect haccepted heffect
        rw [Transition.isAccepted_of_ok hok, cond_true]
        exact ⟨_, minutes', hentries.snoc hstep',
          List.rel_append hanswers (.cons
            ⟨rfl, ⟨response, hok, hmessages⟩, hmiddle, hdepicts'⟩ .nil),
          hdepicts'⟩
      · rw [Transition.isAccepted_of_error herror, cond_false, List.append_nil]
        exact ⟨entries, middle, hentries, hanswers, hsame ▸ hmiddle⟩

/-- Every run of the contract is a run of an assembly under the rules of the
configuration.  The steps of the assembly are the accepted calls, one for one
and in order; each puts into effect what its call dispatches, and leads from
what the store depicts before the call to what it depicts after it. -/
theorem run_refines {first last : Chain M}
    {steps : List (Transition (Chain M) (Call M))}
    (hfirst : (multisig msg).start first)
    (hrun : (multisig msg).Run first steps last) :
    ∃ totalWeight, msg.Accepted totalWeight ∧
      ∃ (entries : List (Transition (Minutes M msg totalWeight) _))
        (minutes : Minutes M msg totalWeight),
        (system (msg.rules totalWeight) (Matter M)).Run [] entries minutes ∧
        List.Forall₂ Answers (steps.filter Transition.isAccepted) entries ∧
        Depicts last.store minutes := by
  obtain ⟨totalWeight, haccepted, hstore⟩ := start_cases hfirst
  have hdepicts : Depicts first.store ([] : Minutes M msg totalWeight) :=
    hstore ▸ .initial totalWeight
  exact ⟨totalWeight, haccepted, hdepicts.run haccepted hrun⟩

/-- Every run of the assembly is one of the contract: the calls that do the
deeds of the run, one after the other, reach a store that depicts its end,
unless one of them traps. -/
theorem replay_realizes {totalWeight : U64}
    (haccepted : msg.Accepted totalWeight) {chain : Chain M}
    {minutes next : Minutes M msg totalWeight}
    (hdepicts : Depicts chain.store minutes) {calls : List (Call M)}
    {entries : List (Transition (Minutes M msg totalWeight)
      (Entry String Vote Expiration BlockInfo (Matter M)))}
    (hrun : (system (msg.rules totalWeight) (Matter M)).Run minutes entries
      next)
    (hdeeds : entries.map (fun entry => entry.label.deed) =
      calls.map Call.deed) :
    (∃ before call after, calls = before ++ call :: after ∧
      (call.run (chain.replay before).store).result = .error .abort) ∨
      Depicts (chain.replay calls).store next := by
  induction hrun generalizing calls with
  | nil =>
      obtain rfl := List.map_eq_nil_iff.1 hdeeds.symm
      exact .inr hdepicts
  | @snoc entries middle next entry hrun hstep ih =>
      rcases List.eq_nil_or_concat calls with rfl | ⟨before, call, rfl⟩
      · simp at hdeeds
      · rw [List.concat_eq_append, List.map_append, List.map_append] at hdeeds
        obtain ⟨hbefore, hlast⟩ := List.append_inj' hdeeds rfl
        have hdeed : entry.deed = call.deed := (List.cons.inj hlast).1
        have hreplay : chain.replay (before ++ [call]) =
            (chain.replay before).submit call := List.foldl_concat ..
        rw [List.concat_eq_append]
        rcases ih hbefore with htrap | hmiddle
        · obtain ⟨start, trapped, rest, rfl, habort⟩ := htrap
          exact .inl ⟨start, trapped, rest ++ [call], by simp, habort⟩
        · obtain ⟨deed, issued⟩ := entry
          obtain rfl : deed = call.deed := hdeed
          rw [hreplay]
          rcases hmiddle.submit haccepted rfl hstep with habort | hnext
          · exact .inl ⟨before, call, [], rfl, habort⟩
          · exact .inr hnext

section Example

private def conclave : InitMsg where
  voters := [⟨"alice", 2⟩, ⟨"bob", 1⟩]
  threshold := .absoluteCount 2
  maxVotingPeriod := .height 100

private theorem conclave_accepted : conclave.Accepted 3 where
  nonempty := by decide
  summed := by decide
  valid := Threshold.validate_eq_ok_iff.1 (by decide)

private def conclaveStart : Chain String :=
  Chain.deployed ⟨⟨10, 54⟩, ⟨"carol"⟩⟩ conclave

/-- Bob's vote comes too late and is refused. -/
private def conclaveCalls : List (Call String) :=
  [⟨⟨⟨11, 60⟩, ⟨"alice"⟩⟩, .propose "title" "description" ["send"] none⟩,
    ⟨⟨⟨12, 66⟩, ⟨"bob"⟩⟩, .vote 1 .no⟩,
    ⟨⟨⟨13, 72⟩, ⟨"carol"⟩⟩, .execute 1⟩]

/-- Two of three calls are steps of the assembly. -/
theorem run_refines_conclave :
    (conclaveStart.moves conclaveCalls).map Transition.isAccepted =
        [true, false, true] ∧
      ∃ totalWeight, conclave.Accepted totalWeight ∧
        ∃ (entries : List (Transition (Minutes String conclave totalWeight) _))
          (minutes : Minutes String conclave totalWeight),
          (system (conclave.rules totalWeight) (Matter String)).Run [] entries
            minutes ∧
          List.Forall₂ Answers ((conclaveStart.moves conclaveCalls).filter
            Transition.isAccepted) entries ∧
          Depicts (conclaveStart.replay conclaveCalls).store minutes :=
  ⟨by decide +kernel, run_refines (start_deployed _ conclave_accepted)
    (run_replay (by decide))⟩

private def conclaveMatter : Matter String :=
  ⟨"title", "description", 11, ["send"]⟩

private theorem conclave_alice : "alice" ∈ conclave.electorate.members :=
  InitMsg.mem_electorate_iff.2 ⟨2, by decide⟩

private noncomputable def conclaveMotion :
    Motion (conclave.rules 3) (Matter String) :=
  .settled conclaveMatter (.atHeight 111)
    (Poll.empty.record conclave_alice .yes) ⟨11, 60⟩

private theorem conclaveMotion_carried : conclaveMotion.phase = .carried := by
  apply Rules.settle_eq_carried_iff.2
  have htally : ((Poll.empty : Poll conclave.electorate Vote).record
      conclave_alice .yes).tally = Pi.single .yes 2 := by
    rw [Poll.tally_record _ _ rfl, Poll.tally_empty, zero_add,
      InitMsg.electorate_weight (show conclave.registry "alice" = some 2 by
        decide)]
    rfl
  rw [htally]
  decide

private def conclavePropose : Call String :=
  ⟨⟨⟨11, 60⟩, ⟨"alice"⟩⟩, .propose "title" "description" ["send"] none⟩

private def conclaveExecute : Call String :=
  ⟨⟨⟨13, 72⟩, ⟨"carol"⟩⟩, .execute 1⟩

/-- None of the calls before the end traps. -/
private theorem conclave_no_trap {before after : List (Call String)}
    {call : Call String}
    (hcalls : [conclavePropose, conclaveExecute] = before ++ call :: after) :
    (call.run (conclaveStart.replay before).store).result ≠
      .error .abort := by
  match before, hcalls with
  | [], hcalls =>
      obtain ⟨rfl, -⟩ := List.cons.inj hcalls
      exact nofun
  | [first], hcalls =>
      obtain ⟨rfl, hrest⟩ := List.cons.inj hcalls
      obtain ⟨rfl, -⟩ := List.cons.inj hrest
      exact nofun
  | _ :: _ :: before, hcalls =>
      exact absurd (congrArg List.length hcalls) (by simp)

/-- The deeds of moving a motion that carries at once and of enacting it are
done by two calls. -/
theorem replay_realizes_conclave :
    Depicts (conclaveStart.replay [conclavePropose, conclaveExecute]).store
      (amend [conclaveMotion] 1 { conclaveMotion with phase := .enacted }) := by
  have hinitial : Depicts conclaveStart.store
      ([] : Minutes String conclave 3) := by
    rw [conclaveStart, deployed_store _ conclave_accepted]
    exact .initial 3
  have hsubmit : Step ([] : Minutes String conclave 3)
      ⟨.submit "alice" conclaveMatter none ⟨11, 60⟩, none⟩ [conclaveMotion] :=
    .submit conclave_alice rfl
  have henact : Step [conclaveMotion] ⟨.enact 1, some conclaveMatter⟩
      (amend [conclaveMotion] 1 { conclaveMotion with phase := .enacted }) :=
    .enact rfl conclaveMotion_carried
  have hrealized : (∃ before call after,
      [conclavePropose, conclaveExecute] = before ++ call :: after ∧
      (call.run (conclaveStart.replay before).store).result =
        .error .abort) ∨
      Depicts (conclaveStart.replay [conclavePropose, conclaveExecute]).store
        (amend [conclaveMotion] 1
          { conclaveMotion with phase := .enacted }) :=
    replay_realizes conclave_accepted hinitial
      ((EventSystem.Run.nil.snoc hsubmit).snoc henact) rfl
  rcases hrealized with ⟨before, call, after, hcalls, habort⟩ | hlast
  · exact absurd habort (conclave_no_trap hcalls)
  · exact hlast

end Example

end FixedMultisig
