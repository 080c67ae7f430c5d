import FixedMultisig.Guarantees.Creation
import FixedMultisig.Guarantees.VoteOrder

/-!
# Configurations under which calls trap

All arithmetic is checked.  Sums and differences stay in range because the
tally stays below the total weight, but the product inside `votesNeeded` is
only bounded by the total weight itself, and `init` does not look at it.  A
configuration is usable exactly when the products that its decisions form fit
into 128 bits.
-/

namespace FixedMultisig

open CheckedWord Decision

variable {M : Type} {msg : InitMsg}

/-! ## Single calls -/

/-- The products formed when a proposal is created with this weight fit. -/
def CreationFits (threshold : Threshold) (totalWeight : ℕ) (closed : Bool)
    (weight : ℕ) : Prop :=
  match threshold with
  | .absoluteCount _ => True
  | .absolutePercentage percentage => Fits totalWeight percentage
  | .thresholdQuorum threshold quorum =>
      Fits totalWeight quorum ∧
        Fits (if closed then weight else totalWeight)
          (if neededVotes totalWeight quorum ≤ weight then threshold
            else threshold.complement)

theorem creationFits_iff {threshold : Threshold} {totalWeight weight : ℕ}
    {closed : Bool} (hvalid : threshold.Valid totalWeight) :
    CarriesFits threshold totalWeight closed (Pi.single .yes weight) ∧
        DefeatsFits threshold totalWeight closed (Pi.single .yes weight) ↔
      CreationFits threshold totalWeight closed weight := by
  cases threshold with
  | absoluteCount needed => simp [CarriesFits, DefeatsFits, CreationFits]
  | absolutePercentage percentage =>
      refine ⟨fun hfits => hfits.1, fun hfits => ⟨hfits, ?_⟩⟩
      exact Fits.mono hfits le_rfl (complement_le hvalid)
  | thresholdQuorum majority quorum =>
      have hopinions : opinions totalWeight closed (Pi.single .yes weight) =
          if closed then weight else totalWeight := by
        simp [opinions]
      simp only [CarriesFits, DefeatsFits, CreationFits, hopinions, sum_single]
      by_cases hquorum : neededVotes totalWeight quorum ≤ weight
      · rw [if_pos hquorum]
        refine ⟨fun hfits => ⟨hfits.1.1, hfits.1.2 hquorum⟩,
          fun hfits => ⟨⟨hfits.1, fun _ => hfits.2⟩, ?_⟩⟩
        exact hfits.2.mono le_rfl (complement_le hvalid.1)
      · rw [if_neg hquorum]
        exact ⟨fun hfits => ⟨hfits.1.1, hfits.2⟩,
          fun hfits => ⟨⟨hfits.1, fun h => absurd h hquorum⟩, hfits.2⟩⟩

/-- A proposal that passes its guards succeeds exactly when the products of its
first status update fit. -/
theorem propose_ok_iff {totalWeight : U64}
    (haccepted : msg.Accepted totalWeight) {store : Store M}
    (hledger : Ledger msg totalWeight store) {env : Env}
    {title description : String} {msgs : List M} {latest : Option Expiration}
    {power : U64} {cfg : Config} {expires : Expiration}
    (henabled : ProposeEnabled store env latest power cfg expires)
    {count : U64} (hcount : store.proposalCount = some count)
    (hroom : count.toNat < 2 ^ 64 - 1) :
    (∃ response, ((handle env (.propose title description msgs latest)).run
        store).result = .ok response) ↔
      CreationFits cfg.threshold cfg.totalWeight.toNat
        (expires.isExpired env.block) power.toNat := by
  obtain ⟨hvalid, htotal⟩ := hledger.sound_of_new haccepted henabled
  have hone : (1 : U64).toNat = 1 := rfl
  have hid : ∃ id, checkedAdd count 1 = some id :=
    ⟨_, checkedAdd_of_lt (by rw [hone]; omega)⟩
  have hsome : ((newProposal env title description msgs expires power
      cfg).updateStatus env.block).isSome ↔
        CreationFits cfg.threshold cfg.totalWeight.toNat
          (expires.isExpired env.block) power.toNat := by
    rw [updateStatus_isSome_iff hvalid htotal rfl, ← creationFits_iff hvalid]
    simp only [newProposal, Votes.tally_initYes]
  obtain ⟨id, hid⟩ := hid
  rw [← hsome, handle, executePropose_of_enabled henabled]
  cases (newProposal env title description msgs expires power
    cfg).updateStatus env.block with
  | none => simp
  | some prop =>
      simp only [hcount, hid]
      exact ⟨fun _ => rfl, fun _ => ⟨_, rfl⟩⟩

/-- A vote that passes its guards succeeds exactly when the products that the
pass decision forms with it fit; those of the reject decision do. -/
theorem vote_ok_iff {chain : Chain M}
    (hreachable : (multisig msg).Reachable chain) {env : Env}
    {id power : U64} {prop : Proposal M}
    (henabled : VoteEnabled chain.store env id power prop) (vote : Vote) :
    (∃ response, ((handle env (.vote id vote)).run chain.store).result =
        .ok response) ↔
      CarriesFits prop.threshold prop.totalWeight.toNat false
        (prop.votes.tally + Pi.single vote power.toNat) := by
  obtain ⟨totalWeight, haccepted, hledger⟩ := ledger_of_reachable hreachable
  obtain ⟨votes, hvotes⟩ := hledger.addVote_of_enabled haccepted henabled vote
  obtain ⟨hvalid, htotal⟩ :=
    hledger.sound_of_counted haccepted henabled hvotes
  obtain ⟨hvalid', htotal'⟩ := sound_of_reachable hreachable henabled.stored
  have hdefeats : DefeatsFits prop.threshold prop.totalWeight.toNat false
      votes.tally := by
    obtain ⟨-, hrejected⟩ := undecided_of_open hreachable henabled.stored
      henabled.isOpen henabled.unexpired
    rw [isRejected_eq_some_iff hvalid' htotal', henabled.unexpired]
      at hrejected
    rw [Votes.tally_addVote hvotes]
    exact defeatsFits_add hrejected.1 _
  have hsome : (prop.recordVote vote power env.block).isSome ↔
      CarriesFits prop.threshold prop.totalWeight.toNat false
        (prop.votes.tally + Pi.single vote power.toNat) := by
    have hupdate : (Proposal.updateStatus { prop with votes }
        env.block).isSome ↔ _ :=
      updateStatus_isSome_iff hvalid htotal henabled.isOpen
    rw [← Votes.tally_addVote hvotes, Proposal.recordVote, hvotes,
      Option.bind_eq_bind, Option.bind_some, hupdate]
    simp only [henabled.unexpired, hdefeats, and_true]
  rw [← hsome, handle, executeVote_of_enabled vote henabled]
  cases prop.recordVote vote power env.block with
  | none => simp
  | some prop' => simp

/-! ## Whole configurations -/

/-- Under this configuration every proposal by a registered voter and every
first vote that passes its guards succeeds, as long as the counter and the
voting period fit into a word. -/
structure Usable (M : Type) (msg : InitMsg) : Prop where
  propose : ∀ {chain : Chain M} {env : Env} {count power : U64} {cfg : Config}
    {maxExpires : Expiration} (title description : String) (msgs : List M),
    (multisig msg).Reachable chain →
    chain.store.proposalCount = some count → count.toNat < 2 ^ 64 - 1 →
    chain.store.config = some cfg →
    cfg.maxVotingPeriod.after env.block = some maxExpires →
    chain.store.voters env.message.sender = some power →
    ∃ response, ((handle env (.propose title description msgs none)).run
      chain.store).result = .ok response
  vote : ∀ {chain : Chain M} {env : Env} {id power : U64} {prop : Proposal M}
    (vote : Vote), (multisig msg).Reachable chain →
    VoteEnabled chain.store env id power prop →
    ∃ response, ((handle env (.vote id vote)).run chain.store).result =
      .ok response

/-- The products formed under this configuration fit.  A proposal is at most
decided by the whole electorate at once; with an empty voting period it is
decided by its proposer. -/
def InRange (msg : InitMsg) (totalWeight : ℕ) : Prop :=
  if msg.maxVotingPeriod.length = 0 then
    ∀ addr ∈ msg.electorate.members,
      CreationFits msg.threshold totalWeight true (msg.electorate.weight addr)
  else CreationFits msg.threshold totalWeight false msg.electorate.total

instance (threshold : Threshold) (totalWeight : ℕ) (closed : Bool)
    (weight : ℕ) : Decidable (CreationFits threshold totalWeight closed weight) :=
  match threshold with
  | .absoluteCount _ => inferInstanceAs (Decidable True)
  | .absolutePercentage _ => inferInstanceAs (Decidable (Fits _ _))
  | .thresholdQuorum _ _ => inferInstanceAs (Decidable (Fits _ _ ∧ Fits _ _))

instance (msg : InitMsg) (totalWeight : ℕ) :
    Decidable (InRange msg totalWeight) :=
  inferInstanceAs (Decidable (if msg.maxVotingPeriod.length = 0 then
    ∀ addr ∈ msg.electorate.members, _ else _))

/-- Before the deadline, less weight forms smaller products. -/
theorem CreationFits.mono {threshold : Threshold}
    {totalWeight weight weight' : ℕ} (hvalid : threshold.Valid totalWeight)
    (hfits : CreationFits threshold totalWeight false weight')
    (hweight : weight ≤ weight') :
    CreationFits threshold totalWeight false weight := by
  cases threshold with
  | absoluteCount needed => trivial
  | absolutePercentage percentage => exact hfits
  | thresholdQuorum majority quorum =>
      refine ⟨hfits.1, hfits.2.mono le_rfl ?_⟩
      have hcomplement := complement_le hvalid.1
      split_ifs with hquorum hquorum' hquorum'
      · exact le_rfl
      · exact absurd (hquorum.trans hweight) hquorum'
      · exact hcomplement
      · exact le_rfl

/-- Every tally within the electorate forms products that fit. -/
theorem CreationFits.carriesFits {threshold : Threshold}
    {totalWeight weight : ℕ} {tally : Vote → ℕ}
    (hfits : CreationFits threshold totalWeight false weight)
    (htally : ∑ vote, tally vote ≤ weight) :
    CarriesFits threshold totalWeight false tally := by
  cases threshold with
  | absoluteCount needed => trivial
  | absolutePercentage percentage =>
      exact Fits.mono hfits (Nat.sub_le _ _) le_rfl
  | thresholdQuorum majority quorum =>
      refine ⟨hfits.1, fun hquorum => hfits.2.mono (Nat.sub_le _ _) ?_⟩
      rw [if_pos (hquorum.trans htally)]

/-- With an empty voting period no proposal is ever stored as open. -/
theorem not_open_of_empty_period {chain : Chain M}
    (hreachable : (multisig msg).Reachable chain)
    (hperiod : msg.maxVotingPeriod.length = 0) {id : U64} {prop : Proposal M}
    (hstored : chain.store.proposals id = some prop) :
    prop.status ≠ Status.open := by
  obtain ⟨first, steps, hfirst, hrun⟩ := hreachable
  refine proposal_invariant (P := fun prop _ => prop.status ≠ Status.open)
    (C := fun _ _ => True) (fun _ _ _ _ h => h) ?_ ?_ ?_ ?_ hfirst hrun
    (fun _ _ _ _ => trivial) hstored
  · intro chain env title description msgs latest power cfg expires prop
      hchain _ henabled hprop
    obtain ⟨totalWeight, -, hledger⟩ := ledger_of_reachable hchain
    have hexpired : expires.isExpired env.block := by
      rw [henabled.isExpired_iff, hledger.config_eq henabled.configured]
      exact .inr hperiod
    obtain ⟨status, hstatus, rfl⟩ := Proposal.updateStatus_eq_some_iff.1 hprop
    rintro rfl
    obtain ⟨-, -, hunexpired⟩ :=
      (Proposal.currentStatus_eq_open_iff rfl).1 hstatus
    exact absurd hexpired (by simpa [newProposal] using hunexpired)
  · intro _ env id vote power prop prop' _ _ henabled _ hclosed
    exact absurd henabled.isOpen hclosed
  · intro prop block _ _
    simp
  · intro store env id prop _ _
    simp

/-- Where the products fit, no call that passes its guards traps. -/
theorem usable_of_inRange {totalWeight : U64}
    (hrange : InRange msg totalWeight.toNat)
    (haccepted : msg.Accepted totalWeight) : Usable M msg where
  propose title description msgs hreachable hcount hroom hconfig hmax
      hregistered := by
    have hledger := ledger_of_accepted haccepted hreachable
    obtain rfl := hledger.config_eq hconfig
    obtain ⟨hmember, hweight, -⟩ := hledger.member haccepted hregistered
    refine (propose_ok_iff haccepted hledger
      (enabled_of_registered hregistered hconfig hmax) hcount hroom).2 ?_
    have hexpired := Duration.isExpired_after_iff hmax
    rw [← hweight]
    by_cases hperiod : msg.maxVotingPeriod.length = 0
    · rw [InRange, if_pos hperiod] at hrange
      rw [hexpired.2 hperiod]
      exact hrange _ hmember
    · rw [InRange, if_neg hperiod] at hrange
      rw [Bool.eq_false_iff.2 fun h => hperiod (hexpired.1 h)]
      exact hrange.mono haccepted.valid (msg.electorate.weight_le_total hmember)
  vote vote hreachable henabled := by
    have hledger := ledger_of_accepted haccepted hreachable
    obtain ⟨hthreshold, htotal⟩ := hledger.governed _ _ henabled.stored
    have hperiod : msg.maxVotingPeriod.length ≠ 0 := fun hperiod =>
      not_open_of_empty_period hreachable hperiod henabled.stored henabled.isOpen
    rw [InRange, if_neg hperiod] at hrange
    rw [vote_ok_iff hreachable henabled, hthreshold, htotal]
    apply hrange.carriesFits
    simp only [Pi.add_apply, Finset.sum_add_distrib, sum_single]
    exact hledger.cast_add_le_of_enabled haccepted henabled

section Necessity

variable {totalWeight : U64} {addr : String} {power : U64}

/-- Somebody calls in the first block. -/
def firstEnv (addr : String) : Env := ⟨⟨0, 0⟩, ⟨addr⟩⟩

/-- In a usable configuration everybody can make the first proposal. -/
theorem Usable.firstProposal_ok (husable : Usable M msg)
    (haccepted : msg.Accepted totalWeight)
    (hregistered : msg.registry addr = some power) :
    ∃ expires response,
      ProposeEnabled (msg.initialStore totalWeight : Store M)
        (firstEnv addr) none power (msg.config totalWeight) expires ∧
      ((handle (firstEnv addr) (.propose "" "" [] none)).run
        (msg.initialStore totalWeight : Store M)).result = .ok response := by
  obtain ⟨maxExpires, hmax⟩ := msg.maxVotingPeriod.exists_after_zero
  have hstore := deployed_store (M := M) (firstEnv addr) haccepted
  have hcount : (Chain.deployed (firstEnv addr) msg :
      Chain M).store.proposalCount = some 0 := by rw [hstore]; rfl
  have hconfig : (Chain.deployed (firstEnv addr) msg :
      Chain M).store.config = some (msg.config totalWeight) := by
    rw [hstore]
    rfl
  have hvoter : (Chain.deployed (firstEnv addr) msg :
      Chain M).store.voters addr = some power := by
    rw [hstore]
    exact hregistered
  have hafter : (msg.config totalWeight).maxVotingPeriod.after
      (firstEnv addr).block = some maxExpires := hmax
  obtain ⟨response, hok⟩ := husable.propose "" "" []
    (.of_start (start_deployed (firstEnv addr) haccepted)) hcount (by decide)
    hconfig hafter hvoter
  rw [hstore] at hok
  exact ⟨maxExpires, response,
    enabled_of_registered hregistered rfl hafter, hok⟩

/-- The products of every first proposal fit. -/
theorem Usable.creationFits (husable : Usable M msg)
    (haccepted : msg.Accepted totalWeight)
    (hregistered : msg.registry addr = some power) :
    CreationFits msg.threshold totalWeight.toNat
      (decide (msg.maxVotingPeriod.length = 0)) power.toNat := by
  obtain ⟨expires, response, henabled, hok⟩ :=
    husable.firstProposal_ok haccepted hregistered
  have hexpired : expires.isExpired ⟨0, 0⟩ =
      decide (msg.maxVotingPeriod.length = 0) := by
    rw [Bool.eq_iff_iff, decide_eq_true_iff]
    exact henabled.isExpired_iff.trans expiredAtCreation_none_iff
  rw [← hexpired]
  exact (propose_ok_iff haccepted (.initial totalWeight) henabled rfl
    (by decide)).1 ⟨response, hok⟩

/-- An open proposal with yes and veto votes only, which are no quorum. -/
structure Idle (quorum : Decimal) (prop : Proposal M) : Prop where
  isOpen : prop.status = Status.open
  no : prop.votes.tally .no = 0
  abstain : prop.votes.tally .abstain = 0
  unmet : ∑ vote, prop.votes.tally vote <
    neededVotes prop.totalWeight.toNat quorum

/-- Without abstentions, a product that does not fit is not formed, so the
quorum is not met; without no votes, the proposal is not rejected. -/
theorem Idle.of_carriesFits {majority quorum : Decimal} {prop : Proposal M}
    (hthreshold : prop.threshold = .thresholdQuorum majority quorum)
    (hlarge : ¬ Fits prop.totalWeight.toNat majority)
    (hfits : CarriesFits prop.threshold prop.totalWeight.toNat false
      prop.votes.tally)
    (hstatus : prop.status = (verdict prop.threshold prop.totalWeight.toNat
      prop.votes.tally).getD Status.open)
    (hno : prop.votes.tally .no = 0)
    (habstain : prop.votes.tally .abstain = 0) : Idle quorum prop := by
  rw [hthreshold] at hfits hstatus
  have hunmet : ∑ vote, prop.votes.tally vote <
      neededVotes prop.totalWeight.toNat quorum := by
    by_contra hmet
    have hformed := hfits.2 (Nat.le_of_not_lt hmet)
    rw [opinions, if_neg (by decide), habstain] at hformed
    exact hlarge hformed
  refine ⟨?_, hno, habstain, hunmet⟩
  rw [hstatus, verdict, if_neg fun h => absurd h.1 (Nat.not_le.2 hunmet),
    if_neg ?_]
  · rfl
  · intro hdefeats
    rw [Defeats, hno] at hdefeats
    exact Nat.not_lt_zero _ hdefeats

/-- In a usable configuration whose threshold product does not fit, veto votes
never complete a quorum: the vote that did would trap. -/
theorem Idle.unmet_of_vetoes {majority quorum : Decimal}
    (husable : Usable M msg) {id : U64} {submissions : List Submission}
    (hveto : ∀ submission ∈ submissions,
      submission.vote = .veto ∧ submission.env.block = ⟨0, 0⟩)
    {chain : Chain M} {prop : Proposal M}
    (hreachable : (multisig msg).Reachable chain)
    (hblock : chain.block = ⟨0, 0⟩)
    (hadmissible : Admissible msg chain.store id prop submissions)
    (hthreshold : prop.threshold = .thresholdQuorum majority quorum)
    (hlarge : ¬ Fits prop.totalWeight.toNat majority)
    (hidle : Idle quorum prop) :
    ∑ vote, prop.votes.tally vote +
        ((submissions.map Submission.sender).map msg.electorate.weight).sum <
      neededVotes prop.totalWeight.toNat quorum := by
  -- Every veto is accepted and leaves the proposal idle for the next one.
  induction submissions generalizing chain prop with
  | nil => simpa using hidle.unmet
  | cons submission submissions ih =>
      obtain ⟨⟨hvote, hfirst⟩, hrest⟩ := List.forall_mem_cons.1 hveto
      obtain ⟨power, henabled, hweight⟩ := hadmissible.enabled hidle.isOpen
      have hok := husable.vote submission.vote hreachable henabled
      have hfits := (vote_ok_iff hreachable henabled submission.vote).1 hok
      have hnoabort : ((executeVote submission.env id submission.vote).run
          chain.store).result ≠ .error .abort := by
        obtain ⟨response, hresponse⟩ := hok
        rw [handle] at hresponse
        intro habort
        rw [hresponse] at habort
        cases habort
      obtain ⟨prop', hadmissible', hthreshold', htotal, htally, hstatus⟩ :=
        hadmissible.step hidle.isOpen hnoabort
      have hcontribution : submission.contribution msg =
          Pi.single .veto power.toNat := by
        rw [Submission.contribution, hvote, hweight]
      have hidle' : Idle quorum prop' := by
        refine .of_carriesFits (hthreshold'.trans hthreshold)
          (by rwa [htotal]) ?_ hstatus ?_ ?_
        · rw [hthreshold', htotal, htally, Submission.contribution, hweight]
          exact hfits
        · simp [htally, hcontribution, hidle.no]
        · simp [htally, hcontribution, hidle.abstain]
      have hstep : (multisig msg).step chain
          ⟨submission.env, .vote id submission.vote⟩
          (chain.submit ⟨submission.env, .vote id submission.vote⟩) := by
        refine ⟨?_, rfl⟩
        rw [hblock, hfirst]
        exact BlockInfo.le_refl _
      have hunmet := ih hrest (hreachable.step hstep) hfirst hadmissible'
        (hthreshold'.trans hthreshold) (by rwa [htotal]) hidle'
      rw [htotal, htally] at hunmet
      simp only [Pi.add_apply, Finset.sum_add_distrib, Submission.contribution,
        sum_single] at hunmet
      rw [List.map_cons, List.map_cons, List.sum_cons, ← add_assoc]
      exact hunmet

/-- If the threshold product does not fit, the first proposal of a usable
configuration is idle. -/
theorem Usable.firstProposal_idle (husable : Usable M msg)
    (haccepted : msg.Accepted totalWeight)
    (hperiod : msg.maxVotingPeriod.length ≠ 0) {majority quorum : Decimal}
    (hthreshold : msg.threshold = .thresholdQuorum majority quorum)
    (hlarge : ¬ Fits totalWeight.toNat majority)
    (hregistered : msg.registry addr = some power) :
    ∃ (chain : Chain M) (id : U64) (prop : Proposal M),
      (multisig msg).Reachable chain ∧ chain.block = ⟨0, 0⟩ ∧
      chain.store.proposals id = some prop ∧ Idle quorum prop ∧
      prop.threshold = msg.threshold ∧ prop.totalWeight = totalWeight ∧
      prop.expires.isExpired ⟨0, 0⟩ = false ∧
      prop.votes.tally = Pi.single .yes power.toNat ∧
      ∀ other, other ≠ addr → chain.store.ballots id other = none := by
  obtain ⟨_, response, -, hok⟩ := husable.firstProposal_ok haccepted hregistered
  have hledger : Ledger msg totalWeight
      (msg.initialStore totalWeight : Store M) := .initial totalWeight
  let chain : Chain M := (Chain.deployed (firstEnv addr) msg).submit
    ⟨firstEnv addr, .propose "" "" [] none⟩
  have hreachable : (multisig msg).Reachable chain :=
    .step (.of_start (start_deployed _ haccepted)) ⟨BlockInfo.le_refl _, rfl⟩
  have hstore : chain.store = ((handle (firstEnv addr)
      (.propose "" "" [] none)).run (msg.initialStore totalWeight)).store := by
    rw [← Exec.commit_of_ok hok, ← deployed_store (firstEnv addr) haccepted]
    rfl
  have heffect := effect_of_ok hok
  rw [← hstore] at heffect
  generalize hleft : chain.store = left at heffect
  cases heffect with
  | @propose _ _ _ _ power' cfg expires prop count id henabled hprop hcount hid =>
      obtain rfl := hledger.config_eq henabled.configured
      obtain rfl : power' = power :=
        Option.some.inj (henabled.registered.symm.trans hregistered)
      obtain ⟨hvalid, htotal⟩ := hledger.sound_of_new haccepted henabled
      have hunexpired : expires.isExpired (firstEnv addr).block = false := by
        rw [Bool.eq_false_iff, Ne, henabled.isExpired_iff,
          expiredAtCreation_none_iff]
        exact hperiod
      have hfits := (updateStatus_isSome_iff hvalid htotal rfl).1
        (Option.isSome_iff_exists.2 ⟨prop, hprop⟩)
      have hstatus := updateStatus_status_eq hprop rfl hvalid htotal hunexpired
      obtain ⟨status, -, rfl⟩ := Proposal.updateStatus_eq_some_iff.1 hprop
      have hstored : chain.store.proposals id = some
          { newProposal (firstEnv addr) "" "" [] expires power'
            (msg.config totalWeight) with status } := by
        rw [hleft, Store.putBallot_proposals, Store.putProposal_proposals_self]
      refine ⟨chain, id, _, hreachable, rfl, hstored, ?_, rfl, rfl, hunexpired,
        Votes.tally_initYes power', fun other hother => ?_⟩
      · have hcarries := hfits.1
        rw [show (newProposal (firstEnv addr) "" "" [] expires power'
          (msg.config totalWeight)).expires.isExpired (firstEnv addr).block =
            false from hunexpired] at hcarries
        exact .of_carriesFits hthreshold hlarge hcarries hstatus rfl rfl
      · have hne : other ≠ (firstEnv addr).message.sender := hother
        rw [hleft, Store.putBallot_ballots_of_ne_addr _ _ _ _ hne]
        rfl

/-- In a usable configuration whose voters can complete the quorum, the
threshold product fits: everybody else votes veto on the first proposal, and
one of them completes the quorum. -/
theorem Usable.fits_of_quorum (husable : Usable M msg)
    (haccepted : msg.Accepted totalWeight)
    (hperiod : msg.maxVotingPeriod.length ≠ 0) {majority quorum : Decimal}
    (hthreshold : msg.threshold = .thresholdQuorum majority quorum)
    (hquorum : neededVotes totalWeight.toNat quorum ≤ msg.electorate.total) :
    Fits totalWeight.toNat majority := by
  by_contra hlarge
  obtain ⟨addr, power, hregistered⟩ := haccepted.exists_voter
  obtain ⟨chain, id, prop, hreachable, hblock, hstored, hidle, hgoverned,
    htotal, hunexpired, htally, hfresh⟩ := husable.firstProposal_idle haccepted
      hperiod hthreshold hlarge hregistered
  have hledger := ledger_of_accepted haccepted hreachable
  -- Everybody who may vote except the proposer, who has voted already.
  let others := {other ∈ msg.electorate.members |
    other ≠ addr ∧ 1 ≤ msg.electorate.weight other}.toList
  let submissions := others.map fun other =>
    (⟨firstEnv other, .veto⟩ : Submission)
  have hsenders : submissions.map Submission.sender = others := by
    rw [List.map_map]
    exact List.map_id others
  have hothers : ∀ other, other ∈ others ↔ other ≠ addr ∧
      other ∈ msg.electorate.members ∧ 1 ≤ msg.electorate.weight other := by
    intro other
    rw [Finset.mem_toList, Finset.mem_filter]
    tauto
  have heligible : Eligible chain.store id prop submissions := by
    refine ⟨hsenders ▸ Finset.nodup_toList _, ?_, ?_, ?_⟩ <;>
      rw [List.forall_mem_map]
    · intro other hother
      rw [hledger.voters]
      exact InitMsg.mem_electorate_and_pos_iff.1 ((hothers other).1 hother).2
    · exact fun other hother => hfresh other ((hothers other).1 hother).1
    · exact fun _ _ => hunexpired
  have hveto : ∀ submission ∈ submissions,
      submission.vote = .veto ∧ submission.env.block = ⟨0, 0⟩ := by
    rw [List.forall_mem_map]
    exact fun _ _ => ⟨rfl, rfl⟩
  have hmember : addr ∈ msg.electorate.members :=
    InitMsg.mem_electorate_iff.2 ⟨power, hregistered⟩
  have hunmet := hidle.unmet_of_vetoes husable hveto hreachable hblock
    (heligible.admissible haccepted hledger hstored)
    (hgoverned.trans hthreshold) (by rwa [htotal])
  rw [hsenders, htally, sum_single, htotal,
    ← InitMsg.electorate_weight hregistered,
    msg.electorate.weight_add_sum_others hmember (Finset.nodup_toList _) hothers]
    at hunmet
  exact absurd hquorum (Nat.not_le.2 hunmet)

theorem Usable.inRange (husable : Usable M msg)
    (haccepted : msg.Accepted totalWeight) :
    InRange msg totalWeight.toNat := by
  rw [InRange]
  split
  · next hperiod =>
      intro addr hmember
      obtain ⟨power, hregistered⟩ := InitMsg.mem_electorate_iff.1 hmember
      have hfits := husable.creationFits haccepted hregistered
      rw [decide_eq_true hperiod] at hfits
      rw [InitMsg.electorate_weight hregistered]
      exact hfits
  · next hperiod =>
      obtain ⟨addr, power, hregistered⟩ := haccepted.exists_voter
      have hfits := husable.creationFits haccepted hregistered
      rw [decide_eq_false hperiod] at hfits
      cases hthreshold : msg.threshold with
      | absoluteCount needed => trivial
      | absolutePercentage percentage =>
          rw [hthreshold] at hfits
          exact hfits
      | thresholdQuorum majority quorum =>
          rw [hthreshold] at hfits
          obtain ⟨hquorumFits, hproposer⟩ := hfits
          refine ⟨hquorumFits, ?_⟩
          by_cases hquorum : neededVotes totalWeight.toNat quorum ≤
              msg.electorate.total
          · rw [if_pos hquorum]
            exact husable.fits_of_quorum haccepted hperiod hthreshold hquorum
          · have hmember : addr ∈ msg.electorate.members :=
              InitMsg.mem_electorate_iff.2 ⟨power, hregistered⟩
            have hweight := msg.electorate.weight_le_total hmember
            rw [InitMsg.electorate_weight hregistered] at hweight
            have hminority : ¬ neededVotes totalWeight.toNat quorum ≤
                power.toNat := fun h => hquorum (h.trans hweight)
            rw [if_neg hminority] at hproposer
            rw [if_neg hquorum]
            exact hproposer

end Necessity

/-- A configuration is usable exactly when the products that its decisions form
fit into 128 bits. -/
theorem usable_iff {chain : Chain M} (hstart : (multisig msg).start chain)
    {cfg : Config} (hconfig : chain.store.config = some cfg) :
    Usable M msg ↔ InRange msg cfg.totalWeight.toNat := by
  obtain ⟨totalWeight, haccepted, hstore⟩ := start_cases hstart
  obtain rfl : msg.config totalWeight = cfg :=
    Option.some.inj (by rw [← hconfig, hstore]; rfl)
  exact ⟨fun husable => husable.inRange haccepted,
    fun hrange => usable_of_inRange hrange haccepted⟩

section Example

private def couple (weight : U64) : InitMsg where
  voters := [⟨"alice", weight⟩, ⟨"bob", weight⟩]
  threshold := .thresholdQuorum (.percent 50) (.percent 30)
  maxVotingPeriod := .height 10

private theorem couple_accepted {weight total : U64}
    (hsum : checkedSum [weight, weight] = some total) :
    (couple weight).Accepted total where
  nonempty := List.cons_ne_nil _ _
  summed := hsum
  valid := ⟨Threshold.validThreshold_eq_ok_iff.1 (by decide +kernel),
    Threshold.validQuorum_eq_ok_iff.1 (by decide +kernel)⟩

private def coupleStart (weight : U64) : Chain String :=
  Chain.deployed ⟨⟨10, 54⟩, ⟨"carol"⟩⟩ (couple weight)

private def couplePropose : Call String :=
  ⟨⟨⟨11, 60⟩, ⟨"alice"⟩⟩, .propose "title" "description" ["send"] none⟩

/-- A weight of one each is small enough. -/
theorem usable_couple : Usable String (couple 1) := by
  have haccepted : (couple 1).Accepted 2 := couple_accepted (by decide)
  have hstart : (multisig (couple 1)).start (coupleStart 1) :=
    start_deployed _ haccepted
  have hconfig : (coupleStart 1).store.config = some ((couple 1).config 2) :=
    rfl
  exact (usable_iff hstart hconfig).2 (by decide +kernel)

/-- With a weight of `10¹²` each, `init` accepts the voters, and every proposal
traps. -/
theorem large_weights_unusable :
    (multisig (couple 1000000000000)).start (coupleStart 1000000000000) ∧
      votesNeeded 2000000000000 (.percent 30) = none ∧
      (couplePropose.run (coupleStart 1000000000000).store).result =
        .error .abort ∧
      ¬ Usable String (couple 1000000000000) := by
  have haccepted : (couple 1000000000000).Accepted 2000000000000 :=
    couple_accepted (by decide)
  have hstart : (multisig (couple 1000000000000)).start
      (coupleStart 1000000000000) := start_deployed _ haccepted
  have htrap : (couplePropose.run (coupleStart 1000000000000).store).result =
      .error .abort := rfl
  refine ⟨hstart, by decide +kernel, htrap, fun husable => ?_⟩
  have hcount : (coupleStart 1000000000000).store.proposalCount = some 0 := rfl
  have hconfig : (coupleStart 1000000000000).store.config =
      some ((couple 1000000000000).config 2000000000000) := rfl
  have hafter : ((couple 1000000000000).config
      2000000000000).maxVotingPeriod.after couplePropose.env.block =
        some (.atHeight 21) := rfl
  have hvoter : (coupleStart 1000000000000).store.voters "alice" =
      some 1000000000000 := rfl
  obtain ⟨response, hok⟩ := husable.propose "title" "description" ["send"]
    (.of_start hstart) hcount (by decide) hconfig hafter hvoter
  exact absurd (htrap.symm.trans hok) nofun

end Example

end FixedMultisig
