import FixedMultisig.Guarantees.Creation
import FixedMultisig.Guarantees.VoteOrder

/-!
# What the voters can reach together

`init` checks the threshold against the weights in the list of voters, and
votes are cast with the weights in the voters map.  If everybody says yes, a
proposal passes exactly when what the map holds reaches the bounds that are
computed from what the list counts.  The two differ by the entries that a
later entry of the same address overwrites.
-/

namespace FixedMultisig

open CheckedWord Decision

variable {M : Type} {msg : InitMsg}

/-- Everybody with a positive weight other than the proposer says yes before
the deadline. -/
structure Unanimous (store : Store M) (proposer : String) (prop : Proposal M)
    (submissions : List Submission) : Prop where
  yes : ∀ submission ∈ submissions, submission.vote = .yes
  distinct : (submissions.map Submission.sender).Nodup
  everybody : ∀ addr, addr ∈ submissions.map Submission.sender ↔
    addr ≠ proposer ∧ ∃ power, store.voters addr = some power ∧ 1 ≤ power
  unexpired : ∀ submission ∈ submissions,
    prop.expires.isExpired submission.env.block = false

/-- Yes votes contribute their weights to the yes votes. -/
theorem sum_contributions_yes {submissions : List Submission}
    (hyes : ∀ submission ∈ submissions, submission.vote = .yes) :
    (submissions.map (Submission.contribution msg)).sum =
      Pi.single .yes ((submissions.map Submission.sender).map
        msg.electorate.weight).sum := by
  induction submissions with
  | nil => simp
  | cons submission submissions ih =>
      obtain ⟨hfirst, hrest⟩ := List.forall_mem_cons.1 hyes
      simp only [List.map_cons, List.sum_cons]
      rw [ih hrest, Submission.contribution, hfirst, ← Pi.single_add]

/-- The proposer and everybody else make up the electorate. -/
theorem Unanimous.total {store : Store M} {proposer : String}
    {prop : Proposal M} {submissions : List Submission}
    (hunanimous : Unanimous store proposer prop submissions)
    (hvoters : store.voters = msg.registry) {power : U64}
    (hproposer : store.voters proposer = some power) :
    power.toNat + ((submissions.map Submission.sender).map
      msg.electorate.weight).sum = msg.electorate.total := by
  rw [hvoters] at hproposer
  rw [← InitMsg.electorate_weight hproposer]
  apply msg.electorate.weight_add_sum_others
    (InitMsg.mem_electorate_iff.2 ⟨power, hproposer⟩) hunanimous.distinct
  intro addr
  rw [hunanimous.everybody, hvoters, InitMsg.mem_electorate_and_pos_iff]

/-- What is cast together is one yes vote with the weight of everybody. -/
theorem Unanimous.tally {store : Store M} {proposer : String}
    {prop : Proposal M} {submissions : List Submission}
    (hunanimous : Unanimous store proposer prop submissions)
    (hvoters : store.voters = msg.registry) {power : U64}
    (hproposer : store.voters proposer = some power) :
    (Votes.initYes power).tally +
        (submissions.map (Submission.contribution msg)).sum =
      Pi.single .yes msg.electorate.total := by
  have hothers : (submissions.map (Submission.contribution msg)).sum = _ :=
    sum_contributions_yes hunanimous.yes
  calc
    (Votes.initYes power).tally +
          (submissions.map (Submission.contribution msg)).sum =
        Pi.single .yes power.toNat + Pi.single .yes ((submissions.map
          Submission.sender).map msg.electorate.weight).sum := by
      rw [Votes.tally_initYes, hothers]
    _ = Pi.single .yes (power.toNat + ((submissions.map
          Submission.sender).map msg.electorate.weight).sum) :=
      (Pi.single_add _ _ _).symm
    _ = Pi.single .yes msg.electorate.total := by
      rw [hunanimous.total hvoters hproposer]

/-- Everybody else may vote on a proposal that holds the proposer's ballot. -/
theorem Unanimous.eligible {store : Store M} {proposer : String} {id : U64}
    {prop : Proposal M} {submissions : List Submission}
    (hunanimous : Unanimous store proposer prop submissions)
    (hballots : ∀ addr, addr ≠ proposer → store.ballots id addr = none) :
    Eligible store id prop submissions where
  distinct := hunanimous.distinct
  registered _ hmem :=
    ((hunanimous.everybody _).1 (List.mem_map_of_mem hmem)).2
  fresh _ hmem :=
    hballots _ ((hunanimous.everybody _).1 (List.mem_map_of_mem hmem)).1
  unexpired := hunanimous.unexpired

/-- If everybody says yes, a proposal passes exactly when the weight that the
voters map holds reaches the bounds computed from the configured total.  This
total is what the map holds exactly when no overwritten entry has a weight. -/
theorem unanimous_passed_iff {chain : Chain M}
    (hreachable : (multisig msg).Reachable chain) {env : Env}
    {title description : String} {msgs : List M} {latest : Option Expiration}
    {response : HandleResponse M}
    (hok : ((handle env (.propose title description msgs latest)).run
      chain.store).result = .ok response) {store : Store M}
    (hstore : store = ((handle env (.propose title description msgs
      latest)).run chain.store).store) {cfg : Config}
    (hconfig : chain.store.config = some cfg) {id : U64} {prop : Proposal M}
    (hold : chain.store.proposals id = none)
    (hnew : store.proposals id = some prop)
    (hcreated : prop.expires.isExpired env.block = false)
    {submissions : List Submission}
    (hunanimous : Unanimous store env.message.sender prop submissions)
    (hnoabort : NoAbort id store submissions) :
    (((submitVotes id store submissions).proposals id).map Proposal.status =
        some Status.passed ↔
      Outright cfg.threshold cfg.totalWeight.toNat msg.electorate.total) ∧
    (msg.electorate.total = cfg.totalWeight.toNat ↔
      Registry.overwritten Voter.addr (fun voter => voter.weight.toNat)
        msg.voters = 0) := by
  obtain ⟨totalWeight, haccepted, hledger⟩ := ledger_of_reachable hreachable
  have hledger' : Ledger msg totalWeight store :=
    hstore ▸ hledger.effect (effect_of_ok hok)
  obtain ⟨power, cfg', expires, henabled, hprop, hleft⟩ :=
    created_of_ok hok hold (hstore ▸ hnew)
  rw [← hstore] at hleft
  obtain rfl := Option.some.inj (henabled.configured.symm.trans hconfig)
  obtain ⟨hvalid, htotal⟩ := hledger.sound_of_new haccepted henabled
  constructor
  · have hballots : ∀ addr, addr ≠ env.message.sender →
        store.ballots id addr = none := by
      intro addr hne
      rw [hleft, Store.putBallot_ballots_of_ne_addr _ _ _ _ hne]
      exact hledger.unstored id hold addr
    obtain ⟨status, -, rfl⟩ := Proposal.updateStatus_eq_some_iff.1 hprop
    have hstatus := updateStatus_status_eq hprop rfl hvalid htotal hcreated
    have hproposer : store.voters env.message.sender = some power := by
      rw [hleft]
      exact henabled.registered
    rw [submitVotes_status_eq_verdict
      ((hunanimous.eligible hballots).admissible haccepted hledger' hnew)
      hstatus hnoabort]
    simp only [newProposal]
    rw [hunanimous.tally hledger'.voters hproposer, Option.some.injEq,
      verdict_getD_eq_passed_iff, carries_single_iff hvalid,
      or_iff_left fun h => by cases h.1]
  · rw [hledger.config_eq hconfig, InitMsg.config,
      haccepted.toNat_totalWeight]
    exact Registry.sum_held_eq_iff Voter.addr _ msg.voters

section Example

private def pairOf (bobs : List Voter) (weight : U64) : InitMsg where
  voters := ⟨"alice", 1⟩ :: bobs
  threshold := .absoluteCount weight
  maxVotingPeriod := .height 10

/-- Two voters who have to agree. -/
private def duo : InitMsg := pairOf [⟨"bob", 1⟩] 2

/-- The same two voters, one of them listed twice. -/
private def doubled : InitMsg := pairOf [⟨"bob", 1⟩, ⟨"bob", 1⟩] 3

private theorem duo_accepted : duo.Accepted 2 where
  nonempty := by decide
  summed := by decide
  valid := Threshold.validate_eq_ok_iff.1 (by decide)

private theorem doubled_accepted : doubled.Accepted 3 where
  nonempty := by decide
  summed := by decide
  valid := Threshold.validate_eq_ok_iff.1 (by decide)

private def duoPropose : Call String :=
  ⟨⟨⟨11, 60⟩, ⟨"alice"⟩⟩, .propose "title" "description" ["send"] none⟩

private def duoStart (msg : InitMsg) : Chain String :=
  Chain.deployed ⟨⟨10, 54⟩, ⟨"carol"⟩⟩ msg

private def duoProposed (msg : InitMsg) : Store String :=
  ((duoStart msg).submit duoPropose).store

private theorem duoProposed_voters {msg : InitMsg} {totalWeight : U64}
    (haccepted : msg.Accepted totalWeight) :
    (duoProposed msg).voters = msg.registry := by
  have hlater : (⟨10, 54⟩ : BlockInfo) ≤ duoPropose.env.block := by decide
  have hstep : (multisig msg).step (duoStart msg) duoPropose
      ((duoStart msg).submit duoPropose) := ⟨hlater, rfl⟩
  have hreachable := EventSystem.Reachable.step
    (.of_start (start_deployed _ haccepted)) hstep
  obtain ⟨_, -, hledger⟩ := ledger_of_reachable hreachable
  exact hledger.voters

private def duoProposal (weight totalWeight : U64) : Proposal String where
  title := "title"
  description := "description"
  startHeight := 11
  expires := .atHeight 21
  msgs := ["send"]
  status := Status.open
  threshold := .absoluteCount weight
  totalWeight
  votes := ⟨1, 0, 0, 0⟩

private def bobYes : Submission := ⟨⟨⟨12, 66⟩, ⟨"bob"⟩⟩, .yes⟩

private theorem duo_unanimous {msg : InitMsg} {total : U64}
    (haccepted : msg.Accepted total)
    (hregistry : ∀ addr, msg.registry addr =
      if "alice" = addr ∨ "bob" = addr then some 1 else none)
    {weight totalWeight : U64} :
    Unanimous (duoProposed msg) "alice" (duoProposal weight totalWeight)
      [bobYes] where
  yes := by
    rw [List.forall_mem_singleton]
    rfl
  distinct := List.nodup_singleton _
  everybody addr := by
    have hbob : bobYes.sender = "bob" := rfl
    rw [duoProposed_voters haccepted, hregistry, List.map_singleton,
      List.mem_singleton, hbob]
    constructor
    · rintro rfl
      exact ⟨by decide, 1, rfl, by decide⟩
    · rintro ⟨halice, power, hpower, -⟩
      by_contra hbob
      rw [if_neg (by tauto)] at hpower
      cases hpower
  unexpired := by
    rw [List.forall_mem_singleton]
    rfl

private theorem duo_registry (addr : String) : duo.registry addr =
    if "alice" = addr ∨ "bob" = addr then some 1 else none := by
  simp only [InitMsg.registry, duo, pairOf, Registry.lastEntry]
  split_ifs <;> simp_all

/-- Alice proposes and Bob agrees. -/
theorem unanimous_passed_iff_duo :
    ((submitVotes 1 (duoProposed duo) [bobYes]).proposals 1).map
      Proposal.status = some Status.passed := by
  have hok : (duoPropose.run (duoStart duo).store).result =
      .ok (proposeResponse duoPropose.env 1 (duoProposal 2 2)) := rfl
  have hconfig : (duoStart duo).store.config = some (duo.config 2) := rfl
  have hold : (duoStart duo).store.proposals 1 = none := rfl
  have hnew : (duoProposed duo).proposals 1 = some (duoProposal 2 2) := rfl
  exact (unanimous_passed_iff
    (.of_start (start_deployed ⟨⟨10, 54⟩, ⟨"carol"⟩⟩ duo_accepted)) hok rfl
    hconfig hold hnew rfl (duo_unanimous duo_accepted duo_registry)
    ⟨nofun, trivial⟩).1.2 (le_refl 2)

private theorem doubled_registry (addr : String) : doubled.registry addr =
    if "alice" = addr ∨ "bob" = addr then some 1 else none := by
  simp only [InitMsg.registry, doubled, pairOf, Registry.lastEntry]
  split_ifs <;> simp_all

/-- Bob is listed twice and votes once: Alice and he agree, and the proposal
does not pass. -/
theorem repeated_address_unattainable :
    (multisig doubled).start (duoStart doubled) ∧
      (duoPropose.run (duoStart doubled).store).result =
        .ok (proposeResponse duoPropose.env 1 (duoProposal 3 3)) ∧
      (duoProposed doubled).proposals 1 = some (duoProposal 3 3) ∧
      (duoProposal 3 3).expires.isExpired duoPropose.env.block = false ∧
      Unanimous (duoProposed doubled) "alice" (duoProposal 3 3) [bobYes] ∧
      NoAbort 1 (duoProposed doubled) [bobYes] ∧
      ((submitVotes 1 (duoProposed doubled) [bobYes]).proposals 1).map
        Proposal.status = some Status.open ∧
      doubled.electorate.total = 2 ∧
      (duoProposed doubled).config = some (doubled.config 3) :=
  ⟨start_deployed _ doubled_accepted, rfl, rfl, rfl,
    duo_unanimous doubled_accepted doubled_registry, ⟨nofun, trivial⟩, rfl,
    rfl, rfl⟩

end Example

end FixedMultisig
