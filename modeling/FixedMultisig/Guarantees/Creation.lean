import FixedMultisig.Chain.Ledger

/-!
# Proposals that pass when they are created

A proposal counts its proposer's vote and updates its status before anybody
else can vote.  While it is not expired, it passes only if the proposer alone
outweighs everybody else.  A proposal that is created expired under a quorum
rule is decided among the opinions given so far, which are the proposer's.
-/

namespace FixedMultisig

open Decision

variable {M : Type} {msg : InitMsg}

/-- This weight alone passes, also if everybody else votes against it. -/
def Outright (threshold : Threshold) (totalWeight weight : ℕ) : Prop :=
  match threshold with
  | .absoluteCount needed => needed.toNat ≤ weight
  | .absolutePercentage percentage =>
      neededVotes totalWeight percentage ≤ weight
  | .thresholdQuorum threshold quorum =>
      neededVotes totalWeight quorum ≤ weight ∧
        neededVotes totalWeight threshold ≤ weight

/-- The new proposal is expired in the block that creates it: the proposer
chose an expiration that is over, or the voting period is empty. -/
def ExpiredAtCreation (latest : Option Expiration) (period : Duration)
    (block : BlockInfo) : Prop :=
  (∃ chosen, latest = some chosen ∧ chosen.isExpired block) ∨
    period.length = 0

/-- Without a choice only an empty voting period expires at creation. -/
theorem expiredAtCreation_none_iff {period : Duration} {block : BlockInfo} :
    ExpiredAtCreation none period block ↔ period.length = 0 := by
  simp [ExpiredAtCreation]

/-- A new proposal under a quorum rule that skips the vote: it is created
expired, and the proposer is a quorum but no majority of the total weight. -/
def SkipsVote (threshold : Threshold) (totalWeight weight : ℕ)
    (expired : Prop) : Prop :=
  expired ∧ ∃ majority quorum,
    threshold = .thresholdQuorum majority quorum ∧
      neededVotes totalWeight quorum ≤ weight ∧
      weight < neededVotes totalWeight majority

theorem SkipsVote.not_outright {threshold : Threshold}
    {totalWeight weight : ℕ} {expired : Prop}
    (hskips : SkipsVote threshold totalWeight weight expired) :
    ¬ Outright threshold totalWeight weight := by
  obtain ⟨-, majority, quorum, rfl, -, hminority⟩ := hskips
  intro houtright
  exact absurd houtright.2 (Nat.not_le.2 hminority)

/-- What a proposer's vote decides on its own. -/
theorem carries_single_iff {threshold : Threshold} {totalWeight weight : ℕ}
    {closed : Bool} (hvalid : threshold.Valid totalWeight) :
    Carries threshold totalWeight closed (Pi.single .yes weight) ↔
      Outright threshold totalWeight weight ∨
        SkipsVote threshold totalWeight weight (closed = true) := by
  cases threshold with
  | absoluteCount needed => simp [Carries, Outright, SkipsVote]
  | absolutePercentage percentage => simp [Carries, Outright, SkipsVote]
  | thresholdQuorum majority quorum =>
      have hshare := neededVotes_le hvalid.1.2 weight
      cases closed with
      | false => simp [Carries, Outright, SkipsVote, opinions]
      | true =>
          simp only [Carries, Outright, SkipsVote, opinions, sum_single,
            if_true, Pi.single_eq_of_ne (show Vote.abstain ≠ .yes by decide),
            Nat.sub_zero, Pi.single_eq_same, true_and,
            Threshold.thresholdQuorum.injEq]
          constructor
          · rintro ⟨hquorum, -⟩
            by_cases hmajority : neededVotes totalWeight majority ≤ weight
            · exact .inl ⟨hquorum, hmajority⟩
            · exact .inr ⟨majority, quorum, ⟨rfl, rfl⟩, hquorum, by omega⟩
          · rintro (⟨hquorum, -⟩ | ⟨_, _, ⟨rfl, rfl⟩, hquorum, -⟩)
            · exact ⟨hquorum, hshare⟩
            · exact ⟨hquorum, hshare⟩

/-- A clamped expiration is over when the chosen or the longest one is. -/
theorem isExpired_of_clampExpires {latest : Option Expiration}
    {maxExpires expires : Expiration} {block : BlockInfo}
    (hclamp : clampExpires latest maxExpires = some expires) :
    expires.isExpired block ↔
      (∃ chosen, latest = some chosen ∧ chosen.isExpired block) ∨
        maxExpires.isExpired block := by
  have hsplit : (∃ chosen, latest = some chosen ∧ chosen.isExpired block) ∨
      maxExpires.isExpired block ↔
      (latest.getD maxExpires).isExpired block ∨
        maxExpires.isExpired block := by
    cases latest <;> simp
  rw [hsplit]
  rw [clampExpires] at hclamp
  split at hclamp
  · next hgt =>
      obtain rfl := Option.some.inj hclamp
      have himp : (latest.getD maxExpires).isExpired block →
          maxExpires.isExpired block :=
        Expiration.isExpired_of_partialCmp_gt hgt
      tauto
  · cases hclamp
  · next order hne hle =>
      obtain rfl := Option.some.inj hclamp
      have himp : maxExpires.isExpired block →
          (latest.getD maxExpires).isExpired block :=
        Expiration.isExpired_of_partialCmp_le hle fun h => hne (h ▸ rfl)
      tauto

theorem ProposeEnabled.isExpired_iff {store : Store M} {env : Env}
    {latest : Option Expiration} {power : U64} {cfg : Config}
    {expires : Expiration}
    (henabled : ProposeEnabled store env latest power cfg expires) :
    expires.isExpired env.block ↔
      ExpiredAtCreation latest cfg.maxVotingPeriod env.block := by
  obtain ⟨maxExpires, hmax, hclamp⟩ := henabled.clamped
  rw [isExpired_of_clampExpires hclamp, Duration.isExpired_after_iff hmax]
  rfl

/-- A new proposal passes exactly when its proposer outweighs everybody or
skips the vote. -/
theorem created_passed_iff {totalWeight : U64}
    (haccepted : msg.Accepted totalWeight) {store : Store M}
    (hledger : Ledger msg totalWeight store) {env : Env}
    {title description : String} {msgs : List M} {latest : Option Expiration}
    {power : U64} {cfg : Config} {expires : Expiration} {prop : Proposal M}
    (henabled : ProposeEnabled store env latest power cfg expires)
    (hprop : (newProposal env title description msgs expires power
      cfg).updateStatus env.block = some prop) :
    prop.status = Status.passed ↔
      Outright cfg.threshold cfg.totalWeight.toNat power.toNat ∨
        SkipsVote cfg.threshold cfg.totalWeight.toNat power.toNat
          (ExpiredAtCreation latest cfg.maxVotingPeriod env.block) := by
  obtain ⟨hvalid, htotal⟩ := hledger.sound_of_new haccepted henabled
  rw [← henabled.isExpired_iff, ← carries_single_iff hvalid, ← Votes.tally_initYes]
  exact updateStatus_passed_iff hprop rfl hvalid htotal

/-- A proposal that a successful call created passed the guards and its first
status update. -/
theorem created_of_ok {store : Store M} {env : Env}
    {title description : String} {msgs : List M} {latest : Option Expiration}
    {response : HandleResponse M}
    (hok : ((handle env (.propose title description msgs latest)).run
      store).result = .ok response) {id : U64} {prop : Proposal M}
    (hold : store.proposals id = none)
    (hnew : ((handle env (.propose title description msgs latest)).run
      store).store.proposals id = some prop) :
    ∃ power cfg expires, ProposeEnabled store env latest power cfg expires ∧
      (newProposal env title description msgs expires power
        cfg).updateStatus env.block = some prop ∧
      ((handle env (.propose title description msgs latest)).run store).store =
        ((store.putCount id).putProposal id prop).putBallot id
          env.message.sender ⟨power, .yes⟩ := by
  have heffect := effect_of_ok hok
  generalize ((handle env (.propose title description msgs latest)).run
    store).store = store' at heffect hnew
  cases heffect with
  | @propose _ _ _ _ power cfg expires new count fresh henabled hprop =>
      rw [Store.putBallot_proposals] at hnew
      obtain ⟨rfl, rfl⟩ := Store.eq_of_putProposal _ _ _ hold hnew
      exact ⟨power, cfg, expires, henabled, hprop, rfl⟩

/-- Whoever passes a proposal by creating it outweighs everybody, unless the
proposal skips the vote. -/
theorem created_outright_iff {chain : Chain M}
    (hreachable : (multisig msg).Reachable chain) {env : Env}
    {title description : String} {msgs : List M} {latest : Option Expiration}
    {response : HandleResponse M}
    (hok : ((handle env (.propose title description msgs latest)).run
      chain.store).result = .ok response) {power : U64} {cfg : Config}
    (hregistered : chain.store.voters env.message.sender = some power)
    (hconfig : chain.store.config = some cfg) {id : U64} {prop : Proposal M}
    (hold : chain.store.proposals id = none)
    (hnew : ((handle env (.propose title description msgs latest)).run
      chain.store).store.proposals id = some prop) :
    (prop.status = Status.passed →
      Outright cfg.threshold cfg.totalWeight.toNat power.toNat) ↔
      ¬ SkipsVote cfg.threshold cfg.totalWeight.toNat power.toNat
        (ExpiredAtCreation latest cfg.maxVotingPeriod env.block) := by
  obtain ⟨totalWeight, haccepted, hledger⟩ := ledger_of_reachable hreachable
  obtain ⟨power', cfg', expires, henabled, hprop, -⟩ :=
    created_of_ok hok hold hnew
  obtain rfl := Option.some.inj (henabled.registered.symm.trans hregistered)
  obtain rfl := Option.some.inj (henabled.configured.symm.trans hconfig)
  rw [created_passed_iff haccepted hledger henabled hprop]
  exact ⟨fun houtright hskips =>
      hskips.not_outright (houtright (.inr hskips)),
    fun hskips hpassed => hpassed.resolve_right hskips⟩

section Example

/-- A weight of one is a quorum, and a weight of two is a majority. -/
private def triad : InitMsg where
  voters := [⟨"alice", 1⟩, ⟨"bob", 1⟩, ⟨"carol", 2⟩]
  threshold := .thresholdQuorum (.percent 50) (.percent 20)
  maxVotingPeriod := .height 10

private theorem triad_accepted : triad.Accepted 4 where
  nonempty := by decide
  summed := by decide
  valid := Threshold.validate_eq_ok_iff.1 (by decide +kernel)

private def triadStart : Chain String :=
  Chain.deployed ⟨⟨10, 54⟩, ⟨"carol"⟩⟩ triad

private theorem triadStart_reachable :
    (multisig triad).Reachable triadStart :=
  .of_start (start_deployed _ triad_accepted)

private def triadCall (sender : String) (latest : Option Expiration) :
    Call String :=
  ⟨⟨⟨11, 60⟩, ⟨sender⟩⟩, .propose "title" "description" ["send"] latest⟩

private def triadProposal (expires : Expiration) (yes : U64) :
    Proposal String where
  title := "title"
  description := "description"
  startHeight := 11
  expires
  msgs := ["send"]
  status := Status.passed
  threshold := triad.threshold
  totalWeight := 4
  votes := ⟨yes, 0, 0, 0⟩

/-- A proposer with half of the weight passes a proposal, and rightly so. -/
theorem created_outright_triad :
    ((triadCall "carol" none).run triadStart.store).result =
        .ok (proposeResponse (triadCall "carol" none).env 1
          (triadProposal (.atHeight 21) 2)) ∧
      ((triadCall "carol" none).run triadStart.store).store.proposals 1 =
        some (triadProposal (.atHeight 21) 2) ∧
      (triadProposal (.atHeight 21) 2).status = Status.passed ∧
      ¬ SkipsVote triad.threshold 4 2
        (ExpiredAtCreation none triad.maxVotingPeriod ⟨11, 60⟩) ∧
      Outright triad.threshold 4 2 := by
  have hok : ((triadCall "carol" none).run triadStart.store).result =
      .ok (proposeResponse (triadCall "carol" none).env 1
        (triadProposal (.atHeight 21) 2)) := rfl
  have hregistered : triadStart.store.voters "carol" = some 2 := rfl
  have hconfig : triadStart.store.config = some (triad.config 4) := rfl
  have hold : triadStart.store.proposals 1 = none := rfl
  have hnew : ((triadCall "carol" none).run triadStart.store).store.proposals
      1 = some (triadProposal (.atHeight 21) 2) := rfl
  have hskips : ¬ SkipsVote triad.threshold 4 2
      (ExpiredAtCreation none triad.maxVotingPeriod ⟨11, 60⟩) := by
    rintro ⟨hexpired, -⟩
    exact absurd (expiredAtCreation_none_iff.1 hexpired) (by decide)
  exact ⟨hok, hnew, rfl, hskips,
    (created_outright_iff triadStart_reachable hok hregistered hconfig hold
      hnew).2 hskips rfl⟩

/-- A proposer who chooses an expiration that is already over passes the
proposal alone, although the other voters have most of the weight. -/
theorem expired_latest_skips_vote :
    (multisig triad).Reachable triadStart ∧
      triadStart.block ≤ (triadCall "alice" (some (.atHeight 5))).env.block ∧
      (triadStart.submit (triadCall "alice"
        (some (.atHeight 5)))).store.proposals 1 =
          some (triadProposal (.atHeight 5) 1) ∧
      (triadProposal (.atHeight 5) 1).status = Status.passed ∧
      triadStart.store.voters "alice" = some 1 ∧
      ¬ Outright triad.threshold 4 1 :=
  ⟨triadStart_reachable, by decide, rfl, rfl, rfl,
    fun houtright => absurd houtright.2 (by decide +kernel)⟩

end Example

end FixedMultisig
