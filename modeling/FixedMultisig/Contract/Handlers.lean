import FixedMultisig.Contract.Store

/-!
# The contract's entry points

`init` and `handle` with its four handlers, each a call over the store.  The
order of reads, checks and writes is that of the source: a call that stops
halfway leaves the writes made so far in its outcome, and it is the host that
drops them.
-/

namespace FixedMultisig

open CheckedWord

structure MessageInfo where
  sender : String
  deriving DecidableEq

structure Env where
  block : BlockInfo
  message : MessageInfo
  deriving DecidableEq

structure InitMsg where
  voters : List Voter
  threshold : Threshold
  maxVotingPeriod : Duration
  deriving DecidableEq

inductive HandleMsg (M : Type) where
  | propose (title description : String) (msgs : List M)
      (latest : Option Expiration)
  | vote (proposalId : U64) (vote : Vote)
  | execute (proposalId : U64)
  | close (proposalId : U64)

structure LogAttribute where
  key : String
  value : String
  deriving DecidableEq

structure InitResponse (M : Type) where
  messages : List M := []
  log : List LogAttribute := []

structure HandleResponse (M : Type) where
  messages : List M
  log : List LogAttribute
  data : Option (List (BitVec 8))

variable {M : Type}

abbrev Contract (M A : Type) := Exec (Store M) StdError A

def init (_env : Env) (msg : InitMsg) : Contract M (InitResponse M) := do
  if msg.voters.isEmpty then
    Exec.fail ContractError.noVoters.toStdError
  let totalWeight ← Exec.lift (checkedSum (msg.voters.map Voter.weight))
  Exec.ofExcept (msg.threshold.validate totalWeight)
  config.save
    { threshold := msg.threshold
      totalWeight
      maxVotingPeriod := msg.maxVotingPeriod }
  votersList.save msg.voters
  msg.voters.forM fun voter => voters.save voter.addr voter.weight
  proposalCount.save 0
  return {}

def executePropose (env : Env) (title description : String) (msgs : List M)
    (latest : Option Expiration) : Contract M (HandleResponse M) := do
  let voterPower ← voters.mayLoad env.message.sender
  let votePower ← (match voterPower with
    | some power => pure power
    | none => Exec.fail ContractError.unauthorized.toStdError :
    Contract M U64)
  let cfg ← config.load StdError.notFound
  let maxExpires ← Exec.lift (cfg.maxVotingPeriod.after env.block)
  let expires ← (match (latest.getD maxExpires).partialCmp maxExpires with
    | some .gt => pure maxExpires
    | none => Exec.fail ContractError.wrongExpiration.toStdError
    | some _ => pure (latest.getD maxExpires) :
    Contract M Expiration)
  let prop : Proposal M :=
    { title
      description
      startHeight := env.block.height
      expires
      msgs
      status := Status.open
      votes := Votes.initYes votePower
      threshold := cfg.threshold
      totalWeight := cfg.totalWeight }
  let prop ← Exec.lift (prop.updateStatus env.block)
  let proposalId ← proposalCount.update StdError.notFound fun id =>
    Exec.lift (checkedAdd id 1)
  proposals.save proposalId prop
  let ballot : Ballot := { weight := votePower, vote := .yes }
  (ballots proposalId).save env.message.sender ballot
  return {
    messages := []
    log := [
      ⟨"action", "propose"⟩,
      ⟨"sender", env.message.sender⟩,
      ⟨"proposal_id", toString proposalId.toNat⟩,
      ⟨"status", prop.status.toDebug⟩]
    data := none }

def executeVote (env : Env) (proposalId : U64) (vote : Vote) :
    Contract M (HandleResponse M) := do
  let voterPower ← voters.mayLoad env.message.sender
  let votePower ← (match voterPower with
    | some power =>
        if 1 ≤ power then pure power
        else Exec.fail ContractError.unauthorized.toStdError
    | none => Exec.fail ContractError.unauthorized.toStdError :
    Contract M U64)
  let prop ← proposals.load StdError.notFound proposalId
  if prop.status ≠ Status.open then
    Exec.fail ContractError.notOpen.toStdError
  if prop.expires.isExpired env.block then
    Exec.fail ContractError.expired.toStdError
  if let some _ ← (ballots proposalId).mayLoad env.message.sender then
    Exec.fail ContractError.alreadyVoted.toStdError
  let ballot : Ballot := { weight := votePower, vote }
  (ballots proposalId).save env.message.sender ballot
  let votes ← Exec.lift (prop.votes.addVote vote votePower)
  let prop := { prop with votes }
  let prop ← Exec.lift (prop.updateStatus env.block)
  proposals.save proposalId prop
  return {
    messages := []
    log := [
      ⟨"action", "vote"⟩,
      ⟨"sender", env.message.sender⟩,
      ⟨"proposal_id", toString proposalId.toNat⟩,
      ⟨"status", prop.status.toDebug⟩]
    data := none }

def executeExecute (env : Env) (proposalId : U64) :
    Contract M (HandleResponse M) := do
  let prop ← proposals.load StdError.notFound proposalId
  if prop.status ≠ Status.passed then
    Exec.fail ContractError.wrongExecuteStatus.toStdError
  let prop := { prop with status := Status.executed }
  proposals.save proposalId prop
  return {
    messages := prop.msgs
    log := [
      ⟨"action", "execute"⟩,
      ⟨"sender", env.message.sender⟩,
      ⟨"proposal_id", toString proposalId.toNat⟩]
    data := none }

def executeClose (env : Env) (proposalId : U64) :
    Contract M (HandleResponse M) := do
  let prop ← proposals.load StdError.notFound proposalId
  if prop.status ∈ [Status.executed, Status.rejected, Status.passed] then
    Exec.fail ContractError.wrongCloseStatus.toStdError
  if ¬ prop.expires.isExpired env.block then
    Exec.fail ContractError.notExpired.toStdError
  let prop := { prop with status := Status.rejected }
  proposals.save proposalId prop
  return {
    messages := []
    log := [
      ⟨"action", "close"⟩,
      ⟨"sender", env.message.sender⟩,
      ⟨"proposal_id", toString proposalId.toNat⟩]
    data := none }

def handle (env : Env) (msg : HandleMsg M) : Contract M (HandleResponse M) :=
  match msg with
  | .propose title description msgs latest =>
      executePropose env title description msgs latest
  | .vote proposalId vote => executeVote env proposalId vote
  | .execute proposalId => executeExecute env proposalId
  | .close proposalId => executeClose env proposalId

end FixedMultisig
