import FixedMultisig.Contract.Expiration
import FixedMultisig.Contract.Threshold
import Mathlib.Algebra.BigOperators.Fin
import Mathlib.Data.Fintype.Basic

/-!
# Proposals

A proposal, its tally and the functions that decide it.  All arithmetic is
checked, so every function that adds, subtracts or asks for a percentage may
trap; the evaluation order of the source is kept, since it decides whether a
trapping operation is reached at all.
-/

namespace FixedMultisig

open CheckedWord

inductive Vote where
  | yes
  | no
  | abstain
  | veto
  deriving DecidableEq

instance : Fintype Vote where
  elems := {.yes, .no, .abstain, .veto}
  complete := fun vote => by cases vote <;> decide

inductive Status where
  | pending
  | «open»
  | rejected
  | passed
  | executed
  deriving DecidableEq

/-- The text of a status in the log of a call. -/
def Status.toDebug : Status → String
  | pending => "Pending"
  | Status.open => "Open"
  | rejected => "Rejected"
  | passed => "Passed"
  | executed => "Executed"

/-- The weight of the votes for each option. -/
structure Votes where
  yes : U64
  no : U64
  abstain : U64
  veto : U64
  deriving DecidableEq

namespace Votes

/-- The sum of all votes. -/
def total (votes : Votes) : Option U64 := do
  let sum ← checkedAdd votes.yes votes.no
  let sum ← checkedAdd sum votes.abstain
  checkedAdd sum votes.veto

/-- A tally with a yes vote of this weight. -/
def initYes (initWeight : U64) : Votes := ⟨initWeight, 0, 0, 0⟩

def addVote (votes : Votes) (vote : Vote) (weight : U64) : Option Votes :=
  match vote with
  | .yes => do return { votes with yes := ← checkedAdd votes.yes weight }
  | .abstain => do
      return { votes with abstain := ← checkedAdd votes.abstain weight }
  | .no => do return { votes with no := ← checkedAdd votes.no weight }
  | .veto => do return { votes with veto := ← checkedAdd votes.veto weight }

end Votes

/-- A proposal whose messages are of type `M`. -/
structure Proposal (M : Type) where
  title : String
  description : String
  startHeight : U64
  expires : Expiration
  msgs : List M
  status : Status
  threshold : Threshold
  totalWeight : U64
  votes : Votes

namespace Proposal

variable {M : Type}

/-- Whether the proposal is sure to pass. -/
def isPassed (prop : Proposal M) (block : BlockInfo) : Option Bool :=
  match prop.threshold with
  | .absoluteCount weightNeeded => some (weightNeeded ≤ prop.votes.yes)
  | .absolutePercentage percentageNeeded => do
      let opinions ← checkedSub prop.totalWeight prop.votes.abstain
      let needed ← votesNeeded opinions percentageNeeded
      return needed ≤ prop.votes.yes
  | .thresholdQuorum threshold quorum => do
      let total ← prop.votes.total
      let quorumNeeded ← votesNeeded prop.totalWeight quorum
      if total < quorumNeeded then return false
      else if prop.expires.isExpired block then
        let total ← prop.votes.total
        let opinions ← checkedSub total prop.votes.abstain
        let needed ← votesNeeded opinions threshold
        return needed ≤ prop.votes.yes
      else
        let possibleOpinions ← checkedSub prop.totalWeight prop.votes.abstain
        let needed ← votesNeeded possibleOpinions threshold
        return needed ≤ prop.votes.yes

/-- Whether the proposal is sure to be rejected. -/
def isRejected (prop : Proposal M) (block : BlockInfo) : Option Bool :=
  match prop.threshold with
  | .absoluteCount weightNeeded => do
      let weight ← checkedSub prop.totalWeight weightNeeded
      return weight < prop.votes.no
  | .absolutePercentage percentageNeeded => do
      let opinions ← checkedSub prop.totalWeight prop.votes.abstain
      let complement ← Decimal.one.sub percentageNeeded
      let needed ← votesNeeded opinions complement
      return needed < prop.votes.no
  | .thresholdQuorum threshold _ =>
      if prop.expires.isExpired block then do
        let total ← prop.votes.total
        let opinions ← checkedSub total prop.votes.abstain
        let complement ← Decimal.one.sub threshold
        let needed ← votesNeeded opinions complement
        return needed < prop.votes.no
      else do
        let possibleOpinions ← checkedSub prop.totalWeight prop.votes.abstain
        let complement ← Decimal.one.sub threshold
        let needed ← votesNeeded possibleOpinions complement
        return needed < prop.votes.no

/-- What the status should be at this block. -/
def currentStatus (prop : Proposal M) (block : BlockInfo) :
    Option Status := do
  let status ←
    if prop.status = Status.open then
      (prop.isPassed block).map fun isPassed =>
        if isPassed then Status.passed else prop.status
    else pure prop.status
  if status = Status.open then
    (prop.isRejected block).map fun isRejected =>
      if isRejected || prop.expires.isExpired block then Status.rejected
      else status
  else pure status

def updateStatus (prop : Proposal M) (block : BlockInfo) :
    Option (Proposal M) := do
  return { prop with status := ← prop.currentStatus block }

end Proposal

/-! ## The status in terms of the two decisions -/

namespace Proposal

variable {M : Type} {prop : Proposal M} {block : BlockInfo}

theorem currentStatus_of_not_open (hstatus : prop.status ≠ Status.open) :
    prop.currentStatus block = some prop.status := by
  simp [currentStatus, hstatus]

theorem currentStatus_of_isPassed (hstatus : prop.status = Status.open)
    (hpassed : prop.isPassed block = some true) :
    prop.currentStatus block = some Status.passed := by
  simp [currentStatus, hstatus, hpassed]

/-- An open proposal that does not pass is decided by the rejection and the
deadline. -/
theorem currentStatus_of_not_isPassed (hstatus : prop.status = Status.open)
    (hpassed : prop.isPassed block = some false) :
    prop.currentStatus block = (prop.isRejected block).map fun isRejected =>
      if isRejected || prop.expires.isExpired block then Status.rejected
      else Status.open := by
  simp [currentStatus, hstatus, hpassed]

theorem currentStatus_eq_none (hstatus : prop.status = Status.open)
    (hpassed : prop.isPassed block = none) :
    prop.currentStatus block = none := by
  simp [currentStatus, hstatus, hpassed]

theorem currentStatus_eq_passed_iff (hstatus : prop.status = Status.open) :
    prop.currentStatus block = some Status.passed ↔
      prop.isPassed block = some true := by
  refine ⟨fun hcurrent => ?_, currentStatus_of_isPassed hstatus⟩
  cases hpassed : prop.isPassed block with
  | none => simp [currentStatus_eq_none hstatus hpassed] at hcurrent
  | some passed =>
      cases passed with
      | true => rfl
      | false =>
          rw [currentStatus_of_not_isPassed hstatus hpassed,
            Option.map_eq_some_iff] at hcurrent
          obtain ⟨isRejected, -, hcurrent⟩ := hcurrent
          split at hcurrent <;> cases hcurrent

theorem currentStatus_eq_open_iff (hstatus : prop.status = Status.open) :
    prop.currentStatus block = some Status.open ↔
      prop.isPassed block = some false ∧ prop.isRejected block = some false ∧
        prop.expires.isExpired block = false := by
  cases hpassed : prop.isPassed block with
  | none => simp [currentStatus_eq_none hstatus hpassed]
  | some passed =>
      cases passed with
      | true => simp [currentStatus_of_isPassed hstatus hpassed]
      | false =>
          rw [currentStatus_of_not_isPassed hstatus hpassed]
          cases hrejected : prop.isRejected block with
          | none => simp
          | some rejected =>
              cases rejected <;>
                cases hexpired : prop.expires.isExpired block <;> simp

/-- An open proposal stays open, passes or is rejected. -/
theorem currentStatus_of_open {status : Status}
    (hstatus : prop.status = Status.open)
    (hcurrent : prop.currentStatus block = some status) :
    status = Status.open ∨ status = Status.passed ∨
      status = Status.rejected := by
  cases hpassed : prop.isPassed block with
  | none => simp [currentStatus_eq_none hstatus hpassed] at hcurrent
  | some passed =>
      cases passed with
      | true =>
          rw [currentStatus_of_isPassed hstatus hpassed] at hcurrent
          exact .inr (.inl (Option.some.inj hcurrent).symm)
      | false =>
          rw [currentStatus_of_not_isPassed hstatus hpassed,
            Option.map_eq_some_iff] at hcurrent
          obtain ⟨isRejected, -, rfl⟩ := hcurrent
          split
          · exact .inr (.inr rfl)
          · exact .inl rfl

theorem updateStatus_eq_some_iff {prop' : Proposal M} :
    prop.updateStatus block = some prop' ↔
      ∃ status, prop.currentStatus block = some status ∧
        prop' = { prop with status } := by
  rw [updateStatus, Option.bind_eq_bind, Option.bind_eq_some_iff]
  simp only [Option.pure_def, Option.some.injEq, eq_comm]

end Proposal

/-! ## Tallies as functions -/

/-- The weight for each option as a number. -/
def Votes.tally (votes : Votes) : Vote → ℕ
  | .yes => votes.yes.toNat
  | .no => votes.no.toNat
  | .abstain => votes.abstain.toNat
  | .veto => votes.veto.toNat

theorem sum_vote (tally : Vote → ℕ) :
    ∑ vote, tally vote =
      tally .yes + tally .no + tally .abstain + tally .veto := by
  have huniv : (Finset.univ : Finset Vote) =
      {.yes, .no, .abstain, .veto} := rfl
  rw [huniv]
  simp [add_assoc]

theorem sum_single (option : Vote) (weight : ℕ) :
    ∑ vote, (Pi.single option weight : Vote → ℕ) vote = weight := by
  simp

namespace Votes

@[simp]
theorem tally_initYes (weight : U64) :
    (initYes weight).tally = Pi.single .yes weight.toNat := by
  funext vote
  cases vote <;> simp [tally, initYes]

/-- The sum exists exactly when the tally fits into a word. -/
theorem total_of_lt {votes : Votes} (hfits : ∑ vote, votes.tally vote < 2 ^ 64) :
    votes.total = some (BitVec.ofNat 64 (∑ vote, votes.tally vote)) := by
  have hsum := toNat_ofNat_of_lt hfits
  rw [sum_vote] at hfits hsum ⊢
  simp only [tally] at hfits hsum ⊢
  rw [total, checkedAdd_of_lt (by omega), Option.bind_eq_bind,
    Option.bind_some]
  have hfirst : (BitVec.ofNat 64 (votes.yes.toNat + votes.no.toNat)).toNat =
      votes.yes.toNat + votes.no.toNat := toNat_ofNat_of_lt (by omega)
  rw [checkedAdd_of_lt (by rw [hfirst]; omega), hfirst]
  have hsecond : (BitVec.ofNat 64
      (votes.yes.toNat + votes.no.toNat + votes.abstain.toNat)).toNat =
      votes.yes.toNat + votes.no.toNat + votes.abstain.toNat :=
    toNat_ofNat_of_lt (by omega)
  rw [Option.bind_some, checkedAdd_of_lt (by rw [hsecond]; omega), hsecond]

/-- A counted vote adds its weight to its option. -/
theorem tally_addVote {votes votes' : Votes} {vote : Vote} {weight : U64}
    (hadd : votes.addVote vote weight = some votes') :
    votes'.tally = votes.tally + Pi.single vote weight.toNat := by
  funext option
  cases vote <;>
    simp only [addVote, Option.bind_eq_bind, Option.bind_eq_some_iff,
      checkedAdd_eq_some_iff, Option.pure_def, Option.some.injEq] at hadd <;>
    obtain ⟨sum, hsum, rfl⟩ := hadd <;>
    cases option <;> simp [tally, hsum]

/-- A vote can be counted whenever the tally stays within a word. -/
theorem addVote_of_lt {votes : Votes} {vote : Vote} {weight : U64}
    (hfits : ∑ option, votes.tally option + weight.toNat < 2 ^ 64) :
    ∃ votes', votes.addVote vote weight = some votes' := by
  rw [sum_vote] at hfits
  simp only [tally] at hfits
  cases vote <;>
    · simp only [addVote]
      rw [checkedAdd_of_lt (by omega)]
      exact ⟨_, rfl⟩

end Votes

end FixedMultisig
