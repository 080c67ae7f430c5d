import FixedMultisig.Contract.Decimal

/-!
# Thresholds

The three ways in which a tally can decide a proposal, the errors of the
contract with their texts, and the check that a threshold is reachable.
`Threshold.Valid` is the outcome of that check in plain numbers.
-/

namespace FixedMultisig

/-- The errors a call returns.  A load of a missing item is reported by the
storage layer as `notFound`. -/
inductive StdError where
  | genericErr (msg : String)
  | notFound
  deriving DecidableEq

inductive ThresholdError where
  | invalidThreshold
  | zeroQuorumThreshold
  | unreachableQuorumThreshold
  | zeroWeight
  | unreachableWeight
  deriving DecidableEq

def ThresholdError.toString : ThresholdError → String
  | invalidThreshold =>
      "Invalid voting threshold percentage, must be in the 0.5-1.0 range"
  | zeroQuorumThreshold => "Required quorum threshold cannot be zero"
  | unreachableQuorumThreshold =>
      "Not possible to reach required quorum threshold"
  | zeroWeight => "Required weight cannot be zero"
  | unreachableWeight => "Not possible to reach required (passing) weight"

inductive ContractError where
  | noVoters
  | unauthorized
  | notOpen
  | expired
  | notExpired
  | wrongExpiration
  | alreadyVoted
  | wrongExecuteStatus
  | wrongCloseStatus
  deriving DecidableEq

def ContractError.toString : ContractError → String
  | noVoters => "No voters"
  | unauthorized => "Unauthorized"
  | notOpen => "Proposal is not open"
  | expired => "Proposal voting period has expired"
  | notExpired => "Proposal must expire before you can close it"
  | wrongExpiration => "Wrong expiration option"
  | alreadyVoted => "Already voted on this proposal"
  | wrongExecuteStatus => "Proposal must have passed and not yet been executed"
  | wrongCloseStatus => "Cannot close completed or passed proposals"

def ThresholdError.toStdError (reason : ThresholdError) : StdError :=
  .genericErr reason.toString

def ContractError.toStdError (reason : ContractError) : StdError :=
  .genericErr reason.toString

/-- Different errors of the contract have different texts. -/
theorem ContractError.toStdError_injective :
    Function.Injective ContractError.toStdError := by
  intro first second heq
  cases first <;> cases second <;>
    first
      | rfl
      | exact absurd heq (by simp [ContractError.toStdError,
          ContractError.toString])

inductive Threshold where
  | absoluteCount (weight : U64)
  | absolutePercentage (percentage : Decimal)
  | thresholdQuorum (threshold quorum : Decimal)
  deriving DecidableEq

/-- The percentage must lie between one half and one. -/
def validThreshold (percent : Decimal) : Except StdError Unit :=
  if Decimal.percent 100 < percent ∨ percent < Decimal.percent 50 then
    .error ThresholdError.invalidThreshold.toStdError
  else .ok ()

/-- The percentage must be positive and at most one. -/
def validQuorum (percent : Decimal) : Except StdError Unit :=
  if percent.isZero then
    .error ThresholdError.zeroQuorumThreshold.toStdError
  else if Decimal.one < percent then
    .error ThresholdError.unreachableQuorumThreshold.toStdError
  else .ok ()

namespace Threshold

/-- An error if the threshold is unreachable with this total weight. -/
def validate (threshold : Threshold) (totalWeight : U64) :
    Except StdError Unit :=
  match threshold with
  | absoluteCount weightNeeded =>
      if weightNeeded = 0 then .error ThresholdError.zeroWeight.toStdError
      else if totalWeight < weightNeeded then
        .error ThresholdError.unreachableWeight.toStdError
      else .ok ()
  | absolutePercentage percentageNeeded => validThreshold percentageNeeded
  | thresholdQuorum threshold quorum => do
      validThreshold threshold
      validQuorum quorum

/-! ## The check in plain numbers -/

/-- A percentage of at least one half and at most one. -/
def Majority (percentage : Decimal) : Prop :=
  1000000000000000000 ≤ 2 * percentage.atomics.toNat ∧
    percentage.atomics.toNat ≤ 1000000000000000000

/-- A percentage above zero and at most one. -/
def Quorate (percentage : Decimal) : Prop :=
  0 < percentage.atomics.toNat ∧
    percentage.atomics.toNat ≤ 1000000000000000000

def Valid (threshold : Threshold) (totalWeight : ℕ) : Prop :=
  match threshold with
  | absoluteCount weight => 0 < weight.toNat ∧ weight.toNat ≤ totalWeight
  | absolutePercentage percentage => Majority percentage
  | thresholdQuorum threshold quorum => Majority threshold ∧ Quorate quorum

/-- A guarded check succeeds when its guard is off and the rest succeeds. -/
private theorem ite_error_eq_ok_iff {E A : Type*} {guard : Prop}
    [Decidable guard] {reason : E} {rest : Except E A} {value : A} :
    (if guard then .error reason else rest) = .ok value ↔
      ¬ guard ∧ rest = .ok value := by
  split <;> simp [*]

theorem validThreshold_eq_ok_iff {percent : Decimal} :
    validThreshold percent = .ok () ↔ Majority percent := by
  have hhundred : (100 : U64).toNat = 100 := rfl
  have hfifty : (50 : U64).toNat = 50 := rfl
  rw [validThreshold, ite_error_eq_ok_iff, and_iff_left rfl, Majority,
    Decimal.lt_iff, Decimal.lt_iff, toNat_percent, toNat_percent, hhundred,
    hfifty]
  omega

theorem validQuorum_eq_ok_iff {percent : Decimal} :
    validQuorum percent = .ok () ↔ Quorate percent := by
  have hzero : percent.isZero ↔ percent.atomics.toNat = 0 := by
    rw [Decimal.isZero, beq_iff_eq, ← BitVec.toNat_inj]
    rfl
  rw [validQuorum, ite_error_eq_ok_iff, ite_error_eq_ok_iff,
    and_iff_left rfl, hzero, Quorate, Decimal.lt_iff, toNat_one_atomics]
  omega

theorem validate_eq_ok_iff {threshold : Threshold} {totalWeight : U64} :
    threshold.validate totalWeight = .ok () ↔
      threshold.Valid totalWeight.toNat := by
  cases threshold with
  | absoluteCount weight =>
      have hzero : weight = 0 ↔ weight.toNat = 0 := by
        rw [← BitVec.toNat_inj]
        rfl
      rw [validate, ite_error_eq_ok_iff, ite_error_eq_ok_iff,
        and_iff_left rfl, hzero, Valid, BitVec.lt_def]
      omega
  | absolutePercentage percentage => exact validThreshold_eq_ok_iff
  | thresholdQuorum threshold quorum =>
      rw [validate, Valid, ← validThreshold_eq_ok_iff, ← validQuorum_eq_ok_iff]
      cases validThreshold threshold with
      | error reason => simp [bind, Except.bind]
      | ok _ => simp [bind, Except.bind]

end Threshold

end FixedMultisig
