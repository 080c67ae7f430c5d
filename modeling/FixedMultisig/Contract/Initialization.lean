import FixedMultisig.Contract.Handlers
import FixedMultisig.Core.Registry
import FixedMultisig.Core.WeightedPoll

/-!
# What `init` does

`init` accepts a message exactly when it names a voter, its weights add up
within a word and its threshold is reachable with that sum.  The voters are
then written one after the other under their addresses, so an address that is
listed more than once keeps its last weight.  The electorate of a message is
what this map holds.
-/

namespace FixedMultisig

open CheckedWord

variable {M : Type}

namespace InitMsg

/-- What the voters map holds once all voters are written. -/
def registry (msg : InitMsg) (addr : String) : Option U64 :=
  (Registry.lastEntry Voter.addr msg.voters addr).map Voter.weight

/-- The registered addresses with the weights they vote with. -/
def electorate (msg : InitMsg) : Electorate String where
  members := Registry.keys Voter.addr msg.voters
  weight := Registry.held Voter.addr (fun voter => voter.weight.toNat) msg.voters

/-- The messages that `init` accepts, with the total weight it computes. -/
structure Accepted (msg : InitMsg) (totalWeight : U64) : Prop where
  nonempty : msg.voters ≠ []
  summed : checkedSum (msg.voters.map Voter.weight) = some totalWeight
  valid : msg.threshold.Valid totalWeight.toNat

def config (msg : InitMsg) (totalWeight : U64) : Config where
  threshold := msg.threshold
  totalWeight
  maxVotingPeriod := msg.maxVotingPeriod

/-- The store that `init` leaves. -/
def initialStore (msg : InitMsg) (totalWeight : U64) : Store M where
  config := some (msg.config totalWeight)
  proposalCount := some 0
  votersList := some msg.voters
  voters := msg.registry
  proposals := fun _ => none
  ballots := fun _ _ => none

variable {msg : InitMsg}

theorem mem_electorate_iff {addr : String} :
    addr ∈ msg.electorate.members ↔ ∃ power, msg.registry addr = some power := by
  rw [← Option.isSome_iff_exists, registry, Option.isSome_map]
  exact (Registry.isSome_lastEntry_iff Voter.addr).symm

/-- A registered address votes with the weight the map holds for it. -/
theorem electorate_weight {addr : String} {power : U64}
    (hregistered : msg.registry addr = some power) :
    msg.electorate.weight addr = power.toNat := by
  rw [registry, Option.map_eq_some_iff] at hregistered
  obtain ⟨voter, hlast, rfl⟩ := hregistered
  simp [electorate, Registry.held, hlast]

/-- The members who may vote. -/
theorem mem_electorate_and_pos_iff {addr : String} :
    addr ∈ msg.electorate.members ∧ 1 ≤ msg.electorate.weight addr ↔
      ∃ power, msg.registry addr = some power ∧ 1 ≤ power := by
  rw [mem_electorate_iff]
  constructor
  · rintro ⟨⟨power, hregistered⟩, hpositive⟩
    rw [electorate_weight hregistered] at hpositive
    exact ⟨power, hregistered, BitVec.le_def.2 hpositive⟩
  · rintro ⟨power, hregistered, hpositive⟩
    rw [electorate_weight hregistered]
    exact ⟨⟨power, hregistered⟩, BitVec.le_def.1 hpositive⟩

/-- An accepted message registers somebody. -/
theorem Accepted.exists_voter {totalWeight : U64}
    (haccepted : msg.Accepted totalWeight) :
    ∃ addr power, msg.registry addr = some power := by
  obtain ⟨voter, hvoter⟩ := List.exists_mem_of_ne_nil _ haccepted.nonempty
  have hmember : voter.addr ∈ msg.electorate.members :=
    List.mem_toFinset.2 (List.mem_map_of_mem hvoter)
  exact ⟨voter.addr, mem_electorate_iff.1 hmember⟩

theorem Accepted.unique {totalWeight totalWeight' : U64}
    (haccepted : msg.Accepted totalWeight)
    (haccepted' : msg.Accepted totalWeight') : totalWeight = totalWeight' :=
  Option.some.inj (haccepted.summed.symm.trans haccepted'.summed)

theorem Accepted.toNat_totalWeight {totalWeight : U64}
    (haccepted : msg.Accepted totalWeight) :
    totalWeight.toNat =
      (msg.voters.map fun voter => voter.weight.toNat).sum := by
  rw [toNat_of_checkedSum_eq_some haccepted.summed, List.map_map]
  rfl

/-- The weight that can be cast never exceeds the configured total, repeated
addresses or not. -/
theorem Accepted.electorate_total_le {totalWeight : U64}
    (haccepted : msg.Accepted totalWeight) :
    msg.electorate.total ≤ totalWeight.toNat := by
  rw [haccepted.toNat_totalWeight]
  exact Registry.sum_held_le Voter.addr (fun voter => voter.weight.toNat) _

end InitMsg

open InitMsg

variable {msg : InitMsg}

/-- Writing the voters fills the map with the registry. -/
theorem foldl_putVoter (entries : List Voter) (store : Store M) :
    entries.foldl (fun store voter => store.putVoter voter.addr voter.weight)
        store =
      { store with
        voters := fun addr => ((Registry.lastEntry Voter.addr entries addr).map
          Voter.weight).or (store.voters addr) } := by
  induction entries generalizing store with
  | nil => rfl
  | cons voter entries ih =>
      rw [List.foldl_cons, ih]
      refine Store.ext rfl rfl rfl ?_ rfl rfl
      funext addr
      have hfold := Registry.foldl_update Voter.addr Voter.weight
        (voter :: entries) store.voters addr
      rw [List.foldl_cons, Registry.foldl_update] at hfold
      exact hfold

/-- An accepted message is stored as it is. -/
theorem init_of_accepted (env : Env) {totalWeight : U64}
    (haccepted : msg.Accepted totalWeight) :
    ∃ trace, (init env msg).run (Store.empty : Store M) =
      ⟨.ok {}, msg.initialStore totalWeight, trace⟩ := by
  have hnonempty : msg.voters.isEmpty = false := by
    simp [haccepted.nonempty]
  obtain ⟨trace, hloop⟩ := (voters (M := M)).run_forM_save_bind Voter.addr
    Voter.weight msg.voters
    (fun _ => do
      proposalCount.save 0
      return ({} : InitResponse M) : PUnit → Contract M (InitResponse M))
    (votersList.set msg.voters
      (config.set (msg.config totalWeight) (Store.empty : Store M)))
  rw [init]
  simp only [hnonempty, Bool.false_eq_true, if_false, haccepted.summed,
    Exec.run_lift_some_bind, Threshold.validate_eq_ok_iff.2 haccepted.valid,
    Exec.run_ofExcept_ok_bind, Singleton.save, Exec.run_write_bind]
  simp only [InitMsg.config, Singleton.save] at hloop
  rw [hloop]
  simp only [Exec.andThen_ok, Exec.run_write_bind, Exec.run_pure, voters_set,
    foldl_putVoter]
  refine ⟨_, congrArg (Outcome.mk _ · _) ?_⟩
  refine Store.ext rfl rfl rfl (funext fun addr => ?_) rfl rfl
  exact Option.or_none

/-- Any other message is refused or traps. -/
theorem init_of_not_accepted (env : Env)
    (haccepted : ∀ totalWeight, ¬ msg.Accepted totalWeight) :
    ∃ halt, ((init env msg).run (Store.empty : Store M)).result =
      .error halt := by
  rw [init]
  by_cases hempty : msg.voters.isEmpty = true
  · simp only [hempty, if_true, Exec.run_fail_bind]
    exact ⟨_, rfl⟩
  · simp only [hempty, Bool.false_eq_true, if_false]
    cases hsum : checkedSum (msg.voters.map Voter.weight) with
    | none => exact ⟨_, rfl⟩
    | some totalWeight =>
        rw [Exec.run_lift_some_bind]
        cases hvalid : msg.threshold.validate totalWeight with
        | error reason => exact ⟨_, rfl⟩
        | ok _ =>
            exact (haccepted totalWeight ⟨by simpa using hempty, hsum,
              Threshold.validate_eq_ok_iff.1 hvalid⟩).elim

end FixedMultisig
