import FixedMultisig.Contract.Proposal
import FixedMultisig.Core.Cells
import Mathlib.Logic.Function.Basic

/-!
# The contract's storage

The six items the contract keeps, as typed cells.  Keys are the addresses and
proposal ids themselves; how they are laid out in bytes is the business of the
storage layer.  A contract starts from the empty store.
-/

namespace FixedMultisig

structure Voter where
  addr : String
  weight : U64
  deriving DecidableEq

structure Config where
  threshold : Threshold
  totalWeight : U64
  maxVotingPeriod : Duration
  deriving DecidableEq

/-- A ballot with its vote and the weight it was cast with, stored under the
address that voted. -/
structure Ballot where
  weight : U64
  vote : Vote
  deriving DecidableEq

@[ext]
structure Store (M : Type) where
  config : Option Config
  proposalCount : Option U64
  votersList : Option (List Voter)
  voters : String → Option U64
  proposals : U64 → Option (Proposal M)
  ballots : U64 → String → Option Ballot

namespace Store

variable {M : Type}

def empty : Store M where
  config := none
  proposalCount := none
  votersList := none
  voters := fun _ => none
  proposals := fun _ => none
  ballots := fun _ _ => none

def putVoter (addr : String) (weight : U64) (store : Store M) : Store M :=
  { store with voters := Function.update store.voters addr (some weight) }

def putProposal (id : U64) (prop : Proposal M) (store : Store M) : Store M :=
  { store with proposals := Function.update store.proposals id (some prop) }

def putBallot (id : U64) (addr : String) (ballot : Ballot) (store : Store M) :
    Store M :=
  { store with
    ballots := Function.update store.ballots id
      (Function.update (store.ballots id) addr (some ballot)) }

def putCount (count : U64) (store : Store M) : Store M :=
  { store with proposalCount := some count }

section Fields

variable (id : U64) (prop : Proposal M) (addr : String) (ballot : Ballot)
variable (count : U64) (store : Store M)

@[simp]
theorem putProposal_config :
    (store.putProposal id prop).config = store.config := rfl

@[simp]
theorem putProposal_proposalCount :
    (store.putProposal id prop).proposalCount = store.proposalCount := rfl

@[simp]
theorem putProposal_votersList :
    (store.putProposal id prop).votersList = store.votersList := rfl

@[simp]
theorem putProposal_voters :
    (store.putProposal id prop).voters = store.voters := rfl

@[simp]
theorem putProposal_ballots :
    (store.putProposal id prop).ballots = store.ballots := rfl

@[simp]
theorem putProposal_proposals_self :
    (store.putProposal id prop).proposals id = some prop := by
  simp [putProposal]

theorem putProposal_proposals_of_ne {other : U64} (hother : other ≠ id) :
    (store.putProposal id prop).proposals other = store.proposals other := by
  simp [putProposal, hother]

/-- An entry that was absent is the one that was written. -/
theorem eq_of_putProposal {other : U64} {found : Proposal M}
    (hnone : store.proposals other = none)
    (hfound : (store.putProposal id prop).proposals other = some found) :
    other = id ∧ found = prop := by
  by_cases hother : other = id
  · subst hother
    rw [putProposal_proposals_self, Option.some.injEq] at hfound
    exact ⟨rfl, hfound.symm⟩
  · rw [putProposal_proposals_of_ne id prop store hother, hnone] at hfound
    cases hfound

@[simp]
theorem putBallot_config :
    (store.putBallot id addr ballot).config = store.config := rfl

@[simp]
theorem putBallot_proposalCount :
    (store.putBallot id addr ballot).proposalCount = store.proposalCount := rfl

@[simp]
theorem putBallot_votersList :
    (store.putBallot id addr ballot).votersList = store.votersList := rfl

@[simp]
theorem putBallot_voters :
    (store.putBallot id addr ballot).voters = store.voters := rfl

@[simp]
theorem putBallot_proposals :
    (store.putBallot id addr ballot).proposals = store.proposals := rfl

@[simp]
theorem putBallot_ballots_self :
    (store.putBallot id addr ballot).ballots id addr = some ballot := by
  simp [putBallot]

theorem putBallot_ballots_of_ne_addr {other : String} (hother : other ≠ addr) :
    (store.putBallot id addr ballot).ballots id other =
      store.ballots id other := by
  simp [putBallot, hother]

theorem putBallot_ballots_of_ne {other : U64} (hother : other ≠ id) :
    (store.putBallot id addr ballot).ballots other = store.ballots other := by
  simp [putBallot, hother]

@[simp]
theorem putCount_config : (store.putCount count).config = store.config := rfl

@[simp]
theorem putCount_proposalCount :
    (store.putCount count).proposalCount = some count := rfl

@[simp]
theorem putCount_votersList :
    (store.putCount count).votersList = store.votersList := rfl

@[simp]
theorem putCount_voters : (store.putCount count).voters = store.voters := rfl

@[simp]
theorem putCount_proposals :
    (store.putCount count).proposals = store.proposals := rfl

@[simp]
theorem putCount_ballots :
    (store.putCount count).ballots = store.ballots := rfl

end Fields

end Store

/-! ## Accessors -/

section Accessors

variable {M : Type}

def config : Singleton (Store M) Config where
  get store := store.config
  set cfg store := { store with config := some cfg }
  get_set _ _ := rfl

def proposalCount : Singleton (Store M) U64 where
  get store := store.proposalCount
  set count store := store.putCount count
  get_set _ _ := rfl

def votersList : Singleton (Store M) (List Voter) where
  get store := store.votersList
  set list store := { store with votersList := some list }
  get_set _ _ := rfl

def voters : Bucket (Store M) String U64 where
  get store := store.voters
  set addr weight store := store.putVoter addr weight
  get_set addr weight store := by simp [Store.putVoter]
  get_set_of_ne weight store hother := by simp [Store.putVoter, hother]

def proposals : Bucket (Store M) U64 (Proposal M) where
  get store := store.proposals
  set id prop store := store.putProposal id prop
  get_set id prop store := store.putProposal_proposals_self id prop
  get_set_of_ne prop store hother :=
    store.putProposal_proposals_of_ne _ prop hother

/-- The ballots on one proposal. -/
def ballots (id : U64) : Bucket (Store M) String Ballot where
  get store := store.ballots id
  set addr ballot store := store.putBallot id addr ballot
  get_set addr ballot store := store.putBallot_ballots_self id addr ballot
  get_set_of_ne ballot store hother :=
    store.putBallot_ballots_of_ne_addr id _ ballot hother

variable (store : Store M)

@[simp]
theorem config_get : (config (M := M)).get store = store.config := rfl

@[simp]
theorem proposalCount_get :
    (proposalCount (M := M)).get store = store.proposalCount := rfl

@[simp]
theorem voters_get : (voters (M := M)).get store = store.voters := rfl

@[simp]
theorem proposals_get : (proposals (M := M)).get store = store.proposals := rfl

@[simp]
theorem ballots_get (id : U64) :
    (ballots (M := M) id).get store = store.ballots id := rfl

@[simp]
theorem proposalCount_set (count : U64) :
    (proposalCount (M := M)).set count store = store.putCount count := rfl

@[simp]
theorem voters_set (addr : String) (weight : U64) :
    (voters (M := M)).set addr weight store = store.putVoter addr weight := rfl

@[simp]
theorem proposals_set (id : U64) (prop : Proposal M) :
    proposals.set id prop store = store.putProposal id prop := rfl

@[simp]
theorem ballots_set (id : U64) (addr : String) (ballot : Ballot) :
    (ballots (M := M) id).set addr ballot store =
      store.putBallot id addr ballot := rfl

end Accessors

end FixedMultisig
