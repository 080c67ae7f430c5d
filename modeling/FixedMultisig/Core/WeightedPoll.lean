import Mathlib.Algebra.BigOperators.Pi
import Mathlib.Algebra.BigOperators.Group.Finset.Sigma
import Mathlib.Algebra.Order.BigOperators.Group.Finset
import Mathlib.Algebra.Ring.Nat
import Mathlib.Data.Fintype.Option

/-!
# Weighted polls

What a voting component is for, with no machine in sight: a finite electorate
whose members have weights, and a poll in which each member has chosen at most
one option.  A poll carries the proof that only members have chosen, so an
outsider's ballot cannot be built.  The tally of an option is the weight of
the members who chose it, and the weights that are cast never exceed the
weight of the electorate.
-/

namespace FixedMultisig

structure Electorate (V : Type*) where
  members : Finset V
  weight : V → ℕ

def Electorate.total {V : Type*} (electorate : Electorate V) : ℕ :=
  ∑ voter ∈ electorate.members, electorate.weight voter

theorem Electorate.weight_le_total {V : Type*} (electorate : Electorate V)
    {voter : V} (hmember : voter ∈ electorate.members) :
    electorate.weight voter ≤ electorate.total :=
  Finset.single_le_sum (fun _ _ => Nat.zero_le _) hmember

/-- One member and everybody else with a positive weight make up the
electorate. -/
theorem Electorate.weight_add_sum_others {V : Type*} [DecidableEq V]
    (electorate : Electorate V) {voter : V}
    (hmember : voter ∈ electorate.members) {others : List V}
    (hdistinct : others.Nodup)
    (hothers : ∀ other, other ∈ others ↔
      other ≠ voter ∧ other ∈ electorate.members ∧
        1 ≤ electorate.weight other) :
    electorate.weight voter + (others.map electorate.weight).sum =
      electorate.total := by
  rw [Electorate.total, ← Finset.add_sum_erase _ _ hmember,
    ← List.sum_toFinset _ hdistinct]
  congr 1
  apply Finset.sum_subset
  · intro other hother
    obtain ⟨hne, hmem, -⟩ := (hothers other).1 (List.mem_toFinset.1 hother)
    exact Finset.mem_erase.2 ⟨hne, hmem⟩
  · intro other hother hmissing
    obtain ⟨hne, hmem⟩ := Finset.mem_erase.1 hother
    by_contra hweight
    exact hmissing (List.mem_toFinset.2
      ((hothers other).2 ⟨hne, hmem, Nat.pos_of_ne_zero hweight⟩))

structure Poll {V : Type*} (electorate : Electorate V) (O : Type*) where
  cast : V → Option O
  mem_of_cast : ∀ {voter option}, cast voter = some option →
    voter ∈ electorate.members

namespace Poll

variable {V O : Type*} [DecidableEq V] [DecidableEq O]
variable {electorate : Electorate V}

omit [DecidableEq V] [DecidableEq O] in
theorem eq_of_cast {poll poll' : Poll electorate O}
    (hcast : poll.cast = poll'.cast) : poll = poll' := by
  cases poll
  cases poll'
  cases hcast
  rfl

/-- The poll in which nobody has chosen yet. -/
def empty : Poll electorate O where
  cast := fun _ => none
  mem_of_cast := fun h => nomatch h

/-- A member chooses an option. -/
def record (poll : Poll electorate O) {voter : V}
    (hmember : voter ∈ electorate.members) (option : O) :
    Poll electorate O where
  cast := Function.update poll.cast voter (some option)
  mem_of_cast := by
    intro other choice hchoice
    by_cases hother : other = voter
    · exact hother ▸ hmember
    · rw [Function.update_of_ne hother] at hchoice
      exact poll.mem_of_cast hchoice

omit [DecidableEq O] in
@[simp]
theorem record_cast_self (poll : Poll electorate O) {voter : V}
    (hmember : voter ∈ electorate.members) (option : O) :
    (poll.record hmember option).cast voter = some option := by
  simp [record]

omit [DecidableEq O] in
theorem record_cast_of_ne (poll : Poll electorate O) {voter other : V}
    (hmember : voter ∈ electorate.members) (option : O)
    (hother : other ≠ voter) :
    (poll.record hmember option).cast other = poll.cast other := by
  simp [record, hother]

def tally (poll : Poll electorate O) (option : O) : ℕ :=
  ∑ voter ∈ electorate.members with poll.cast voter = some option,
    electorate.weight voter

/-- How many members have chosen. -/
def turnout (poll : Poll electorate O) : ℕ :=
  {voter ∈ electorate.members | (poll.cast voter).isSome}.card

omit [DecidableEq V] [DecidableEq O] in
theorem turnout_le (poll : Poll electorate O) :
    poll.turnout ≤ electorate.members.card :=
  Finset.card_filter_le _ _

omit [DecidableEq O] in
/-- A first choice of a member raises the turnout by one. -/
theorem turnout_record (poll : Poll electorate O) {voter : V}
    (hmember : voter ∈ electorate.members)
    (hfresh : poll.cast voter = none) (option : O) :
    (poll.record hmember option).turnout = poll.turnout + 1 := by
  have habsent : voter ∉
      ({other ∈ electorate.members | (poll.cast other).isSome} : Finset V) := by
    simp [hfresh]
  rw [turnout, turnout, ← Finset.card_insert_of_notMem habsent]
  congr 1
  ext other
  rw [Finset.mem_insert, Finset.mem_filter, Finset.mem_filter]
  by_cases hother : other = voter
  · subst hother
    simp [hmember]
  · rw [poll.record_cast_of_ne hmember option hother]
    simp [hother]

omit [DecidableEq V] in
@[simp]
theorem tally_empty : (empty : Poll electorate O).tally = 0 := by
  funext option
  simp [tally, empty]

omit [DecidableEq V] in
/-- The tally is determined by the choices. -/
theorem tally_congr {electorate' : Electorate V}
    (helectorate : electorate = electorate') {poll : Poll electorate O}
    {poll' : Poll electorate' O} (hcast : poll.cast = poll'.cast) :
    poll.tally = poll'.tally := by
  subst helectorate
  rw [eq_of_cast hcast]

/-- A first choice of a member adds the member's weight to the chosen option
and changes no other option. -/
theorem tally_record (poll : Poll electorate O) {voter : V}
    (hmember : voter ∈ electorate.members)
    (hfresh : poll.cast voter = none) (option : O) :
    (poll.record hmember option).tally =
      poll.tally + Pi.single option (electorate.weight voter) := by
  funext choice
  simp only [tally, Pi.add_apply, Finset.sum_filter]
  rw [← Finset.add_sum_erase _ _ hmember, ← Finset.add_sum_erase _ _ hmember]
  have hothers : ∀ other ∈ electorate.members.erase voter,
      (if (poll.record hmember option).cast other = some choice
        then electorate.weight other else 0) =
      if poll.cast other = some choice then electorate.weight other else 0 := by
    intro other hother
    rw [poll.record_cast_of_ne hmember option (Finset.ne_of_mem_erase hother)]
  rw [Finset.sum_congr rfl hothers]
  simp only [record_cast_self, hfresh, Option.some.injEq, Pi.single_apply,
    reduceCtorEq, if_false, eq_comm]
  omega

omit [DecidableEq V] in
/-- Members who chose the same option are part of its tally. -/
theorem exists_tally_eq_single_add (poll : Poll electorate O)
    {bloc : Finset V} {option : O}
    (hbloc : ∀ voter ∈ bloc, poll.cast voter = some option) :
    ∃ part : O → ℕ, poll.tally =
      Pi.single option (∑ voter ∈ bloc, electorate.weight voter) + part := by
  refine ⟨poll.tally - Pi.single option _, funext fun choice =>
    (Nat.add_sub_cancel' ?_).symm⟩
  by_cases hchoice : choice = option
  · subst hchoice
    rw [Pi.single_eq_same]
    apply Finset.sum_le_sum_of_subset
    intro voter hvoter
    exact Finset.mem_filter.2
      ⟨poll.mem_of_cast (hbloc voter hvoter), hbloc voter hvoter⟩
  · rw [Pi.single_eq_of_ne hchoice]
    exact Nat.zero_le _

/-- Two tallies of one electorate that exceed it together have a voter in
common. -/
theorem exists_common (poll poll' : Poll electorate O) {option option' : O}
    (hexceed : electorate.total < poll.tally option + poll'.tally option') :
    ∃ voter, poll.cast voter = some option ∧
      poll'.cast voter = some option' := by
  by_contra hnone
  have hdisjoint : Disjoint
      {voter ∈ electorate.members | poll.cast voter = some option}
      {voter ∈ electorate.members | poll'.cast voter = some option'} := by
    rw [Finset.disjoint_left]
    intro voter hvoter hvoter'
    exact hnone ⟨voter, (Finset.mem_filter.1 hvoter).2,
      (Finset.mem_filter.1 hvoter').2⟩
  apply hexceed.not_ge
  rw [tally, tally, ← Finset.sum_union hdisjoint]
  apply Finset.sum_le_sum_of_subset
  exact Finset.union_subset (Finset.filter_subset _ _)
    (Finset.filter_subset _ _)

variable [Fintype O]

omit [DecidableEq V] in
/-- Every cast weight is counted under exactly one option. -/
theorem sum_tally (poll : Poll electorate O) :
    ∑ option, poll.tally option =
      ∑ voter ∈ electorate.members with (poll.cast voter).isSome,
        electorate.weight voter := by
  simp only [tally, Finset.sum_filter]
  rw [Finset.sum_comm]
  apply Finset.sum_congr rfl
  intro voter _
  cases hcast : poll.cast voter with
  | none => simp
  | some option => simp

/-- The weight already cast and the weight of further distinct members who
have not chosen yet fit into the electorate together. -/
theorem sum_tally_add_le (poll : Poll electorate O) {voters : List V}
    (hnodup : voters.Nodup)
    (hmembers : ∀ voter ∈ voters, voter ∈ electorate.members)
    (hfresh : ∀ voter ∈ voters, poll.cast voter = none) :
    ∑ option, poll.tally option + (voters.map electorate.weight).sum ≤
      electorate.total := by
  rw [sum_tally, ← List.sum_toFinset _ hnodup, ← Finset.sum_union]
  · apply Finset.sum_le_sum_of_subset
    intro voter hvoter
    simp only [Finset.mem_union, Finset.mem_filter, List.mem_toFinset] at hvoter
    rcases hvoter with hvoter | hvoter
    · exact hvoter.1
    · exact hmembers voter hvoter
  · rw [Finset.disjoint_left]
    intro voter hcast hlist
    rw [List.mem_toFinset] at hlist
    simp [hfresh voter hlist] at hcast

theorem sum_tally_le (poll : Poll electorate O) :
    ∑ option, poll.tally option ≤ electorate.total := by
  simpa using poll.sum_tally_add_le List.nodup_nil (by simp) (by simp)

end Poll

end FixedMultisig
