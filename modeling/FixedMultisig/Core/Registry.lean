import Mathlib.Algebra.BigOperators.Group.Finset.Basic
import Mathlib.Algebra.Ring.Nat
import Mathlib.Data.Finset.Lattice.Fold

/-!
# Registries filled from a list

A list of entries is written into a keyed map one after the other, so of
several entries with one key the last one stays.  The list itself, added up
entry by entry, counts every entry.  This file relates the two sums: the list
counts what the map holds plus exactly the entries that were overwritten.
-/

namespace FixedMultisig.Registry

variable {A K V : Type*} [DecidableEq K] (key : A → K)

/-- The last entry of the list with the given key. -/
def lastEntry : List A → K → Option A
  | [], _ => none
  | entry :: rest, wanted =>
      match lastEntry rest wanted with
      | some later => some later
      | none => if key entry = wanted then some entry else none

def keys (entries : List A) : Finset K := (entries.map key).toFinset

/-- Writing the entries one after the other leaves the last entry of each key
over whatever the map held before. -/
theorem foldl_update (value : A → V) (entries : List A) (start : K → Option V)
    (wanted : K) :
    entries.foldl (fun map entry =>
        Function.update map (key entry) (some (value entry))) start wanted =
      ((lastEntry key entries wanted).map value).or (start wanted) := by
  induction entries generalizing start with
  | nil => rfl
  | cons entry rest ih =>
      rw [List.foldl_cons, ih, lastEntry]
      cases lastEntry key rest wanted with
      | some later => rfl
      | none =>
          by_cases hkey : key entry = wanted
          · subst hkey
            simp
          · simp [hkey, Function.update_of_ne (Ne.symm hkey)]

theorem isSome_lastEntry_iff {entries : List A} {wanted : K} :
    (lastEntry key entries wanted).isSome ↔ wanted ∈ keys key entries := by
  induction entries with
  | nil => simp [lastEntry, keys]
  | cons entry rest ih =>
      rw [lastEntry]
      cases hlast : lastEntry key rest wanted with
      | some later =>
          have hmem : wanted ∈ keys key rest := ih.1 (by simp [hlast])
          simp only [keys, List.mem_toFinset] at hmem
          simp [keys, hmem]
      | none =>
          have hmem : wanted ∉ keys key rest := fun hmem => by
            simpa [hlast] using ih.2 hmem
          simp only [keys, List.mem_toFinset] at hmem
          by_cases hkey : key entry = wanted
          · simp [keys, hkey]
          · simp [keys, hmem, hkey, Ne.symm hkey]

theorem lastEntry_eq_none {entries : List A} {wanted : K}
    (hmem : wanted ∉ keys key entries) : lastEntry key entries wanted = none := by
  rw [← Option.not_isSome_iff_eq_none, isSome_lastEntry_iff]
  exact hmem

/-- An entry whose key is not repeated is the last one of its key. -/
theorem lastEntry_of_count {entries : List A} {entry : A}
    (hmem : entry ∈ entries)
    (hcount : (entries.map key).count (key entry) ≤ 1) :
    lastEntry key entries (key entry) = some entry := by
  induction entries with
  | nil => cases hmem
  | cons first rest ih =>
      rw [List.map_cons, List.count_cons] at hcount
      rw [lastEntry]
      rcases List.mem_cons.1 hmem with rfl | hrest
      · have hnone : key entry ∉ keys key rest := by
          rw [keys, List.mem_toFinset, ← List.count_pos_iff]
          rw [beq_self_eq_true, if_pos rfl] at hcount
          omega
        rw [lastEntry_eq_none key hnone]
        simp
      · rw [ih hrest (le_trans (Nat.le_add_right _ _) hcount)]

/-- What the map holds under a key, as a weight. -/
def held (weight : A → ℕ) (entries : List A) (wanted : K) : ℕ :=
  (lastEntry key entries wanted).elim 0 weight

/-- The weight of the entries that a later entry with the same key
overwrites. -/
def overwritten (weight : A → ℕ) : List A → ℕ
  | [] => 0
  | entry :: rest =>
      (if key entry ∈ keys key rest then weight entry else 0) +
        overwritten weight rest

/-- The list counts what the map holds and what was overwritten. -/
theorem sum_held_add_overwritten (weight : A → ℕ) (entries : List A) :
    ∑ wanted ∈ keys key entries, held key weight entries wanted +
        overwritten key weight entries =
      (entries.map weight).sum := by
  induction entries with
  | nil => simp [keys, overwritten]
  | cons entry rest ih =>
      have hkeys : keys key (entry :: rest) =
          insert (key entry) (keys key rest) := by
        simp [keys, List.toFinset_cons]
      have hlater : ∑ wanted ∈ keys key rest,
            held key weight (entry :: rest) wanted =
          ∑ wanted ∈ keys key rest, held key weight rest wanted := by
        apply Finset.sum_congr rfl
        intro wanted hwanted
        obtain ⟨later, hlast⟩ := Option.isSome_iff_exists.1
          ((isSome_lastEntry_iff key).2 hwanted)
        simp [held, lastEntry, hlast]
      rw [List.map_cons, List.sum_cons, ← ih, hkeys, overwritten]
      by_cases hrepeat : key entry ∈ keys key rest
      · rw [Finset.insert_eq_of_mem hrepeat, hlater,
          if_pos hrepeat]
        omega
      · have hfirst : held key weight (entry :: rest) (key entry) =
            weight entry := by
          simp [held, lastEntry, lastEntry_eq_none key hrepeat]
        rw [Finset.sum_insert hrepeat, hlater, hfirst,
          if_neg hrepeat]
        omega

/-- The map never holds more than the list counts. -/
theorem sum_held_le (weight : A → ℕ) (entries : List A) :
    ∑ wanted ∈ keys key entries, held key weight entries wanted ≤
      (entries.map weight).sum := by
  rw [← sum_held_add_overwritten key]
  exact Nat.le_add_right _ _

/-- Nothing is lost exactly when every overwritten entry weighs nothing. -/
theorem sum_held_eq_iff (weight : A → ℕ) (entries : List A) :
    ∑ wanted ∈ keys key entries, held key weight entries wanted =
        (entries.map weight).sum ↔
      overwritten key weight entries = 0 := by
  rw [← sum_held_add_overwritten key]
  omega

end FixedMultisig.Registry
