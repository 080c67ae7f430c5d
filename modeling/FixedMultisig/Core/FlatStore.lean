import Mathlib.Logic.Function.Basic

/-!
# Typed slots inside a flat store

A store with typed slots is kept in a flat one, which maps keys to raw values.
Each slot has a key, and a value is encoded before it is kept.  If no two slots
share a key, every write to a slot is a write to one key, and the flat store
keeps on representing the typed one through any sequence of writes.
-/

namespace FixedMultisig

universe u v w

/-- Typed slots of a store.  A write is read back and changes no other slot. -/
structure Slots (I : Type u) (V : I → Type v) (S : Type w) where
  read : S → (slot : I) → Option (V slot)
  write : (slot : I) → V slot → S → S
  read_write : ∀ slot value store,
    read (write slot value store) slot = some value
  read_write_of_ne : ∀ {slot other} value store, other ≠ slot →
    read (write slot value store) other = read store other

namespace Slots

variable {I : Type u} {V : I → Type v} {S : Type w} {K B : Type*}

/-- A sequence of writes, the first one first. -/
def writeAll (slots : Slots I V S) (writes : List (Σ slot, V slot))
    (store : S) : S :=
  writes.foldl (fun store entry => slots.write entry.1 entry.2 store) store

theorem writeAll_append (slots : Slots I V S)
    (before after : List (Σ slot, V slot)) (store : S) :
    slots.writeAll (before ++ after) store =
      slots.writeAll after (slots.writeAll before store) :=
  List.foldl_append

/-- The same sequence of writes on the flat store. -/
def flatWriteAll [DecidableEq K] (key : I → K)
    (encode : (slot : I) → V slot → B) (writes : List (Σ slot, V slot))
    (flat : K → Option B) : K → Option B :=
  writes.foldl (fun flat entry =>
    Function.update flat (key entry.1) (some (encode entry.1 entry.2))) flat

/-- Under the key of each slot, the flat store holds its encoded value. -/
def Represents (slots : Slots I V S) (key : I → K)
    (encode : (slot : I) → V slot → B) (flat : K → Option B)
    (store : S) : Prop :=
  ∀ slot, flat (key slot) = (slots.read store slot).map (encode slot)

variable [DecidableEq K] {slots : Slots I V S} {key : I → K}
variable {encode : (slot : I) → V slot → B} {flat : K → Option B} {store : S}

/-- A write to one slot is not seen under the key of another. -/
theorem update_of_ne (hkey : Function.Injective key) {slot other : I}
    (hother : other ≠ slot) (flat : K → Option B) (value : Option B) :
    Function.update flat (key slot) value (key other) = flat (key other) :=
  Function.update_of_ne (hkey.ne hother) _ _

theorem Represents.write (hkey : Function.Injective key)
    (hrepresents : slots.Represents key encode flat store) (slot : I)
    (value : V slot) :
    slots.Represents key encode
      (Function.update flat (key slot) (some (encode slot value)))
      (slots.write slot value store) := by
  intro other
  by_cases hother : other = slot
  · subst hother
    rw [Function.update_self, slots.read_write, Option.map_some]
  · rw [update_of_ne hkey hother, slots.read_write_of_ne _ _ hother]
    exact hrepresents other

/-- The flat store represents the typed one through all writes. -/
theorem Represents.writeAll (hkey : Function.Injective key)
    (hrepresents : slots.Represents key encode flat store)
    (writes : List (Σ slot, V slot)) :
    slots.Represents key encode (flatWriteAll key encode writes flat)
      (slots.writeAll writes store) := by
  induction writes generalizing flat store with
  | nil => exact hrepresents
  | cons entry writes ih =>
      exact ih (hrepresents.write hkey entry.1 entry.2)

end Slots

end FixedMultisig
