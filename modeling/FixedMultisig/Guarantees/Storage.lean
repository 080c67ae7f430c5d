import FixedMultisig.Chain.Multisig
import FixedMultisig.Contract.StorageKeys

/-!
# The contract in flat storage

The contract keeps all its items in one map from byte strings to byte strings.
No two items share a key, for any ids and any addresses, so a write to one is
never seen by a read of another, and the flat map represents the typed store
through every sequence of writes.  The stores of a multisig are such sequences:
`init` and every call that succeeds write items one after the other.
-/

namespace FixedMultisig

open Framing

variable {M : Type}

/-- What is in the storage of the chain. -/
abbrev RawStore := List UInt8 → Option (List UInt8)

/-- Nothing is kept before `init`. -/
theorem represents_empty (key : Item String → List UInt8)
    (encode : (item : Item String) → item.Value M → List UInt8) :
    storeSlots.Represents key encode (fun _ => none) Store.empty := by
  intro item
  cases item <;> rfl

/-- The flat storage refines the typed store.  All items have different keys;
a write or a removal under the key of one item leaves every other item as it
was; and what represents a store still does so after any writes. -/
theorem storage_refined {layout : KeyLayout}
    (hlayout : layout.LengthPrefixed)
    (encode : (item : Item String) → item.Value M → List UInt8) :
    (∀ item other : Item (List UInt8), other ≠ item →
      layout.rawKey other ≠ layout.rawKey item) ∧
    (∀ (raw : RawStore) (item other : Item (List UInt8))
        (value : Option (List UInt8)), other ≠ item →
      Function.update raw (layout.rawKey item) value (layout.rawKey other) =
        raw (layout.rawKey other)) ∧
    ∀ (raw : RawStore) (store : Store M)
        (writes : List (Σ item : Item String, item.Value M)),
      storeSlots.Represents layout.storeKey encode raw store →
      storeSlots.Represents layout.storeKey encode
        (Slots.flatWriteAll layout.storeKey encode writes raw)
        (storeSlots.writeAll writes store) := by
  have hraw := KeyLayout.rawKey_injective hlayout
  refine ⟨?_, ?_, ?_⟩
  · intro item other hother
    exact hraw.ne hother
  · intro raw item other value hother
    exact Slots.update_of_ne hraw hother raw value
  · intro raw store writes hrepresents
    apply hrepresents.writeAll
    exact KeyLayout.storeKey_injective hlayout

section Example

/-- The layout as the storage library documents it. -/
private def documented : KeyLayout where
  singleton name := frame 2 name
  bucket namespaces key := namespaces.flatMap (frame 2) ++ key

private theorem documented_lengthPrefixed : documented.LengthPrefixed where
  singleton_eq _ := rfl
  bucket_eq _ := rfl

/-- Numbers are kept as their decimal digits; nothing else is written here. -/
private def encodeDigits : (item : Item String) → item.Value String → List UInt8
  | .proposalCount, count => asBytes (toString count.toNat)
  | .voter _, weight => asBytes (toString weight.toNat)
  | _, _ => []

/-- The bytes that follow the name in the key of a ballot on proposal 1. -/
private def mimic : List UInt8 :=
  [0, 8, 1, 0, 0, 0, 0, 0, 0, 0] ++ asBytes "bob"

private def mimicWrites :
    List (Σ item : Item String, item.Value String) :=
  [⟨.voter "", (5 : U64)⟩, ⟨.voter "list_of_voters", (6 : U64)⟩,
    ⟨.proposalCount, (1 : U64)⟩]

/-- A voter whose address continues like the key of a ballot has another key
than the ballot, and addresses that are empty or the name of an item do no
harm either. -/
theorem storage_refined_mimic :
    documented.rawKey (.voter mimic) ≠
        documented.rawKey (.ballot 1 (asBytes "bob")) ∧
      storeSlots.Represents documented.storeKey encodeDigits
        (Slots.flatWriteAll documented.storeKey encodeDigits mimicWrites
          fun _ => none)
        (storeSlots.writeAll mimicWrites Store.empty) :=
  ⟨(storage_refined documented_lengthPrefixed encodeDigits).1
      (.ballot 1 (asBytes "bob")) (.voter mimic) (by decide),
    (storage_refined documented_lengthPrefixed encodeDigits).2.2 _ _
      mimicWrites (represents_empty _ _)⟩

end Example

/-! ## The writes of the contract -/

/-- The writes of `init`. -/
def InitMsg.writes (msg : InitMsg) (totalWeight : U64) :
    List (Σ item : Item String, item.Value M) :=
  [⟨.config, msg.config totalWeight⟩, ⟨.votersList, msg.voters⟩] ++
    msg.voters.map (fun voter => ⟨.voter voter.addr, voter.weight⟩) ++
    [⟨.proposalCount, (0 : U64)⟩]

theorem writeAll_voters (entries : List Voter) (store : Store M) :
    storeSlots.writeAll
        (entries.map fun voter => ⟨.voter voter.addr, voter.weight⟩) store =
      entries.foldl (fun store voter => store.putVoter voter.addr voter.weight)
        store := by
  rw [Slots.writeAll, List.foldl_map]
  rfl

theorem initialStore_eq_writeAll (msg : InitMsg) (totalWeight : U64) :
    (msg.initialStore totalWeight : Store M) =
      storeSlots.writeAll (msg.writes totalWeight) Store.empty := by
  rw [InitMsg.writes, Slots.writeAll_append, Slots.writeAll_append,
    writeAll_voters, foldl_putVoter]
  refine Store.ext rfl rfl rfl (funext fun addr => ?_) rfl rfl
  exact Option.or_none.symm

/-- What a successful call does is to write items. -/
theorem Effect.exists_writes {store store' : Store M} {env : Env}
    {msg : HandleMsg M} {response : HandleResponse M}
    (heffect : Effect store env msg store' response) :
    ∃ writes, store' = storeSlots.writeAll writes store := by
  cases heffect with
  | @propose _ _ _ _ power _ _ prop _ id henabled hprop hcount hid =>
      exact ⟨[⟨.proposalCount, id⟩, ⟨.proposal id, prop⟩,
        ⟨.ballot id env.message.sender, (⟨power, .yes⟩ : Ballot)⟩], rfl⟩
  | @vote id power vote _ prop' henabled hprop =>
      exact ⟨[⟨.ballot id env.message.sender, (⟨power, vote⟩ : Ballot)⟩,
        ⟨.proposal id, prop'⟩], rfl⟩
  | @execute id prop hstored hpassed =>
      exact ⟨[⟨.proposal id, { prop with status := Status.executed }⟩], rfl⟩
  | @close id prop henabled =>
      exact ⟨[⟨.proposal id, { prop with status := Status.rejected }⟩], rfl⟩

/-- Every store that a multisig reaches is written item by item, and the flat
storage that the same writes leave represents it. -/
theorem reachable_represented {layout : KeyLayout}
    (hlayout : layout.LengthPrefixed)
    (encode : (item : Item String) → item.Value M → List UInt8)
    {msg : InitMsg} {chain : Chain M}
    (hchain : (multisig msg).Reachable chain) :
    ∃ writes, chain.store = storeSlots.writeAll writes Store.empty ∧
      storeSlots.Represents layout.storeKey encode
        (Slots.flatWriteAll layout.storeKey encode writes fun _ => none)
        chain.store := by
  have hwritten : ∃ writes,
      chain.store = storeSlots.writeAll writes Store.empty := by
    refine hchain.invariant
      (P := fun chain => ∃ writes,
        chain.store = storeSlots.writeAll writes Store.empty) ?_ ?_
    · intro first hstart
      obtain ⟨totalWeight, -, hstore⟩ := start_cases hstart
      exact ⟨_, hstore.trans (initialStore_eq_writeAll msg totalWeight)⟩
    · rintro chain call next - ⟨writes, hstore⟩ hstep
      obtain ⟨-, -, ⟨response, -, heffect⟩ | ⟨halt, -, hsame⟩⟩ :=
        step_cases hstep
      · obtain ⟨more, hmore⟩ := heffect.exists_writes
        exact ⟨writes ++ more, by rw [hmore, hstore, Slots.writeAll_append]⟩
      · exact ⟨writes, hsame.trans hstore⟩
  obtain ⟨writes, hstore⟩ := hwritten
  rw [hstore]
  exact ⟨writes, rfl, (represents_empty _ encode).writeAll
    (KeyLayout.storeKey_injective hlayout) writes⟩

end FixedMultisig
