import FixedMultisig.Contract.Store
import FixedMultisig.Core.FlatStore
import FixedMultisig.Core.Framing

/-!
# The storage keys

Where the six items are kept in the flat storage of the chain.  The storage
library puts the length of a name before it: a singleton is kept under its
framed name, an entry of a bucket under its framed namespaces followed by its
own key, which is raw.  Addresses are not validated, so that raw key can be any
byte string; the names alone must keep the items apart.
-/

namespace FixedMultisig

open Framing

/-- The bytes of a text. -/
def asBytes (text : String) : List UInt8 := text.toUTF8.data.toList

/-- The eight bytes of an id, the lowest first. -/
def toLeBytes (id : U64) : List UInt8 := bytesLE 8 id.toNat

def configKey : List UInt8 := asBytes "config"

def proposalCountKey : List UInt8 := asBytes "proposal_count"

def ballotsKey : List UInt8 := asBytes "votes"

def proposalsKey : List UInt8 := asBytes "proposals"

def votersKey : List UInt8 := asBytes "voters"

def votersListKey : List UInt8 := asBytes "list_of_voters"

/-- How the storage library forms the key of a singleton from its name, and the
key of a bucket's entry from the namespaces and the key of the item. -/
structure KeyLayout where
  singleton : List UInt8 → List UInt8
  bucket : List (List UInt8) → List UInt8 → List UInt8

/-- The documented layout: names and namespaces of at most 65535 bytes stand
behind their length in two big-endian bytes. -/
structure KeyLayout.LengthPrefixed (layout : KeyLayout) : Prop where
  singleton_eq : ∀ {name}, name.length < 256 ^ 2 →
    layout.singleton name = frame 2 name
  bucket_eq : ∀ {namespaces key}, (∀ name ∈ namespaces, name.length < 256 ^ 2) →
    layout.bucket namespaces key = namespaces.flatMap (frame 2) ++ key

/-- One item of the contract's storage, with addresses of type `A`. -/
inductive Item (A : Type) where
  | config
  | proposalCount
  | votersList
  | voter (addr : A)
  | proposal (id : U64)
  | ballot (id : U64) (addr : A)
  deriving DecidableEq

/-- The key under which an item is kept. -/
def KeyLayout.rawKey (layout : KeyLayout) : Item (List UInt8) → List UInt8
  | .config => layout.singleton configKey
  | .proposalCount => layout.singleton proposalCountKey
  | .votersList => layout.singleton votersListKey
  | .voter addr => layout.bucket [votersKey] addr
  | .proposal id => layout.bucket [proposalsKey] (toLeBytes id)
  | .ballot id addr => layout.bucket [ballotsKey, toLeBytes id] addr

/-! ## No two items share a key -/

theorem asBytes_injective : Function.Injective asBytes := by
  intro text text' heq
  apply String.toByteArray_inj.1
  apply ByteArray.ext
  exact Array.toList_inj.1 heq

theorem length_toLeBytes_lt (id : U64) : (toLeBytes id).length < 256 ^ 2 := by
  rw [toLeBytes, length_bytesLE]
  decide

theorem toLeBytes_injective : Function.Injective toLeBytes := by
  intro id id' heq
  apply BitVec.eq_of_toNat_eq
  exact bytesLE_inj id.isLt id'.isLt heq

namespace Item

variable {A : Type}

/-- The name in the first frame of the item's key. -/
def name : Item A → String
  | config => "config"
  | proposalCount => "proposal_count"
  | votersList => "list_of_voters"
  | voter _ => "voters"
  | proposal _ => "proposals"
  | ballot _ _ => "votes"

/-- What follows the first frame. -/
def suffix : Item (List UInt8) → List UInt8
  | config | proposalCount | votersList => []
  | voter addr => addr
  | proposal id => toLeBytes id
  | ballot id addr => frame 2 (toLeBytes id) ++ addr

theorem length_name_lt (item : Item A) :
    (asBytes item.name).length < 256 ^ 2 := by
  cases item <;> simp only [name] <;> decide

/-- An item is determined by the two parts of its key; a ballot's suffix is taken
apart at the end of the framed id. -/
theorem eq_of_name_of_suffix {item item' : Item (List UInt8)}
    (hname : item.name = item'.name) (hsuffix : item.suffix = item'.suffix) :
    item = item' := by
  cases item <;> cases item' <;> simp only [name, String.reduceEq] at hname
  case config.config | proposalCount.proposalCount | votersList.votersList =>
    rfl
  case voter.voter addr addr' => exact congrArg voter hsuffix
  case proposal.proposal id id' =>
    exact congrArg proposal (toLeBytes_injective hsuffix)
  case ballot.ballot id addr id' addr' =>
    obtain ⟨hid, haddr⟩ := frame_append_inj (length_toLeBytes_lt id)
      (length_toLeBytes_lt id') hsuffix
    rw [toLeBytes_injective hid, haddr]

/-- The item with its address in bytes. -/
def inBytes : Item String → Item (List UInt8)
  | config => config
  | proposalCount => proposalCount
  | votersList => votersList
  | voter addr => voter (asBytes addr)
  | proposal id => proposal id
  | ballot id addr => ballot id (asBytes addr)

theorem inBytes_injective : Function.Injective inBytes := by
  intro item item' heq
  cases item <;> cases item' <;>
    simp_all [inBytes, asBytes_injective.eq_iff]

end Item

namespace KeyLayout

variable {layout : KeyLayout}

theorem rawKey_eq (hlayout : layout.LengthPrefixed)
    (item : Item (List UInt8)) :
    layout.rawKey item = frame 2 (asBytes item.name) ++ item.suffix := by
  have hname := item.length_name_lt
  cases item with
  | config =>
      rw [Item.suffix, List.append_nil]
      exact hlayout.singleton_eq hname
  | proposalCount =>
      rw [Item.suffix, List.append_nil]
      exact hlayout.singleton_eq hname
  | votersList =>
      rw [Item.suffix, List.append_nil]
      exact hlayout.singleton_eq hname
  | voter addr =>
      have hvoters : votersKey.length < 256 ^ 2 := hname
      rw [rawKey, hlayout.bucket_eq (List.forall_mem_singleton.2 hvoters)]
      rfl
  | proposal id =>
      have hproposals : proposalsKey.length < 256 ^ 2 := hname
      rw [rawKey, hlayout.bucket_eq (List.forall_mem_singleton.2 hproposals)]
      rfl
  | ballot id addr =>
      have hballots : ballotsKey.length < 256 ^ 2 := hname
      rw [rawKey, hlayout.bucket_eq (List.forall_mem_cons.2
        ⟨hballots, List.forall_mem_singleton.2 (length_toLeBytes_lt id)⟩)]
      simp [Item.name, Item.suffix, ballotsKey]

/-- The frames of the names keep the items apart, whatever the addresses. -/
theorem rawKey_injective (hlayout : layout.LengthPrefixed) :
    Function.Injective layout.rawKey := by
  intro item item' heq
  rw [rawKey_eq hlayout, rawKey_eq hlayout] at heq
  obtain ⟨hname, hsuffix⟩ :=
    frame_append_inj item.length_name_lt item'.length_name_lt heq
  exact Item.eq_of_name_of_suffix (asBytes_injective hname) hsuffix

/-- The key of an item under its address. -/
def storeKey (layout : KeyLayout) (item : Item String) : List UInt8 :=
  layout.rawKey item.inBytes

theorem storeKey_injective (hlayout : layout.LengthPrefixed) :
    Function.Injective layout.storeKey :=
  (rawKey_injective hlayout).comp Item.inBytes_injective

end KeyLayout

/-! ## The store as slots -/

section Slots

variable {M : Type}

/-- What is kept in an item. -/
def Item.Value (M : Type) : Item String → Type
  | .config => Config
  | .proposalCount => U64
  | .votersList => List Voter
  | .voter _ => U64
  | .proposal _ => Proposal M
  | .ballot _ _ => Ballot

def readItem (store : Store M) : (item : Item String) → Option (item.Value M)
  | .config => config.get store
  | .proposalCount => proposalCount.get store
  | .votersList => votersList.get store
  | .voter addr => voters.get store addr
  | .proposal id => proposals.get store id
  | .ballot id addr => (ballots id).get store addr

def writeItem : (item : Item String) → item.Value M → Store M → Store M
  | .config, cfg, store => config.set cfg store
  | .proposalCount, count, store => proposalCount.set count store
  | .votersList, list, store => votersList.set list store
  | .voter addr, weight, store => voters.set addr weight store
  | .proposal id, prop, store => proposals.set id prop store
  | .ballot id addr, ballot, store => (ballots id).set addr ballot store

theorem readItem_writeItem (item : Item String) (value : item.Value M)
    (store : Store M) : readItem (writeItem item value store) item = some value := by
  cases item with
  | config => exact config.get_set value store
  | proposalCount => exact proposalCount.get_set value store
  | votersList => exact votersList.get_set value store
  | voter addr => exact voters.get_set addr value store
  | proposal id => exact proposals.get_set id value store
  | ballot id addr => exact (ballots id).get_set addr value store

/-- The accessors of different fields do not meet, and those of one field keep
its entries apart. -/
theorem readItem_writeItem_of_ne {item other : Item String} (value : item.Value M)
    (store : Store M) (hother : other ≠ item) :
    readItem (writeItem item value store) other = readItem store other := by
  cases item <;> cases other <;> try rfl
  case config.config | proposalCount.proposalCount | votersList.votersList =>
    exact absurd rfl hother
  case voter.voter addr addr' =>
    exact voters.get_set_of_ne value store fun h => hother (congrArg _ h)
  case proposal.proposal id id' =>
    exact proposals.get_set_of_ne value store fun h => hother (congrArg _ h)
  case ballot.ballot id addr id' addr' =>
    by_cases hid : id' = id
    · subst hid
      exact (ballots id').get_set_of_ne value store
        fun h => hother (congrArg _ h)
    · have hballots := store.putBallot_ballots_of_ne id addr value hid
      exact congrFun hballots addr'

/-- The store as one slot for each item. -/
def storeSlots : Slots (Item String) (Item.Value M) (Store M) where
  read := readItem
  write := writeItem
  read_write := readItem_writeItem
  read_write_of_ne := readItem_writeItem_of_ne

end Slots

end FixedMultisig
