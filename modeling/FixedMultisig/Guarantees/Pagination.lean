import FixedMultisig.Chain.Ledger
import FixedMultisig.Contract.Queries

/-!
# Pages of proposals

What the two listings of proposals are for, as lists of ids, and what they
return.  `listProposals` takes the cursor as the first id of the page and the
page size as the last one; `reverseProposals` also starts at the cursor itself
and counts its rounds from the number of proposals alone.  Both are right for
the first page, and for a later one only where it is empty.
-/

namespace FixedMultisig

open CheckedWord

variable {M : Type} {msg : InitMsg}

/-- The page size: ten by default, and at most thirty. -/
def pageSize (limit : Option U32) : ℕ :=
  min ((limit.map BitVec.toNat).getD 10) 30

/-- The ids after the cursor, in ascending order. -/
def forwardPage (count : ℕ) (startAfter : Option U64) (limit : Option U32) :
    List ℕ :=
  let cursor := (startAfter.map BitVec.toNat).getD 0
  List.range' (cursor + 1) (min count (cursor + pageSize limit) - cursor)

/-- The largest ids below the cursor, in descending order. -/
def reversePage (count : ℕ) (startBefore : Option U64) (limit : Option U32) :
    List ℕ :=
  let cursor := (startBefore.map BitVec.toNat).getD (count + 1)
  ((List.range' 1 count).filter fun id => id < cursor).reverse.take
    (pageSize limit)

/-- The listing returns exactly the proposals with these ids in this order,
each as `queryProposal` returns it. -/
def Lists (store : Store M) (listing : Contract M (ProposalListResponse M))
    (ids : List ℕ) : Prop :=
  ∃ listed, (listing.run store).result = .ok ⟨listed⟩ ∧
    List.Forall₂ (Shows store) ids listed

/-- A listing returns one list of ids only. -/
theorem Lists.unique {store : Store M}
    {listing : Contract M (ProposalListResponse M)} {ids ids' : List ℕ}
    (hlists : Lists store listing ids) (hlists' : Lists store listing ids') :
    ids = ids' := by
  obtain ⟨listed, hok, hshows⟩ := hlists
  obtain ⟨listed', hok', hshows'⟩ := hlists'
  have hsame : listed = listed' :=
    (ProposalListResponse.mk.injEq _ _).mp
      (Except.ok.inj (hok.symm.trans hok'))
  rw [ids_eq_of_shows hshows, ids_eq_of_shows hshows', hsame]

theorem Lists.iff_eq {store : Store M}
    {listing : Contract M (ProposalListResponse M)} {ids ids' : List ℕ}
    (hlists : Lists store listing ids) :
    Lists store listing ids' ↔ ids = ids' :=
  ⟨hlists.unique, fun heq => heq ▸ hlists⟩

theorem not_lists_of_error {store : Store M}
    {listing : Contract M (ProposalListResponse M)} {halt : Halt StdError}
    (herror : (listing.run store).result = .error halt) (ids : List ℕ) :
    ¬ Lists store listing ids := by
  rintro ⟨listed, hok, -⟩
  rw [herror] at hok
  cases hok

theorem toNat_bound (limit : Option U32) (count : U64) :
    (wordMin (pageLimit limit) count).toNat =
      min (pageSize limit) count.toNat := by
  rw [toNat_wordMin, toNat_pageLimit, pageSize]

/-- The ids that a listing loads are stored, as its bound is cut to the
count. -/
theorem isSome_of_le_wordMin {totalWeight count : U64} {store : Store M}
    (hledger : Ledger msg totalWeight store)
    (hcount : store.proposalCount = some count) {bound id : U64}
    (hid : 1 ≤ id) (hle : id ≤ wordMin bound count) :
    (store.proposals id).isSome := by
  rw [BitVec.le_def, toNat_wordMin] at hle
  apply (hledger.isSome_iff hcount id).2
  exact ⟨hid, BitVec.le_def.2 (hle.trans (Nat.min_le_right _ _))⟩

section Forward

variable {totalWeight count : U64} {store : Store M}

/-- A cursor of zero is loaded, and there is no proposal with this id. -/
theorem listProposals_zero (hledger : Ledger msg totalWeight store)
    (hcount : store.proposalCount = some count) (limit : Option U32) :
    ((listProposals (some 0) limit).run store).result =
      .error (.error .notFound) := by
  rw [listProposals, Singleton.run_load_bind hcount, Exec.run_bind]
  simp only [Option.getD_some]
  rw [run_listProposalsFrom_missing [] (BitVec.le_def.2 (Nat.zero_le _))
    hledger.proposals_zero, Exec.andThen_error]

/-- Any other cursor starts the page, and the page size ends it. -/
theorem listProposals_lists (hledger : Ledger msg totalWeight store)
    (hcount : store.proposalCount = some count) (startAfter : Option U64)
    (limit : Option U32) (hstart : 1 ≤ startAfter.getD 1) :
    Lists store (listProposals startAfter limit)
      (List.range' (startAfter.getD 1).toNat
        (min (pageSize limit) count.toNat + 1 -
          (startAfter.getD 1).toNat)) := by
  have hbound := toNat_bound limit count
  have hsize : pageSize limit ≤ 30 := Nat.min_le_right _ _
  have hlimit : (wordMin (pageLimit limit) count).toNat < 2 ^ 64 - 1 := by
    omega
  obtain ⟨listed, hrun, hshows⟩ := run_listProposalsFrom hlimit
    (startAfter.getD 1) [] fun id hid hle =>
      isSome_of_le_wordMin hledger hcount (BitVec.le_trans hstart hid) hle
  rw [hbound] at hshows
  refine ⟨listed, ?_, hshows⟩
  rw [listProposals, Singleton.run_load_bind hcount, Exec.run_bind, hrun]
  rfl

/-- A reader who follows the last id of the first page gets that id back, on
this page and on every later one. -/
theorem listProposals_last (hledger : Ledger msg totalWeight store)
    (hcount : store.proposalCount = some count) {last : U64}
    {limit : Option U32} (hlast : last.toNat = min (pageSize limit) count.toNat)
    (hpositive : 1 ≤ last) :
    Lists store (listProposals (some last) limit) [last.toNat] := by
  have hlists :=
    listProposals_lists hledger hcount (some last) limit hpositive
  rwa [Option.getD_some, ← hlast, Nat.add_sub_cancel_left] at hlists

/-- Two intervals that start one apart agree only where both are empty. -/
private theorem range'_eq_range'_succ_iff {start length length' : ℕ} :
    List.range' start length = List.range' (start + 1) length' ↔
      length = 0 ∧ length' = 0 := by
  cases length <;> cases length' <;> simp [List.range'_succ]

/-- `listProposals` returns the page it is asked for exactly on the first page
and where the page is empty and the cursor lies beyond the bound of the
loop. -/
theorem listProposals_iff {chain : Chain M}
    (hreachable : (multisig msg).Reachable chain) {count : U64}
    (hcount : chain.store.proposalCount = some count)
    (startAfter : Option U64) (limit : Option U32) :
    Lists chain.store (listProposals startAfter limit)
        (forwardPage count.toNat startAfter limit) ↔
      startAfter = none ∨ ∃ cursor, startAfter = some cursor ∧
        min (pageSize limit) count.toNat < cursor.toNat ∧
        (count.toNat ≤ cursor.toNat ∨ pageSize limit = 0) := by
  obtain ⟨totalWeight, haccepted, hledger⟩ := ledger_of_reachable hreachable
  cases startAfter with
  | none =>
      have hlists : Lists chain.store (listProposals none limit) _ :=
        listProposals_lists hledger hcount none limit (BitVec.le_refl 1)
      rw [hlists.iff_eq]
      simp [forwardPage, Nat.min_comm]
  | some cursor =>
      simp only [reduceCtorEq, Option.some.injEq, false_or, exists_eq_left']
      by_cases hzero : cursor = 0
      · subst hzero
        have hnot := not_lists_of_error (listProposals_zero hledger hcount limit)
          (forwardPage count.toNat (some 0) limit)
        have hword : (0 : U64).toNat = 0 := rfl
        rw [iff_false_left hnot, hword]
        omega
      · have hstart : 1 ≤ (some cursor).getD 1 := by
          have hone : (1 : U64).toNat = 1 := rfl
          have hne : cursor.toNat ≠ 0 := fun h =>
            hzero (BitVec.eq_of_toNat_eq h)
          rw [Option.getD_some, BitVec.le_def, hone]
          omega
        rw [(listProposals_lists hledger hcount _ limit hstart).iff_eq]
        simp only [Option.getD_some, forwardPage, Option.map_some]
        rw [range'_eq_range'_succ_iff]
        omega

end Forward

section Backward

variable {totalWeight count : U64} {store : Store M}

/-- The backward listing makes as many rounds as the page has room for and
there are proposals, from the cursor or the latest proposal on. -/
theorem run_reverseProposals (hcount : store.proposalCount = some count)
    (startBefore : Option U64) (limit : Option U32) :
    (reverseProposals startBefore limit).run store =
      Exec.andThen ((reverseProposalsFrom (min (pageSize limit) count.toNat)
          (wordMin (startBefore.getD count) count) []).run store)
        fun listed => pure ⟨listed⟩ := by
  have hone : (1 : U64).toNat = 1 := rfl
  have hbound := toNat_bound limit count
  have hsize : pageSize limit ≤ 30 := Nat.min_le_right _ _
  obtain ⟨next, hnext⟩ : ∃ next,
      checkedAdd (wordMin (pageLimit limit) count) 1 = some next :=
    ⟨_, checkedAdd_of_lt (by omega)⟩
  have hsum := checkedAdd_eq_some_iff.1 hnext
  have hrounds : next.toNat - 1 = min (pageSize limit) count.toNat := by
    omega
  rw [reverseProposals, Singleton.run_load_bind hcount, hnext,
    Exec.run_lift_some_bind, hrounds]
  rfl

theorem reverseProposals_lists (hledger : Ledger msg totalWeight store)
    (hcount : store.proposalCount = some count) (startBefore : Option U64)
    (limit : Option U32)
    (hrounds : min (pageSize limit) count.toNat ≤
      (wordMin (startBefore.getD count) count).toNat) :
    Lists store (reverseProposals startBefore limit)
      ((List.range' 1 (wordMin (startBefore.getD count) count).toNat).reverse.take
        (min (pageSize limit) count.toNat)) := by
  obtain ⟨listed, hrun, hshows⟩ := run_reverseProposalsFrom hrounds []
    fun id hid hle => isSome_of_le_wordMin hledger hcount hid hle
  refine ⟨listed, ?_, hshows⟩
  rw [run_reverseProposals hcount, hrun]
  rfl

/-- With too few proposals below the cursor the listing fails. -/
theorem reverseProposals_missing (hledger : Ledger msg totalWeight store)
    (hcount : store.proposalCount = some count) {startBefore : Option U64}
    {limit : Option U32}
    (hrounds : (wordMin (startBefore.getD count) count).toNat <
      min (pageSize limit) count.toNat) :
    ((reverseProposals startBefore limit).run store).result =
      .error (.error .notFound) := by
  rw [run_reverseProposals hcount, run_reverseProposalsFrom_missing hrounds []
    hledger.proposals_zero fun id hid hle =>
      isSome_of_le_wordMin hledger hcount hid hle]
  rfl

/-- A cursor beyond the latest proposal asks for the latest ones. -/
theorem reversePage_of_lt {count : ℕ} {startBefore : Option U64}
    {limit : Option U32}
    (hcursor : count < (startBefore.map BitVec.toNat).getD (count + 1)) :
    reversePage count startBefore limit =
      (List.range' 1 count).reverse.take (min (pageSize limit) count) := by
  have hall : (List.range' 1 count).filter
      (fun id => id < (startBefore.map BitVec.toNat).getD (count + 1)) =
        List.range' 1 count := by
    apply List.filter_eq_self.2
    intro id hid
    have hmem := List.mem_range'_1.1 hid
    exact decide_eq_true (by omega)
  rw [reversePage, hall, List.take_eq_take_iff]
  simp

/-- Every id of the page lies below the cursor. -/
theorem lt_of_mem_reversePage {count id : ℕ} {cursor : U64}
    {limit : Option U32} (hid : id ∈ reversePage count (some cursor) limit) :
    id < cursor.toNat := by
  have hmem := List.mem_reverse.1 (List.mem_of_mem_take hid)
  exact of_decide_eq_true (List.mem_filter.1 hmem).2

/-- The walk shows the id that it begins with. -/
private theorem mem_take_reverse_range' {start rounds : ℕ} (hstart : 0 < start)
    (hrounds : 0 < rounds) :
    start ∈ (List.range' 1 start).reverse.take rounds := by
  obtain ⟨start, rfl⟩ := Nat.exists_eq_add_of_lt hstart
  obtain ⟨rounds, rfl⟩ := Nat.exists_eq_add_of_lt hrounds
  rw [List.range'_concat, List.reverse_append, List.reverse_singleton,
    List.singleton_append, List.take_succ_cons, List.mem_cons]
  exact .inl (by omega)

/-- `reverseProposals` returns the page it is asked for exactly when the cursor
lies beyond the latest proposal or nothing is asked for. -/
theorem reverseProposals_iff {chain : Chain M}
    (hreachable : (multisig msg).Reachable chain) {count : U64}
    (hcount : chain.store.proposalCount = some count)
    (startBefore : Option U64) (limit : Option U32) :
    Lists chain.store (reverseProposals startBefore limit)
        (reversePage count.toNat startBefore limit) ↔
      count.toNat < (startBefore.map BitVec.toNat).getD (count.toNat + 1) ∨
        pageSize limit = 0 ∨ count.toNat = 0 := by
  obtain ⟨totalWeight, haccepted, hledger⟩ := ledger_of_reachable hreachable
  by_cases hcursor :
      count.toNat < (startBefore.map BitVec.toNat).getD (count.toNat + 1)
  · -- The walk begins at the latest proposal.
    have hstart : (wordMin (startBefore.getD count) count).toNat =
        count.toNat := by
      rw [toNat_wordMin]
      cases startBefore with
      | none => simp
      | some cursor =>
          simp only [Option.map_some, Option.getD_some] at hcursor ⊢
          omega
    have hlists := reverseProposals_lists hledger hcount startBefore limit
      (by omega)
    rw [hstart] at hlists
    simp only [hcursor, true_or, iff_true]
    rw [hlists.iff_eq, reversePage_of_lt hcursor]
  · cases startBefore with
    | none => simp at hcursor
    | some cursor =>
        simp only [Option.map_some, Option.getD_some, not_lt] at hcursor ⊢
        have hstart : (wordMin cursor count).toNat = cursor.toNat := by
          rw [toNat_wordMin]
          omega
        simp only [Nat.not_lt.2 hcursor, false_or]
        by_cases hrounds : min (pageSize limit) count.toNat ≤ cursor.toNat
        · have hlists := reverseProposals_lists hledger hcount (some cursor)
            limit (by rwa [Option.getD_some, hstart])
          rw [hlists.iff_eq, Option.getD_some, hstart]
          constructor
          · intro hids
            by_contra hsome
            have hmem := mem_take_reverse_range' (by omega : 0 < cursor.toNat)
              (by omega : 0 < min (pageSize limit) count.toNat)
            rw [hids] at hmem
            exact absurd (lt_of_mem_reversePage hmem) (Nat.lt_irrefl _)
          · rintro (hsize | hempty)
            · simp [reversePage, hsize]
            · simp [reversePage, hempty]
        · have hnot := not_lists_of_error (reverseProposals_missing hledger
            hcount (by
              rwa [Option.getD_some, hstart, ← Nat.not_le]))
            (reversePage count.toNat (some cursor) limit)
          rw [iff_false_left hnot]
          omega

end Backward

section Example

private def diarist : InitMsg where
  voters := [⟨"alice", 1⟩, ⟨"bob", 1⟩]
  threshold := .absoluteCount 2
  maxVotingPeriod := .height 10

private theorem diarist_accepted : diarist.Accepted 2 where
  nonempty := by decide
  summed := by decide
  valid := Threshold.validate_eq_ok_iff.1 (by decide)

private def diaristCalls : List (Call String) :=
  [⟨⟨⟨11, 60⟩, ⟨"alice"⟩⟩, .propose "first" "description" ["send"] none⟩,
    ⟨⟨⟨12, 66⟩, ⟨"alice"⟩⟩, .propose "second" "description" ["send"] none⟩]

private def diaristChain : Chain String :=
  (Chain.deployed ⟨⟨10, 54⟩, ⟨"carol"⟩⟩ diarist).replay diaristCalls

private theorem diaristChain_reachable :
    (multisig diarist).Reachable diaristChain :=
  reachable_replay (.of_start (start_deployed _ diarist_accepted)) (by decide)

private theorem diaristChain_count :
    diaristChain.store.proposalCount = some 2 := rfl

private theorem diaristChain_ledger : Ledger diarist 2 diaristChain.store :=
  ledger_of_accepted diarist_accepted diaristChain_reachable

/-- The first page of one proposal. -/
theorem listProposals_diarist :
    Lists diaristChain.store (listProposals none (some 1))
      (forwardPage 2 none (some 1)) :=
  (listProposals_iff diaristChain_reachable diaristChain_count none
    (some 1)).2 (.inl rfl)

/-- The second page of one proposal is the first one again. -/
theorem second_page_repeats :
    (multisig diarist).Reachable diaristChain ∧
      diaristChain.store.proposalCount = some 2 ∧
      forwardPage 2 (some 1) (some 1) = [2] ∧
      Lists diaristChain.store (listProposals (some 1) (some 1)) [1] ∧
      ¬ Lists diaristChain.store (listProposals (some 1) (some 1)) [2] := by
  have hlists : Lists diaristChain.store (listProposals (some 1) (some 1)) [1] :=
    listProposals_last diaristChain_ledger diaristChain_count (by decide)
      (BitVec.le_refl 1)
  refine ⟨diaristChain_reachable, diaristChain_count, rfl, hlists, ?_⟩
  rw [hlists.iff_eq]
  decide

/-- The latest proposal. -/
theorem reverseProposals_diarist :
    Lists diaristChain.store (reverseProposals none (some 1))
      (reversePage 2 none (some 1)) :=
  (reverseProposals_iff diaristChain_reachable diaristChain_count none
    (some 1)).2 (.inl (by decide))

/-- Below the first proposal there is nothing to list, but the listing fails;
and below the second one it returns the second one again. -/
theorem reverse_page_fails :
    (multisig diarist).Reachable diaristChain ∧
      diaristChain.store.proposalCount = some 2 ∧
      reversePage 2 (some 1) none = [] ∧
      ((reverseProposals (some 1) none).run diaristChain.store).result =
        .error (.error .notFound) ∧
      ¬ Lists diaristChain.store (reverseProposals (some 1) none) [] ∧
      reversePage 2 (some 2) (some 1) = [1] ∧
      Lists diaristChain.store (reverseProposals (some 2) (some 1)) [2] := by
  have herror : ((reverseProposals (some 1) none).run
      diaristChain.store).result = .error (.error .notFound) :=
    reverseProposals_missing diaristChain_ledger diaristChain_count (by decide)
  exact ⟨diaristChain_reachable, diaristChain_count, rfl, herror,
    not_lists_of_error herror [], rfl,
    reverseProposals_lists diaristChain_ledger diaristChain_count (some 2)
      (some 1) (by decide)⟩

end Example

end FixedMultisig
