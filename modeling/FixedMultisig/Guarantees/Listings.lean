import FixedMultisig.Guarantees.Pagination

/-!
# What the listings can show

Whatever it is asked for, the forward listing never gets beyond the thirtieth
proposal: its page size is its last id.  The backward listing shows everything
to a reader who goes on below the last id received and never asks for more than
is left.
-/

namespace FixedMultisig

open CheckedWord

variable {M : Type} {msg : InitMsg}
variable {totalWeight count : U64} {store : Store M}

/-- Everything that any forward page shows is within the first page of thirty. -/
theorem listed_iff (hledger : Ledger msg totalWeight store)
    (hcount : store.proposalCount = some count) (id : ℕ) :
    (∃ startAfter limit ids,
        Lists store (listProposals startAfter limit) ids ∧ id ∈ ids) ↔
      1 ≤ id ∧ id ≤ min 30 count.toNat := by
  have hone : (1 : U64).toNat = 1 := rfl
  constructor
  · rintro ⟨startAfter, limit, ids, hlists, hid⟩
    have hsize : pageSize limit ≤ 30 := Nat.min_le_right _ _
    by_cases hstart : 1 ≤ startAfter.getD 1
    · have hpage := listProposals_lists hledger hcount startAfter limit hstart
      rw [hlists.unique hpage, List.mem_range'_1] at hid
      have hfirst := BitVec.le_def.1 hstart
      omega
    · -- Only a cursor of zero lies below the first id.
      obtain ⟨cursor, rfl⟩ : ∃ cursor, startAfter = some cursor := by
        cases startAfter with
        | none => exact absurd (BitVec.le_refl _) hstart
        | some cursor => exact ⟨cursor, rfl⟩
      have hzero : cursor = 0 := by
        apply BitVec.eq_of_toNat_eq
        rw [Option.getD_some, BitVec.le_def, hone] at hstart
        exact Nat.lt_one_iff.1 (Nat.not_le.1 hstart)
      rw [hzero] at hlists
      exact absurd hlists
        (not_lists_of_error (listProposals_zero hledger hcount limit) ids)
  · rintro ⟨hpositive, hle⟩
    have hpage := listProposals_lists hledger hcount none (some 30)
      (BitVec.le_refl _)
    refine ⟨none, some 30, _, hpage, List.mem_range'_1.2 ⟨hpositive, ?_⟩⟩
    have hsize : pageSize (some 30) = 30 := rfl
    rw [Option.getD_none, hone, hsize]
    omega

/-- A backward page that asks for no more than is left. -/
theorem reverseProposals_page (hledger : Ledger msg totalWeight store)
    (hcount : store.proposalCount = some count) {first : U64} {limit : U32}
    (hfirst : first ≤ count) (hlimit : limit.toNat ≤ 30)
    (hleft : limit.toNat ≤ first.toNat) :
    Lists store (reverseProposals (some first) (some limit))
      (List.range' (first.toNat - limit.toNat + 1) limit.toNat).reverse := by
  have hsize : pageSize (some limit) = limit.toNat := Nat.min_eq_left hlimit
  have hcursor : (wordMin first count).toNat = first.toNat := by
    rw [toNat_wordMin, Nat.min_eq_left (BitVec.le_def.1 hfirst)]
  have hrounds : min (pageSize (some limit)) count.toNat = limit.toNat := by
    rw [hsize, Nat.min_eq_left (hleft.trans (BitVec.le_def.1 hfirst))]
  have hpage := reverseProposals_lists hledger hcount (some first) (some limit)
    (by rw [hrounds, Option.getD_some, hcursor]; exact hleft)
  rw [hrounds, Option.getD_some, hcursor, List.take_reverse, List.length_range',
    List.drop_range', Nat.mul_one, Nat.sub_sub_self hleft, Nat.add_comm 1]
    at hpage
  exact hpage

/-- A page is what the backward listing returns for its first id and its
length. -/
def IsPage (store : Store M) (page : List ℕ) : Prop :=
  ∃ (first : U64) (limit : U32), page.head? = some first.toNat ∧
    page.length = limit.toNat ∧
    Lists store (reverseProposals (some first) (some limit)) page

/-- So many ids downwards from the first one are a page. -/
theorem isPage_range' (hledger : Ledger msg totalWeight store)
    (hcount : store.proposalCount = some count) {rest length : ℕ}
    (hfirst : rest + length ≤ count.toNat) (hpositive : 1 ≤ length)
    (hlength : length ≤ 30) :
    IsPage store (List.range' (rest + 1) length).reverse := by
  have hword : (BitVec.ofNat 64 (rest + length)).toNat = rest + length :=
    toNat_ofNat_of_lt (by omega)
  have hlimit : (BitVec.ofNat 32 length).toNat = length :=
    toNat_ofNat_of_lt (by omega)
  have hpage : Lists store (reverseProposals
      (some (BitVec.ofNat 64 (rest + length)))
      (some (BitVec.ofNat 32 length))) _ :=
    reverseProposals_page hledger hcount
      (BitVec.le_def.2 (by rw [hword]; exact hfirst)) (by omega) (by omega)
  rw [hword, hlimit, Nat.add_sub_cancel] at hpage
  refine ⟨_, _, ?_, ?_, hpage⟩
  · rw [hword, List.head?_reverse, List.getLast?_range', if_neg (by omega)]
    congr 1
    omega
  · rw [hlimit, List.length_reverse, List.length_range']

/-- Everything from an id downwards comes in pages of any size, all of them full
but the last one. -/
theorem exists_pages (hledger : Ledger msg totalWeight store)
    (hcount : store.proposalCount = some count) {size : ℕ}
    (hpositive : 1 ≤ size) (hsize : size ≤ 30) {first : ℕ}
    (hfirst : first ≤ count.toNat) :
    ∃ pages : List (List ℕ), pages.flatten = (List.range' 1 first).reverse ∧
      (∀ page ∈ pages.dropLast, page.length = size) ∧
      ∀ page ∈ pages, page.length ≤ size ∧ IsPage store page := by
  induction first using Nat.strong_induction_on with
  | _ first ih =>
  rcases Nat.eq_zero_or_pos first with rfl | hsome
  · exact ⟨[], rfl, nofun, nofun⟩
  rcases Nat.lt_or_ge size first with hmore | hlast
  · -- A full page, and then everything below it.
    obtain ⟨rest, rfl⟩ := Nat.exists_eq_add_of_le' hmore.le
    obtain ⟨pages, hflatten, hfull, hpages⟩ := ih rest (by omega) (by omega)
    have hrest : pages ≠ [] := by
      rintro rfl
      have hlength := congrArg List.length hflatten
      rw [List.length_reverse, List.length_range', List.flatten_nil,
        List.length_nil] at hlength
      omega
    have hpage := isPage_range' hledger hcount hfirst hpositive hsize
    have hlength : (List.range' (rest + 1) size).reverse.length = size := by
      rw [List.length_reverse, List.length_range']
    refine ⟨(List.range' (rest + 1) size).reverse :: pages, ?_, ?_, ?_⟩
    · rw [List.flatten_cons, hflatten, ← List.reverse_append, Nat.add_comm rest 1,
        List.range'_append_1]
    · rw [List.dropLast_cons_of_ne_nil hrest, List.forall_mem_cons]
      exact ⟨hlength, hfull⟩
    · rw [List.forall_mem_cons]
      exact ⟨⟨hlength.le, hpage⟩, hpages⟩
  · -- What is left fits into one page.
    have hpage := isPage_range' hledger hcount
      ((Nat.zero_add first).le.trans hfirst) hsome (hlast.trans hsize)
    refine ⟨[(List.range' (0 + 1) first).reverse], by simp, nofun, ?_⟩
    rw [List.forall_mem_singleton, List.length_reverse, List.length_range']
    exact ⟨hlast, hpage⟩

/-- Forward pages show the first thirty proposals and no others; backward pages
of any size show all of them, each once, and only the last page is shorter. -/
theorem listings_complete {chain : Chain M}
    (hreachable : (multisig msg).Reachable chain) {count : U64}
    (hcount : chain.store.proposalCount = some count) :
    (∀ id, (∃ startAfter limit ids,
        Lists chain.store (listProposals startAfter limit) ids ∧ id ∈ ids) ↔
      1 ≤ id ∧ id ≤ min 30 count.toNat) ∧
    ∀ size, 1 ≤ size → size ≤ 30 →
      ∃ pages : List (List ℕ),
        pages.flatten = (List.range' 1 count.toNat).reverse ∧
        (∀ page ∈ pages.dropLast, page.length = size) ∧
        ∀ page ∈ pages, page.length ≤ size ∧ IsPage chain.store page := by
  obtain ⟨totalWeight, -, hledger⟩ := ledger_of_reachable hreachable
  exact ⟨listed_iff hledger hcount, fun size hpositive hsize =>
    exists_pages hledger hcount hpositive hsize le_rfl⟩

section Example

private def archive : InitMsg where
  voters := [⟨"alice", 1⟩, ⟨"bob", 1⟩]
  threshold := .absoluteCount 2
  maxVotingPeriod := .height 10

private theorem archive_accepted : archive.Accepted 2 where
  nonempty := by decide
  summed := by decide
  valid := Threshold.validate_eq_ok_iff.1 (by decide)

private def archiveChain : Chain String :=
  (Chain.deployed ⟨⟨10, 54⟩, ⟨"carol"⟩⟩ archive).replay
    [⟨⟨⟨11, 60⟩, ⟨"alice"⟩⟩, .propose "first" "description" ["send"] none⟩,
      ⟨⟨⟨12, 66⟩, ⟨"bob"⟩⟩, .propose "second" "description" ["keep"] none⟩,
      ⟨⟨⟨13, 72⟩, ⟨"bob"⟩⟩, .propose "third" "description" ["burn"] none⟩]

/-- Three proposals, all of them listed, come in a page of two and a page of
one. -/
theorem listings_complete_archive :
    (∀ id, (∃ startAfter limit ids,
        Lists archiveChain.store (listProposals startAfter limit) ids ∧
          id ∈ ids) ↔
      1 ≤ id ∧ id ≤ 3) ∧
    ∃ pages : List (List ℕ), pages.flatten = [3, 2, 1] ∧
      (∀ page ∈ pages.dropLast, page.length = 2) ∧
      ∀ page ∈ pages, page.length ≤ 2 ∧ IsPage archiveChain.store page := by
  have hcount : archiveChain.store.proposalCount = some 3 := rfl
  obtain ⟨hforward, hbackward⟩ := listings_complete
    (reachable_replay (.of_start (start_deployed _ archive_accepted))
      (by decide)) hcount
  exact ⟨hforward, hbackward 2 (by decide) (by decide)⟩

end Example

end FixedMultisig
