import FixedMultisig.Contract.Handlers

/-!
# Queries

The read-only side of the contract.  A query returns what the last call has
saved: a status may be out of date, and the listings read the store item by
item.  The two listings of proposals walk over ids from a cursor; each loop is
kept as the source has it, with its own start and its own bound.
-/

namespace FixedMultisig

open CheckedWord

abbrev U32 := BitVec 32

inductive ThresholdResponse where
  | absoluteCount (weight totalWeight : U64)
  | absolutePercentage (percentage : Decimal) (totalWeight : U64)
  | thresholdQuorum (threshold quorum : Decimal) (totalWeight : U64)
  deriving DecidableEq

/-- The threshold together with the total weight it is applied to. -/
def Threshold.toResponse (threshold : Threshold) (totalWeight : U64) :
    ThresholdResponse :=
  match threshold with
  | absoluteCount weight => .absoluteCount weight totalWeight
  | absolutePercentage percentage => .absolutePercentage percentage totalWeight
  | thresholdQuorum threshold quorum =>
      .thresholdQuorum threshold quorum totalWeight

structure ProposalResponse (M : Type) where
  id : U64
  title : String
  description : String
  msgs : List M
  status : Status
  expires : Expiration
  threshold : ThresholdResponse

structure ProposalListResponse (M : Type) where
  proposals : List (ProposalResponse M)

/-- The vote, the weight counted, and the address of the voter. -/
structure VoteInfo where
  proposalId : U64
  voter : String
  vote : Vote
  weight : U64
  deriving DecidableEq

structure VoteResponse where
  vote : Option VoteInfo
  deriving DecidableEq

structure VoteListResponse where
  votes : List VoteInfo
  deriving DecidableEq

structure VoterResponse where
  weight : Option U64
  deriving DecidableEq

structure VoterListResponse where
  voters : List Voter
  deriving DecidableEq

inductive QueryMsg where
  | threshold
  | proposal (proposalId : U64)
  | vote (proposalId : U64) (voter : String)
  | listProposals (startAfter : Option U64) (limit : Option U32)
  | reverseProposals (startBefore : Option U64) (limit : Option U32)
  | listVotes (proposalId : U64) (startAfter : Option String)
      (limit : Option U32)
  | voter (address : String)
  | listVoters (startAfter : Option String) (limit : Option U32)
  deriving DecidableEq

/-- The answers of `query`, before they are serialized. -/
inductive QueryResponse (M : Type) where
  | threshold (response : ThresholdResponse)
  | proposal (response : ProposalResponse M)
  | vote (response : VoteResponse)
  | proposals (response : ProposalListResponse M)
  | votes (response : VoteListResponse)
  | voter (response : VoterResponse)
  | voters (response : VoterListResponse)

variable {M : Type}

/-- A stored proposal as the queries show it, with the status of its last
save. -/
def Proposal.toResponse (prop : Proposal M) (id : U64) : ProposalResponse M where
  id
  title := prop.title
  description := prop.description
  msgs := prop.msgs
  status := prop.status
  expires := prop.expires
  threshold := prop.threshold.toResponse prop.totalWeight

def queryThreshold : Contract M ThresholdResponse := do
  let cfg ← config.load StdError.notFound
  return cfg.threshold.toResponse cfg.totalWeight

def queryProposal (id : U64) : Contract M (ProposalResponse M) := do
  let prop ← proposals.load StdError.notFound id
  return prop.toResponse id

def maxLimit : U32 := 30

def defaultLimit : U32 := 10

/-- The page size: the one asked for or the default, and never more than the
maximum. -/
def pageLimit (limit : Option U32) : U64 :=
  (wordMin (limit.getD defaultLimit) maxLimit).setWidth 64

/-- `while i <= limit`: load, push, and go on with `i + 1`. -/
def listProposalsFrom (limit i : U64) (listed : List (ProposalResponse M)) :
    Contract M (List (ProposalResponse M)) :=
  if _hle : i ≤ limit then do
    let prop ← proposals.load StdError.notFound i
    match _hnext : checkedAdd i 1 with
    | none => Exec.lift none
    | some next => listProposalsFrom limit next (listed ++ [prop.toResponse i])
  else pure listed
termination_by limit.toNat + 1 - i.toNat
decreasing_by
  have hsum := checkedAdd_eq_some_iff.1 _hnext
  have hone : (1 : U64).toNat = 1 := rfl
  have hbound := BitVec.le_def.1 _hle
  omega

def listProposals (startAfter : Option U64) (limit : Option U32) :
    Contract M (ProposalListResponse M) := do
  let latestProp ← proposalCount.load StdError.notFound
  let limit := wordMin (pageLimit limit) latestProp
  let start := startAfter.getD 1
  let listed ← listProposalsFrom limit start []
  return { proposals := listed }

/-- The body of `for _n in 1..limit`, for the given number of rounds: load,
push, and go on with `i - 1`. -/
def reverseProposalsFrom :
    (rounds : ℕ) → (i : U64) → (listed : List (ProposalResponse M)) →
      Contract M (List (ProposalResponse M))
  | 0, _, listed => pure listed
  | rounds + 1, i, listed => do
      let prop ← proposals.load StdError.notFound i
      let next ← Exec.lift (checkedSub i 1)
      reverseProposalsFrom rounds next (listed ++ [prop.toResponse i])

def reverseProposals (startBefore : Option U64) (limit : Option U32) :
    Contract M (ProposalListResponse M) := do
  let latestProp ← proposalCount.load StdError.notFound
  let limit ← Exec.lift (checkedAdd (wordMin (pageLimit limit) latestProp) 1)
  let start := wordMin (startBefore.getD latestProp) latestProp
  let listed ← reverseProposalsFrom (limit.toNat - 1) start []
  return { proposals := listed }

def queryVote (proposalId : U64) (voter : String) : Contract M VoteResponse := do
  let ballot ← (ballots proposalId).mayLoad voter
  return {
    vote := ballot.map fun ballot =>
      { proposalId, voter, vote := ballot.vote, weight := ballot.weight } }

/-- The loop over the voters list: a voter with a ballot is listed with the
vote of the ballot and the weight of the list. -/
def listVotesFrom (proposalId : U64) :
    List Voter → List VoteInfo → Contract M (List VoteInfo)
  | [], votes => pure votes
  | voter :: voters, votes => do
      match ← (ballots proposalId).mayLoad voter.addr with
      | some ballot =>
          let voteInfo : VoteInfo :=
            { proposalId
              voter := voter.addr
              vote := ballot.vote
              weight := voter.weight }
          listVotesFrom proposalId voters (votes ++ [voteInfo])
      | none => listVotesFrom proposalId voters votes

/-- Neither the cursor nor the limit is used. -/
def listVotes (proposalId : U64) (_startAfter : Option String)
    (_limit : Option U32) : Contract M VoteListResponse := do
  let voters ← votersList.load StdError.notFound
  let votes ← listVotesFrom proposalId voters []
  return { votes }

def queryVoter (voter : String) : Contract M VoterResponse := do
  let weight ← voters.mayLoad voter
  return { weight }

/-- Neither the cursor nor the limit is used. -/
def listVoters (_startAfter : Option String) (_limit : Option U32) :
    Contract M VoterListResponse := do
  let voters ← votersList.load StdError.notFound
  return { voters }

def query (msg : QueryMsg) : Contract M (QueryResponse M) :=
  match msg with
  | .threshold => .threshold <$> queryThreshold
  | .proposal proposalId => .proposal <$> queryProposal proposalId
  | .vote proposalId voter => .vote <$> queryVote proposalId voter
  | .listProposals startAfter limit =>
      .proposals <$> listProposals startAfter limit
  | .reverseProposals startBefore limit =>
      .proposals <$> reverseProposals startBefore limit
  | .listVotes proposalId startAfter limit =>
      .votes <$> listVotes proposalId startAfter limit
  | .voter address => .voter <$> queryVoter address
  | .listVoters startAfter limit => .voters <$> listVoters startAfter limit

/-! ## Answers -/

section Answers

variable {store : Store M}

theorem toNat_pageLimit (limit : Option U32) :
    (pageLimit limit).toNat = min ((limit.map BitVec.toNat).getD 10) 30 := by
  have hmax : maxLimit.toNat = 30 := rfl
  have hlimit : (limit.getD defaultLimit).toNat =
      (limit.map BitVec.toNat).getD 10 := by
    cases limit <;> rfl
  rw [pageLimit, BitVec.toNat_setWidth, toNat_wordMin, hlimit, hmax]
  omega

theorem queryProposal_ok_iff {id : U64} {response : ProposalResponse M} :
    ((queryProposal id).run store).result = .ok response ↔
      ∃ prop, store.proposals id = some prop ∧
        response = prop.toResponse id := by
  rw [queryProposal]
  cases hstored : store.proposals id with
  | none =>
      rw [Bucket.run_load_bind_missing hstored]
      simp
  | some prop =>
      rw [Bucket.run_load_bind hstored]
      simp [eq_comm]

theorem queryVote_ok_iff {id : U64} {voter : String} {response : VoteResponse} :
    ((queryVote id voter).run store).result = .ok response ↔
      response.vote = (store.ballots id voter).map fun ballot =>
        ⟨id, voter, ballot.vote, ballot.weight⟩ := by
  rw [queryVote, Bucket.run_mayLoad_bind, ballots_get, Exec.run_pure]
  obtain ⟨vote⟩ := response
  simp [eq_comm]

/-- The response is what `queryProposal` returns for the id. -/
def Shows (store : Store M) (id : ℕ) (response : ProposalResponse M) : Prop :=
  ∃ word : U64, word.toNat = id ∧
    ((queryProposal word).run store).result = .ok response

theorem shows_of_stored {word : U64} {prop : Proposal M}
    (hstored : store.proposals word = some prop) :
    Shows store word.toNat (prop.toResponse word) :=
  ⟨word, rfl, queryProposal_ok_iff.2 ⟨prop, hstored, rfl⟩⟩

/-- A response names the id it was loaded from. -/
theorem Shows.id_eq {id : ℕ} {response : ProposalResponse M}
    (hshows : Shows store id response) : id = response.id.toNat := by
  obtain ⟨word, rfl, hok⟩ := hshows
  obtain ⟨prop, -, rfl⟩ := queryProposal_ok_iff.1 hok
  rfl

/-- A listing shows one list of ids only. -/
theorem ids_eq_of_shows {ids : List ℕ} {listed : List (ProposalResponse M)}
    (hshows : List.Forall₂ (Shows store) ids listed) :
    ids = listed.map fun response => response.id.toNat := by
  induction hshows with
  | nil => rfl
  | cons hfirst _ ih => rw [List.map_cons, ← ih, hfirst.id_eq]

theorem listProposalsFrom_of_lt {limit i : U64}
    (listed : List (ProposalResponse M)) (hlt : limit < i) :
    listProposalsFrom limit i listed = pure listed := by
  rw [listProposalsFrom, dif_neg (BitVec.not_le.2 hlt)]

theorem run_listProposalsFrom_missing {limit i : U64}
    (listed : List (ProposalResponse M)) (hle : i ≤ limit)
    (hnone : store.proposals i = none) :
    (listProposalsFrom limit i listed).run store =
      ⟨.error (.error .notFound), store, []⟩ := by
  rw [listProposalsFrom, dif_pos hle, Bucket.run_load_bind_missing hnone]

/-- One round of the forward loop. -/
theorem run_listProposalsFrom_step {limit i next : U64}
    (listed : List (ProposalResponse M)) {prop : Proposal M} (hle : i ≤ limit)
    (hprop : store.proposals i = some prop)
    (hnext : checkedAdd i 1 = some next) :
    (listProposalsFrom limit i listed).run store =
      (listProposalsFrom limit next (listed ++ [prop.toResponse i])).run
        store := by
  rw [listProposalsFrom, dif_pos hle, Bucket.run_load_bind hprop]
  split
  · next hnone =>
      rw [hnext] at hnone
      cases hnone
  · next next' hsome =>
      obtain rfl := Option.some.inj (hnext.symm.trans hsome)
      rfl

/-- The forward loop lists everything from the index to the limit. -/
theorem run_listProposalsFrom {limit : U64}
    (hlimit : limit.toNat < 2 ^ 64 - 1) (i : U64)
    (listed : List (ProposalResponse M))
    (hstored : ∀ id, i ≤ id → id ≤ limit → (store.proposals id).isSome) :
    ∃ rest, (listProposalsFrom limit i listed).run store =
        ⟨.ok (listed ++ rest), store, []⟩ ∧
      List.Forall₂ (Shows store)
        (List.range' i.toNat (limit.toNat + 1 - i.toNat)) rest := by
  -- By induction on the number of rounds that are left.
  induction hrounds : limit.toNat + 1 - i.toNat generalizing i listed with
  | zero =>
      have hlt : limit < i := BitVec.lt_def.2 (by omega)
      refine ⟨[], ?_, .nil⟩
      rw [listProposalsFrom_of_lt _ hlt, List.append_nil, Exec.run_pure]
  | succ rounds ih =>
      have hle : i ≤ limit := BitVec.le_def.2 (by omega)
      have hone : (1 : U64).toNat = 1 := rfl
      obtain ⟨next, hnext⟩ : ∃ next, checkedAdd i 1 = some next :=
        ⟨_, checkedAdd_of_lt (by omega)⟩
      have hsum := checkedAdd_eq_some_iff.1 hnext
      rw [hone] at hsum
      obtain ⟨prop, hprop⟩ := Option.isSome_iff_exists.1
        (hstored i (BitVec.le_refl i) hle)
      have hlater : ∀ id, next ≤ id → id ≤ limit →
          (store.proposals id).isSome := fun id hid =>
        hstored id (BitVec.le_def.2 (by
          have := BitVec.le_def.1 hid
          omega))
      obtain ⟨rest, hrun, hshows⟩ := ih next (listed ++ [prop.toResponse i])
        hlater (by omega)
      refine ⟨prop.toResponse i :: rest, ?_, ?_⟩
      · rw [run_listProposalsFrom_step listed hle hprop hnext, hrun,
          List.append_assoc, List.singleton_append]
      · rw [List.range'_succ, hsum]
        exact .cons (shows_of_stored hprop) hshows

/-- The backward loop lists downwards from the index, as long as there are
enough ids below it. -/
theorem run_reverseProposalsFrom {rounds : ℕ} {i : U64}
    (hrounds : rounds ≤ i.toNat) (listed : List (ProposalResponse M))
    (hstored : ∀ id, 1 ≤ id → id ≤ i → (store.proposals id).isSome) :
    ∃ rest, (reverseProposalsFrom rounds i listed).run store =
        ⟨.ok (listed ++ rest), store, []⟩ ∧
      List.Forall₂ (Shows store)
        ((List.range' 1 i.toNat).reverse.take rounds) rest := by
  induction rounds generalizing i listed with
  | zero =>
      refine ⟨[], ?_, .nil⟩
      rw [reverseProposalsFrom, List.append_nil, Exec.run_pure]
  | succ rounds ih =>
      have hone : (1 : U64).toNat = 1 := rfl
      obtain ⟨next, hnext⟩ : ∃ next, checkedSub i 1 = some next :=
        ⟨_, checkedSub_of_le (by omega)⟩
      have hdifference := checkedSub_eq_some_iff.1 hnext
      rw [hone] at hdifference
      obtain ⟨prop, hprop⟩ := Option.isSome_iff_exists.1
        (hstored i (BitVec.le_def.2 (by omega)) (BitVec.le_refl i))
      have hlower : ∀ id, 1 ≤ id → id ≤ next → (store.proposals id).isSome :=
        fun id hid hle => hstored id hid (BitVec.le_def.2 (by
          have := BitVec.le_def.1 hle
          omega))
      obtain ⟨rest, hrun, hshows⟩ := ih (by omega)
        (listed ++ [prop.toResponse i]) hlower
      refine ⟨prop.toResponse i :: rest, ?_, ?_⟩
      · rw [reverseProposalsFrom, Bucket.run_load_bind hprop, hnext,
          Exec.run_lift_some_bind, hrun, List.append_assoc,
          List.singleton_append]
      · have hids : (List.range' 1 i.toNat).reverse =
            i.toNat :: (List.range' 1 next.toNat).reverse := by
          rw [hdifference, List.range'_concat, List.reverse_append,
            List.reverse_singleton, List.singleton_append]
          congr 1
          omega
        rw [hids, List.take_succ_cons]
        exact .cons (shows_of_stored hprop) hshows

/-- With more rounds than ids the backward loop walks past the first id and
fails on the load of id zero. -/
theorem run_reverseProposalsFrom_missing {rounds : ℕ} {i : U64}
    (hrounds : i.toNat < rounds) (listed : List (ProposalResponse M))
    (hzero : store.proposals 0 = none)
    (hstored : ∀ id, 1 ≤ id → id ≤ i → (store.proposals id).isSome) :
    (reverseProposalsFrom rounds i listed).run store =
      ⟨.error (.error .notFound), store, []⟩ := by
  induction rounds generalizing i listed with
  | zero => exact absurd hrounds (Nat.not_lt_zero _)
  | succ rounds ih =>
      rw [reverseProposalsFrom]
      by_cases hlast : i = 0
      · rw [Bucket.run_load_bind_missing (by rw [hlast]; exact hzero)]
      · have hone : (1 : U64).toNat = 1 := rfl
        have hpositive : 0 < i.toNat := Nat.pos_of_ne_zero fun h =>
          hlast (BitVec.eq_of_toNat_eq h)
        obtain ⟨next, hnext⟩ : ∃ next, checkedSub i 1 = some next :=
          ⟨_, checkedSub_of_le (by omega)⟩
        have hdifference := checkedSub_eq_some_iff.1 hnext
        obtain ⟨prop, hprop⟩ := Option.isSome_iff_exists.1
          (hstored i (BitVec.le_def.2 (by omega)) (BitVec.le_refl i))
        rw [Bucket.run_load_bind hprop, hnext, Exec.run_lift_some_bind]
        exact ih (by omega) _ fun id hid hle => hstored id hid
          (BitVec.le_def.2 (by
            have := BitVec.le_def.1 hle
            omega))

/-- A listed voter has a ballot; the weight is the one of the list. -/
def listedVote (store : Store M) (proposalId : U64) (voter : Voter) :
    Option VoteInfo :=
  (store.ballots proposalId voter.addr).map fun ballot =>
    ⟨proposalId, voter.addr, ballot.vote, voter.weight⟩

theorem run_listVotesFrom (proposalId : U64) (voters : List Voter)
    (votes : List VoteInfo) :
    (listVotesFrom proposalId voters votes).run store =
      ⟨.ok (votes ++ voters.filterMap (listedVote store proposalId)), store,
        []⟩ := by
  induction voters generalizing votes with
  | nil => rw [listVotesFrom, List.filterMap_nil, List.append_nil, Exec.run_pure]
  | cons voter voters ih =>
      rw [listVotesFrom, Bucket.run_mayLoad_bind, ballots_get]
      cases hballot : store.ballots proposalId voter.addr with
      | none =>
          rw [List.filterMap_cons_none (by rw [listedVote, hballot]; rfl)]
          exact ih votes
      | some ballot =>
          rw [List.filterMap_cons_some (by rw [listedVote, hballot]; rfl)]
          simp only [ih, List.append_assoc, List.singleton_append]

theorem run_listVotes {voters : List Voter}
    (hvoters : store.votersList = some voters) (proposalId : U64)
    (startAfter : Option String) (limit : Option U32) :
    (listVotes proposalId startAfter limit).run store =
      ⟨.ok ⟨voters.filterMap (listedVote store proposalId)⟩, store, []⟩ := by
  rw [listVotes, Singleton.run_load_bind hvoters, Exec.run_bind,
    run_listVotesFrom, Exec.andThen_ok, Exec.run_pure, List.nil_append]
  rfl

end Answers

end FixedMultisig
