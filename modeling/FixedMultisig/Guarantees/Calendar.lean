import FixedMultisig.Chain.Ledger
import FixedMultisig.Contract.Timing
import FixedMultisig.Core.Moment

/-!
# Expirations as moments

Expirations are moments on two clocks, the height and the time, and durations
are spans on one of them.  The comparison of the source is the order of
moments, its sums are moments put off, and the deadline that a proposal gets is
the latest moment that comes no later than the one asked for and the one the
contract allows.
-/

namespace FixedMultisig

open CheckedWord

variable {M : Type} {msg : InitMsg}

inductive Clock where
  | height
  | time
  deriving DecidableEq

def Clock.reading (clock : Clock) (block : BlockInfo) : ℕ :=
  match clock with
  | height => block.height.toNat
  | time => block.time.toNat

namespace Expiration

def moment : Expiration → Moment Clock ℕ
  | atHeight height => .of .height height.toNat
  | atTime time => .of .time time.toNat
  | never => ⊤

/-- The expiration of a moment that fits into a word. -/
theorem exists_moment (clock : Clock) {time : ℕ} (hfits : time < 2 ^ 64) :
    ∃ expires : Expiration, expires.moment = .of clock time := by
  have hword := toNat_ofNat_of_lt hfits
  cases clock with
  | height => exact ⟨atHeight (BitVec.ofNat 64 time), by rw [moment, hword]⟩
  | time => exact ⟨atTime (BitVec.ofNat 64 time), by rw [moment, hword]⟩

theorem moment_cases (expires : Expiration) :
    expires = never ∨ ∃ clock, ∃ time < 2 ^ 64,
      expires.moment = .of clock time := by
  cases expires with
  | atHeight height => exact .inr ⟨.height, height.toNat, height.isLt, rfl⟩
  | atTime time => exact .inr ⟨.time, time.toNat, time.isLt, rfl⟩
  | never => exact .inl rfl

theorem lt_of_moment_eq {expires : Expiration} {clock : Clock} {time : ℕ}
    (hmoment : expires.moment = .of clock time) : time < 2 ^ 64 := by
  rcases moment_cases expires with rfl | ⟨clock', time', hfits, hmoment'⟩
  · exact absurd hmoment.symm Moment.of_ne_top
  · rw [hmoment', Moment.of_inj] at hmoment
    exact hmoment.2 ▸ hfits

theorem moment_injective : Function.Injective moment := by
  intro left right hmoment
  cases left <;> cases right <;>
    simp_all [moment, BitVec.toNat_inj, Moment.of_ne_top.symm]

/-- Expired is what the clock has reached. -/
theorem isExpired_iff {expires : Expiration} {block : BlockInfo} :
    expires.isExpired block = true ↔
      ∃ clock time, expires.moment = .of clock time ∧
        time ≤ clock.reading block := by
  cases expires <;>
    simp [isExpired, moment, Clock.reading, BitVec.le_def,
      Moment.of_ne_top.symm]

/-! ## Comparing -/

theorem cmp_eq_lt_iff {left right : U64} : cmp left right = .lt ↔ left < right := by
  rw [cmp]
  split
  · next hlt => simp [hlt]
  · next hlt => split <;> simp [hlt]

theorem cmp_eq_eq_iff {left right : U64} : cmp left right = .eq ↔ left = right := by
  rw [cmp]
  split
  · next hlt => simp [BitVec.ne_of_lt hlt]
  · split
    · next heq => simp [heq]
    · next hne => simp [hne]

/-- The comparison is the order of moments. -/
theorem partialCmp_exact (left right : Expiration) :
    (left.partialCmp right = some .lt ↔ left.moment < right.moment) ∧
    (left.partialCmp right = some .eq ↔ left = right) ∧
    (left.partialCmp right = some .gt ↔ right.moment < left.moment) ∧
    (left.partialCmp right = none ↔
      ¬ left.moment ≤ right.moment ∧ ¬ right.moment ≤ left.moment) := by
  cases left <;> cases right <;>
    simp +contextual [partialCmp, moment, cmp_eq_lt_iff, cmp_eq_eq_iff,
      cmp_eq_gt_iff, BitVec.lt_def, Nat.le_of_lt]

/-- What has come is later than nothing that has not. -/
theorem isExpired_of_le {left right : Expiration} {block : BlockInfo}
    (hle : left.moment ≤ right.moment)
    (hexpired : right.isExpired block = true) :
    left.isExpired block = true := by
  rw [isExpired_iff] at hexpired ⊢
  obtain ⟨clock, time, hright, htime⟩ := hexpired
  rcases moment_cases left with rfl | ⟨clock', time', -, hleft⟩
  · rw [hright] at hle
    exact absurd hle Moment.not_top_le_of
  · rw [hright, hleft, Moment.of_le_of_iff] at hle
    obtain ⟨rfl, hle⟩ := hle
    exact ⟨clock', time', hleft, hle.trans htime⟩

/-- A block that shows the reading on one clock and zero on the other. -/
def showing (clock : Clock) (time : U64) : BlockInfo :=
  match clock with
  | .height => ⟨time, 0⟩
  | .time => ⟨0, time⟩

theorem reading_showing (clock clock' : Clock) (time : U64) :
    clock'.reading (showing clock time) =
      if clock' = clock then time.toNat else 0 := by
  cases clock <;> cases clock' <;> rfl

theorem isExpired_imp_iff {left right : Expiration} :
    (∀ block, right.isExpired block = true → left.isExpired block = true) ↔
      left.moment ≤ right.moment ∨ ∃ clock, left.moment = .of clock 0 := by
  constructor
  · intro hfirst
    rcases moment_cases right with rfl | ⟨clock, time, hfits, hright⟩
    · exact .inl le_top
    · have htime := toNat_ofNat_of_lt hfits
      have hshown : right.isExpired (showing clock (BitVec.ofNat 64 time)) =
          true := by
        rw [isExpired_iff]
        refine ⟨clock, time, hright, ?_⟩
        rw [reading_showing, if_pos rfl, htime]
      obtain ⟨clock', time', hleft, hreached⟩ :=
        isExpired_iff.1 (hfirst _ hshown)
      rw [reading_showing, htime] at hreached
      rw [hleft, hright]
      by_cases hclock : clock' = clock
      · rw [if_pos hclock] at hreached
        exact .inl (Moment.of_le_of_iff.2 ⟨hclock, hreached⟩)
      · rw [if_neg hclock] at hreached
        exact .inr ⟨clock', by rw [Nat.le_zero.1 hreached]⟩
  · rintro (hle | ⟨clock, hzero⟩) block hexpired
    · exact isExpired_of_le hle hexpired
    · exact isExpired_iff.2 ⟨clock, 0, hzero, Nat.zero_le _⟩

theorem moment_eq_zero_iff {expires : Expiration} :
    (∃ clock, expires.moment = .of clock 0) ↔
      expires = atHeight 0 ∨ expires = atTime 0 := by
  have hzero : ∀ {word : U64}, word.toNat = 0 ↔ word = 0 :=
    fun {word} => by rw [← BitVec.toNat_inj]; rfl
  cases expires <;> simp [moment, hzero, Moment.of_ne_top.symm]

/-- One expiration has come wherever another has exactly when it compares as no
later, or has come from the very beginning. -/
theorem comes_first_iff (left right : Expiration) :
    (∀ block, right.isExpired block = true → left.isExpired block = true) ↔
      (left.partialCmp right = some .lt ∨ left.partialCmp right = some .eq) ∨
        left = atHeight 0 ∨ left = atTime 0 := by
  obtain ⟨hlt, heq, -, -⟩ := partialCmp_exact left right
  rw [isExpired_imp_iff, moment_eq_zero_iff, hlt, heq, le_iff_lt_or_eq,
    moment_injective.eq_iff]

end Expiration

/-! ## The deadline of a new proposal -/

/-- The clamp takes the greatest lower bound, and fails where there is none. -/
theorem clampExpires_eq_some_iff {latest : Option Expiration}
    {maxExpires expires : Expiration} :
    clampExpires latest maxExpires = some expires ↔
      IsGLB {(latest.getD maxExpires).moment, maxExpires.moment}
        expires.moment := by
  obtain ⟨hlt, heq, hgt, hnone⟩ :=
    Expiration.partialCmp_exact (latest.getD maxExpires) maxExpires
  have hunique : ∀ {earlier : Expiration},
      IsGLB {(latest.getD maxExpires).moment, maxExpires.moment}
        earlier.moment →
      (some earlier = some expires ↔
        IsGLB {(latest.getD maxExpires).moment, maxExpires.moment}
          expires.moment) := by
    intro earlier hglb
    rw [Option.some.injEq]
    exact ⟨fun heq => heq ▸ hglb, fun hglb' =>
      Expiration.moment_injective (hglb.unique hglb')⟩
  rw [clampExpires]
  cases hcmp : (latest.getD maxExpires).partialCmp maxExpires with
  | none =>
      obtain ⟨hleft, hright⟩ := hnone.1 hcmp
      simp [Moment.not_isGLB_of_not_le hleft hright]
  | some order =>
      cases order with
      | lt => exact hunique (Moment.isGLB_of_le (hlt.1 hcmp).le)
      | eq => exact hunique (Moment.isGLB_of_le
          (congrArg Expiration.moment (heq.1 hcmp)).le)
      | gt =>
          apply hunique
          rw [Set.pair_comm]
          exact Moment.isGLB_of_le (hgt.1 hcmp).le

/-- Asking for no expiration is asking for the empty one. -/
theorem executePropose_default (env : Env) (title description : String)
    (msgs : List M) :
    executePropose env title description msgs none =
      executePropose env title description msgs (some .default) := by
  rw [executePropose, executePropose]
  apply bind_congr
  intro voterPower
  apply bind_congr
  intro votePower
  apply bind_congr
  intro cfg
  apply bind_congr
  intro maxExpires
  cases maxExpires <;>
    simp [Expiration.default, Expiration.partialCmp, Expiration.cmp,
      BitVec.lt_irrefl]

/-- A choice that cannot be compared to the end of the voting period is
refused. -/
theorem executePropose_of_incomparable {store : Store M} {env : Env}
    {power : U64} {cfg : Config} {maxExpires : Expiration}
    (hregistered : store.voters env.message.sender = some power)
    (hconfig : store.config = some cfg)
    (hmax : cfg.maxVotingPeriod.after env.block = some maxExpires)
    {latest : Option Expiration} (hclamp : clampExpires latest maxExpires = none)
    (title description : String) (msgs : List M) :
    (executePropose env title description msgs latest).run store =
      ⟨.error (.error ContractError.wrongExpiration.toStdError), store, []⟩ := by
  rw [executePropose, Bucket.run_mayLoad_bind, voters_get, hregistered,
    Exec.run_pure_bind, Singleton.run_load_bind hconfig, hmax,
    Exec.run_lift_some_bind]
  rw [clampExpires] at hclamp
  cases hcmp : (latest.getD maxExpires).partialCmp maxExpires with
  | none => rfl
  | some order =>
      rw [hcmp] at hclamp
      cases order <;> cases hclamp

theorem Effect.proposed {totalWeight : U64} {store store' : Store M} {env : Env}
    {title description : String} {msgs : List M} {latest : Option Expiration}
    {response : HandleResponse M} {maxExpires : Expiration}
    (hledger : Ledger msg totalWeight store)
    (hmax : msg.maxVotingPeriod.after env.block = some maxExpires)
    (heffect : Effect store env (.propose title description msgs latest) store'
      response) :
    ∃ id prop, store.proposals id = none ∧ store'.proposals id = some prop ∧
      IsGLB {(latest.getD maxExpires).moment, maxExpires.moment}
        prop.expires.moment := by
  cases heffect with
  | @propose _ _ _ _ power cfg expires prop count id henabled hprop hcount hid =>
      refine ⟨id, prop, hledger.fresh hcount hid,
        Store.putProposal_proposals_self .., ?_⟩
      obtain ⟨status, -, rfl⟩ := Proposal.updateStatus_eq_some_iff.1 hprop
      obtain ⟨maxExpires', hmax', hclamp⟩ := henabled.clamped
      rw [hledger.config_eq henabled.configured] at hmax'
      obtain rfl := Option.some.inj (hmax.symm.trans hmax')
      exact clampExpires_eq_some_iff.1 hclamp

/-- A registered voter gets the latest deadline that is no later than the one
asked for and the end of the voting period; the proposal is refused as wrongly
expiring exactly when there is no such deadline. -/
theorem proposed_deadline {chain : Chain M}
    (hreachable : (multisig msg).Reachable chain) {env : Env} {power : U64}
    {maxExpires : Expiration}
    (hregistered : chain.store.voters env.message.sender = some power)
    (hmax : msg.maxVotingPeriod.after env.block = some maxExpires)
    (title description : String) (msgs : List M) (latest : Option Expiration) :
    (∀ response, ((executePropose env title description msgs latest).run
          chain.store).result = .ok response →
        ∃ id prop, chain.store.proposals id = none ∧
          ((executePropose env title description msgs latest).commit
            chain.store).proposals id = some prop ∧
          IsGLB {(latest.getD maxExpires).moment, maxExpires.moment}
            prop.expires.moment) ∧
      (((executePropose env title description msgs latest).run
          chain.store).result =
          .error (.error ContractError.wrongExpiration.toStdError) ↔
        ∀ expires : Expiration,
          ¬ IsGLB {(latest.getD maxExpires).moment, maxExpires.moment}
            expires.moment) := by
  obtain ⟨totalWeight, -, hledger⟩ := ledger_of_reachable hreachable
  obtain ⟨found, hfound, -⟩ := hledger.counted
  constructor
  · intro response hok
    have heffect : Effect chain.store env
        (.propose title description msgs latest) _ response := effect_of_ok hok
    rw [Exec.commit_of_ok hok]
    exact heffect.proposed hledger hmax
  · cases hclamp : clampExpires latest maxExpires with
    | none =>
        rw [executePropose_of_incomparable hregistered hledger.config hmax
          hclamp]
        refine iff_of_true rfl fun expires hglb => ?_
        rw [clampExpires_eq_some_iff.2 hglb] at hclamp
        cases hclamp
    | some expires =>
        have henabled : ProposeEnabled chain.store env latest power _ expires :=
          ⟨hregistered, hledger.config, maxExpires, hmax, hclamp⟩
        refine iff_of_false ?_ fun hnone =>
          hnone expires (clampExpires_eq_some_iff.1 hclamp)
        rw [executePropose_of_enabled henabled, hfound]
        split
        · simp
        · dsimp only
          split <;> simp

section Example

private def planner : InitMsg where
  voters := [⟨"alice", 2⟩, ⟨"bob", 1⟩]
  threshold := .absoluteCount 2
  maxVotingPeriod := .time 30

private theorem planner_accepted : planner.Accepted 3 where
  nonempty := by decide
  summed := by decide
  valid := Threshold.validate_eq_ok_iff.1 (by decide)

private def plannerChain : Chain String :=
  Chain.deployed ⟨⟨10, 54⟩, ⟨"carol"⟩⟩ planner

private def plannerEnv : Env := ⟨⟨11, 60⟩, ⟨"bob"⟩⟩

private theorem plannerChain_voter :
    plannerChain.store.voters "bob" = some 1 := by
  rw [plannerChain, deployed_store _ planner_accepted]
  rfl

/-- Bob may close the vote at a time, but not at a height. -/
theorem proposed_deadline_planner :
    (∃ response, ((executePropose plannerEnv "title" "description" ["send"]
          (some (.atTime 75))).run plannerChain.store).result = .ok response) ∧
      (∃ id prop, plannerChain.store.proposals id = none ∧
        ((executePropose plannerEnv "title" "description" ["send"]
          (some (.atTime 75))).commit plannerChain.store).proposals id =
            some prop ∧ prop.expires = .atTime 75) ∧
      ((executePropose plannerEnv "title" "description" ["send"]
          (some (.atHeight 20))).run plannerChain.store).result =
        .error (.error ContractError.wrongExpiration.toStdError) := by
  have hreachable : (multisig planner).Reachable plannerChain :=
    .of_start (start_deployed _ planner_accepted)
  have hmax : planner.maxVotingPeriod.after plannerEnv.block =
      some (.atTime 90) := rfl
  have hdeadline := proposed_deadline hreachable plannerChain_voter hmax
    "title" "description" ["send"]
  obtain ⟨response, hok⟩ : ∃ response, ((executePropose plannerEnv "title"
      "description" ["send"] (some (.atTime 75))).run
        plannerChain.store).result = .ok response := ⟨_, rfl⟩
  refine ⟨⟨response, hok⟩, ?_, ?_⟩
  · obtain ⟨id, prop, hfresh, hstored, hglb⟩ :=
      (hdeadline (some (.atTime 75))).1 response hok
    refine ⟨id, prop, hfresh, hstored, Expiration.moment_injective ?_⟩
    exact hglb.unique (Moment.isGLB_of_le
      (Moment.of_le_of_iff.2 ⟨rfl, by decide⟩))
  · have hclock : Clock.height ≠ Clock.time := nofun
    exact (hdeadline (some (.atHeight 20))).2.2 fun _ =>
      Moment.not_isGLB_of_ne hclock _

end Example

/-! ## Putting off -/

def Duration.clock : Duration → Clock
  | .height _ => .height
  | .time _ => .time

/-- The length of a duration on its clock. -/
def Duration.span (duration : Duration) : Clock × ℕ :=
  (duration.clock, duration.length.toNat)

/-- A checked number, wrapped. -/
theorem orAbort_map_eq_ok_iff {A B : Type} {f : A → B} {value : Option A}
    {result : B} :
    (do return f (← orAbort value) : Except (Halt StdError) B) = .ok result ↔
      value.map f = some result := by
  cases value with
  | none => exact ⟨nofun, nofun⟩
  | some value => simp [orAbort, bind, Except.bind, pure, Except.pure]

/-- The end of a duration is the reading of its clock, put off. -/
theorem Duration.after_eq_some_iff {duration : Duration} {block : BlockInfo}
    {expires : Expiration} :
    duration.after block = some expires ↔
      expires.moment = .of duration.clock
        (duration.clock.reading block + duration.length.toNat) := by
  cases duration <;> cases expires <;>
    simp [after, clock, length, Clock.reading, Expiration.moment,
      checkedAdd_eq_some_iff, Moment.of_ne_top.symm, @eq_comm ℕ]

/-- A sum of an expiration and a duration is the moment put off. -/
theorem Expiration.add_eq_ok_iff {expires expires' : Expiration}
    {duration : Duration} :
    expires.add duration = .ok expires' ↔
      expires.moment.advance duration.span = some expires'.moment := by
  cases expires with
  | never =>
      have hnever : never.add duration = .ok never := by cases duration <;> rfl
      rw [hnever, Except.ok.injEq, moment, Moment.advance_top,
        Option.some.injEq]
      exact ⟨fun heq => heq ▸ rfl, fun heq => moment_injective heq⟩
  | atHeight height =>
      cases duration with
      | height blocks =>
          rw [add, orAbort_map_eq_ok_iff]
          cases expires' <;>
            simp [moment, Moment.advance_of, Duration.span, Duration.clock,
              Duration.length, checkedAdd_eq_some_iff]
      | time seconds =>
          simp [add, moment, Moment.advance_of, Duration.span, Duration.clock]
  | atTime time =>
      cases duration with
      | height blocks =>
          simp [add, moment, Moment.advance_of, Duration.span, Duration.clock]
      | time seconds =>
          rw [add, orAbort_map_eq_ok_iff]
          cases expires' <;>
            simp [moment, Moment.advance_of, Duration.span, Duration.clock,
              Duration.length, checkedAdd_eq_some_iff]

/-- What is put off until an expiration is an expiration: a word that holds the
later reading holds the earlier one. -/
theorem Expiration.exists_of_put_off {moment : Moment Clock ℕ}
    {spans : List (Clock × ℕ)} {expires' : Expiration}
    (hput : spans.foldlM Moment.advance moment = some expires'.moment) :
    ∃ expires : Expiration, expires.moment = moment := by
  induction moment with
  | none => exact ⟨never, rfl⟩
  | some reading =>
      obtain ⟨clock, time⟩ := reading
      have hfits := lt_of_moment_eq ((Moment.foldlM_advance_of spans).1 hput).2
      exact exists_moment clock (by omega)

/-- Putting off step by step never gets stuck on the way to an expiration. -/
theorem foldlM_add_eq_ok_iff {durations : List Duration}
    {expires expires' : Expiration} :
    durations.foldlM Expiration.add expires = .ok expires' ↔
      (durations.map Duration.span).foldlM Moment.advance expires.moment =
        some expires'.moment := by
  induction durations generalizing expires with
  | nil =>
      simp [pure, Except.pure, Expiration.moment_injective.eq_iff]
  | cons duration durations ih =>
      rw [List.foldlM_cons, List.map_cons, List.foldlM_cons]
      constructor
      · intro hok
        cases hadd : expires.add duration with
        | error halt =>
            rw [hadd] at hok
            cases hok
        | ok middle =>
            rw [hadd] at hok
            rw [Expiration.add_eq_ok_iff.1 hadd]
            exact ih.1 hok
      · intro hsome
        obtain ⟨moment, hadvance, hrest⟩ := Option.bind_eq_some_iff.1 hsome
        obtain ⟨middle, rfl⟩ := Expiration.exists_of_put_off hrest
        rw [Expiration.add_eq_ok_iff.2 hadvance]
        exact ih.2 hrest

/-- A multiple of a duration is as long as so many of them. -/
theorem Duration.mul_eq_some_iff {duration total : Duration} {count : U64} :
    duration.mul count = some total ↔
      total.clock = duration.clock ∧
        total.length.toNat = duration.length.toNat * count.toNat := by
  cases duration <;> cases total <;>
    simp [mul, clock, length, checkedMul_eq_some_iff, @eq_comm ℕ]

/-- Durations add up on one clock only. -/
theorem Duration.add_eq_ok_iff {duration duration' total : Duration} :
    duration.add duration' = .ok total ↔
      duration'.clock = duration.clock ∧ total.clock = duration.clock ∧
        total.length.toNat =
          duration.length.toNat + duration'.length.toNat := by
  cases duration with
  | height blocks =>
      cases duration' with
      | height blocks' =>
          rw [add, orAbort_map_eq_ok_iff]
          cases total <;>
            simp [clock, length, checkedAdd_eq_some_iff, @eq_comm ℕ]
      | time seconds' => simp [add, clock]
  | time seconds =>
      cases duration' with
      | height blocks' => simp [add, clock]
      | time seconds' =>
          rw [add, orAbort_map_eq_ok_iff]
          cases total <;>
            simp [clock, length, checkedAdd_eq_some_iff, @eq_comm ℕ]

theorem Duration.plusOne_eq_some_iff {duration longer : Duration} :
    duration.plusOne = some longer ↔
      longer.clock = duration.clock ∧
        longer.length.toNat = duration.length.toNat + 1 := by
  cases duration <;> cases longer <;>
    simp [plusOne, clock, length, checkedAdd_eq_some_iff, @eq_comm ℕ]

/-- A duration of one more runs out just past the end of the duration. -/
theorem Duration.isExpired_plusOne_iff {duration longer : Duration}
    {block later : BlockInfo} {expires : Expiration}
    (hlonger : duration.plusOne = some longer)
    (hexpires : longer.after block = some expires) :
    expires.isExpired later = true ↔
      duration.clock.reading block + duration.length.toNat <
        duration.clock.reading later := by
  obtain ⟨hclock, hlength⟩ := plusOne_eq_some_iff.1 hlonger
  rw [after_eq_some_iff, hclock, hlength] at hexpires
  rw [Expiration.isExpired_iff, hexpires]
  constructor
  · rintro ⟨clock, time, hmoment, htime⟩
    obtain ⟨rfl, rfl⟩ := Moment.of_inj.1 hmoment
    omega
  · intro hlt
    exact ⟨_, _, rfl, by omega⟩

/-- The duration of a length that fits into a word. -/
theorem Duration.exists_length (clock : Clock) {length : ℕ}
    (hfits : length < 2 ^ 64) :
    ∃ duration : Duration,
      duration.clock = clock ∧ duration.length.toNat = length := by
  have hword := toNat_ofNat_of_lt hfits
  cases clock with
  | height => exact ⟨height (BitVec.ofNat 64 length), rfl, hword⟩
  | time => exact ⟨time (BitVec.ofNat 64 length), rfl, hword⟩

theorem Expiration.moment_of_sameKind {expires : Expiration}
    {duration : Duration} (hkind : expires.SameKind duration) :
    ∃ time, expires.moment = .of duration.clock time := by
  cases expires <;> cases duration <;> first
    | exact hkind.elim
    | exact ⟨_, rfl⟩

/-- A sum with a reading, exactly. -/
theorem Expiration.add_of_moment_iff {expires expires' : Expiration}
    {duration : Duration} {clock : Clock} {time : ℕ}
    (hmoment : expires.moment = .of clock time) :
    expires.add duration = .ok expires' ↔
      duration.clock = clock ∧
        expires'.moment = .of clock (time + duration.length.toNat) := by
  rw [add_eq_ok_iff, hmoment, Moment.advance_of, Duration.span]
  by_cases hclock : duration.clock = clock
  · rw [if_pos hclock, Option.some.injEq, and_iff_right hclock]
    exact eq_comm
  · simp [hclock]

theorem foldlM_add_iff {durations : List Duration}
    {expires expires' : Expiration} :
    durations.foldlM Expiration.add expires = .ok expires' ↔
      (expires = .never ∧ expires' = .never) ∨
        ∃ clock time, expires.moment = .of clock time ∧
          (∀ duration ∈ durations, duration.clock = clock) ∧
          expires'.moment = .of clock
            (time + (durations.map fun duration =>
              duration.length.toNat).sum) := by
  rw [foldlM_add_eq_ok_iff]
  rcases Expiration.moment_cases expires with
    rfl | ⟨clock, time, -, hmoment⟩
  · have hnever : Expiration.never.moment = ⊤ := rfl
    rw [hnever, Moment.foldlM_advance_top, Option.some.injEq, ← hnever,
      Expiration.moment_injective.eq_iff]
    simp [hnever, Moment.of_ne_top.symm, eq_comm]
  · rw [hmoment, Moment.foldlM_advance_of]
    simp only [List.forall_mem_map, List.map_map]
    constructor
    · rintro ⟨hclock, hend⟩
      exact .inr ⟨clock, time, rfl, hclock, hend⟩
    · rintro (⟨rfl, -⟩ | ⟨clock', time', hmoment', hclock, hend⟩)
      · exact absurd hmoment.symm Moment.of_ne_top
      · obtain ⟨rfl, rfl⟩ := Moment.of_inj.1 hmoment'
        exact ⟨hclock, hend⟩

theorem foldlM_replicate_iff {expires expires' : Expiration}
    {duration : Duration} (hkind : expires.SameKind duration) (count : U64) :
    (List.replicate count.toNat duration).foldlM Expiration.add expires =
        .ok expires' ↔
      ∃ total, duration.mul count = some total ∧
        expires.add total = .ok expires' := by
  obtain ⟨time, hmoment⟩ := Expiration.moment_of_sameKind hkind
  have hfinite : expires ≠ .never := hkind.ne_never
  rw [foldlM_add_iff]
  simp only [hfinite, false_and, false_or, List.map_replicate,
    List.sum_replicate, smul_eq_mul, Expiration.add_of_moment_iff hmoment,
    Duration.mul_eq_some_iff]
  constructor
  · rintro ⟨clock, time', hmoment', -, hend⟩
    obtain ⟨rfl, rfl⟩ := Moment.of_inj.1 (hmoment.symm.trans hmoment')
    have hfits := Expiration.lt_of_moment_eq hend
    obtain ⟨total, hclock, hlength⟩ := Duration.exists_length duration.clock
      (show duration.length.toNat * count.toNat < 2 ^ 64 by
        rw [Nat.mul_comm]; omega)
    refine ⟨total, ⟨hclock, hlength⟩, hclock, ?_⟩
    rw [hend, hlength, Nat.mul_comm]
  · rintro ⟨total, ⟨-, hlength⟩, -, hend⟩
    refine ⟨duration.clock, time, hmoment,
      fun _ hduration => congrArg _ (List.eq_of_mem_replicate hduration), ?_⟩
    rw [hend, hlength, Nat.mul_comm]

theorem after_add_iff {duration duration' : Duration} {block : BlockInfo}
    {expires' : Expiration} :
    (∃ expires, duration.after block = some expires ∧
        expires.add duration' = .ok expires') ↔
      ∃ total, duration.add duration' = .ok total ∧
        total.after block = some expires' := by
  simp only [Duration.after_eq_some_iff, Duration.add_eq_ok_iff]
  constructor
  · rintro ⟨expires, hmoment, hadd⟩
    obtain ⟨hclock', hend⟩ := (Expiration.add_of_moment_iff hmoment).1 hadd
    have hfits := Expiration.lt_of_moment_eq hend
    obtain ⟨total, hclock, hlength⟩ := Duration.exists_length duration.clock
      (show duration.length.toNat + duration'.length.toNat < 2 ^ 64 by omega)
    refine ⟨total, ⟨hclock', hclock, hlength⟩, ?_⟩
    rw [hend, hclock, hlength, Nat.add_assoc]
  · rintro ⟨total, ⟨hclock', hclock, hlength⟩, hend⟩
    rw [hclock, hlength, ← Nat.add_assoc] at hend
    have hfits := Expiration.lt_of_moment_eq hend
    obtain ⟨expires, hmoment⟩ := Expiration.exists_moment duration.clock
      (show duration.clock.reading block + duration.length.toNat < 2 ^ 64 by
        omega)
    exact ⟨expires, hmoment,
      (Expiration.add_of_moment_iff hmoment).2 ⟨hclock', hend⟩⟩

/-- Putting off is exact: step by step an expiration moves by the sum of the
durations, a multiple moves it like so many steps, and a sum of durations ends
where one ends after the other. -/
theorem put_off_exact (expires expires' : Expiration) :
    (∀ durations : List Duration,
      durations.foldlM Expiration.add expires = .ok expires' ↔
        (expires = .never ∧ expires' = .never) ∨
          ∃ clock time, expires.moment = .of clock time ∧
            (∀ duration ∈ durations, duration.clock = clock) ∧
            expires'.moment = .of clock
              (time + (durations.map fun duration =>
                duration.length.toNat).sum)) ∧
    (∀ (duration : Duration) (count : U64), expires.SameKind duration →
      ((List.replicate count.toNat duration).foldlM Expiration.add expires =
          .ok expires' ↔
        ∃ total, duration.mul count = some total ∧
          expires.add total = .ok expires')) ∧
    ∀ (duration duration' : Duration) (block : BlockInfo),
      (∃ middle, duration.after block = some middle ∧
          middle.add duration' = .ok expires') ↔
        ∃ total, duration.add duration' = .ok total ∧
          total.after block = some expires' :=
  ⟨fun _ => foldlM_add_iff, fun _ count hkind =>
    foldlM_replicate_iff hkind count, fun _ _ _ => after_add_iff⟩

/-- Seven days are a week. -/
theorem put_off_exact_week :
    (List.replicate 7 Duration.day).foldlM Expiration.add (.atTime 100) =
      .ok (.atTime 604900) :=
  ((put_off_exact (.atTime 100) (.atTime 604900)).2.1 .day 7 trivial).2
    ⟨.week, by decide, rfl⟩

end FixedMultisig
