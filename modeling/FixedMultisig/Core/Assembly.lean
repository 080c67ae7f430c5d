import FixedMultisig.Core.EventSystem
import FixedMultisig.Core.WeightedPoll

/-!
# An assembly that decides by weighted votes

What a voting component is for, without a store and without machine numbers.
Members move motions; every motion holds a poll of the electorate and stands
somewhere between its opening and its enactment.  The minutes of the assembly
are the list of its motions in the order in which they were moved, and the
number of a motion is its position in the minutes, counted from one.

The rules are a parameter: what a tally carries and defeats while voting is
still possible and when it is over, when a deadline is over, and which
deadline is granted to a motion.  Three laws relate the two sides of the
deadline; from them follows what the standing of a motion says about its poll.
-/

namespace FixedMultisig.Assembly

/-- Where a motion stands. -/
inductive Phase where
  | voting
  | carried
  | lost
  | enacted
  deriving DecidableEq

/-- The rules of an assembly.  The mover of a motion is counted for `assent`;
the flag of the two decisions says whether the deadline is over. -/
structure Rules (V O D B : Type*) where
  electorate : Electorate V
  assent : O
  carries : Bool → (O → ℕ) → Prop
  defeats : Bool → (O → ℕ) → Prop
  ended : D → B → Bool
  grant : B → Option D → Option D

variable {V O D B C : Type*}

structure Motion (rules : Rules V O D B) (C : Type*) where
  content : C
  deadline : D
  poll : Poll rules.electorate O
  phase : Phase

/-- What somebody does in the assembly. -/
inductive Deed (V O D B C : Type*) where
  | submit (mover : V) (content : C) (wanted : Option D) (time : B)
  | cast (voter : V) (number : ℕ) (option : O) (time : B)
  | enact (number : ℕ)
  | close (number : ℕ) (time : B)

/-- A deed and the content it puts into effect, if any. -/
structure Entry (V O D B C : Type*) where
  deed : Deed V O D B C
  issued : Option C

/-- The motion with this number. -/
def find {A : Type*} (minutes : List A) : ℕ → Option A
  | 0 => none
  | number + 1 => minutes[number]?

/-- Put another motion in the place of the one with this number. -/
def amend {A : Type*} (minutes : List A) (number : ℕ) (motion : A) : List A :=
  minutes.set (number - 1) motion

section Minutes

variable {A : Type*} {minutes : List A} {motion new : A} {number other : ℕ}

theorem find_eq_none_iff :
    find minutes number = none ↔ number = 0 ∨ minutes.length < number := by
  cases number with
  | zero => simp [find]
  | succ number =>
      rw [find, List.getElem?_eq_none_iff]
      omega

theorem find_isSome_iff :
    (find minutes number).isSome ↔ 1 ≤ number ∧ number ≤ minutes.length := by
  rw [Option.isSome_iff_ne_none, ne_eq, find_eq_none_iff]
  omega

theorem mem_of_find (hfound : find minutes number = some motion) :
    motion ∈ minutes := by
  cases number with
  | zero => cases hfound
  | succ number => exact List.mem_of_getElem? hfound

@[simp]
theorem length_amend : (amend minutes number new).length = minutes.length :=
  List.length_set

theorem find_amend_self (hfound : find minutes number = some motion) :
    find (amend minutes number new) number = some new := by
  have hnumber := find_isSome_iff.1 (Option.isSome_of_mem hfound)
  cases number with
  | zero => omega
  | succ number =>
      exact List.getElem?_set_self (by omega)

theorem find_amend_of_ne (hfound : find minutes number = some motion)
    (hother : other ≠ number) :
    find (amend minutes number new) other = find minutes other := by
  have hnumber := find_isSome_iff.1 (Option.isSome_of_mem hfound)
  cases other with
  | zero => rfl
  | succ other => exact List.getElem?_set_ne (by omega)

theorem find_append_self :
    find (minutes ++ [new]) (minutes.length + 1) = some new := by
  simp [find]

theorem find_append_of_ne (hother : other ≠ minutes.length + 1) :
    find (minutes ++ [new]) other = find minutes other := by
  cases other with
  | zero => rfl
  | succ other =>
      simp only [find]
      rcases Nat.lt_or_ge other minutes.length with hlt | hge
      · exact List.getElem?_append_left hlt
      · rw [List.getElem?_eq_none hge, List.getElem?_eq_none]
        rw [List.length_append, List.length_singleton]
        omega

end Minutes

variable [DecidableEq V] [DecidableEq O]

open Classical in
/-- What a tally makes of a motion on which voting is possible. -/
noncomputable def Rules.settle (rules : Rules V O D B) (closed : Bool)
    (tally : O → ℕ) : Phase :=
  if rules.carries closed tally then .carried
  else if rules.defeats closed tally ∨ closed then .lost
  else .voting

variable {rules : Rules V O D B}

/-- A motion on which this poll has just been held. -/
noncomputable def Motion.settled (content : C) (deadline : D)
    (poll : Poll rules.electorate O) (time : B) : Motion rules C where
  content
  deadline
  poll
  phase := rules.settle (rules.ended deadline time) poll.tally

/-- The steps of the assembly. -/
inductive Step : List (Motion rules C) → Entry V O D B C →
    List (Motion rules C) → Prop
  | submit {minutes : List (Motion rules C)} {mover : V} {content : C}
      {wanted : Option D} {time : B} {deadline : D}
      (hmember : mover ∈ rules.electorate.members)
      (hgranted : rules.grant time wanted = some deadline) :
      Step minutes ⟨.submit mover content wanted time, none⟩
        (minutes ++ [.settled content deadline
          (Poll.empty.record hmember rules.assent) time])
  | cast {minutes : List (Motion rules C)} {voter : V} {number : ℕ}
      {option : O} {time : B} {motion : Motion rules C}
      (hmember : voter ∈ rules.electorate.members)
      (hweight : 1 ≤ rules.electorate.weight voter)
      (hfound : find minutes number = some motion)
      (hvoting : motion.phase = .voting)
      (hintime : rules.ended motion.deadline time = false)
      (hfresh : motion.poll.cast voter = none) :
      Step minutes ⟨.cast voter number option time, none⟩
        (amend minutes number (.settled motion.content motion.deadline
          (motion.poll.record hmember option) time))
  | enact {minutes : List (Motion rules C)} {number : ℕ}
      {motion : Motion rules C}
      (hfound : find minutes number = some motion)
      (hcarried : motion.phase = .carried) :
      Step minutes ⟨.enact number, some motion.content⟩
        (amend minutes number { motion with phase := .enacted })
  | close {minutes : List (Motion rules C)} {number : ℕ} {time : B}
      {motion : Motion rules C}
      (hfound : find minutes number = some motion)
      (hvoting : motion.phase = .voting)
      (hended : rules.ended motion.deadline time = true) :
      Step minutes ⟨.close number time, none⟩
        (amend minutes number { motion with phase := .lost })

/-- The assembly starts with empty minutes. -/
def system (rules : Rules V O D B) (C : Type*) :
    EventSystem (List (Motion rules C)) (Entry V O D B C) where
  start minutes := minutes = []
  step := Step

/-- A deed has one outcome. -/
theorem Step.unique {minutes next next' : List (Motion rules C)}
    {deed : Deed V O D B C} {issued issued' : Option C}
    (hstep : Step minutes ⟨deed, issued⟩ next)
    (hstep' : Step minutes ⟨deed, issued'⟩ next') :
    issued = issued' ∧ next = next' := by
  cases hstep with
  | submit hmember hgranted =>
      cases hstep' with
      | submit hmember' hgranted' =>
          obtain rfl := Option.some.inj (hgranted.symm.trans hgranted')
          exact ⟨rfl, rfl⟩
  | cast hmember hweight hfound hvoting hintime hfresh =>
      cases hstep' with
      | cast hmember' hweight' hfound' =>
          obtain rfl := Option.some.inj (hfound.symm.trans hfound')
          exact ⟨rfl, rfl⟩
  | enact hfound hcarried =>
      cases hstep' with
      | enact hfound' =>
          obtain rfl := Option.some.inj (hfound.symm.trans hfound')
          exact ⟨rfl, rfl⟩
  | close hfound hvoting hended =>
      cases hstep' with
      | close hfound' =>
          obtain rfl := Option.some.inj (hfound.symm.trans hfound')
          exact ⟨rfl, rfl⟩

/-! ## Labor -/

/-- Nothing more can happen to a motion. -/
def Phase.finished : Phase → Bool
  | .voting => false
  | .carried => false
  | .lost => true
  | .enacted => true

omit [DecidableEq V] [DecidableEq O] in
/-- How many deeds the standing of a motion can account for. -/
def Motion.labor (motion : Motion rules C) : ℕ :=
  motion.poll.turnout + motion.phase.finished.toNat

def labor (minutes : List (Motion rules C)) : ℕ :=
  (minutes.map Motion.labor).sum

omit [DecidableEq V] [DecidableEq O] in
theorem Motion.labor_le (motion : Motion rules C) :
    motion.labor ≤ rules.electorate.members.card + 1 :=
  Nat.add_le_add motion.poll.turnout_le (Bool.toNat_le _)

omit [DecidableEq V] [DecidableEq O] in
theorem labor_le (minutes : List (Motion rules C)) :
    labor minutes ≤
      minutes.length * (rules.electorate.members.card + 1) := by
  rw [← minutes.length_map Motion.labor, ← smul_eq_mul]
  apply List.sum_le_card_nsmul
  intro amount hamount
  obtain ⟨motion, -, rfl⟩ := List.mem_map.1 hamount
  exact motion.labor_le

omit [DecidableEq V] [DecidableEq O] in
theorem labor_amend {minutes : List (Motion rules C)} {number : ℕ}
    {motion new : Motion rules C}
    (hfound : find minutes number = some motion) :
    labor (amend minutes number new) + motion.labor =
      labor minutes + new.labor := by
  cases number with
  | zero => cases hfound
  | succ number =>
      induction minutes generalizing number with
      | nil => cases hfound
      | cons first rest ih =>
          cases number with
          | zero =>
              obtain rfl := Option.some.inj hfound
              simp only [labor, amend, Nat.add_sub_cancel, List.set_cons_zero,
                List.map_cons, List.sum_cons]
              omega
          | succ number =>
              have hrest := ih number hfound
              simp only [labor, amend, Nat.add_sub_cancel, List.set_cons_succ,
                List.map_cons, List.sum_cons] at hrest ⊢
              omega

omit [DecidableEq V] [DecidableEq O] in
theorem labor_amend_lt {minutes : List (Motion rules C)} {number : ℕ}
    {motion new : Motion rules C}
    (hfound : find minutes number = some motion)
    (hmore : motion.labor < new.labor) :
    labor minutes < labor (amend minutes number new) := by
  have hsum : labor (amend minutes number new) + motion.labor =
      labor minutes + new.labor := labor_amend hfound
  omega

omit [DecidableEq V] in
theorem Motion.turnout_le_labor_settled (content : C) (deadline : D)
    (poll : Poll rules.electorate O) (time : B) :
    poll.turnout ≤ (Motion.settled content deadline poll time).labor :=
  Nat.le_add_right _ _

/-- Every step of the assembly is labor. -/
theorem Step.labor_lt {minutes next : List (Motion rules C)}
    {entry : Entry V O D B C} (hstep : Step minutes entry next) :
    labor minutes < labor next := by
  cases hstep with
  | @submit mover content wanted time deadline hmember hgranted =>
      have hsettled := Motion.turnout_le_labor_settled content deadline
        (Poll.empty.record hmember rules.assent) time
      rw [Poll.turnout_record _ hmember rfl] at hsettled
      rw [labor, labor, List.map_append, List.sum_append, List.map_singleton,
        List.sum_singleton]
      omega
  | @cast voter number option time motion hmember hweight hfound hvoting
      hintime hfresh =>
      apply labor_amend_lt hfound
      have hsettled := Motion.turnout_le_labor_settled motion.content
        motion.deadline (motion.poll.record hmember option) time
      rw [Poll.turnout_record _ hmember hfresh] at hsettled
      have hbefore : motion.labor = motion.poll.turnout := by
        rw [Motion.labor, hvoting]
        rfl
      omega
  | enact hfound hcarried =>
      apply labor_amend_lt hfound
      rw [Motion.labor, Motion.labor, hcarried]
      exact Nat.lt_succ_self _
  | close hfound hvoting hended =>
      apply labor_amend_lt hfound
      rw [Motion.labor, Motion.labor, hvoting]
      exact Nat.lt_succ_self _

/-- A run of the assembly is bounded by the motions that are moved in it:
there is one deed for each member and one more for each motion. -/
theorem length_le_of_run {minutes : List (Motion rules C)}
    {entries : List (Transition (List (Motion rules C)) (Entry V O D B C))}
    (hrun : (system rules C).Run [] entries minutes) :
    entries.length ≤
      minutes.length * (rules.electorate.members.card + 1) := by
  have hraised := hrun.measure_add_length_le labor
    fun _ _ _ hstep => Step.labor_lt hstep
  have hbound := labor_le minutes
  omega

/-! ## Standing and poll -/

section Settle

variable {closed : Bool} {tally : O → ℕ}

omit [DecidableEq V] [DecidableEq O] in
theorem Rules.settle_eq_carried_iff :
    rules.settle closed tally = .carried ↔ rules.carries closed tally := by
  rw [settle]
  split
  · simp_all
  · split <;> simp_all

omit [DecidableEq V] [DecidableEq O] in
theorem Rules.settle_eq_voting_iff :
    rules.settle closed tally = .voting ↔
      ¬ rules.carries closed tally ∧ ¬ rules.defeats closed tally ∧
        closed = false := by
  by_cases hcarries : rules.carries closed tally
  · simp [settle, hcarries]
  · by_cases hdefeats : rules.defeats closed tally
    · simp [settle, hcarries, hdefeats]
    · simp [settle, hcarries, hdefeats]

omit [DecidableEq V] [DecidableEq O] in
theorem Rules.settle_eq_lost_iff :
    rules.settle closed tally = .lost ↔
      ¬ rules.carries closed tally ∧
        (rules.defeats closed tally ∨ closed = true) := by
  by_cases hcarries : rules.carries closed tally
  · simp [settle, hcarries]
  · by_cases hdefeats : rules.defeats closed tally
    · simp [settle, hcarries, hdefeats]
    · simp [settle, hcarries, hdefeats]

omit [DecidableEq V] [DecidableEq O] in
theorem Rules.settle_ne_enacted : rules.settle closed tally ≠ .enacted := by
  rw [settle]
  split
  · simp
  · split <;> simp

end Settle

variable [Fintype O]

/-- What rules have to keep across the deadline: decisions that are sure in
time hold when the deadline is over and after every further vote, and no tally
is decided both ways. -/
structure Rules.Lawful (rules : Rules V O D B) : Prop where
  carries_late : ∀ {tally : O → ℕ},
    ∑ option, tally option ≤ rules.electorate.total →
    rules.carries false tally → rules.carries true tally
  defeats_late : ∀ {tally : O → ℕ},
    ∑ option, tally option ≤ rules.electorate.total →
    rules.defeats false tally → rules.defeats true tally
  exclusive : ∀ {closed : Bool} {tally : O → ℕ},
    ∑ option, tally option ≤ rules.electorate.total →
    rules.defeats closed tally → ¬ rules.carries closed tally
  carries_more : ∀ {tally : O → ℕ} (part : O → ℕ),
    rules.carries false tally → rules.carries false (tally + part)
  defeats_more : ∀ {tally : O → ℕ} (part : O → ℕ),
    rules.defeats false tally → rules.defeats false (tally + part)

/-- The poll of a motion bears out where the motion stands. -/
structure Motion.Sound (motion : Motion rules C) : Prop where
  voting : motion.phase = .voting →
    ¬ rules.carries false motion.poll.tally ∧
      ¬ rules.defeats false motion.poll.tally
  decided : motion.phase = .carried ∨ motion.phase = .enacted →
    rules.carries true motion.poll.tally
  lost : motion.phase = .lost → ¬ rules.carries false motion.poll.tally

theorem Rules.Lawful.sound_settled (hlaws : rules.Lawful) (content : C)
    (deadline : D) (poll : Poll rules.electorate O) (time : B) :
    (Motion.settled content deadline poll time).Sound where
  voting hphase := by
    obtain ⟨hcarries, hdefeats, hclosed⟩ := Rules.settle_eq_voting_iff.1 hphase
    rw [hclosed] at hcarries hdefeats
    exact ⟨hcarries, hdefeats⟩
  decided hphase := by
    have hcarries : rules.carries (rules.ended deadline time) poll.tally :=
      Rules.settle_eq_carried_iff.1
        (hphase.resolve_right Rules.settle_ne_enacted)
    cases hclosed : rules.ended deadline time with
    | true => exact hclosed ▸ hcarries
    | false =>
        exact hlaws.carries_late poll.sum_tally_le (hclosed ▸ hcarries)
  lost hphase hcarries := by
    have hsettled : rules.settle (rules.ended deadline time) poll.tally =
        .carried := by
      rw [Rules.settle_eq_carried_iff]
      cases rules.ended deadline time with
      | true => exact hlaws.carries_late poll.sum_tally_le hcarries
      | false => exact hcarries
    rw [show rules.settle (rules.ended deadline time) poll.tally = .lost from
      hphase] at hsettled
    cases hsettled

/-- One step leaves every motion sound. -/
theorem Rules.Lawful.sound_step (hlaws : rules.Lawful)
    {minutes next : List (Motion rules C)} {entry : Entry V O D B C}
    (hsound : ∀ motion ∈ minutes, motion.Sound)
    (hstep : Step minutes entry next) : ∀ motion ∈ next, motion.Sound := by
  -- An amended motion is sound, and so are all others.
  have hamend : ∀ {number : ℕ} {new : Motion rules C}, new.Sound →
      ∀ motion ∈ amend minutes number new, motion.Sound := by
    intro number new hnew motion hmotion
    rcases List.mem_or_eq_of_mem_set hmotion with hmotion | rfl
    · exact hsound motion hmotion
    · exact hnew
  cases hstep with
  | submit hmember hgranted =>
      intro motion hmotion
      rcases List.mem_append.1 hmotion with hmotion | hmotion
      · exact hsound motion hmotion
      · rw [List.mem_singleton.1 hmotion]
        exact hlaws.sound_settled _ _ _ _
  | cast hmember hweight hfound hvoting hintime hfresh =>
      exact hamend (hlaws.sound_settled _ _ _ _)
  | enact hfound hcarried =>
      exact hamend
        { voting := fun h => Phase.noConfusion h
          decided := fun _ =>
            (hsound _ (mem_of_find hfound)).decided (.inl hcarried)
          lost := fun h => Phase.noConfusion h }
  | close hfound hvoting hended =>
      exact hamend
        { voting := fun h => Phase.noConfusion h
          decided := fun h => h.elim (fun h => Phase.noConfusion h)
            (fun h => Phase.noConfusion h)
          lost := fun _ =>
            ((hsound _ (mem_of_find hfound)).voting hvoting).1 }

theorem Rules.Lawful.sound_of_reachable (hlaws : rules.Lawful)
    {minutes : List (Motion rules C)}
    (hreachable : (system rules C).Reachable minutes) :
    ∀ motion ∈ minutes, motion.Sound := by
  apply hreachable.invariant
  · rintro _ rfl motion hmotion
    cases hmotion
  · intro minutes entry next _ hsound hstep
    exact hlaws.sound_step hsound hstep

omit [DecidableEq V] [Fintype O] in
/-- A motion that its poll carries in time has been carried. -/
theorem Motion.Sound.of_carries {motion : Motion rules C}
    (hsound : motion.Sound) (hcarries : rules.carries false motion.poll.tally) :
    motion.phase = .carried ∨ motion.phase = .enacted := by
  cases hphase : motion.phase with
  | voting => exact absurd hcarries (hsound.voting hphase).1
  | carried => exact .inl rfl
  | lost => exact absurd hcarries (hsound.lost hphase)
  | enacted => exact .inr rfl

/-- A motion that its poll defeats in time has been lost. -/
theorem Motion.Sound.of_defeats (hlaws : rules.Lawful)
    {motion : Motion rules C} (hsound : motion.Sound)
    (hdefeats : rules.defeats false motion.poll.tally) :
    motion.phase = .lost := by
  have hnot : ¬ rules.carries true motion.poll.tally :=
    hlaws.exclusive motion.poll.sum_tally_le
      (hlaws.defeats_late motion.poll.sum_tally_le hdefeats)
  cases hphase : motion.phase with
  | voting => exact absurd hdefeats (hsound.voting hphase).2
  | carried => exact absurd (hsound.decided (.inl hphase)) hnot
  | lost => rfl
  | enacted => exact absurd (hsound.decided (.inr hphase)) hnot

omit [DecidableEq V] in
/-- A bloc whose weight carries a motion alone has carried it. -/
theorem Motion.Sound.of_bloc_carries (hlaws : rules.Lawful)
    {motion : Motion rules C} (hsound : motion.Sound) {bloc : Finset V}
    {option : O} (hbloc : ∀ voter ∈ bloc, motion.poll.cast voter = some option)
    (hcarries : rules.carries false
      (Pi.single option (∑ voter ∈ bloc, rules.electorate.weight voter))) :
    motion.phase = .carried ∨ motion.phase = .enacted := by
  obtain ⟨part, htally⟩ := motion.poll.exists_tally_eq_single_add hbloc
  apply hsound.of_carries
  rw [htally]
  exact hlaws.carries_more part hcarries

/-- A bloc whose weight defeats a motion alone has defeated it. -/
theorem Motion.Sound.of_bloc_defeats (hlaws : rules.Lawful)
    {motion : Motion rules C} (hsound : motion.Sound) {bloc : Finset V}
    {option : O} (hbloc : ∀ voter ∈ bloc, motion.poll.cast voter = some option)
    (hdefeats : rules.defeats false
      (Pi.single option (∑ voter ∈ bloc, rules.electorate.weight voter))) :
    motion.phase = .lost := by
  obtain ⟨part, htally⟩ := motion.poll.exists_tally_eq_single_add hbloc
  apply hsound.of_defeats hlaws
  rw [htally]
  exact hlaws.defeats_more part hdefeats

end FixedMultisig.Assembly
