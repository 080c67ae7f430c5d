import FixedMultisig.Contract.Decimal

/-!
# Expirations and durations

When a proposal stops accepting votes.  An expiration is a height, a time, or
never; a duration is a number of blocks or of seconds.  The comparison is
partial: a height and a time are incomparable, and `never` is above both.
-/

namespace FixedMultisig

open CheckedWord

structure BlockInfo where
  height : U64
  time : U64
  deriving DecidableEq

/-- Blocks are ordered by height and time together. -/
instance : LE BlockInfo :=
  ⟨fun earlier later =>
    earlier.height ≤ later.height ∧ earlier.time ≤ later.time⟩

instance (earlier later : BlockInfo) : Decidable (earlier ≤ later) :=
  inferInstanceAs (Decidable (_ ∧ _))

theorem BlockInfo.le_refl (block : BlockInfo) : block ≤ block :=
  ⟨BitVec.le_refl _, BitVec.le_refl _⟩

theorem BlockInfo.le_trans {first second third : BlockInfo}
    (hfirst : first ≤ second) (hsecond : second ≤ third) : first ≤ third :=
  ⟨BitVec.le_trans hfirst.1 hsecond.1, BitVec.le_trans hfirst.2 hsecond.2⟩

inductive Expiration where
  | atHeight (height : U64)
  | atTime (time : U64)
  | never
  deriving DecidableEq

inductive Duration where
  | height (blocks : U64)
  | time (seconds : U64)
  deriving DecidableEq

namespace Expiration

def isExpired (expires : Expiration) (block : BlockInfo) : Bool :=
  match expires with
  | atHeight height => height ≤ block.height
  | atTime time => time ≤ block.time
  | never => false

/-- The expiration is of the kind of the duration: both count blocks, or both
count seconds. -/
def SameKind (expires : Expiration) (duration : Duration) : Prop :=
  match expires, duration with
  | atHeight _, .height _ => True
  | atTime _, .time _ => True
  | _, _ => False

theorem SameKind.ne_never {expires : Expiration} {duration : Duration}
    (hkind : expires.SameKind duration) : expires ≠ never := by
  rintro rfl
  exact hkind

/-- The order of two numbers, as `Ord::cmp` returns it. -/
def cmp (left right : U64) : Ordering :=
  if left < right then .lt else if left = right then .eq else .gt

def partialCmp (left right : Expiration) : Option Ordering :=
  match left, right with
  | atHeight h1, atHeight h2 => some (cmp h1 h2)
  | atTime t1, atTime t2 => some (cmp t1 t2)
  | never, never => some .eq
  | never, _ => some .gt
  | _, never => some .lt
  | _, _ => none

theorem cmp_eq_gt_iff {left right : U64} :
    cmp left right = .gt ↔ right < left := by
  rw [cmp]
  split
  · simp only [reduceCtorEq, false_iff]
    bv_omega
  · split
    · simp only [reduceCtorEq, false_iff]
      bv_omega
    · simp only [true_iff]
      bv_omega

/-- The later of two expirations expires no sooner. -/
theorem isExpired_of_partialCmp_gt {left right : Expiration}
    {block : BlockInfo} (hcmp : left.partialCmp right = some .gt)
    (hexpired : left.isExpired block) : right.isExpired block := by
  cases left <;> cases right <;>
    simp only [partialCmp, Option.some.injEq, cmp_eq_gt_iff, reduceCtorEq,
      isExpired, decide_eq_true_eq, Bool.false_eq_true] at hcmp hexpired ⊢
  · exact BitVec.le_trans (BitVec.le_of_lt hcmp) hexpired
  · exact BitVec.le_trans (BitVec.le_of_lt hcmp) hexpired

theorem isExpired_of_partialCmp_le {left right : Expiration}
    {block : BlockInfo} {order : Ordering}
    (hcmp : left.partialCmp right = some order) (horder : order ≠ .gt)
    (hexpired : right.isExpired block) : left.isExpired block := by
  have hle : ∀ {first second : U64}, cmp first second = order →
      first ≤ second := by
    rintro first second rfl
    rw [Ne, cmp_eq_gt_iff, BitVec.not_lt] at horder
    exact horder
  cases left <;> cases right <;>
    simp only [partialCmp, Option.some.injEq, reduceCtorEq, isExpired,
      decide_eq_true_eq, Bool.false_eq_true] at hcmp hexpired ⊢
  · exact BitVec.le_trans (hle hcmp) hexpired
  · exact BitVec.le_trans (hle hcmp) hexpired
  · exact horder hcmp.symm
  · exact horder hcmp.symm

/-- Every expiration but `never` comes. -/
theorem exists_isExpired {expires : Expiration} (hexpires : expires ≠ never) :
    ∃ block, expires.isExpired block = true := by
  cases expires with
  | atHeight height => exact ⟨⟨height, 0⟩, decide_eq_true (BitVec.le_refl _)⟩
  | atTime time => exact ⟨⟨0, time⟩, decide_eq_true (BitVec.le_refl _)⟩
  | never => exact absurd rfl hexpires

/-- Once expired, expired for every later block. -/
theorem isExpired_mono {expires : Expiration} {earlier later : BlockInfo}
    (hblock : earlier ≤ later) (hexpired : expires.isExpired earlier) :
    expires.isExpired later := by
  cases expires with
  | atHeight height =>
      simp only [isExpired, decide_eq_true_eq] at hexpired ⊢
      exact BitVec.le_trans hexpired hblock.1
  | atTime time =>
      simp only [isExpired, decide_eq_true_eq] at hexpired ⊢
      exact BitVec.le_trans hexpired hblock.2
  | never => exact hexpired

end Expiration

namespace Duration

/-- The expiration this long after the block; the checked sum may trap. -/
def after (duration : Duration) (block : BlockInfo) : Option Expiration :=
  match duration with
  | height blocks => (checkedAdd block.height blocks).map .atHeight
  | time seconds => (checkedAdd block.time seconds).map .atTime

/-- A duration ends in an expiration of its own kind. -/
theorem sameKind_of_after {duration : Duration} {block : BlockInfo}
    {expires : Expiration} (hafter : duration.after block = some expires) :
    expires.SameKind duration := by
  cases duration with
  | height blocks =>
      obtain ⟨height, -, rfl⟩ := Option.map_eq_some_iff.1 hafter
      trivial
  | time seconds =>
      obtain ⟨time, -, rfl⟩ := Option.map_eq_some_iff.1 hafter
      trivial

/-- The length of the duration, in whichever unit it has. -/
def length : Duration → U64
  | height blocks => blocks
  | time seconds => seconds

/-- Only an empty duration ends in the block in which it begins. -/
theorem isExpired_after_iff {duration : Duration} {block : BlockInfo}
    {expires : Expiration} (hafter : duration.after block = some expires) :
    expires.isExpired block ↔ duration.length = 0 := by
  have hzero : (0 : U64).toNat = 0 := rfl
  cases duration with
  | height blocks =>
      simp only [after, Option.map_eq_some_iff, checkedAdd_eq_some_iff] at hafter
      obtain ⟨height, hheight, rfl⟩ := hafter
      simp only [Expiration.isExpired, decide_eq_true_eq, length]
      rw [BitVec.le_def, ← BitVec.toNat_inj, hzero]
      omega
  | time seconds =>
      simp only [after, Option.map_eq_some_iff, checkedAdd_eq_some_iff] at hafter
      obtain ⟨time, htime, rfl⟩ := hafter
      simp only [Expiration.isExpired, decide_eq_true_eq, length]
      rw [BitVec.le_def, ← BitVec.toNat_inj, hzero]
      omega

/-- From the very first block no duration overflows. -/
theorem exists_after_zero (duration : Duration) :
    ∃ expires, duration.after ⟨0, 0⟩ = some expires := by
  have hzero : (0 : U64).toNat = 0 := rfl
  cases duration with
  | height blocks =>
      rw [after, checkedAdd_of_lt (by rw [hzero]; omega)]
      exact ⟨_, rfl⟩
  | time seconds =>
      rw [after, checkedAdd_of_lt (by rw [hzero]; omega)]
      exact ⟨_, rfl⟩

end Duration

end FixedMultisig
