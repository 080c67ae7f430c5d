import FixedMultisig.Contract.DecimalText

/-!
# The rest of the fixed-point arithmetic

Sums and ratios of decimals, and sums, differences and texts of whole numbers.
A sum or a product that does not fit and a zero denominator trap; a difference
below zero of whole numbers is an error.
-/

namespace FixedMultisig

open CheckedWord Numeral

namespace Decimal

/-- `x` thousandths.  The product fits for every `x`, see `toNat_permille`. -/
def permille (x : U64) : Decimal :=
  ⟨x.setWidth 128 * 1_000_000_000_000_000⟩

/-- `nominator / denominator`; a zero denominator panics. -/
def fromRatio (nominator denominator : U128) : Option Decimal :=
  if denominator = 0 then none
  else do
    let product ← checkedMul nominator decimalFractional
    return ⟨product / denominator⟩

def add (left right : Decimal) : Option Decimal := do
  return ⟨← checkedAdd left.atomics right.atomics⟩

end Decimal

/-- The numbers of a difference below zero, as texts. -/
structure Underflow where
  minuend : String
  subtrahend : String
  deriving DecidableEq

namespace Uint128

def display (number : Uint128) : String :=
  String.ofList (Nat.toDigits 10 number.value.toNat)

/-- `describe` is the text of the host's error for a text that is no number. -/
def tryFrom (describe : String → String) (text : String) :
    Except StdError Uint128 :=
  match parseU128 text.toList with
  | some value => .ok ⟨value⟩
  | none => .error (.genericErr ("Parsing coin: " ++ describe text))

def add (left right : Uint128) : Option Uint128 := do
  return ⟨← checkedAdd left.value right.value⟩

def sub (left right : Uint128) : Except Underflow Uint128 :=
  if left.value < right.value then
    .error ⟨display left, display right⟩
  else .ok ⟨left.value - right.value⟩

/-- A whole number is serialized as its text. -/
def serialize (number : Uint128) : String := number.display

/-- What a whole number is deserialized from. -/
def visitStr (describe : String → String) (text : String) :
    Except String Uint128 :=
  match parseU128 text.toList with
  | some value => .ok ⟨value⟩
  | none => .error ("invalid Uint128 '" ++ text ++ "' - " ++ describe text)

end Uint128

/-! ## The numbers they denote -/

theorem toNat_permille (x : U64) :
    (Decimal.permille x).atomics.toNat = x.toNat * 1000000000000000 := by
  have hfits := x.isLt
  have hfactor : (1_000_000_000_000_000 : U128).toNat = 1000000000000000 := rfl
  rw [Decimal.permille, BitVec.toNat_mul, BitVec.toNat_setWidth, hfactor,
    Nat.mod_eq_of_lt (by omega), Nat.mod_eq_of_lt (by omega)]

theorem Decimal.ext_toNat {left right : Decimal}
    (hatomics : left.atomics.toNat = right.atomics.toNat) : left = right :=
  Decimal.ext (BitVec.eq_of_toNat_eq hatomics)

theorem Uint128.ext_toNat {left right : Uint128}
    (hvalue : left.value.toNat = right.value.toNat) : left = right := by
  cases left
  cases right
  exact congrArg Uint128.mk (BitVec.eq_of_toNat_eq hvalue)

/-- A product divided by a word that is not zero. -/
private theorem quotient_eq_some_iff {A : Type} {mk : U128 → A}
    (hmk : Function.Injective mk) (left right : U128) {denom word : U128} :
    (if denom = 0 then none
      else (do
        let product ← checkedMul left right
        return mk (product / denom) : Option A)) = some (mk word) ↔
      0 < denom.toNat ∧ left.toNat * right.toNat < 2 ^ 128 ∧
        word.toNat = left.toNat * right.toNat / denom.toNat := by
  by_cases hdenom : denom = 0
  · simp [hdenom]
  · have hpositive : 0 < denom.toNat := by
      rw [Nat.pos_iff_ne_zero]
      exact fun hzero => hdenom (BitVec.eq_of_toNat_eq hzero)
    rw [if_neg hdenom]
    constructor
    · intro hsome
      obtain ⟨product, hproduct, hword⟩ := Option.bind_eq_some_iff.1 hsome
      have hword' := hmk (Option.some.inj hword)
      rw [← hword', BitVec.toNat_udiv, checkedMul_eq_some_iff.1 hproduct]
      exact ⟨hpositive, product.isLt, rfl⟩
    · rintro ⟨-, hfits, hword⟩
      rw [checkedMul_of_lt hfits]
      apply congrArg (some ∘ mk)
      apply BitVec.eq_of_toNat_eq
      rw [BitVec.toNat_udiv, toNat_ofNat_of_lt hfits, hword]

theorem Decimal.fromRatio_eq_some_iff {nominator denominator : U128}
    {ratio : Decimal} :
    Decimal.fromRatio nominator denominator = some ratio ↔
      0 < denominator.toNat ∧ nominator.toNat * 10 ^ 18 < 2 ^ 128 ∧
        ratio.atomics.toNat =
          nominator.toNat * 10 ^ 18 / denominator.toNat :=
  quotient_eq_some_iff (fun _ _ => congrArg Decimal.atomics) nominator
    decimalFractional

theorem Uint128.multiplyRatio_eq_some_iff {number result : Uint128}
    {nom denom : U128} :
    number.multiplyRatio nom denom = some result ↔
      0 < denom.toNat ∧ number.value.toNat * nom.toNat < 2 ^ 128 ∧
        result.value.toNat =
          number.value.toNat * nom.toNat / denom.toNat :=
  quotient_eq_some_iff (fun _ _ => congrArg Uint128.value) number.value nom

theorem Uint128.mulDecimal_eq_some_iff {number result : Uint128}
    {rhs : Decimal} :
    number.mulDecimal rhs = some result ↔
      number.value.toNat * rhs.atomics.toNat < 2 ^ 128 ∧
        result.value.toNat =
          number.value.toNat * rhs.atomics.toNat / 10 ^ 18 := by
  by_cases hfits : number.value.toNat * rhs.atomics.toNat < 2 ^ 128
  · obtain ⟨product, hproduct, hvalue⟩ := mulDecimal_of_fits number rhs hfits
    rw [hproduct, Option.some.injEq, and_iff_right hfits]
    constructor
    · rintro rfl
      exact hvalue
    · exact fun hresult => Uint128.ext_toNat (hvalue.trans hresult.symm)
  · rw [mulDecimal_eq_none (Nat.le_of_not_lt hfits)]
    exact ⟨nofun, fun hresult => absurd hresult.1 hfits⟩

theorem Decimal.add_eq_some_iff {left right sum : Decimal} :
    left.add right = some sum ↔
      left.atomics.toNat + right.atomics.toNat = sum.atomics.toNat := by
  rw [← checkedAdd_eq_some_iff, add]
  cases checkedAdd left.atomics right.atomics <;> simp [Decimal.ext_iff]

theorem Uint128.add_eq_some_iff {left right sum : Uint128} :
    left.add right = some sum ↔
      left.value.toNat + right.value.toNat = sum.value.toNat := by
  rw [← checkedAdd_eq_some_iff, add]
  cases sum
  cases checkedAdd left.value right.value <;> simp

theorem Uint128.sub_eq_ok_iff {left right difference : Uint128} :
    left.sub right = .ok difference ↔
      difference.value.toNat + right.value.toNat = left.value.toNat := by
  cases difference with
  | mk word =>
      rw [sub]
      split
      · next hlt =>
          have hlt' := BitVec.lt_def.1 hlt
          simp
          omega
      · next hle =>
          have hle' := BitVec.le_def.1 (BitVec.not_lt.1 hle)
          rw [Except.ok.injEq, mk.injEq, ← BitVec.toNat_inj,
            BitVec.toNat_sub_of_le (BitVec.not_lt.1 hle)]
          dsimp only
          omega

/-! ## Texts of whole numbers -/

theorem stripPlus_of_isDigits {part : List Char} (hpart : IsDigits part) :
    stripPlus part = part := by
  cases part with
  | nil => rfl
  | cons c rest =>
      rw [stripPlus]
      rintro digits hdigits
      have hplus := hpart.2 c (List.mem_cons_self ..)
      rw [(List.cons.inj hdigits).1] at hplus
      cases hplus

/-- A part is read as a number if it is the text of the number, with zeros in
front of it and perhaps a plus sign in front of these. -/
theorem parseU128_iff {part : List Char} {number : U128} :
    parseU128 part = some number ↔
      ∃ count,
        part = List.replicate count '0' ++ Nat.toDigits 10 number.toNat ∨
          part = '+' ::
            (List.replicate count '0' ++ Nat.toDigits 10 number.toNat) := by
  rw [parseU128_eq_some_iff, ← (stripPlus_eq part).1, ← (stripPlus_eq part).2,
    isDigits_and_value_iff]
  constructor
  · rintro ⟨count, hstrip⟩
    refine ⟨count, ?_⟩
    rw [← hstrip]
    cases part with
    | nil => exact .inl rfl
    | cons c rest =>
        by_cases hc : c = '+'
        · subst hc
          exact .inr rfl
        · refine .inl (stripPlus.eq_2 _ ?_).symm
          rintro digits hdigits
          exact hc (List.cons.inj hdigits).1
  · rintro ⟨count, rfl | rfl⟩
    · exact ⟨count, stripPlus_of_isDigits
        (isDigits_and_value_iff.2 ⟨count, rfl⟩).1⟩
    · exact ⟨count, rfl⟩

namespace Uint128

/-- A whole number is read from its text, and besides from the texts that only
put zeros and a plus sign in front of it. -/
theorem tryFrom_eq_ok_iff {describe : String → String} {text : String}
    {number : Uint128} :
    tryFrom describe text = .ok number ↔
      ∃ count,
        text.toList = List.replicate count '0' ++ number.display.toList ∨
          text.toList = '+' ::
            (List.replicate count '0' ++ number.display.toList) := by
  have hparse : parseU128 text.toList = some number.value ↔ _ := parseU128_iff
  rw [display, String.toList_ofList, ← hparse, tryFrom]
  cases number
  cases parseU128 text.toList <;> simp

/-- Reading a number and deserializing it accept the same texts. -/
theorem visitStr_eq_ok_iff {describe : String → String} {text : String}
    {number : Uint128} :
    visitStr describe text = .ok number ↔ tryFrom describe text = .ok number := by
  rw [visitStr, tryFrom]
  cases parseU128 text.toList <;> simp

theorem visitStr_serialize (describe : String → String) (number : Uint128) :
    visitStr describe number.serialize = .ok number :=
  visitStr_eq_ok_iff.2 (tryFrom_eq_ok_iff.2 ⟨0, .inl rfl⟩)

end Uint128

end FixedMultisig
