import FixedMultisig.Contract.Threshold
import FixedMultisig.Core.Exec
import FixedMultisig.Core.Numeral

/-!
# Decimals as texts

How a decimal is written and read.  Writing pads the fraction to 18 digits and
trims the zeros at its end.  Reading takes the text apart at its dots, reads
both parts as machine words and scales the fraction by its length in bytes.

A machine word is read with an optional plus sign.  A sign in front of digits
reads like a zero there: it counts for the length of the part, and the digits
behind it keep their value.
-/

namespace FixedMultisig

open CheckedWord Numeral

/-- A part without the plus sign at its front. -/
def stripPlus : List Char → List Char
  | '+' :: digits => digits
  | digits => digits

/-- Digits behind an optional plus sign, as a word of 128 bits. -/
def parseU128 (part : List Char) : Option U128 :=
  if IsDigits (stripPlus part) ∧ value (stripPlus part) < 2 ^ 128 then
    some (BitVec.ofNat 128 (value (stripPlus part)))
  else none

/-- The number of bytes of a text. -/
def byteLength (text : List Char) : ℕ := (text.map Char.utf8Size).sum

def orError {A : Type} (msg : String) : Option A → Except (Halt StdError) A
  | some value => .ok value
  | none => .error (.error (.genericErr msg))

/-- A missing result of plain arithmetic traps. -/
def orAbort {A : Type} : Option A → Except (Halt StdError) A
  | some value => .ok value
  | none => .error .abort

namespace Decimal

/-- The places that a fraction leaves free. -/
def freePlaces (fraction : List Char) : Option ℕ :=
  if byteLength fraction ≤ 18 then some (18 - byteLength fraction) else none

def fromStr (input : String) : Except (Halt StdError) Decimal :=
  match input.toList.splitOn '.' with
  | [whole] => do
      let whole ← orError "Error parsing whole" (parseU128 whole)
      let wholeAsAtomics ← orError "Value too big"
        (checkedMul whole decimalFractional)
      return ⟨wholeAsAtomics⟩
  | [whole, fraction] => do
      let whole ← orError "Error parsing whole" (parseU128 whole)
      let fractional ← orError "Error parsing fractional"
        (parseU128 fraction)
      -- At most 18, so its conversion to the exponent's type never fails.
      let exp ← orError "Cannot parse more than 18 fractional digits"
        (freePlaces fraction)
      let fractionalFactor ← orError "Cannot compute fractional factor"
        (checkedPow 10 exp)
      let wholeAsAtomics ← orError "Value too big"
        (checkedMul whole decimalFractional)
      -- This product has no check of its own.
      let product ← orAbort (checkedMul fractional fractionalFactor)
      let atomics ← orError "Value too big"
        (checkedAdd wholeAsAtomics product)
      return ⟨atomics⟩
  | _ => .error (.error (.genericErr "Unexpected number of dots"))

def toString (value : Decimal) : String :=
  let whole := value.atomics / decimalFractional
  let fractional := value.atomics % decimalFractional
  if fractional = 0 then String.ofList (Nat.toDigits 10 whole.toNat)
  else
    let fractionalString := pad 18 fractional.toNat
    String.ofList
      (Nat.toDigits 10 whole.toNat ++ '.' :: trimEnd fractionalString)

/-- A decimal is serialized as its text. -/
def serialize (value : Decimal) : String := value.toString

/-- What a decimal is deserialized from; `display` is how the host writes an
error. -/
def visitStr (display : StdError → String) (text : String) :
    Except (Halt String) Decimal :=
  match fromStr text with
  | .ok value => .ok value
  | .error (.error reason) =>
      .error (.error
        ("Error parsing decimal '" ++ text ++ "': " ++ display reason))
  | .error .abort => .error .abort

end Decimal

/-! ## A sign reads like a zero -/

/-- A part with a zero in place of a plus sign that stands before something. -/
def signAsZero : List Char → List Char
  | '+' :: c :: rest => '0' :: c :: rest
  | part => part

theorem signAsZero_plus (c : Char) (rest : List Char) :
    signAsZero ('+' :: c :: rest) = '0' :: c :: rest := rfl

theorem signAsZero_of_ne {part : List Char}
    (hplus : ∀ c rest, part ≠ '+' :: c :: rest) : signAsZero part = part := by
  rw [signAsZero]
  exact hplus

/-- Either a sign stands before something, or nothing changes. -/
theorem signAsZero_cases (part : List Char) :
    (∃ c rest, part = '+' :: c :: rest) ∨ signAsZero part = part := by
  by_cases hplus : ∃ c rest, part = '+' :: c :: rest
  · exact .inl hplus
  · right
    apply signAsZero_of_ne
    intro c rest heq
    exact hplus ⟨c, rest, heq⟩

theorem signAsZero_of_allDigits {part : List Char} (hdigits : AllDigits part) :
    signAsZero part = part := by
  rcases signAsZero_cases part with ⟨c, rest, rfl⟩ | heq
  · have hplus := hdigits '+' (List.mem_cons_self ..)
    cases hplus
  · exact heq

@[simp]
theorem length_signAsZero (part : List Char) :
    (signAsZero part).length = part.length := by
  rcases signAsZero_cases part with ⟨c, rest, rfl⟩ | heq
  · rfl
  · rw [heq]

theorem not_mem_signAsZero {c : Char} {part : List Char} (hc : c ≠ '0')
    (hpart : c ∉ part) : c ∉ signAsZero part := by
  rcases signAsZero_cases part with ⟨d, rest, rfl⟩ | heq
  · rw [signAsZero_plus, List.mem_cons, not_or]
    exact ⟨hc, fun hmem => hpart (List.mem_cons_of_mem _ hmem)⟩
  · rwa [heq]

/-- The digits that are read, in the part without its sign. -/
theorem stripPlus_eq (part : List Char) :
    (IsDigits (stripPlus part) ↔ IsDigits (signAsZero part)) ∧
      value (stripPlus part) = value (signAsZero part) := by
  rcases signAsZero_cases part with ⟨c, rest, rfl⟩ | heq
  · rw [signAsZero_plus, stripPlus]
    constructor
    · simp [IsDigits, AllDigits]
    · exact (value_zeros_append 1 (c :: rest)).symm
  · rw [heq]
    cases part with
    | nil => exact ⟨Iff.rfl, rfl⟩
    | cons c rest =>
        by_cases hc : c = '+'
        · subst hc
          cases rest with
          | nil => exact ⟨by decide, rfl⟩
          | cons d rest => cases heq
        · rw [stripPlus]
          · exact ⟨Iff.rfl, rfl⟩
          · rintro digits hdigits
            exact hc (List.cons.inj hdigits).1

theorem parseU128_eq_some_iff {part : List Char} {number : U128} :
    parseU128 part = some number ↔
      IsDigits (signAsZero part) ∧
        value (signAsZero part) = number.toNat := by
  rw [parseU128, ← (stripPlus_eq part).1, ← (stripPlus_eq part).2]
  constructor
  · intro hparse
    rw [Option.ite_none_right_eq_some, Option.some.injEq] at hparse
    obtain ⟨⟨hdigits, hfits⟩, rfl⟩ := hparse
    exact ⟨hdigits, (toNat_ofNat_of_lt hfits).symm⟩
  · rintro ⟨hdigits, hvalue⟩
    rw [if_pos ⟨hdigits, hvalue ▸ number.isLt⟩, Option.some.injEq, hvalue]
    apply BitVec.eq_of_toNat_eq
    exact toNat_ofNat_of_lt number.isLt

theorem byteLength_of_allDigits {text : List Char} (htext : AllDigits text) :
    byteLength text = text.length := by
  have hbytes : ∀ c ∈ text, c.utf8Size = 1 := by
    intro c hc
    have hrange := Char.isDigit_iff_toNat.1 (htext c hc)
    apply Char.utf8Size_eq_one_iff.2
    apply UInt32.le_iff_toNat_le.2
    exact hrange.2.trans (by decide)
  rw [byteLength, List.map_congr_left hbytes]
  simp

/-- Digits and signs are one byte long. -/
theorem byteLength_eq {part : List Char}
    (hdigits : AllDigits (signAsZero part)) :
    byteLength part = part.length := by
  rcases signAsZero_cases part with ⟨c, rest, rfl⟩ | heq
  · have hrest : byteLength (c :: rest) = (c :: rest).length :=
      byteLength_of_allDigits fun d hd => hdigits d (List.mem_cons_of_mem _ hd)
    rw [byteLength, List.map_cons, List.sum_cons, List.length_cons, Nat.add_comm]
    exact congrArg (· + 1) hrest
  · exact byteLength_of_allDigits (heq ▸ hdigits)

/-- A text with a zero in place of every plus sign at the front of a part. -/
def signsAsZeros (text : List Char) : List Char :=
  ['.'].intercalate ((text.splitOn '.').map signAsZero)

theorem splitOn_signsAsZeros (text : List Char) :
    (signsAsZeros text).splitOn '.' = (text.splitOn '.').map signAsZero := by
  apply List.splitOn_intercalate
  · intro part hpart
    obtain ⟨part, hmem, rfl⟩ := List.mem_map.1 hpart
    exact not_mem_signAsZero (by decide) (not_mem_of_mem_splitOn hmem)
  · rw [Ne, List.map_eq_nil_iff]
    exact List.splitOn_ne_nil _ _

theorem signsAsZeros_of_denotes {places : ℕ} {text : List Char} {number : ℚ}
    (hdenotes : Denotes places text number) : signsAsZeros text = text := by
  have hparts : (text.splitOn '.').map signAsZero = text.splitOn '.' := by
    rcases denotes_iff_splitOn.1 hdenotes with
      ⟨whole, hsplit, hwhole, -⟩ |
      ⟨whole, fraction, hsplit, hwhole, hfraction, -⟩
    · rw [hsplit, List.map_singleton, signAsZero_of_allDigits hwhole.2]
    · rw [hsplit, List.map_cons, List.map_singleton,
        signAsZero_of_allDigits hwhole.2, signAsZero_of_allDigits hfraction.2]
  rw [signsAsZeros, hparts, List.intercalate_splitOn]

/-! ## What is read -/

section Steps

variable {A B : Type} {msg : String} {checked : Option A}
variable {next : A → Except (Halt StdError) B} {result : B}

theorem orError_bind_eq_ok_iff :
    (orError msg checked >>= next) = .ok result ↔
      ∃ value, checked = some value ∧ next value = .ok result := by
  cases checked <;> simp [orError, bind, Except.bind]

theorem orAbort_bind_eq_ok_iff :
    (orAbort checked >>= next) = .ok result ↔
      ∃ value, checked = some value ∧ next value = .ok result := by
  cases checked <;> simp [orAbort, bind, Except.bind]

/-- A check that fails returns an error, it does not trap. -/
theorem orError_bind_ne_abort
    (hnext : ∀ value, checked = some value → next value ≠ .error .abort) :
    (orError msg checked >>= next) ≠ .error .abort := by
  cases checked with
  | none => simp [orError, bind, Except.bind]
  | some value => exact hnext value rfl

theorem orAbort_bind_ne_abort {value : A} (hchecked : checked = some value)
    (hnext : next value ≠ .error .abort) :
    (orAbort checked >>= next) ≠ .error .abort := by
  rw [hchecked]
  exact hnext

end Steps

namespace Decimal

variable {input : String} {whole fraction : List Char} {decimal : Decimal}

/-- A scaled fraction of at most 18 places stays below one. -/
theorem scaled_fraction_lt (hdigits : AllDigits (signAsZero fraction))
    (hplaces : fraction.length ≤ 18) :
    value (signAsZero fraction) * 10 ^ (18 - fraction.length) < 10 ^ 18 := by
  have hvalue := value_lt hdigits
  rw [length_signAsZero] at hvalue
  calc
    value (signAsZero fraction) * 10 ^ (18 - fraction.length) <
        10 ^ fraction.length * 10 ^ (18 - fraction.length) :=
      Nat.mul_lt_mul_of_pos_right hvalue (by positivity)
    _ = 10 ^ 18 := by rw [← pow_add, Nat.add_sub_cancel' hplaces]

theorem freePlaces_eq_some_iff (hdigits : AllDigits (signAsZero fraction))
    {exp : ℕ} :
    freePlaces fraction = some exp ↔
      fraction.length ≤ 18 ∧ exp = 18 - fraction.length := by
  rw [freePlaces, byteLength_eq hdigits, Option.ite_none_right_eq_some,
    Option.some.injEq, eq_comm]

theorem fromStr_of_whole (hsplit : input.toList.splitOn '.' = [whole]) :
    fromStr input = .ok decimal ↔
      IsDigits (signAsZero whole) ∧
        value (signAsZero whole) * 10 ^ 18 = decimal.atomics.toNat := by
  rw [fromStr, hsplit]
  simp only [orError_bind_eq_ok_iff]
  constructor
  · rintro ⟨word, hword, atomics, hatomics, hdecimal⟩
    cases hdecimal
    have hwhole := parseU128_eq_some_iff.1 hword
    rw [hwhole.2]
    exact ⟨hwhole.1, checkedMul_eq_some_iff.1 hatomics⟩
  · rintro ⟨hwhole, hvalue⟩
    have hfits : value (signAsZero whole) < 2 ^ 128 := by
      have := decimal.atomics.isLt
      omega
    have hword := toNat_ofNat_of_lt hfits
    refine ⟨_, parseU128_eq_some_iff.2 ⟨hwhole, hword.symm⟩, decimal.atomics,
      checkedMul_eq_some_iff.2 ?_, rfl⟩
    rw [hword]
    exact hvalue

/-- What the two parts of a text that is read are, and what they amount to. -/
theorem parts_of_fromStr
    (hsplit : input.toList.splitOn '.' = [whole, fraction])
    (hread : fromStr input = .ok decimal) :
    IsDigits (signAsZero whole) ∧ IsDigits (signAsZero fraction) ∧
      fraction.length ≤ 18 ∧
      value (signAsZero whole) * 10 ^ 18 +
        value (signAsZero fraction) * 10 ^ (18 - fraction.length) =
          decimal.atomics.toNat := by
  rw [fromStr, hsplit] at hread
  simp only [orError_bind_eq_ok_iff, orAbort_bind_eq_ok_iff] at hread
  obtain ⟨word, hword, word', hword', exp, hexp, factor, hfactor,
    wholeAsAtomics, hwholeAsAtomics, product, hproduct, atomics, hatomics,
    hdecimal⟩ := hread
  cases hdecimal
  have hwhole := parseU128_eq_some_iff.1 hword
  have hfraction := parseU128_eq_some_iff.1 hword'
  obtain ⟨hplaces, rfl⟩ := (freePlaces_eq_some_iff hfraction.1.2).1 hexp
  have hfactor' := checkedPow_eq_some_iff.1 hfactor
  have hscaled := checkedMul_eq_some_iff.1 hwholeAsAtomics
  have hscaled' := checkedMul_eq_some_iff.1 hproduct
  refine ⟨hwhole.1, hfraction.1, hplaces, ?_⟩
  rw [← checkedAdd_eq_some_iff.1 hatomics, ← hscaled, ← hscaled',
    ← hfactor', hwhole.2, hfraction.2]
  rfl

/-- Two parts that amount to a decimal are read as it: no step overflows. -/
theorem fromStr_of_amount
    (hsplit : input.toList.splitOn '.' = [whole, fraction])
    (hwhole : IsDigits (signAsZero whole))
    (hfraction : IsDigits (signAsZero fraction))
    (hplaces : fraction.length ≤ 18)
    (hamount : value (signAsZero whole) * 10 ^ 18 +
      value (signAsZero fraction) * 10 ^ (18 - fraction.length) =
        decimal.atomics.toNat) :
    fromStr input = .ok decimal := by
  have hbound := decimal.atomics.isLt
  have hpower : ∀ {exp : ℕ}, exp ≤ 18 → 10 ^ exp < 2 ^ 128 := fun hexp =>
    (Nat.pow_le_pow_right (by decide) hexp).trans_lt (by decide)
  have hwholeFits : value (signAsZero whole) < 2 ^ 128 := by omega
  have hscaled : value (signAsZero whole) * 10 ^ 18 < 2 ^ 128 := by omega
  have hfractionFits : value (signAsZero fraction) < 2 ^ 128 :=
    (value_lt hfraction.2).trans (hpower (by rwa [length_signAsZero]))
  have hproduct : value (signAsZero fraction) *
      10 ^ (18 - fraction.length) < 2 ^ 128 := by omega
  have hword := toNat_ofNat_of_lt hwholeFits
  have hword' := toNat_ofNat_of_lt hfractionFits
  have hfactor := toNat_ofNat_of_lt (hpower (Nat.sub_le 18 fraction.length))
  have hscaled' := toNat_ofNat_of_lt hscaled
  have hproduct' := toNat_ofNat_of_lt hproduct
  rw [fromStr, hsplit]
  simp only [orError_bind_eq_ok_iff, orAbort_bind_eq_ok_iff]
  refine ⟨_, parseU128_eq_some_iff.2 ⟨hwhole, hword.symm⟩,
    _, parseU128_eq_some_iff.2 ⟨hfraction, hword'.symm⟩,
    _, (freePlaces_eq_some_iff hfraction.2).2 ⟨hplaces, rfl⟩,
    _, checkedPow_eq_some_iff.2 hfactor.symm,
    _, checkedMul_eq_some_iff.2 (Eq.trans ?_ hscaled'.symm),
    _, checkedMul_eq_some_iff.2 (Eq.trans ?_ hproduct'.symm),
    decimal.atomics, checkedAdd_eq_some_iff.2 ?_, rfl⟩
  · rw [hword]
    rfl
  · rw [hword', hfactor]
  · rw [hscaled', hproduct']
    exact hamount

theorem fromStr_of_parts
    (hsplit : input.toList.splitOn '.' = [whole, fraction]) :
    fromStr input = .ok decimal ↔
      IsDigits (signAsZero whole) ∧ IsDigits (signAsZero fraction) ∧
        fraction.length ≤ 18 ∧
        value (signAsZero whole) * 10 ^ 18 +
          value (signAsZero fraction) * 10 ^ (18 - fraction.length) =
            decimal.atomics.toNat := by
  constructor
  · exact parts_of_fromStr hsplit
  · rintro ⟨hwhole, hfraction, hplaces, hamount⟩
    exact fromStr_of_amount hsplit hwhole hfraction hplaces hamount

/-- What is read is what the text denotes once its signs are zeros. -/
theorem fromStr_eq_ok_iff :
    fromStr input = .ok decimal ↔
      ∃ number, Denotes 18 (signsAsZeros input.toList) number ∧
        (decimal.atomics.toNat : ℚ) = number * 10 ^ 18 := by
  have hparts := splitOn_signsAsZeros input.toList
  rcases hsplit : input.toList.splitOn '.' with
    _ | ⟨whole, _ | ⟨fraction, _ | ⟨third, rest⟩⟩⟩
  · exact absurd hsplit (List.splitOn_ne_nil _ _)
  · rw [hsplit, List.map_singleton] at hparts
    simp only [fromStr_of_whole hsplit, denotes_iff_of_whole hparts]
    constructor
    · rintro ⟨hwhole, hvalue⟩
      exact ⟨_, ⟨hwhole, rfl⟩, by exact_mod_cast hvalue.symm⟩
    · rintro ⟨number, ⟨hwhole, rfl⟩, hvalue⟩
      exact ⟨hwhole, by exact_mod_cast hvalue.symm⟩
  · rw [hsplit, List.map_cons, List.map_singleton] at hparts
    simp only [fromStr_of_parts hsplit, denotes_iff_of_parts hparts]
    constructor
    · rintro ⟨hwhole, hfraction, hplaces, hvalue⟩
      have hplaces' : (signAsZero fraction).length ≤ 18 := by simpa
      refine ⟨_, ⟨hwhole, hfraction, hplaces', rfl⟩, ?_⟩
      rw [scaled_eq hplaces', length_signAsZero, hvalue]
    · rintro ⟨number, ⟨hwhole, hfraction, hplaces, rfl⟩, hvalue⟩
      rw [scaled_eq hplaces, length_signAsZero, Nat.cast_inj] at hvalue
      rw [length_signAsZero] at hplaces
      exact ⟨hwhole, hfraction, hplaces, hvalue.symm⟩
  · rw [hsplit, List.map_cons, List.map_cons, List.map_cons] at hparts
    constructor
    · intro hresult
      rw [fromStr, hsplit] at hresult
      cases hresult
    · rintro ⟨number, hdenotes, -⟩
      exact absurd hdenotes (not_denotes hparts)

/-- Reading never traps: a scaled fraction stays below one. -/
theorem fromStr_ne_abort (input : String) : fromStr input ≠ .error .abort := by
  rw [fromStr]
  split
  · apply orError_bind_ne_abort
    intro word hword
    apply orError_bind_ne_abort
    intro atomics hatomics hresult
    cases hresult
  · next whole fraction hsplit =>
      apply orError_bind_ne_abort
      intro word hword
      apply orError_bind_ne_abort
      intro word' hword'
      apply orError_bind_ne_abort
      intro exp hexp
      apply orError_bind_ne_abort
      intro factor hfactor
      apply orError_bind_ne_abort
      intro wholeAsAtomics hwholeAsAtomics
      have hfraction := parseU128_eq_some_iff.1 hword'
      obtain ⟨hplaces, rfl⟩ :=
        (freePlaces_eq_some_iff hfraction.1.2).1 hexp
      have hfits : word'.toNat * factor.toNat < 2 ^ 128 := by
        rw [← checkedPow_eq_some_iff.1 hfactor, ← hfraction.2]
        exact (scaled_fraction_lt hfraction.1.2 hplaces).trans (by decide)
      apply orAbort_bind_ne_abort (checkedMul_of_lt hfits)
      apply orError_bind_ne_abort
      intro atomics hatomics hresult
      cases hresult
  · intro hresult
    cases hresult

/-! ## What is written -/

/-- The text of a decimal is its number, printed in units of the last place. -/
theorem toList_toString (decimal : Decimal) :
    decimal.toString.toList = print 18 decimal.atomics.toNat := by
  have hwhole : (decimal.atomics / decimalFractional).toNat =
      decimal.atomics.toNat / 10 ^ 18 := BitVec.toNat_udiv
  have hfractional : (decimal.atomics % decimalFractional).toNat =
      decimal.atomics.toNat % 10 ^ 18 := BitVec.toNat_umod
  have hzero : decimal.atomics % decimalFractional = 0 ↔
      trimEnd (pad 18 (decimal.atomics.toNat % 10 ^ 18)) = [] := by
    rw [trimEnd_pad_eq_nil_iff, ← hfractional, ← BitVec.toNat_inj]
    rfl
  rw [toString, print, join, hwhole, hfractional]
  simp only [hzero]
  split <;> rw [String.toList_ofList]

theorem denotes_toString (decimal : Decimal) :
    Denotes 18 decimal.toString.toList
      (decimal.atomics.toNat / 10 ^ 18) := by
  rw [toList_toString]
  exact denotes_print (by decide) _

theorem canonical_toString (decimal : Decimal) :
    Canonical decimal.toString.toList
      (decimal.atomics.toNat / 10 ^ 18) := by
  rw [toList_toString]
  exact canonical_print (by decide) _

/-- What is written is read back. -/
theorem fromStr_toString (decimal : Decimal) :
    fromStr decimal.toString = .ok decimal := by
  have hdenotes := denotes_toString decimal
  rw [fromStr_eq_ok_iff, signsAsZeros_of_denotes hdenotes]
  exact ⟨_, hdenotes, (div_mul_cancel₀ _ (by positivity)).symm⟩

theorem visitStr_serialize (display : StdError → String) (decimal : Decimal) :
    visitStr display decimal.serialize = .ok decimal := by
  rw [visitStr, serialize, fromStr_toString]

end Decimal

end FixedMultisig
