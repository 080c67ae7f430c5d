import FixedMultisig.Contract.DecimalText

/-!
# Which texts are read as decimals

`Decimal::from_str` is meant to read digits with at most one dot and at most 18
digits behind it, without any rounding.  Its two parts go through the reader of
machine words, which takes a plus sign as well, so `+1` is read, and so is
`1.+5`, where the sign is counted as a place: the text is read as `1.05`.  These
are all the texts on which it differs from its grammar.
-/

namespace FixedMultisig

open CheckedWord Numeral

/-- The greatest number that a decimal represents. -/
def greatestDecimal : ℚ := (2 ^ 128 - 1) / 10 ^ 18

/-- The text is read exactly when it is a number of the grammar that can be
represented, and then exactly that number is read. -/
def FollowsGrammar (input : String) : Prop :=
  Decimal.fromStr input ≠ .error .abort ∧
    ∀ decimal, Decimal.fromStr input = .ok decimal ↔
      ∃ number, Denotes 18 input.toList number ∧ number ≤ greatestDecimal ∧
        (decimal.atomics.toNat : ℚ) = number * 10 ^ 18

/-- A plus sign stands before something in a part of the text, and with a zero
in the place of every such sign the text is a number that can be
represented. -/
def SignedNumeral (text : List Char) : Prop :=
  signsAsZeros text ≠ text ∧
    ∃ number, Denotes 18 (signsAsZeros text) number ∧ number ≤ greatestDecimal

theorem le_greatestDecimal_iff {number : ℚ} {units : ℕ}
    (hunits : number * 10 ^ 18 = units) :
    number ≤ greatestDecimal ↔ units < 2 ^ 128 := by
  rw [greatestDecimal, le_div_iff₀ (by positivity), hunits, le_sub_iff_add_le]
  exact_mod_cast Nat.succ_le_iff

/-- The texts that break the grammar are those with a sign. -/
theorem followsGrammar_iff (input : String) :
    FollowsGrammar input ↔ ¬ SignedNumeral input.toList := by
  constructor
  · rintro ⟨-, hgrammar⟩ ⟨hsigned, number, hdenotes, hgreatest⟩
    obtain ⟨units, hunits⟩ := hdenotes.exists_units
    have hfits := toNat_ofNat_of_lt ((le_greatestDecimal_iff hunits).1 hgreatest)
    have hread : Decimal.fromStr input = .ok ⟨BitVec.ofNat 128 units⟩ := by
      rw [Decimal.fromStr_eq_ok_iff]
      exact ⟨number, hdenotes, by rw [hunits, hfits]⟩
    obtain ⟨number', hdenotes', -⟩ := (hgrammar _).1 hread
    exact hsigned (signsAsZeros_of_denotes hdenotes')
  · intro hunsigned
    refine ⟨Decimal.fromStr_ne_abort input, fun decimal => ?_⟩
    rw [Decimal.fromStr_eq_ok_iff]
    constructor
    · rintro ⟨number, hdenotes, hvalue⟩
      have hgreatest : number ≤ greatestDecimal :=
        (le_greatestDecimal_iff hvalue.symm).2 decimal.atomics.isLt
      have hplain : signsAsZeros input.toList = input.toList := by
        by_contra hsigned
        exact hunsigned ⟨hsigned, number, hdenotes, hgreatest⟩
      rw [hplain] at hdenotes
      exact ⟨number, hdenotes, hgreatest, hvalue⟩
    · rintro ⟨number, hdenotes, -, hvalue⟩
      rw [signsAsZeros_of_denotes hdenotes]
      exact ⟨number, hdenotes, hvalue⟩

section Example

/-- A sign in front of the whole part is dropped, one in front of the fraction
shifts its digits. -/
theorem plus_signs_read :
    (Decimal.fromStr "+1" = .ok (.percent 100) ∧ ¬ FollowsGrammar "+1") ∧
      Decimal.fromStr "1.+5" = .ok (.percent 105) ∧
      ¬ FollowsGrammar "1.+5" := by
  have hone : Decimal.fromStr "+1" = .ok (.percent 100) := by decide +kernel
  have hfive : Decimal.fromStr "1.+5" = .ok (.percent 105) := by
    decide +kernel
  refine ⟨⟨hone, fun hgrammar => ?_⟩, hfive, fun hgrammar => ?_⟩
  · obtain ⟨number, hdenotes, -⟩ := (hgrammar.2 _).1 hone
    exact absurd (signsAsZeros_of_denotes hdenotes) (by decide +kernel)
  · obtain ⟨number, hdenotes, -⟩ := (hgrammar.2 _).1 hfive
    exact absurd (signsAsZeros_of_denotes hdenotes) (by decide +kernel)

/-- The dot needs digits on both sides. -/
example : Decimal.fromStr ".23" =
    .error (.error (.genericErr "Error parsing whole")) := by decide +kernel

example : Decimal.fromStr "1.2.3" =
    .error (.error (.genericErr "Unexpected number of dots")) := by
  decide +kernel

end Example

end FixedMultisig
