import Mathlib.Algebra.Order.Field.Rat
import Mathlib.Data.List.DropRight
import Mathlib.Data.Rat.Cast.Order
import Mathlib.Tactic.FieldSimp
import Mathlib.Tactic.Linarith
import Mathlib.Tactic.Positivity
import Mathlib.Tactic.Ring

/-!
# Decimal numerals

Texts of decimal digits with at most one dot, and the rational number each of
them denotes.  Many texts denote the same number; exactly one of them has no
superfluous zero, and every other one is longer.  A whole number read in units
of `10 ^ -places` is printed as that text.
-/

namespace FixedMultisig.Numeral

/-! ## Digits -/

/-- The number a list of digits stands for. -/
def value (digits : List Char) : ℕ := Nat.ofDigitChars 10 digits 0

def AllDigits (text : List Char) : Prop := ∀ c ∈ text, c.isDigit = true

/-- One digit or more. -/
def IsDigits (text : List Char) : Prop := text ≠ [] ∧ AllDigits text

instance (text : List Char) : Decidable (AllDigits text) :=
  List.decidableBAll _ text

instance (text : List Char) : Decidable (IsDigits text) :=
  inferInstanceAs (Decidable (_ ∧ _))

variable {left right whole whole' fraction fraction' : List Char}

@[simp]
theorem value_nil : value [] = 0 := rfl

@[simp]
theorem allDigits_nil : AllDigits [] := by simp [AllDigits]

@[simp]
theorem allDigits_append :
    AllDigits (left ++ right) ↔ AllDigits left ∧ AllDigits right :=
  List.forall_mem_append

@[simp]
theorem allDigits_zeros (count : ℕ) :
    AllDigits (List.replicate count '0') := by
  intro c hc
  rw [List.eq_of_mem_replicate hc]
  rfl

/-- Digits that follow shift the ones before them. -/
theorem value_append (left right : List Char) :
    value (left ++ right) = value left * 10 ^ right.length + value right := by
  rw [value, Nat.ofDigitChars_append, Nat.ofDigitChars_eq_ofDigitChars_zero,
    Nat.mul_comm]
  rfl

theorem value_append_zeros (digits : List Char) (count : ℕ) :
    value (digits ++ List.replicate count '0') = value digits * 10 ^ count := by
  rw [value, Nat.ofDigitChars_append, Nat.ofDigitChars_replicate_zero,
    Nat.mul_comm]
  rfl

@[simp]
theorem value_zeros_append (count : ℕ) (digits : List Char) :
    value (List.replicate count '0' ++ digits) = value digits := by
  rw [value, Nat.ofDigitChars_append, Nat.ofDigitChars_replicate_zero,
    Nat.mul_zero]
  rfl

@[simp]
theorem value_toDigits (number : ℕ) :
    value (Nat.toDigits 10 number) = number :=
  Nat.ofDigitChars_ten_toDigits

theorem isDigits_toDigits (number : ℕ) : IsDigits (Nat.toDigits 10 number) :=
  ⟨Nat.toDigits_ne_nil, fun _ hc =>
    Nat.isDigit_of_mem_toDigits (by decide) (by decide) hc⟩

theorem value_cons (c : Char) (digits : List Char) :
    value (c :: digits) = value [c] * 10 ^ digits.length + value digits :=
  value_append [c] digits

/-- One digit stands for a number below ten, and is known by it. -/
theorem value_singleton (c : Char) : value [c] = c.toNat - 48 := by
  simp [value, Nat.ofDigitChars_cons]

theorem value_singleton_lt {c : Char} (hdigit : c.isDigit = true) :
    value [c] < 10 := by
  have hrange := Char.isDigit_iff_toNat.1 hdigit
  have hnine : '9'.toNat = 57 := rfl
  rw [value_singleton]
  omega

theorem value_singleton_inj {c c' : Char} (hdigit : c.isDigit = true)
    (hdigit' : c'.isDigit = true) (hvalue : value [c] = value [c']) :
    c = c' := by
  have hrange := Char.isDigit_iff_toNat.1 hdigit
  have hrange' := Char.isDigit_iff_toNat.1 hdigit'
  have hzero : '0'.toNat = 48 := rfl
  rw [value_singleton, value_singleton] at hvalue
  apply Char.toNat_inj.1
  omega

/-- A list of digits stands for a number of no more digits. -/
theorem value_lt {digits : List Char} (hdigits : AllDigits digits) :
    value digits < 10 ^ digits.length := by
  induction digits with
  | nil => simp
  | cons c digits ih =>
      have hhead := value_singleton_lt (hdigits c (List.mem_cons_self ..))
      have htail := ih fun d hd => hdigits d (List.mem_cons_of_mem _ hd)
      rw [value_cons, List.length_cons, Nat.pow_succ]
      calc
        value [c] * 10 ^ digits.length + value digits <
            value [c] * 10 ^ digits.length + 10 ^ digits.length :=
          Nat.add_lt_add_left htail _
        _ = (value [c] + 1) * 10 ^ digits.length := by ring
        _ ≤ 10 * 10 ^ digits.length :=
          Nat.mul_le_mul_right _ (Nat.succ_le_of_lt hhead)
        _ = 10 ^ digits.length * 10 := Nat.mul_comm _ _

/-- Lists of equally many digits that stand for the same number are equal. -/
theorem value_inj (hleft : AllDigits left) (hright : AllDigits right)
    (hlength : left.length = right.length)
    (hvalue : value left = value right) : left = right := by
  induction left generalizing right with
  | nil => exact (List.length_eq_zero_iff.1 hlength.symm).symm
  | cons c left ih =>
      cases right with
      | nil => exact absurd hlength (Nat.succ_ne_zero _)
      | cons c' right =>
          have hlength' : left.length = right.length :=
            Nat.succ.inj hlength
          have hleft' : AllDigits left := fun d hd =>
            hleft d (List.mem_cons_of_mem _ hd)
          have hright' : AllDigits right := fun d hd =>
            hright d (List.mem_cons_of_mem _ hd)
          have hbound := value_lt hleft'
          have hbound' := value_lt hright'
          rw [value_cons c, value_cons c', hlength', Nat.mul_comm,
            Nat.mul_comm (value [c'])] at hvalue
          rw [hlength'] at hbound
          -- Division by the weight of the first digit separates it.
          have hhead : value [c] = value [c'] := by
            have hdiv := congrArg (· / 10 ^ right.length) hvalue
            simpa [Nat.mul_add_div, Nat.div_eq_of_lt, hbound, hbound']
              using hdiv
          rw [hhead, Nat.add_left_cancel_iff] at hvalue
          rw [ih hleft' hright' hlength' hvalue,
            value_singleton_inj (hleft c (List.mem_cons_self ..))
              (hright c' (List.mem_cons_self ..)) hhead]

/-! ## What a text denotes -/

/-- A whole number, or a whole number with a dot and at most `places` digits
behind it. -/
inductive Denotes (places : ℕ) : List Char → ℚ → Prop
  | whole {whole : List Char} (hwhole : IsDigits whole) :
      Denotes places whole (value whole)
  | point {whole fraction : List Char} (hwhole : IsDigits whole)
      (hfraction : IsDigits fraction) (hplaces : fraction.length ≤ places) :
      Denotes places (whole ++ '.' :: fraction)
        (value whole + value fraction / 10 ^ fraction.length)

/-- No zero stands at the front, unless it stands alone. -/
def Leading (whole : List Char) : Prop :=
  whole.head? = some '0' → whole = ['0']

/-- What a text denotes that has no superfluous leading zero, no trailing zero
behind its dot and no bare dot. -/
inductive Canonical : List Char → ℚ → Prop
  | whole {whole : List Char} (hwhole : IsDigits whole)
      (hleading : Leading whole) : Canonical whole (value whole)
  | point {whole fraction : List Char} (hwhole : IsDigits whole)
      (hleading : Leading whole) (hfraction : IsDigits fraction)
      (htrailing : fraction.getLast? ≠ some '0') :
      Canonical (whole ++ '.' :: fraction)
        (value whole + value fraction / 10 ^ fraction.length)

/-- A whole part and a fraction, with a dot between them if there is one. -/
def join (whole fraction : List Char) : List Char :=
  if fraction = [] then whole else whole ++ '.' :: fraction

theorem length_join (whole fraction : List Char) :
    (join whole fraction).length = whole.length +
      if fraction = [] then 0 else fraction.length + 1 := by
  rw [join]
  split <;> simp

/-- Both kinds of text at once: without a dot the fraction is empty. -/
theorem Denotes.join {places : ℕ} (hwhole : IsDigits whole)
    (hfraction : AllDigits fraction) (hplaces : fraction.length ≤ places) :
    Denotes places (join whole fraction)
      (value whole + value fraction / 10 ^ fraction.length) := by
  by_cases hempty : fraction = []
  · simpa [hempty, Numeral.join] using Denotes.whole hwhole
  · rw [Numeral.join, if_neg hempty]
    exact .point hwhole ⟨hempty, hfraction⟩ hplaces

theorem Denotes.exists_join {places : ℕ} {text : List Char} {number : ℚ}
    (hdenotes : Denotes places text number) :
    ∃ whole fraction, IsDigits whole ∧ AllDigits fraction ∧
      fraction.length ≤ places ∧ text = Numeral.join whole fraction ∧
      number = value whole + value fraction / 10 ^ fraction.length := by
  cases hdenotes with
  | whole hwhole =>
      exact ⟨text, [], hwhole, allDigits_nil, Nat.zero_le _, by
        simp [Numeral.join], by simp⟩
  | @point whole fraction hwhole hfraction hplaces =>
      exact ⟨whole, fraction, hwhole, hfraction.2, hplaces, by
        rw [Numeral.join, if_neg hfraction.1], rfl⟩

theorem Canonical.join (hwhole : IsDigits whole) (hleading : Leading whole)
    (hfraction : AllDigits fraction)
    (htrailing : fraction.getLast? ≠ some '0') :
    Canonical (join whole fraction)
      (value whole + value fraction / 10 ^ fraction.length) := by
  by_cases hempty : fraction = []
  · simpa [hempty, Numeral.join] using Canonical.whole hwhole hleading
  · rw [Numeral.join, if_neg hempty]
    exact .point hwhole hleading ⟨hempty, hfraction⟩ htrailing

theorem Canonical.exists_join {text : List Char} {number : ℚ}
    (hcanonical : Canonical text number) :
    ∃ whole fraction, IsDigits whole ∧ Leading whole ∧ AllDigits fraction ∧
      fraction.getLast? ≠ some '0' ∧ text = Numeral.join whole fraction ∧
      number = value whole + value fraction / 10 ^ fraction.length := by
  cases hcanonical with
  | whole hwhole hleading =>
      exact ⟨text, [], hwhole, hleading, allDigits_nil, by simp, by
        simp [Numeral.join], by simp⟩
  | @point whole fraction hwhole hleading hfraction htrailing =>
      exact ⟨whole, fraction, hwhole, hleading, hfraction.2, htrailing, by
        rw [Numeral.join, if_neg hfraction.1], rfl⟩

theorem not_mem_of_allDigits {c : Char} (hdigits : AllDigits whole)
    (hc : c.isDigit = false) : c ∉ whole := fun hmem =>
  Bool.false_ne_true (hc.symm.trans (hdigits c hmem))

/-- A part between two separators holds none of them. -/
theorem not_mem_of_mem_splitOn {A : Type*} [BEq A] [LawfulBEq A] {separator : A}
    {text part : List A} (hpart : part ∈ text.splitOn separator) :
    separator ∉ part := by
  induction text generalizing part with
  | nil =>
      rw [List.splitOn_nil, List.mem_singleton] at hpart
      rw [hpart]
      exact List.not_mem_nil
  | cons c text ih =>
      rw [List.splitOn_cons_eq_if_modifyHead] at hpart
      split at hpart
      · rcases List.mem_cons.1 hpart with rfl | hpart
        · exact List.not_mem_nil
        · exact ih hpart
      · next hc =>
          cases hsplit : text.splitOn separator with
          | nil => exact absurd hsplit (List.splitOn_ne_nil _ _)
          | cons first rest =>
              rw [hsplit] at hpart
              rcases List.mem_cons.1 hpart with rfl | hpart
              · have hfirst : separator ∉ first :=
                  ih (hsplit ▸ List.mem_cons_self)
                intro hmem
                rcases List.mem_cons.1 hmem with rfl | hmem
                · exact hc (beq_self_eq_true _)
                · exact hfirst hmem
              · exact ih (hsplit ▸ List.mem_cons_of_mem _ hpart)

/-- What a text denotes, told from its parts between the dots. -/
theorem denotes_iff_splitOn {places : ℕ} {text : List Char} {number : ℚ} :
    Denotes places text number ↔
      (∃ whole, text.splitOn '.' = [whole] ∧ IsDigits whole ∧
        number = value whole) ∨
      ∃ whole fraction, text.splitOn '.' = [whole, fraction] ∧
        IsDigits whole ∧ IsDigits fraction ∧ fraction.length ≤ places ∧
        number = value whole + value fraction / 10 ^ fraction.length := by
  constructor
  · intro hdenotes
    cases hdenotes with
    | whole hwhole =>
        have hdot := not_mem_of_allDigits (c := '.') hwhole.2 rfl
        exact .inl ⟨text, List.splitOn_eq_singleton hdot, hwhole, rfl⟩
    | @point whole fraction hwhole hfraction hplaces =>
        have hdot := not_mem_of_allDigits (c := '.') hwhole.2 rfl
        have hdot' := not_mem_of_allDigits (c := '.') hfraction.2 rfl
        refine .inr ⟨whole, fraction, ?_, hwhole, hfraction, hplaces, rfl⟩
        rw [List.splitOn_append_cons_self_of_not_mem hdot,
          List.splitOn_eq_singleton hdot']
  · rintro (⟨whole, hsplit, hwhole, rfl⟩ |
      ⟨whole, fraction, hsplit, hwhole, hfraction, hplaces, rfl⟩)
    · have htext : ['.'].intercalate (text.splitOn '.') = text :=
        List.intercalate_splitOn '.'
      rw [hsplit] at htext
      subst htext
      simpa using Denotes.whole hwhole
    · have htext : ['.'].intercalate (text.splitOn '.') = text :=
        List.intercalate_splitOn '.'
      rw [hsplit] at htext
      subst htext
      simpa using Denotes.point hwhole hfraction hplaces

section Parts

variable {places : ℕ} {text : List Char} {number : ℚ}

theorem denotes_iff_of_whole (hsplit : text.splitOn '.' = [whole]) :
    Denotes places text number ↔ IsDigits whole ∧ number = value whole := by
  simp [denotes_iff_splitOn, hsplit]

theorem denotes_iff_of_parts (hsplit : text.splitOn '.' = [whole, fraction]) :
    Denotes places text number ↔
      IsDigits whole ∧ IsDigits fraction ∧ fraction.length ≤ places ∧
        number = value whole + value fraction / 10 ^ fraction.length := by
  simp [denotes_iff_splitOn, hsplit]

/-- Two dots are too many. -/
theorem not_denotes {third : List Char} {rest : List (List Char)}
    (hsplit : text.splitOn '.' = whole :: fraction :: third :: rest) :
    ¬ Denotes places text number := by
  simp [denotes_iff_splitOn, hsplit]

end Parts

/-- What is denoted within some places is whole in units of the last place. -/
theorem scaled_eq {places : ℕ} (hplaces : fraction.length ≤ places) :
    ((value whole : ℚ) + value fraction / 10 ^ fraction.length) * 10 ^ places =
      (value whole * 10 ^ places +
        value fraction * 10 ^ (places - fraction.length) : ℕ) := by
  have hsplit : (10 : ℚ) ^ places =
      10 ^ fraction.length * 10 ^ (places - fraction.length) := by
    rw [← pow_add, Nat.add_sub_cancel' hplaces]
  push_cast
  rw [add_mul, add_right_inj, hsplit, ← mul_assoc,
    div_mul_cancel₀ _ (by positivity)]

theorem Denotes.exists_units {places : ℕ} {text : List Char} {number : ℚ}
    (hdenotes : Denotes places text number) :
    ∃ units : ℕ, number * 10 ^ places = units := by
  obtain ⟨whole, fraction, -, -, hplaces, -, rfl⟩ := hdenotes.exists_join
  exact ⟨_, scaled_eq hplaces⟩

/-! ## The canonical text is the shortest -/

theorem fraction_lt_one (hfraction : AllDigits fraction) :
    (value fraction : ℚ) / 10 ^ fraction.length < 1 := by
  rw [div_lt_one (by positivity)]
  exact_mod_cast value_lt hfraction

/-- Equal numbers have equal whole parts, and equal fractions over a common
denominator. -/
theorem parts_eq (hfraction : AllDigits fraction)
    (hfraction' : AllDigits fraction')
    (hnumber : (value whole : ℚ) + value fraction / 10 ^ fraction.length =
      value whole' + value fraction' / 10 ^ fraction'.length) :
    value whole = value whole' ∧
      value fraction * 10 ^ fraction'.length =
        value fraction' * 10 ^ fraction.length := by
  have hlt := fraction_lt_one hfraction
  have hlt' := fraction_lt_one hfraction'
  have hnonneg : (0 : ℚ) ≤ value fraction / 10 ^ fraction.length := by
    positivity
  have hnonneg' : (0 : ℚ) ≤ value fraction' / 10 ^ fraction'.length := by
    positivity
  have hle : (value whole : ℚ) < value whole' + 1 := by linarith
  have hle' : (value whole' : ℚ) < value whole + 1 := by linarith
  have hwhole : value whole = value whole' := by
    apply le_antisymm
    · exact Nat.lt_succ_iff.1 (by exact_mod_cast hle)
    · exact Nat.lt_succ_iff.1 (by exact_mod_cast hle')
  refine ⟨hwhole, ?_⟩
  rw [hwhole, add_right_inj,
    div_eq_div_iff (by positivity) (by positivity)] at hnumber
  exact_mod_cast hnumber

/-- A number whose first digit is not zero needs all its digits. -/
theorem pow_le_value {c : Char} {digits : List Char} (hc : c.isDigit = true)
    (hne : c ≠ '0') : 10 ^ digits.length ≤ value (c :: digits) := by
  have hpos : 0 < value [c] := by
    rw [Nat.pos_iff_ne_zero]
    intro hzero
    exact hne (value_singleton_inj hc rfl hzero)
  rw [value_cons]
  calc
    10 ^ digits.length ≤ value [c] * 10 ^ digits.length :=
      Nat.le_mul_of_pos_left _ hpos
    _ ≤ value [c] * 10 ^ digits.length + value digits := Nat.le_add_right _ _

/-- Without superfluous zeros at the front, a whole number is shortest. -/
theorem whole_shortest (hwhole : IsDigits whole) (hleading : Leading whole)
    (hwhole' : IsDigits whole') (hvalue : value whole = value whole') :
    whole' = whole ∨ whole.length < whole'.length := by
  rcases Nat.lt_trichotomy whole.length whole'.length with hlt | heq | hgt
  · exact .inr hlt
  · exact .inl (value_inj hwhole'.2 hwhole.2 heq.symm hvalue.symm)
  · -- The shorter text would stand for too small a number.
    exfalso
    have hpos := List.length_pos_iff.2 hwhole'.1
    cases whole with
    | nil => exact hwhole.1 rfl
    | cons c digits =>
        have hc : c ≠ '0' := by
          rintro rfl
          rw [hleading rfl, List.length_singleton] at hgt
          omega
        have hlarge : 10 ^ digits.length ≤ value (c :: digits) :=
          pow_le_value (hwhole.2 c (List.mem_cons_self ..)) hc
        have hsmall : value whole' < 10 ^ digits.length :=
          (value_lt hwhole'.2).trans_le
            (Nat.pow_le_pow_right (by decide) (Nat.le_of_lt_succ hgt))
        omega

/-- Without zeros at the end, a fraction is shortest. -/
theorem fraction_shortest (hfraction : AllDigits fraction)
    (htrailing : fraction.getLast? ≠ some '0')
    (hfraction' : AllDigits fraction')
    (hvalue : value fraction * 10 ^ fraction'.length =
      value fraction' * 10 ^ fraction.length) :
    fraction' = fraction ∨ fraction.length < fraction'.length := by
  have hpadded : fraction ++ List.replicate fraction'.length '0' =
      fraction' ++ List.replicate fraction.length '0' := by
    apply value_inj
    · simpa using hfraction
    · simpa using hfraction'
    · simp [Nat.add_comm]
    · rw [value_append_zeros, value_append_zeros, hvalue]
  rcases Nat.lt_or_ge fraction.length fraction'.length with hlt | hge
  · exact .inr hlt
  · left
    obtain ⟨more, hmore⟩ := Nat.exists_eq_add_of_le hge
    rw [hmore, Nat.add_comm, List.replicate_add, ← List.append_assoc,
      List.append_cancel_right_eq] at hpadded
    cases more with
    | zero => simpa using hpadded.symm
    | succ more =>
        rw [hpadded, List.replicate_succ', ← List.append_assoc,
          List.getLast?_concat] at htrailing
        exact absurd rfl htrailing

/-- Every other text that denotes the number is longer. -/
theorem Canonical.shortest {places : ℕ} {text text' : List Char} {number : ℚ}
    (hcanonical : Canonical text number)
    (hdenotes : Denotes places text' number) :
    text' = text ∨ text.length < text'.length := by
  obtain ⟨whole, fraction, hwhole, hleading, hfraction, htrailing, rfl,
    hnumber⟩ := hcanonical.exists_join
  obtain ⟨whole', fraction', hwhole', hfraction', -, rfl, hnumber'⟩ :=
    hdenotes.exists_join
  obtain ⟨hvalue, hscaled⟩ :=
    parts_eq hfraction hfraction' (hnumber.symm.trans hnumber')
  rw [length_join, length_join]
  rcases whole_shortest hwhole hleading hwhole' hvalue with hw | hw <;>
    rcases fraction_shortest hfraction htrailing hfraction' hscaled with
      hf | hf
  · exact .inl (by rw [hw, hf])
  · right
    have hne : fraction' ≠ [] := List.ne_nil_of_length_pos (by omega)
    rw [hw, if_neg hne]
    split <;> omega
  · right
    rw [hf]
    omega
  · right
    have hne : fraction' ≠ [] := List.ne_nil_of_length_pos (by omega)
    rw [if_neg hne]
    split <;> omega

/-! ## Printing -/

/-- A number with zeros in front of it, up to `places` digits. -/
def pad (places number : ℕ) : List Char :=
  List.leftpad places '0' (Nat.toDigits 10 number)

/-- A fraction without the zeros at its end. -/
def trimEnd (fraction : List Char) : List Char :=
  fraction.rdropWhile (· == '0')

/-- A number of units of `10 ^ -places`. -/
def print (places units : ℕ) : List Char :=
  join (Nat.toDigits 10 (units / 10 ^ places))
    (trimEnd (pad places (units % 10 ^ places)))

theorem allDigits_pad (places number : ℕ) : AllDigits (pad places number) := by
  rw [pad, List.leftpad, allDigits_append]
  exact ⟨allDigits_zeros _, (isDigits_toDigits number).2⟩

@[simp]
theorem value_pad (places number : ℕ) : value (pad places number) = number := by
  rw [pad, List.leftpad, value_zeros_append, value_toDigits]

theorem length_pad {places number : ℕ} (hplaces : 0 < places)
    (hfits : number < 10 ^ places) : (pad places number).length = places := by
  have hlength := (Nat.length_toDigits_le_iff (by decide) hplaces).2 hfits
  rw [pad, List.leftpad, List.length_append, List.length_replicate]
  omega

/-- What is trimmed off are zeros. -/
theorem trimEnd_append_zeros (fraction : List Char) :
    ∃ count, trimEnd fraction ++ List.replicate count '0' = fraction := by
  refine ⟨(fraction.rtakeWhile (· == '0')).length, ?_⟩
  have hzeros : List.replicate (fraction.rtakeWhile (· == '0')).length '0' =
      fraction.rtakeWhile (· == '0') := by
    symm
    rw [List.eq_replicate_iff]
    exact ⟨rfl, fun c hc => by simpa using List.mem_rtakeWhile_imp hc⟩
  rw [hzeros, trimEnd, List.rdropWhile_append_rtakeWhile]

theorem getLast?_trimEnd (fraction : List Char) :
    (trimEnd fraction).getLast? ≠ some '0' := by
  intro hlast
  have hne : trimEnd fraction ≠ [] := by
    intro hnil
    rw [hnil] at hlast
    cases hlast
  have hnot := List.rdropWhile_last_not (· == '0') fraction hne
  rw [List.getLast?_eq_getLast_of_ne_nil hne, Option.some.injEq] at hlast
  exact hnot (beq_iff_eq.2 hlast)

/-- Trimming changes no fraction. -/
theorem value_trimEnd (fraction : List Char) :
    (value (trimEnd fraction) : ℚ) / 10 ^ (trimEnd fraction).length =
      value fraction / 10 ^ fraction.length := by
  obtain ⟨count, hcount⟩ := trimEnd_append_zeros fraction
  calc
    (value (trimEnd fraction) : ℚ) / 10 ^ (trimEnd fraction).length =
        value (trimEnd fraction ++ List.replicate count '0') /
          10 ^ (trimEnd fraction ++ List.replicate count '0').length := by
      rw [value_append_zeros, List.length_append, List.length_replicate,
        pow_add]
      push_cast
      field_simp
    _ = value fraction / 10 ^ fraction.length := by rw [hcount]

theorem allDigits_trimEnd {fraction : List Char}
    (hfraction : AllDigits fraction) : AllDigits (trimEnd fraction) := fun _ hc =>
  hfraction _ ((List.rdropWhile_prefix _ _).subset hc)

theorem length_trimEnd_le (fraction : List Char) :
    (trimEnd fraction).length ≤ fraction.length :=
  (List.rdropWhile_prefix _ _).length_le

/-- Nothing is left of a fraction exactly when it is zero. -/
theorem trimEnd_pad_eq_nil_iff {places number : ℕ} :
    trimEnd (pad places number) = [] ↔ number = 0 := by
  constructor
  · intro hnil
    obtain ⟨count, hcount⟩ := trimEnd_append_zeros (pad places number)
    have hvalue := congrArg value hcount
    rw [hnil, value_append_zeros, value_nil, Nat.zero_mul, value_pad] at hvalue
    exact hvalue.symm
  · rintro rfl
    rw [trimEnd, List.rdropWhile_eq_nil_iff]
    intro c hc
    rw [pad, List.leftpad, List.mem_append, Nat.toDigits_zero,
      List.mem_singleton] at hc
    rcases hc with hc | hc
    · exact beq_iff_eq.2 (List.eq_of_mem_replicate hc)
    · exact beq_iff_eq.2 hc

theorem leading_toDigits (number : ℕ) : Leading (Nat.toDigits 10 number) := by
  intro hhead
  obtain ⟨digits, hdigits⟩ := List.head?_eq_some_iff.1 hhead
  rw [hdigits]
  have hvalue : value digits = number := by
    rw [← value_toDigits number, hdigits, value_cons]
    simp [value_singleton]
  have hall : AllDigits digits := fun d hd =>
    (isDigits_toDigits number).2 d (hdigits ▸ List.mem_cons_of_mem _ hd)
  -- The digits behind a leading zero would be enough.
  rcases Nat.eq_zero_or_pos digits.length with hempty | hpos
  · rw [List.length_eq_zero_iff.1 hempty]
  · have hlength := (Nat.length_toDigits_le_iff (by decide) hpos).2
      (hvalue ▸ value_lt hall)
    rw [hdigits, List.length_cons] at hlength
    omega

/-- The numerals of a number are its digits with zeros in front of them. -/
theorem isDigits_and_value_iff {digits : List Char} {number : ℕ} :
    IsDigits digits ∧ value digits = number ↔
      ∃ count, digits = List.replicate count '0' ++ Nat.toDigits 10 number := by
  have hprinted := isDigits_toDigits number
  constructor
  · rintro ⟨hdigits, rfl⟩
    have hlength : (Nat.toDigits 10 (value digits)).length ≤ digits.length := by
      rcases whole_shortest hprinted (leading_toDigits _) hdigits
        (value_toDigits _) with heq | hlt
      · exact (congrArg List.length heq).ge
      · exact hlt.le
    refine ⟨digits.length - (Nat.toDigits 10 (value digits)).length, ?_⟩
    apply value_inj hdigits.2
      (allDigits_append.2 ⟨allDigits_zeros _, hprinted.2⟩)
    · rw [List.length_append, List.length_replicate, Nat.sub_add_cancel hlength]
    · rw [value_zeros_append, value_toDigits]
  · rintro ⟨count, rfl⟩
    refine ⟨⟨?_, allDigits_append.2 ⟨allDigits_zeros _, hprinted.2⟩⟩, ?_⟩
    · exact List.append_ne_nil_of_right_ne_nil _ hprinted.1
    · rw [value_zeros_append, value_toDigits]

section Print

variable {places : ℕ} (hplaces : 0 < places) (units : ℕ)

include hplaces

/-- The parts of the printed text make up the number. -/
theorem print_parts :
    (value (Nat.toDigits 10 (units / 10 ^ places)) : ℚ) +
        value (trimEnd (pad places (units % 10 ^ places))) /
          10 ^ (trimEnd (pad places (units % 10 ^ places))).length =
      units / 10 ^ places := by
  have hsplit := Nat.div_add_mod units (10 ^ places)
  have hrest : units % 10 ^ places < 10 ^ places :=
    Nat.mod_lt _ (by positivity)
  rw [value_trimEnd, value_toDigits, value_pad, length_pad hplaces hrest,
    eq_div_iff (by positivity), add_mul, div_mul_cancel₀ _ (by positivity),
    mul_comm]
  exact_mod_cast hsplit

/-- A printed number is the canonical text of its value. -/
theorem canonical_print :
    Canonical (print places units) (units / 10 ^ places) := by
  rw [← print_parts hplaces]
  exact .join (isDigits_toDigits _) (leading_toDigits _)
    (allDigits_trimEnd (allDigits_pad _ _)) (getLast?_trimEnd _)

theorem denotes_print :
    Denotes places (print places units) (units / 10 ^ places) := by
  rw [← print_parts hplaces]
  apply Denotes.join (isDigits_toDigits _)
    (allDigits_trimEnd (allDigits_pad _ _))
  apply (length_trimEnd_le _).trans
  rw [length_pad hplaces (Nat.mod_lt _ (by positivity))]

end Print

end FixedMultisig.Numeral
