import Lox.Number.Form
import Lox.Proofs.Numbers.Decimals

/-!
# What digits are worth

A numeral is a row of digits, with or without a point and more digits behind it. Every way of laying out
a decimal without an exponent is a numeral of its value.
-/

namespace Lox

/-- The characters are digits, and there are some. -/
def AreDigits (text : List Char) : Prop := text ≠ [] ∧ ∀ c ∈ text, c.isDigit = true

/-- The text is a numeral, and this is its value. -/
inductive Spells : List Char → ℚ → Prop where
  | whole {whole : List Char} (digits : AreDigits whole) : Spells whole (Nat.ofDigitChars 10 whole 0)
  | fraction {whole fraction : List Char} (digits : AreDigits whole) (places : AreDigits fraction) :
    Spells (whole ++ '.' :: fraction)
      (Nat.ofDigitChars 10 (whole ++ fraction) 0 / 10 ^ fraction.length)

/-- The text has a digit in front. -/
def StartsDigit (text : List Char) : Prop := ∃ c after, text = c :: after ∧ c.isDigit = true

/-! ## Rows of digits -/

variable {front back : List Char}

theorem areDigits_toDigits (count : Nat) : AreDigits (Nat.toDigits 10 count) :=
  ⟨Nat.toDigits_ne_nil, fun _ => Nat.isDigit_of_mem_toDigits (by decide) (by decide)⟩

theorem AreDigits.startsDigit (digits : AreDigits front) (back : List Char) :
    StartsDigit (front ++ back) := by
  obtain ⟨c, after, rfl⟩ := List.exists_cons_of_ne_nil digits.1
  exact ⟨c, after ++ back, rfl, digits.2 c (.head _)⟩

theorem Spells.startsDigit {text : List Char} {value : ℚ} (spelled : Spells text value) :
    StartsDigit text := by
  cases spelled with
  | whole digits => exact List.append_nil text ▸ digits.startsDigit []
  | fraction digits _ => exact digits.startsDigit _

theorem isDigit_of_mem_zeros {count : Nat} {c : Char} (member : c ∈ List.replicate count '0') :
    c.isDigit = true := by
  rw [List.eq_of_mem_replicate member]
  rfl

theorem AreDigits.append (digits : AreDigits front) (more : ∀ c ∈ back, c.isDigit = true) :
    AreDigits (front ++ back) :=
  ⟨List.append_ne_nil_of_left_ne_nil digits.1 back, List.forall_mem_append.mpr ⟨digits.2, more⟩⟩

theorem AreDigits.of_append_right (digits : AreDigits back) (more : ∀ c ∈ front, c.isDigit = true) :
    AreDigits (front ++ back) :=
  ⟨List.append_ne_nil_of_right_ne_nil front digits.1, List.forall_mem_append.mpr ⟨more, digits.2⟩⟩

theorem areDigits_zero : AreDigits ['0'] := ⟨List.cons_ne_nil _ _, List.all_eq_true.mp rfl⟩

theorem spells_toDigits (count : Nat) : Spells (Nat.toDigits 10 count) count := by
  have spelled := Spells.whole (areDigits_toDigits count)
  rwa [Nat.ofDigitChars_ten_toDigits] at spelled

/-- A fraction of zero behind the digits changes nothing. -/
theorem AreDigits.spells_pointZero (digits : AreDigits front) :
    Spells (front ++ ['.', '0']) (Nat.ofDigitChars 10 front 0) := by
  have spelled := Spells.fraction digits areDigits_zero
  have zeros : Nat.ofDigitChars 10 ['0'] (Nat.ofDigitChars 10 front 0) =
      10 * Nat.ofDigitChars 10 front 0 := Nat.ofDigitChars_replicate_zero (n := 1)
  rw [Nat.ofDigitChars_append, zeros] at spelled
  convert spelled using 1
  push_cast
  simp

/-! ## Signs -/

/-- A sign is told from the digits behind it. -/
theorem Number.signed_inj {negative negative' : Bool} (starts : StartsDigit front)
    (also : StartsDigit back) (same : signed negative front = signed negative' back) :
    negative = negative' ∧ front = back := by
  have minus : Char.isDigit '-' = false := rfl
  obtain ⟨c, after, rfl, digit⟩ := starts
  obtain ⟨c', after', rfl, digit'⟩ := also
  cases negative with
  | true =>
    cases negative' with
    | true => exact ⟨rfl, (List.cons.inj same).2⟩
    | false =>
      obtain rfl : '-' = c' := (List.cons.inj same).1
      cases minus.symm.trans digit'
  | false =>
    cases negative' with
    | true =>
      obtain rfl : c = '-' := (List.cons.inj same).1
      cases minus.symm.trans digit
    | false => exact ⟨rfl, same⟩

namespace Decimal

variable {d : Decimal}

/-! ## Decimals without an exponent -/

/-- A whole decimal is laid out in digits alone. -/
theorem positional_of_nonneg (whole : 0 ≤ d.exponent) : AreDigits d.positional ∧
    (Nat.ofDigitChars 10 d.positional 0 : ℚ) = d.value := by
  have same : d.positional = Nat.toDigits 10 d.digits ++ List.replicate d.exponent.toNat '0' :=
    if_pos whole
  rw [same]
  refine ⟨(areDigits_toDigits _).append fun _ => isDigit_of_mem_zeros, ?_⟩
  rw [Nat.ofDigitChars_append, Nat.ofDigitChars_ten_toDigits, Nat.ofDigitChars_replicate_zero, value,
    ← Int.toNat_of_nonneg whole, zpow_natCast]
  push_cast
  rw [mul_comm, Int.toNat_natCast]

theorem value_of_neg (places : Nat) (negative : d.exponent = -places) :
    d.value = d.digits / 10 ^ places := by
  rw [value, negative, zpow_neg, zpow_natCast, div_eq_mul_inv]

theorem spells_positional (d : Decimal) : Spells d.positional d.value := by
  by_cases whole : 0 ≤ d.exponent
  · obtain ⟨digits, same⟩ := positional_of_nonneg whole
    exact same ▸ .whole digits
  have digits := areDigits_toDigits d.digits
  have read := Nat.ofDigitChars_ten_toDigits (n := d.digits)
  have point : d.point = (Nat.toDigits 10 d.digits).length + d.exponent := rfl
  unfold positional
  rw [if_neg whole]
  generalize Nat.toDigits 10 d.digits = text at digits read point
  have long : 0 < text.length := List.length_pos_of_ne_nil digits.1
  split
  · -- The point stands between the digits, since the exponent is negative.
    have split := List.take_append_drop d.point.toNat text
    have before : AreDigits (text.take d.point.toNat) :=
      ⟨List.ne_nil_of_length_pos (by rw [List.length_take]; omega),
        fun c member => digits.2 c (List.mem_of_mem_take member)⟩
    have behind : AreDigits (text.drop d.point.toNat) :=
      ⟨List.ne_nil_of_length_pos (by rw [List.length_drop]; omega),
        fun c member => digits.2 c (List.mem_of_mem_drop member)⟩
    have spelled := Spells.fraction before behind
    rwa [split, read, ← value_of_neg _ (by rw [List.length_drop]; omega)] at spelled
  · -- The point stands before the first digit, with zeros in between.
    have behind : AreDigits (List.replicate (-d.point).toNat '0' ++ text) :=
      digits.of_append_right fun _ => isDigit_of_mem_zeros
    have spelled := Spells.fraction areDigits_zero behind
    have zeros : Nat.ofDigitChars 10 (['0'] ++ List.replicate (-d.point).toNat '0') 0 = 0 := by
      rw [Nat.ofDigitChars_append, Nat.ofDigitChars_replicate_zero]
      rfl
    rwa [← List.append_assoc, Nat.ofDigitChars_append, zeros, read,
      ← value_of_neg _ (by rw [List.length_append, List.length_replicate]; omega)] at spelled

end Decimal

end Lox
