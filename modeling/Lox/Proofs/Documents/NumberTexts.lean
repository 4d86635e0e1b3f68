import Lox.Proofs.Numbers.ReadingBack

/-!
# Numbers in documents

A finite number is written into a document with its shortest digits, with or without an exponent. Whatever
way they are laid out, the value of the text is that of the digits, which are rounded to the number: so no
two numbers are written alike.
-/

namespace Lox

/-! ## The value of a text -/

/-- What digits are worth, with or without a fraction. -/
def numeralValue (text : List Char) : ℚ :=
  Nat.ofDigitChars 10 (text.filter Char.isDigit) 0 / 10 ^ (text.dropWhile (· ≠ '.')).tail.length

/-- The exponent that is written behind the digits, if there is one. -/
def exponentValue : List Char → ℤ
  | 'e' :: '-' :: digits => -Nat.ofDigitChars 10 digits 0
  | 'e' :: _ :: digits => Nat.ofDigitChars 10 digits 0
  | _ => 0

def writtenValue (text : List Char) : ℚ :=
  numeralValue (text.takeWhile (· ≠ 'e')) * 10 ^ exponentValue (text.dropWhile (· ≠ 'e'))

/-- The characters that numbers, and `null`, are written with. -/
def isAtomic (c : Char) : Bool := c.isAlphanum || c = '.' || c = '-' || c = '+'

theorem isAtomic_of_isDigit {c : Char} (digit : c.isDigit = true) : isAtomic c = true := by
  simp [isAtomic, Char.isAlphanum, digit]

variable {text : List Char} {value : ℚ}

theorem AreDigits.ne_of_mem {c : Char} (digits : AreDigits text) (member : c ∈ text) :
    c ≠ '.' ∧ c ≠ 'e' := by
  have digit := digits.2 c member
  constructor <;> rintro rfl <;> cases digit

theorem Spells.numeralValue_eq (spelled : Spells text value) : numeralValue text = value := by
  unfold numeralValue
  cases spelled with
  | whole digits =>
    have none : text.dropWhile (· ≠ '.') = [] := List.dropWhile_eq_nil_iff.mpr fun c member =>
      decide_eq_true (digits.ne_of_mem member).1
    rw [List.filter_eq_self.mpr digits.2, none, List.tail_nil, List.length_nil, pow_zero, div_one]
  | @fraction whole fraction digits places =>
    have stops : decide ('.' ≠ '.') = false := by decide
    have none : whole.dropWhile (· ≠ '.') = [] := List.dropWhile_eq_nil_iff.mpr fun c member =>
      decide_eq_true (digits.ne_of_mem member).1
    have point : Char.isDigit '.' = false := rfl
    rw [Scan.dropWhile_append_stop stops, none, List.filter_append, List.filter_cons_of_neg (by simp [point]),
      List.filter_eq_self.mpr digits.2, List.filter_eq_self.mpr places.2]
    rfl

theorem Spells.isDigit_or_point (spelled : Spells text value) {c : Char} (member : c ∈ text) :
    c.isDigit = true ∨ c = '.' := by
  cases spelled with
  | whole digits => exact .inl (digits.2 c member)
  | fraction digits places =>
    obtain front | behind := List.mem_append.mp member
    · exact .inl (digits.2 c front)
    · obtain rfl | further := List.mem_cons.mp behind
      · exact .inr rfl
      · exact .inl (places.2 c further)

theorem Spells.ne_e (spelled : Spells text value) {c : Char} (member : c ∈ text) : c ≠ 'e' := by
  rintro rfl
  obtain digit | point := spelled.isDigit_or_point member
  · cases digit
  · cases point

/-- Without an exponent a text is worth its digits. -/
theorem Spells.writtenValue_eq (spelled : Spells text value) : writtenValue text = value := by
  have digits : ∀ c ∈ text, decide (c ≠ 'e') = true := fun c member =>
    decide_eq_true (spelled.ne_e member)
  rw [writtenValue, List.takeWhile_eq_self_iff.mpr digits, List.dropWhile_eq_nil_iff.mpr digits,
    spelled.numeralValue_eq, show exponentValue [] = 0 from rfl, zpow_zero, mul_one]

theorem Spells.writtenValue_append (spelled : Spells text value) (exponent : List Char) :
    writtenValue (text ++ 'e' :: exponent) = value * 10 ^ exponentValue ('e' :: exponent) := by
  have stops : decide ('e' ≠ 'e') = false := by decide
  have digits : ∀ c ∈ text, decide (c ≠ 'e') = true := fun c member =>
    decide_eq_true (spelled.ne_e member)
  rw [writtenValue, Scan.takeWhile_append_stop stops, Scan.dropWhile_append_stop stops,
    List.takeWhile_eq_self_iff.mpr digits, List.dropWhile_eq_nil_iff.mpr digits, spelled.numeralValue_eq]
  rfl

namespace Decimal

/-! ## Decimals with an exponent -/

/-- The digits in front of the exponent. -/
def mantissa (digits : List Char) : List Char :=
  digits.take 1 ++ (if digits.length ≤ 1 then [] else '.' :: digits.drop 1)

theorem spells_mantissa {digits : List Char} (are : AreDigits digits) :
    ∃ value, Spells (mantissa digits) value ∧
      value * 10 ^ ((digits.length : ℤ) - 1) = Nat.ofDigitChars 10 digits 0 := by
  have long : 0 < digits.length := List.length_pos_of_ne_nil are.1
  unfold mantissa
  split
  · next short =>
    have one : (digits.length : ℤ) - 1 = 0 := by omega
    rw [List.append_nil, List.take_of_length_le short, one]
    exact ⟨_, .whole are, by rw [zpow_zero, mul_one]⟩
  · have front : AreDigits (digits.take 1) :=
      ⟨List.ne_nil_of_length_pos (by rw [List.length_take]; omega),
        fun c member => are.2 c (List.mem_of_mem_take member)⟩
    have behind : AreDigits (digits.drop 1) :=
      ⟨List.ne_nil_of_length_pos (by rw [List.length_drop]; omega),
        fun c member => are.2 c (List.mem_of_mem_drop member)⟩
    have places : (digits.length : ℤ) - 1 = (digits.drop 1).length := by
      rw [List.length_drop]
      omega
    refine ⟨_, .fraction front behind, ?_⟩
    rw [List.take_append_drop, places, zpow_natCast, div_mul_cancel₀ _ (by positivity)]

theorem exponentValue_written (exponent : ℤ) :
    exponentValue ('e' :: (if exponent < 0 then '-' else '+') :: Nat.toDigits 10 exponent.natAbs) =
      exponent := by
  split
  · rw [exponentValue, Nat.ofDigitChars_ten_toDigits]
    omega
  · rw [exponentValue, Nat.ofDigitChars_ten_toDigits]
    · omega
    · decide

theorem scientific_eq (d : Decimal) : d.scientific = mantissa (Nat.toDigits 10 d.digits) ++ 'e' ::
    (if d.point - 1 < 0 then '-' else '+') :: Nat.toDigits 10 (d.point - 1).natAbs := by
  simp [scientific, mantissa]

theorem writtenValue_scientific (d : Decimal) : writtenValue d.scientific = d.value := by
  obtain ⟨value, spelled, scaled⟩ := spells_mantissa (areDigits_toDigits d.digits)
  have point : d.point - 1 = ((Nat.toDigits 10 d.digits).length : ℤ) - 1 + d.exponent := by
    rw [Decimal.point]
    omega
  rw [scientific_eq, spelled.writtenValue_append, exponentValue_written, point, zpow_add₀ (by norm_num),
    ← mul_assoc, scaled, Nat.ofDigitChars_ten_toDigits, Decimal.value]

end Decimal

namespace Number

variable {m n : Number}

/-! ## The form without a sign -/

/-- The form of a finite number in a document, without its sign. -/
def jsonNumeral (n : Number) : List Char :=
  if n.isZero then ['0', '.', '0']
  else
    let d := shortest .even n.magnitude
    if d.point < -4 || 16 < d.point then d.scientific
    else if 0 ≤ d.exponent then d.positional ++ ['.', '0']
    else d.positional

theorem jsonForm_eq (finite : n.isFinite = true) :
    n.jsonForm = signed n.isNegative n.jsonNumeral := by
  rw [jsonForm, if_neg (by simp [finite]), jsonNumeral]
  split <;> rfl

theorem jsonForm_of_not_isFinite (infinite : n.isFinite = false) :
    n.jsonForm = ['n', 'u', 'l', 'l'] :=
  if_pos (by simp [infinite])

/-- How the digits of a number are laid out in a document. -/
inductive JsonLayout (d : Decimal) : List Char → Prop where
  | scientific : JsonLayout d d.scientific
  | whole (whole : 0 ≤ d.exponent) : JsonLayout d (d.positional ++ ['.', '0'])
  | fraction (negative : d.exponent < 0) : JsonLayout d d.positional

theorem jsonLayout (n : Number) : ∃ d, IsDecimalOf n.magnitude d ∧ JsonLayout d n.jsonNumeral := by
  unfold jsonNumeral
  split
  · next zero =>
    have none : n.magnitude = 0 := of_decide_eq_true zero
    refine ⟨⟨0, 0⟩, ?_, .whole (Int.le_refl 0)⟩
    rw [none]
    refine (isNear_units 0).congr (by decide) (Decimal.denominator_pos _) ?_
    rw [Decimal.numerator, show units 0 = 0 from rfl]
    simp only [Nat.zero_mul]
  · refine ⟨_, isDecimalOf_shortest .even n.magnitude, ?_⟩
    dsimp only
    split
    · exact .scientific
    · split
      · next whole => exact .whole whole
      · next negative => exact .fraction (Int.not_le.mp negative)

variable {d : Decimal} {text : List Char}

theorem JsonLayout.writtenValue_eq (layout : JsonLayout d text) : writtenValue text = d.value := by
  cases layout with
  | scientific => exact d.writtenValue_scientific
  | whole whole =>
    obtain ⟨digits, same⟩ := d.positional_of_nonneg whole
    rw [digits.spells_pointZero.writtenValue_eq, same]
  | fraction => exact d.spells_positional.writtenValue_eq

theorem JsonLayout.startsDigit (layout : JsonLayout d text) : StartsDigit text := by
  cases layout with
  | scientific =>
    obtain ⟨value, spelled, -⟩ := Decimal.spells_mantissa (areDigits_toDigits d.digits)
    obtain ⟨c, after, written, digit⟩ := spelled.startsDigit
    rw [Decimal.scientific_eq, written]
    exact ⟨c, _, rfl, digit⟩
  | whole whole => exact (d.positional_of_nonneg whole).1.startsDigit _
  | fraction => exact d.spells_positional.startsDigit

/-! ## The characters of a number -/

theorem JsonLayout.isAtomic (layout : JsonLayout d text) {c : Char} (member : c ∈ text) :
    isAtomic c = true := by
  have numeral {front : List Char} {value : ℚ} (spelled : Spells front value) (here : c ∈ front) :
      Lox.isAtomic c = true := by
    obtain digit | rfl := spelled.isDigit_or_point here
    · exact isAtomic_of_isDigit digit
    · rfl
  cases layout with
  | scientific =>
    obtain ⟨value, spelled, -⟩ := Decimal.spells_mantissa (areDigits_toDigits d.digits)
    rw [Decimal.scientific_eq] at member
    obtain front | behind := List.mem_append.mp member
    · exact numeral spelled front
    · obtain rfl | further := List.mem_cons.mp behind
      · rfl
      · obtain rfl | digits := List.mem_cons.mp further
        · split <;> rfl
        · exact isAtomic_of_isDigit ((areDigits_toDigits _).2 c digits)
  | whole whole =>
    exact numeral (d.positional_of_nonneg whole).1.spells_pointZero member
  | fraction => exact numeral d.spells_positional member

/-- There is more than digits in the form of a number, as there is not in that of a natural number. -/
theorem JsonLayout.exists_not_isDigit (layout : JsonLayout d text) :
    ∃ c ∈ text, c.isDigit = false := by
  cases layout with
  | scientific =>
    rw [Decimal.scientific_eq]
    exact ⟨'e', List.mem_append_right _ (.head _), rfl⟩
  | whole => exact ⟨'.', List.mem_append_right _ (.head _), rfl⟩
  | fraction negative =>
    refine ⟨'.', ?_, rfl⟩
    unfold Decimal.positional
    rw [if_neg (Int.not_le.mpr negative)]
    split
    · exact List.mem_append_right _ (.head _)
    · exact .tail _ (.head _)

/-- A finite number is told from its form. -/
theorem jsonForm_inj (finite : m.isFinite = true) (finite' : n.isFinite = true)
    (same : m.jsonForm = n.jsonForm) : m = n := by
  obtain ⟨d, near, layout⟩ := jsonLayout m
  obtain ⟨d', near', layout'⟩ := jsonLayout n
  rw [jsonForm_eq finite, jsonForm_eq finite'] at same
  obtain ⟨signs, numerals⟩ := signed_inj layout.startsDigit layout'.startsDigit same
  have values : d'.value = d.value := by
    rw [← layout.writtenValue_eq, ← layout'.writtenValue_eq, numerals]
  -- The digits of the one number are rounded to the other one as well.
  have magnitudes : m.magnitude = n.magnitude := by
    rw [← (near.congr values).nearestMagnitude_eq (lt_infinityMagnitude finite),
      near'.nearestMagnitude_eq (lt_infinityMagnitude finite')]
  rw [← ofMagnitude_self m, ← ofMagnitude_self n, signs, magnitudes]

end Number

end Lox
