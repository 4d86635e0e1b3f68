import Lox.Operator
import Lox.Proofs.Numbers.Spelling
import Lox.Proofs.Operators.Repetition
import Lox.Proofs.Scanning.Rescanning
import Lox.Tree.Print

/-!
# Numbers read back

A number is shown by three texts: what a program prints, the literal in a listing of tokens, and the
literal in a printed tree. Without its sign each of them is a numeral that is rounded to the number, so
the scanner reads that very number back.
-/

namespace Lox

namespace Number

variable {n : Number} {magnitude : Nat}

/-! ## Sign and magnitude -/

theorem magnitude_lt (n : Number) : n.magnitude < Nat.pow 2 63 :=
  Nat.mod_lt _ (Nat.pow_pos (by decide))

theorem toNat_ofMagnitude (negative : Bool) (small : magnitude < Nat.pow 2 63) :
    (ofMagnitude negative magnitude).bits.toNat =
      if negative then Nat.pow 2 63 + magnitude else magnitude := by
  have double : (2 : Nat) ^ 64 = 2 ^ 63 + 2 ^ 63 := by norm_num
  change magnitude < 2 ^ 63 at small
  change _ % 2 ^ 64 = _
  refine Nat.mod_eq_of_lt ?_
  cases negative with
  | true => exact double ▸ Nat.add_lt_add_left small _
  | false => exact Nat.lt_of_lt_of_le small (by omega)

theorem magnitude_ofMagnitude (negative : Bool) (small : magnitude < Nat.pow 2 63) :
    (ofMagnitude negative magnitude).magnitude = magnitude := by
  rw [Number.magnitude, toNat_ofMagnitude negative small]
  cases negative with
  | true => exact (Nat.add_mod_left _ _).trans (Nat.mod_eq_of_lt small)
  | false => exact Nat.mod_eq_of_lt small

theorem isNegative_ofMagnitude (negative : Bool) (small : magnitude < Nat.pow 2 63) :
    (ofMagnitude negative magnitude).isNegative = negative := by
  rw [isNegative, toNat_ofMagnitude negative small]
  cases negative with
  | true => exact decide_eq_true (Nat.le_add_right _ _)
  | false => exact decide_eq_false (Nat.not_le.mpr small)

theorem ofMagnitude_self (n : Number) : ofMagnitude n.isNegative n.magnitude = n := by
  obtain ⟨bits⟩ := n
  have bound : bits.toNat < 2 ^ 64 := bits.toNat_lt
  rw [Number.mk.injEq, ← UInt64.toNat_inj, toNat_ofMagnitude _ (magnitude_lt _)]
  change (if decide (2 ^ 63 ≤ bits.toNat) then 2 ^ 63 + bits.toNat % 2 ^ 63 else bits.toNat % 2 ^ 63) = _
  by_cases negative : 2 ^ 63 ≤ bits.toNat
  · rw [if_pos (decide_eq_true negative)]
    omega
  · rw [if_neg (by simpa using negative)]
    omega

/-- The number without its sign. -/
def absolute (n : Number) : Number := ofMagnitude false n.magnitude

theorem magnitude_absolute (n : Number) : n.absolute.magnitude = n.magnitude :=
  magnitude_ofMagnitude false n.magnitude_lt

theorem isNegative_absolute (n : Number) : n.absolute.isNegative = false :=
  isNegative_ofMagnitude false n.magnitude_lt

/-! ## Numerals of a number -/

/-- The text is a numeral, and it is rounded to the magnitude. -/
def Names (magnitude : Nat) (text : List Char) : Prop :=
  ∃ d : Decimal, Spells text d.value ∧ IsDecimalOf magnitude d

theorem isDecimalOf_wholePart (integral : n.isIntegral = true) :
    IsDecimalOf n.magnitude ⟨n.wholePart, 0⟩ := by
  have exact : units n.magnitude = n.wholePart * unitsPerOne :=
    (Nat.div_mul_cancel (Nat.dvd_of_mod_eq_zero
      (of_decide_eq_true (Bool.and_eq_true_iff.mp integral).2))).symm
  refine (isNear_units n.magnitude).congr (by decide) (Decimal.denominator_pos _) ?_
  rw [exact]
  change n.wholePart * 1 * unitsPerOne * 1 = n.wholePart * unitsPerOne * 1
  rw [Nat.mul_one n.wholePart]

theorem value_whole (count : Nat) : (Decimal.mk count 0).value = count := by
  rw [Decimal.value, zpow_zero, mul_one]

theorem names_wholePart (integral : n.isIntegral = true) :
    Names n.magnitude (Nat.toDigits 10 n.wholePart) :=
  ⟨_, value_whole _ ▸ spells_toDigits _, isDecimalOf_wholePart integral⟩

theorem names_wholePart_pointZero (integral : n.isIntegral = true) :
    Names n.magnitude (Nat.toDigits 10 n.wholePart ++ ['.', '0']) := by
  have spelled := (areDigits_toDigits n.wholePart).spells_pointZero
  rw [Nat.ofDigitChars_ten_toDigits, ← value_whole] at spelled
  exact ⟨_, spelled, isDecimalOf_wholePart integral⟩

theorem names_shortest (tie : Tie) (magnitude : Nat) :
    Names magnitude (shortest tie magnitude).positional :=
  ⟨_, Decimal.spells_positional _, isDecimalOf_shortest tie magnitude⟩

/-! ## The forms without a sign -/

section Absolute

@[simp] theorem isFinite_absolute : n.absolute.isFinite = n.isFinite := by
  rw [isFinite, magnitude_absolute, isFinite]

@[simp] theorem wholePart_absolute : n.absolute.wholePart = n.wholePart := by
  rw [wholePart, magnitude_absolute, wholePart]

@[simp] theorem isIntegral_absolute : n.absolute.isIntegral = n.isIntegral := by
  rw [isIntegral, magnitude_absolute, isFinite_absolute, isIntegral]

@[simp] theorem isPlainInteger_absolute : n.absolute.isPlainInteger = n.isPlainInteger := by
  rw [isPlainInteger, isIntegral_absolute, wholePart_absolute, isPlainInteger]

end Absolute

theorem isNaN_of_isFinite (finite : n.isFinite = true) : n.isNaN = false :=
  decide_eq_false (Nat.not_lt.mpr (Nat.le_of_lt (of_decide_eq_true finite)))

theorem isInfinite_of_isFinite (finite : n.isFinite = true) : n.isInfinite = false :=
  decide_eq_false (Nat.ne_of_lt (of_decide_eq_true finite))

theorem isIntegral_of_isZero (finite : n.isFinite = true) (zero : n.isZero = true) :
    n.isIntegral = true := by
  have none : units n.magnitude = 0 := (units_eq_zero_iff _).mpr (of_decide_eq_true zero)
  rw [isIntegral, finite, none, Nat.zero_mod]
  rfl

theorem isPlainInteger_of_isZero (finite : n.isFinite = true) (zero : n.isZero = true) :
    n.isPlainInteger = true := by
  have none : units n.magnitude = 0 := (units_eq_zero_iff _).mpr (of_decide_eq_true zero)
  rw [isPlainInteger, isIntegral_of_isZero finite zero, wholePart, none, Nat.zero_div]
  rfl

/-- Whatever is not whole is shown by its shortest digits. -/
theorem shortestForm_eq (finite : n.isFinite = true) (nonzero : n.isZero = false) :
    n.shortestForm = signed n.isNegative (shortest .up n.magnitude).positional := by
  rw [shortestForm, isNaN_of_isFinite finite, isInfinite_of_isFinite finite, nonzero]
  rfl

/-! ## The three texts -/

/-- A text that numbers are shown by. -/
inductive Form where
  /-- What a program prints. -/
  | value
  /-- The literal in a listing of tokens. -/
  | token (lexeme : String)
  /-- The literal in a printed tree. -/
  | tree
  deriving DecidableEq

namespace Form

variable (form : Form)

def text : Form → Number → String
  | value, n => n.shown
  | token lexeme, n => (Token.Kind.number lexeme n).literalForm
  | tree, n => (Literal.number n).printed

/-- Whether the number is shown with all its digits, as whole numbers are. -/
def isWhole : Form → Number → Bool
  | tree, n => n.isIntegral
  | _, n => n.isPlainInteger

/-- What marks a whole number as a number. -/
def ending : Form → List Char
  | value => []
  | _ => ['.', '0']

/-- Whether there is a sign in front. Only trees show that of zero. -/
def isSigned : Form → Number → Bool
  | tree, n => n.isNegative
  | _, n => n.isNegative && !n.isZero

/-- The text without its sign. -/
def numeral (n : Number) : List Char :=
  if form.isWhole n then Nat.toDigits 10 n.wholePart ++ form.ending
  else (shortest .up n.magnitude).positional

theorem isIntegral_of_isWhole (whole : form.isWhole n = true) : n.isIntegral = true := by
  cases form with
  | tree => exact whole
  | value | token => exact (Bool.and_eq_true_iff.mp whole).1

theorem isWhole_of_isZero (finite : n.isFinite = true) (zero : n.isZero = true) :
    form.isWhole n = true := by
  cases form with
  | tree => exact isIntegral_of_isZero finite zero
  | value | token => exact isPlainInteger_of_isZero finite zero

theorem text_of_isWhole (whole : form.isWhole n = true) : form.text n =
    String.ofList (signed (form.isSigned n) (Nat.toDigits 10 n.wholePart ++ form.ending)) := by
  cases form with
  | value =>
    have plain : n.isPlainInteger = true := whole
    change String.ofList n.valueForm = _
    rw [valueForm, if_pos plain, ending, List.append_nil]
    rfl
  | token =>
    have plain : n.isPlainInteger = true := whole
    change String.ofList n.tokenForm = _
    rw [tokenForm, if_pos plain, integerForm]
    cases negative : n.isNegative && !n.isZero <;> simp [isSigned, signed, ending, negative]
  | tree =>
    have integral : n.isIntegral = true := whole
    change String.ofList n.treeForm = _
    rw [treeForm, if_pos integral]
    rfl

theorem text_of_not_isWhole (fractional : form.isWhole n = false) :
    form.text n = String.ofList n.shortestForm := by
  cases form with
  | value => exact congrArg String.ofList (if_neg (ne_true_of_eq_false fractional))
  | token => exact congrArg String.ofList (if_neg (ne_true_of_eq_false fractional))
  | tree => exact congrArg String.ofList (if_neg (ne_true_of_eq_false fractional))

theorem text_eq (finite : n.isFinite = true) :
    form.text n = String.ofList (signed (form.isSigned n) (form.numeral n)) := by
  cases whole : form.isWhole n with
  | true => rw [text_of_isWhole form whole, numeral, if_pos whole]
  | false =>
    have nonzero : n.isZero = false := by
      cases zero : n.isZero with
      | false => rfl
      | true => exact absurd (isWhole_of_isZero form finite zero) (ne_true_of_eq_false whole)
    have sign : form.isSigned n = n.isNegative := by
      cases form <;> simp [isSigned, nonzero]
    rw [text_of_not_isWhole form whole, shortestForm_eq finite nonzero, sign, numeral, whole]
    rfl

theorem names_numeral (n : Number) : Names n.magnitude (form.numeral n) := by
  unfold numeral
  split
  · next whole =>
    have integral := isIntegral_of_isWhole form whole
    cases form with
    | value => exact (List.append_nil _).symm ▸ names_wholePart integral
    | token | tree => exact names_wholePart_pointZero integral
  · exact names_shortest .up _

theorem isWhole_absolute (n : Number) : form.isWhole n.absolute = form.isWhole n := by
  cases form <;> simp [isWhole]

theorem numeral_absolute (n : Number) : form.numeral n.absolute = form.numeral n := by
  simp only [numeral, isWhole_absolute, wholePart_absolute, magnitude_absolute]

theorem isSigned_of_isNegative (positive : n.isNegative = false) : form.isSigned n = false := by
  cases form <;> simp [isSigned, positive]

end Form

/-! ## Scanned numerals -/

theorem ofDecimal_eq {digits places : Nat} {d : Decimal} (near : IsDecimalOf magnitude d)
    (finite : magnitude < infinityMagnitude) (same : (digits : ℚ) / 10 ^ places = d.value) :
    ofDecimal digits places = ofMagnitude false magnitude := by
  have read : IsDecimalOf magnitude ⟨digits, -places⟩ :=
    near.congr ((Decimal.value_of_neg places rfl).trans same)
  have rounded := read.nearestMagnitude_eq finite
  have whole : (-(places : Int)).toNat = 0 := by omega
  simp only [Decimal.numerator, Decimal.denominator, whole, neg_neg, Int.toNat_natCast] at rounded
  rw [show Nat.pow 10 0 = 1 from rfl, Nat.mul_one] at rounded
  rw [ofDecimal, rounded]

theorem numberLiteral_of_names {text : List Char} (names : Names magnitude text)
    (finite : magnitude < infinityMagnitude) : Scan.numberLiteral text =
      ⟨.token (.number (String.ofList text) (ofMagnitude false magnitude)), text, []⟩ := by
  obtain ⟨d, spelled, near⟩ := names
  generalize value : d.value = worth at spelled
  cases spelled with
  | whole digits =>
    rw [Scan.numberLiteral_whole digits.2, Scan.numeral, List.append_nil, List.length_nil,
      ofDecimal_eq near finite (by rw [value, pow_zero, div_one])]
  | fraction digits places =>
    rw [Scan.numberLiteral_fraction digits.2 places.1 places.2, Scan.numeral,
      ofDecimal_eq near finite value.symm]

theorem Names.startsDigit {text : List Char} (names : Names magnitude text) : StartsDigit text :=
  names.choose_spec.1.startsDigit

theorem firstCut_of_isDigit {c : Char} (digit : c.isDigit = true) (after : List Char) :
    Scan.firstCut c after = Scan.numberLiteral (c :: after) := by
  have blank : ¬Scan.isBlank c = true := by
    intro blank
    obtain rfl | rfl | rfl | rfl := Scan.isBlank_cases blank <;> cases digit
  have slash : ¬(c = '/' ∧ after.head? = some '/') := by
    rintro ⟨rfl, -⟩
    cases digit
  have quote : c ≠ '"' := by
    rintro rfl
    cases digit
  rw [Scan.firstCut, if_neg blank, if_neg slash, if_neg quote, if_pos digit]

/-- A text that is a numeral of a number is scanned as that number alone. -/
theorem Names.items_eq {text : String} (names : Names magnitude text.toList)
    (finite : magnitude < infinityMagnitude) : Scan.items text =
      [.token ⟨.number text (ofMagnitude false magnitude), 1⟩, .token ⟨.endOfInput, 1⟩] := by
  obtain ⟨c, after, written, digit⟩ := names.startsDigit
  have cut := numberLiteral_of_names names finite
  have lines := Scan.newline_not_mem_number text.toList
  rw [cut] at lines
  rw [Scan.items, written, Scan.segments_cons, firstCut_of_isDigit digit, ← written, cut,
    Scan.segments_nil, String.ofList_toList]
  simp [Scan.itemsFrom, List.count_eq_zero.mpr lines]

/-! ## Shown numbers -/

theorem lt_infinityMagnitude (finite : n.isFinite = true) : n.magnitude < infinityMagnitude :=
  of_decide_eq_true finite

/-- Without a sign, every text of a number is scanned as the number. -/
theorem items_text (form : Form) (finite : n.isFinite = true) (positive : n.isNegative = false) :
    Scan.items (form.text n) =
      [.token ⟨.number (form.text n) n, 1⟩, .token ⟨.endOfInput, 1⟩] := by
  have written : form.text n = String.ofList (form.numeral n) := by
    rw [form.text_eq finite, form.isSigned_of_isNegative positive]
    rfl
  have names : Names n.magnitude (form.text n).toList := by
    rw [written, String.toList_ofList]
    exact form.names_numeral n
  rw [names.items_eq (lt_infinityMagnitude finite), ← positive, ofMagnitude_self]

theorem text_signed (form : Form) (finite : n.isFinite = true) (signed : form.isSigned n = true) :
    form.text n = "-" ++ form.text n.absolute := by
  have finite' : n.absolute.isFinite = true := isFinite_absolute.trans finite
  rw [form.text_eq finite, form.text_eq finite', form.numeral_absolute, signed,
    form.isSigned_of_isNegative n.isNegative_absolute]
  exact @String.ofList_append ['-'] _

theorem text_unsigned (form : Form) (finite : n.isFinite = true) (unsigned : form.isSigned n = false) :
    form.text n = form.text n.absolute := by
  have finite' : n.absolute.isFinite = true := isFinite_absolute.trans finite
  rw [form.text_eq finite, form.text_eq finite', form.numeral_absolute, unsigned,
    form.isSigned_of_isNegative n.isNegative_absolute]

/-- A numeral is one of a single magnitude. -/
theorem Names.magnitude_eq {other : Nat} {text : List Char} (names : Names magnitude text)
    (also : Names other text) (finite : magnitude < infinityMagnitude) (finite' : other < infinityMagnitude) :
    magnitude = other := by
  have bound : infinityMagnitude < Nat.pow 2 63 := by decide
  have same := (numberLiteral_of_names names finite).symm.trans (numberLiteral_of_names also finite')
  rw [Scan.Cut.mk.injEq, Scan.Piece.token.injEq, Token.Kind.number.injEq] at same
  have magnitudes := congrArg Number.magnitude same.1.2
  rwa [magnitude_ofMagnitude false (finite.trans bound),
    magnitude_ofMagnitude false (finite'.trans bound)] at magnitudes

variable {m : Number}

/-- Finite numbers are equal if they have one magnitude, and one sign where it makes a difference. -/
theorem equal_iff (finite : m.isFinite = true) (finite' : n.isFinite = true) :
    m.equal n = true ↔ (m.isNegative && !m.isZero) = (n.isNegative && !n.isZero) ∧
      m.magnitude = n.magnitude := by
  have zero (k : Number) : k.isZero = decide (units k.magnitude = 0) :=
    decide_eq_decide.mpr (units_eq_zero_iff _).symm
  have magnitudes : m.magnitude = n.magnitude ↔ units m.magnitude = units n.magnitude :=
    units_strictMono.injective.eq_iff.symm
  have values : m.equal n = true ↔ m.signedUnits = n.signedUnits := by
    simp [equal, isNaN_of_isFinite finite, isNaN_of_isFinite finite']
  rw [values, zero m, zero n, magnitudes, signedUnits, signedUnits]
  cases m.isNegative <;> cases n.isNegative <;> simp <;> omega

/-- Finite numbers are shown by one text if they are equal. -/
theorem shown_eq_iff (finite : m.isFinite = true) (finite' : n.isFinite = true) :
    m.shown = n.shown ↔ m.equal n = true := by
  change Form.value.text m = Form.value.text n ↔ _
  rw [equal_iff finite finite', Form.value.text_eq finite, Form.value.text_eq finite']
  constructor
  · intro same
    have names := Form.value.names_numeral m
    have also := Form.value.names_numeral n
    obtain ⟨signs, numerals⟩ :=
      signed_inj names.startsDigit also.startsDigit (String.ofList_inj.mp same)
    exact ⟨signs, names.magnitude_eq (numerals ▸ also) (lt_infinityMagnitude finite)
      (lt_infinityMagnitude finite')⟩
  · rintro ⟨signs, magnitudes⟩
    have numerals : Form.value.numeral m = Form.value.numeral n := by
      rw [← Form.value.numeral_absolute m, ← Form.value.numeral_absolute n, absolute, absolute, magnitudes]
    rw [numerals]
    exact congrArg (fun negative => String.ofList (signed negative _)) signs

/-- Every text of a finite number is scanned as that number alone, if the number has no sign; and the sign
stands before the text of the number without it, where the text does not leave out that of zero. So
two finite numbers are shown alike if they are equal. -/
theorem scan_text (n : Number) (finite : n.isFinite = true) :
    (n.isNegative = false → ∀ form : Form, Scan.items (form.text n) =
      [.token ⟨.number (form.text n) n, 1⟩, .token ⟨.endOfInput, 1⟩]) ∧
    (n.isNegative = true → ∀ form : Form, form.text n =
      if n.isZero = true ∧ form ≠ .tree then form.text zero else "-" ++ form.text n.absolute) ∧
    ∀ m : Number, m.isFinite = true → (m.shown = n.shown ↔ m.equal n = true) := by
  refine ⟨fun positive form => items_text form finite positive, fun negative form => ?_,
    fun m finite' => shown_eq_iff finite' finite⟩
  split
  · next dropped =>
    have unsigned : form.isSigned n = false := by
      cases form with
      | tree => exact absurd rfl dropped.2
      | value | token => simp [Form.isSigned, dropped.1]
    have none : n.absolute = zero := by
      rw [absolute, zero, of_decide_eq_true dropped.1]
    rw [text_unsigned form finite unsigned, none]
  · next kept =>
    refine text_signed form finite ?_
    cases form with
    | tree => exact negative
    | value | token => simpa [Form.isSigned, negative] using kept

/-- 2.5 is read back from its texts, and -0 is shown as zero is, but for the sign in a tree. -/
theorem scan_text_fraction_and_zero :
    let fraction := ofDecimal 25 1
    (fraction.isFinite = true ∧ fraction.isNegative = false ∧ ∀ form : Form,
      Scan.items (form.text fraction) =
        [.token ⟨.number (form.text fraction) fraction, 1⟩, .token ⟨.endOfInput, 1⟩]) ∧
    zero.negate.isFinite = true ∧ zero.negate.isNegative = true ∧
    Form.tree.text zero.negate = "-" ++ Form.tree.text zero.negate.absolute ∧
    Form.value.text zero.negate = Form.value.text zero ∧
    (zero.isFinite = true ∧ (zero.shown = zero.negate.shown ↔ zero.equal zero.negate = true)) := by
  have fraction : (ofDecimal 25 1).isFinite = true ∧ (ofDecimal 25 1).isNegative = false := by
    decide +kernel
  have finite : zero.negate.isFinite = true ∧ zero.negate.isNegative = true ∧ zero.isFinite = true ∧
      zero.negate.isZero = true := by decide
  obtain ⟨-, signs, shown⟩ := scan_text zero.negate finite.1
  have tree := signs finite.2.1 .tree
  have value := signs finite.2.1 .value
  rw [if_neg fun both => both.2 rfl] at tree
  rw [if_pos ⟨finite.2.2.2, nofun⟩] at value
  exact ⟨⟨fraction.1, fraction.2, (scan_text (ofDecimal 25 1) fraction.1).1 fraction.2⟩, finite.1,
    finite.2.1, tree, value, finite.2.2.1, shown zero finite.2.2.1⟩

/-- The greatest number below 10¹⁵ is an integer for programs; the number itself is not, and is read back
all the same. -/
example : (ofDecimal (Nat.pow 10 15) 0).valueForm = "1000000000000000".toList ∧
    (ofDecimal (Nat.pow 10 15) 0).tokenForm = "1000000000000000".toList ∧
    (ofDecimal (Nat.pow 10 15 - 1) 0).tokenForm = "999999999999999.0".toList := by decide +kernel

end Number

end Lox
