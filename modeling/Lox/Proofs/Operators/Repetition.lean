import Lox.Evaluation

/-!
# Repeated text

What a text times a number is, told by the exact value of the number. The count is turned into a machine
word, which can only hold so much, and words are multiplied. Nothing comes of that: the two limits, on the
bytes of the result and on the count itself, are as good as compared with the exact value. The limit on
the count is seen on the empty text alone, since so many copies of any other text are too many bytes long
before.

A number denotes a natural number if it is finite and its value is that number, which is so of both
zeros and of zero.
-/

namespace Lox

namespace Number

variable {n : Number} {count : Nat}

/-! ## Naturals that numbers denote -/

/-- The number is finite, and its exact value is that natural number. -/
def Denotes (n : Number) (count : Nat) : Prop :=
  n.isFinite ∧ n.signedUnits = (count * unitsPerOne : Nat)

theorem units_eq_zero_iff (magnitude : Nat) : units magnitude = 0 ↔ magnitude = 0 := by
  have split := Nat.div_add_mod magnitude (Nat.pow 2 52)
  unfold units
  by_cases small : magnitude / Nat.pow 2 52 = 0
  · -- Without an exponent the fraction is the magnitude.
    rw [small, Nat.mul_zero, Nat.zero_add] at split
    rw [if_pos small, split]
  · rw [if_neg small]
    have leading : 0 < Nat.pow 2 52 + magnitude % Nat.pow 2 52 :=
      Nat.add_pos_left (Nat.pow_pos (by decide)) _
    have scale : 0 < Nat.pow 2 (magnitude / Nat.pow 2 52 - 1) := Nat.pow_pos (by decide)
    refine iff_of_false (Nat.ne_of_gt (Nat.mul_pos leading scale)) fun none => ?_
    rw [none, Nat.zero_div] at small
    exact small rfl

theorem unitsPerOne_pos : 0 < unitsPerOne := by decide +kernel

/-- The value of a number that denotes a natural number is that of its magnitude: if it has a sign, it is
a zero. -/
theorem Denotes.units_eq (denotes : n.Denotes count) : units n.magnitude = count * unitsPerOne := by
  have value := denotes.2
  unfold signedUnits at value
  split at value <;> omega

theorem Denotes.wholePart_eq (denotes : n.Denotes count) : n.wholePart = count := by
  rw [wholePart, denotes.units_eq, Nat.mul_div_cancel _ unitsPerOne_pos]

theorem Denotes.isIntegral (denotes : n.Denotes count) : n.isIntegral = true := by
  rw [Number.isIntegral, denotes.1, denotes.units_eq, Nat.mul_mod_left]
  rfl

theorem Denotes.isZero_of_isNegative (denotes : n.Denotes count) (negative : n.isNegative = true) :
    n.isZero = true := by
  have value := denotes.2
  rw [signedUnits, if_pos negative] at value
  have none : units n.magnitude = 0 := by omega
  exact decide_eq_true ((units_eq_zero_iff _).mp none)

/-- A whole number that is not below zero denotes its whole part. -/
theorem denotes_wholePart (integral : n.isIntegral = true)
    (positive : ¬(n.isNegative = true ∧ n.isZero = false)) : n.Denotes n.wholePart := by
  obtain ⟨finite, whole⟩ := Bool.and_eq_true_iff.mp integral
  have exact : units n.magnitude = n.wholePart * unitsPerOne :=
    (Nat.div_mul_cancel (Nat.dvd_of_mod_eq_zero (of_decide_eq_true whole))).symm
  refine ⟨finite, ?_⟩
  unfold signedUnits
  split
  · next negative =>
    -- Of the numbers with a sign only the zero is left.
    have zero : n.isZero = true := by
      cases known : n.isZero with
      | true => rfl
      | false => exact absurd ⟨negative, known⟩ positive
    have none := (units_eq_zero_iff _).mpr (of_decide_eq_true zero)
    omega
  · exact congrArg Int.ofNat exact

/-- What a repeat count has to be. -/
theorem denotes_iff (n : Number) :
    (∃ count, n.Denotes count) ↔
      ¬(!n.isIntegral || (n.isNegative && !n.isZero)) = true := by
  rw [Bool.or_eq_true, Bool.and_eq_true, Bool.not_eq_true', Bool.not_eq_true']
  constructor
  · rintro ⟨count, denotes⟩ (fraction | ⟨negative, nonzero⟩)
    · rw [denotes.isIntegral] at fraction
      cases fraction
    · rw [denotes.isZero_of_isNegative negative] at nonzero
      cases nonzero
  · intro refused
    obtain ⟨integral, positive⟩ := not_or.mp refused
    exact ⟨_, denotes_wholePart (Bool.not_eq_false _ ▸ integral) positive⟩

end Number

/-! ## Copies -/

/-- Joining by halves comes to joining one by one. -/
theorem copies_eq (text : String) (count : Nat) :
    copies text count = String.join (List.replicate count text) := by
  induction count using Nat.strongRecOn with
  | ind count ih =>
    rw [copies]
    split
    · next none =>
      rw [none]
      rfl
    · next some =>
      have half := ih (count / 2) (Nat.div_lt_self (Nat.pos_of_ne_zero some) (by decide))
      have doubled : String.join (List.replicate (count / 2) text) ++
          String.join (List.replicate (count / 2) text) =
            String.join (List.replicate (count / 2 + count / 2) text) := by
        rw [← String.join_append, List.replicate_append_replicate]
      simp only [half, doubled]
      split
      · next even =>
        rw [show count / 2 + count / 2 = count by omega]
      · next odd =>
        have whole : count = count / 2 + count / 2 + 1 := by omega
        conv => rhs; rw [whole, List.replicate_succ', String.join_append]
        simp

theorem copies_empty (count : Nat) : copies "" count = "" := by
  rw [copies_eq]
  induction count with
  | zero => rfl
  | succ count ih => rw [List.replicate_succ, String.join_cons, ih, String.append_empty]

/-! ## Repeating -/

section

variable {text : String} {n : Number} {count : Nat}

theorem repeated_of_not_denotes (refused : ¬∃ count, n.Denotes count) :
    repeated text n = .error .repeatCountNotNatural := by
  rw [repeated, if_pos (Decidable.not_not.mp (mt (Number.denotes_iff n).mpr refused))]

/-- A size that is no machine word is too large for a text as well. -/
theorem repeated_of_countable (natural : ¬(!n.isIntegral || (n.isNegative && !n.isZero)) = true)
    (countable : n.wholePart ≤ maximumCopies) :
    repeated text n =
      if maximumTextSize < text.utf8ByteSize * n.toWord then .error .repeatTooLarge
      else .ok (.text (copies text n.toWord)) := by
  rw [repeated, if_neg natural, if_neg (Nat.not_lt.mpr countable)]
  by_cases word : text.utf8ByteSize * n.toWord ≤ maximumWord
  · rw [wordProduct?, if_pos word]
  · have large : maximumTextSize < text.utf8ByteSize * n.toWord :=
      Nat.lt_of_le_of_lt (by decide +kernel) (Nat.not_le.mp word)
    rw [wordProduct?, if_neg word, if_pos large]

/-- The machine word is the count, or both are more than a text can have bytes. -/
theorem Number.Denotes.toWord_cases (denotes : n.Denotes count) :
    n.toWord = count ∨ maximumTextSize < n.toWord ∧ maximumTextSize < count := by
  have word : n.toWord = min count maximumWord := by rw [Number.toWord, denotes.wholePart_eq]
  have longer : maximumTextSize < maximumWord := by decide +kernel
  by_cases exact : count ≤ maximumWord
  · exact .inl (word.trans (Nat.min_eq_left exact))
  · have capped : n.toWord = maximumWord := word.trans (Nat.min_eq_right (Nat.le_of_not_le exact))
    exact .inr ⟨capped ▸ longer, Nat.lt_trans longer (Nat.not_le.mp exact)⟩

theorem repeated_of_denotes (denotes : n.Denotes count) :
    repeated text n =
      if Nat.pow 2 28 < text.utf8ByteSize * count ∨ Nat.pow 2 64 < count then .error .repeatTooLarge
      else .ok (.text (String.join (List.replicate count text))) := by
  have natural := (Number.denotes_iff n).mp ⟨count, denotes⟩
  by_cases uncountable : maximumCopies < count
  · rw [if_pos (.inr uncountable), repeated, if_neg natural, denotes.wholePart_eq, if_pos uncountable]
  · have countable : n.wholePart ≤ maximumCopies := denotes.wholePart_eq ▸ Nat.not_lt.mp uncountable
    have limit : (Nat.pow 2 28 < text.utf8ByteSize * count ∨ Nat.pow 2 64 < count) ↔
        maximumTextSize < text.utf8ByteSize * count := or_iff_left uncountable
    simp only [repeated_of_countable natural countable, limit, ← copies_eq]
    obtain same | ⟨longWord, longCount⟩ := denotes.toWord_cases
    · rw [same]
    · by_cases empty : text = ""
      · subst empty
        rw [copies_empty, copies_empty, String.utf8ByteSize_empty, Nat.zero_mul, Nat.zero_mul]
      · -- There is a byte in each of the copies, so both are too many.
        have bytes : 0 < text.utf8ByteSize :=
          Nat.pos_of_ne_zero (mt String.utf8ByteSize_eq_zero_iff.mp empty)
        rw [if_pos (Nat.lt_of_lt_of_le longWord (Nat.le_mul_of_pos_left _ bytes)),
          if_pos (Nat.lt_of_lt_of_le longCount (Nat.le_mul_of_pos_left _ bytes))]

end

namespace Step

variable {fuel : Nat} {left right : Expr Binding} {machine middle after : Machine}
  {text : String} {n : Number}

/-- A product of a text and a number is so many copies of the text. It fails if the number does not
denote a natural number; and if it does, it fails where the copies have more than 2²⁸ bytes or where there
are more than 2⁶⁴ of them, and nowhere else. -/
theorem evaluate_repetition (line : Nat)
    (first : evaluate fuel left machine = .finished (.text text) middle)
    (second : evaluate fuel right middle = .finished (.number n) after) :
    let product := evaluate (fuel + 1) (.binary .multiply line left right) machine
    let failed := fun problem => Outcome.failed ⟨.operands problem, Symbol.star.token line⟩ after
    (product = failed .repeatCountNotNatural ↔ ¬∃ count, n.Denotes count) ∧
    ∀ count, n.Denotes count →
      (product = failed .repeatTooLarge ↔
        Nat.pow 2 28 < text.utf8ByteSize * count ∨ Nat.pow 2 64 < count) ∧
      (¬(Nat.pow 2 28 < text.utf8ByteSize * count ∨ Nat.pow 2 64 < count) →
        product = .finished (.text (String.join (List.replicate count text))) after) := by
  intro product failed
  have outcome : product = ofOperands (repeated text n) (Symbol.star.token line) after := by
    change (evaluate fuel left >>= _) machine = _
    rw [bind_of_finished first, bind_of_finished second]
    rfl
  refine ⟨⟨fun refused => ?_, fun none => ?_⟩, fun count denotes => ?_⟩
  · rintro ⟨count, denotes⟩
    rw [outcome, repeated_of_denotes denotes] at refused
    split at refused <;> cases refused
  · rw [outcome, repeated_of_not_denotes none]
    rfl
  · rw [outcome, repeated_of_denotes denotes]
    refine ⟨⟨fun refused => ?_, fun large => ?_⟩, fun fits => ?_⟩
    · split at refused
      · assumption
      · cases refused
    · rw [if_pos large]
      rfl
    · rw [if_neg fits]
      rfl

/-- Three copies of a text of two bytes. -/
theorem evaluate_repetition_three :
    let three : Number := ⟨0x4008000000000000⟩
    let product : Expr Binding := .binary .multiply 1 (.literal (.text "ab")) (.literal (.number three))
    let machine := Machine.initial .unlimited fun _ => .zero
    three.Denotes 3 ∧ evaluate 2 product machine = .finished (.text "ababab") machine := by
  intro three product machine
  have denotes : three.Denotes 3 := by
    unfold Number.Denotes
    decide +kernel
  have first : evaluate 1 (.literal (.text "ab")) machine = .finished (.text "ab") machine := rfl
  have second : evaluate 1 (.literal (.number three)) machine = .finished (.number three) machine := rfl
  have exact := (evaluate_repetition 1 first second).2 3 denotes
  exact ⟨denotes, exact.2 (by decide +kernel)⟩

/-- A number that denotes a natural number can be refused as a count although there is not one byte in so
many copies: the first double above 2⁶⁴, as a count of empty texts. -/
theorem repeated_empty_tooLarge :
    let count := Nat.pow 2 64 + Nat.pow 2 12
    let n : Number := ⟨0x43F0000000000001⟩
    let product : Expr Binding := .binary .multiply 1 (.literal (.text "")) (.literal (.number n))
    let machine := Machine.initial .unlimited fun _ => .zero
    n.Denotes count ∧ ¬Nat.pow 2 28 < "".utf8ByteSize * count ∧
      evaluate 2 product machine =
        .failed ⟨.operands .repeatTooLarge, Symbol.star.token 1⟩ machine := by
  intro count n product machine
  have denotes : n.Denotes count := by
    unfold Number.Denotes
    decide +kernel
  have refused : repeated "" n = .error .repeatTooLarge := by
    rw [repeated_of_denotes denotes, if_pos (.inr (by decide +kernel))]
  refine ⟨denotes, by decide +kernel, ?_⟩
  change ofOperands (repeated "" n) (Symbol.star.token 1) machine = _
  rw [refused]
  rfl

end Step

end Lox
