import Lox.Proofs.Scanning.Cuts
import Lox.Run
import Mathlib.Data.List.Forall2

/-!
# Lexical errors in source order

The scan comes to what it cannot read from the front of the text to its end, so that is the order in
which lexical errors are reported.
-/

namespace Lox

namespace Scan

/-- The error is of what stands that many characters into the text, and names the line it is on. -/
def StandsAt (text : List Char) (offset : Nat) (error : LexicalError) : Prop :=
  error.line = 1 + (text.take offset).count '\n' ∧
    ∃ c after, text.drop offset = c :: after ∧ (firstCut c after).piece = .error error.problem

/-- A list of errors is in source order if they stand one after the other in the text. -/
def InSourceOrder (text : List Char) (errors : List LexicalError) : Prop :=
  ∃ offsets : List Nat, offsets.Pairwise (· < ·) ∧ List.Forall₂ (StandsAt text) offsets errors

/-- What is left of a text is scanned to errors that stand in the rest of it. -/
theorem errors_itemsFrom (before : List Char) : (text : List Char) →
    ∃ offsets : List Nat, offsets.Pairwise (· < ·) ∧ (∀ offset ∈ offsets, before.length ≤ offset) ∧
      List.Forall₂ (StandsAt (before ++ text)) offsets
        ((itemsFrom (1 + before.count '\n') (segments text)).filterMap Item.error?)
  | [] => by
    rw [segments_nil]
    exact ⟨[], .nil, nofun, .nil⟩
  | c :: after => by
    -- Each segment is moved from the text to what stands before it; none is empty.
    have split := slice_append_rest_firstCut c after
    have nonempty := List.length_pos_iff.mpr (slice_ne_nil c after)
    obtain ⟨offsets, increasing, further, stand⟩ :=
      errors_itemsFrom (before ++ (firstCut c after).slice) (firstCut c after).rest
    rw [List.append_assoc, split, List.count_append, ← Nat.add_assoc] at stand
    rw [List.length_append] at further
    have beyond : ∀ offset ∈ offsets, before.length < offset := fun offset member => by
      have := further offset member
      omega
    rw [segments_cons, itemsFrom]
    split
    · exact ⟨offsets, increasing, fun offset member => Nat.le_of_lt (beyond offset member), stand⟩
    · exact ⟨offsets, increasing, fun offset member => Nat.le_of_lt (beyond offset member), stand⟩
    · next problem isError =>
      refine ⟨before.length :: offsets, .cons beyond increasing, ?_, .cons ⟨?_, c, after, ?_, isError⟩
        stand⟩
      · intro offset member
        obtain rfl | later := List.mem_cons.mp member
        · exact Nat.le_refl _
        · exact Nat.le_of_lt (beyond offset later)
      · rw [List.take_left]
      · exact List.drop_left
  termination_by text => text.length
  decreasing_by exact Nat.lt_succ_of_le (length_rest_firstCut c after)

theorem errors_inSourceOrder (source : String) : InSourceOrder source.toList (errors source) := by
  obtain ⟨offsets, increasing, _, stand⟩ := errors_itemsFrom [] source.toList
  exact ⟨offsets, increasing, stand⟩

end Scan

end Lox
