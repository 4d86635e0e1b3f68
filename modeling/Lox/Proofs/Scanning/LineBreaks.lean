import Lox.Proofs.Scanning.Cuts
import Lox.Proofs.Scanning.Items

/-!
# Nothing but the line reaches over a line break

Unless a text literal is open at its end, a text is cut in the same way where a line break and more
text follow, and so is what follows. All that passes over the break is the number of the line.
-/

namespace Lox.Scan

/-! ## Segments -/

/-- A text in which every text literal is closed. -/
def IsClosed (text : List Char) : Prop :=
  ∀ segment ∈ segments text, segment.piece ≠ .error .unterminatedText

/-- A text and one that follows on a line of its own are cut apart there. -/
theorem segments_append_newline : (text : List Char) → IsClosed text → (more : List Char) →
    segments (text ++ '\n' :: more) = segments text ++ ⟨.blank, ['\n']⟩ :: segments more
  | [], _, more => by
    rw [List.nil_append, segments_cons, segments_nil]
    rfl
  | c :: after, closed, more => by
    unfold IsClosed at closed
    rw [segments_cons, List.forall_mem_cons] at closed
    have same := @extend_firstCut '\n' rfl c after more closed.1 (.inl rfl)
    rw [List.cons_append, segments_cons, segments_cons, same, Cut.extend,
      segments_append_newline (firstCut c after).rest closed.2 more, List.cons_append]
  termination_by text => text.length
  decreasing_by exact Nat.lt_succ_of_le (length_rest_firstCut c after)

/-- A text literal that is not closed is an error of its text. -/
theorem isClosed_of_errors {source : String}
    (closed : ∀ error ∈ errors source, error.problem ≠ .unterminatedText) :
    IsClosed source.toList := by
  intro segment member unclosed
  obtain ⟨start, yields⟩ := exists_start_of_mem 1 member
  have listed := yields _ (Segment.item?_of_error unclosed)
  exact closed ⟨.unterminatedText, start⟩ (List.mem_filterMap.mpr ⟨_, listed, rfl⟩) rfl

/-! ## Lines -/

/-- The item as many lines further down. -/
def Item.later (lines : Nat) : Item → Item
  | .token t => .token ⟨t.kind, t.line + lines⟩
  | .error e => .error ⟨e.problem, e.line + lines⟩

theorem item?_later (line lines : Nat) (segment : Segment) :
    segment.item? (line + lines) = (segment.item? line).map (Item.later lines) := by
  obtain ⟨piece, slice⟩ := segment
  cases piece <;> simp [Segment.item?, Item.later, Nat.add_right_comm]

theorem itemsFrom_later (line lines : Nat) (segments : List Segment) :
    itemsFrom (line + lines) segments = (itemsFrom line segments).map (Item.later lines) := by
  induction segments generalizing line with
  | nil => rfl
  | cons segment rest ih =>
    rw [itemsFrom_cons, itemsFrom_cons, List.map_append, item?_later, Nat.add_right_comm, ih]
    cases segment.item? line <;> rfl

/-- The items of a text, a line break and a second text are those of the first up to its end, then
those of the second, as many lines further down as there are newlines before it. -/
theorem items_append_newline (first second : String)
    (closed : ∀ error ∈ errors first, error.problem ≠ .unterminatedText) :
    let newlines := first.toList.count '\n'
    ∃ found, items first = found ++ [.token ⟨.endOfInput, 1 + newlines⟩] ∧
      items (first ++ "\n" ++ second) =
        found ++ (items second).map (Item.later (newlines + 1)) := by
  intro newlines
  have ended : lineAfter 1 (segments first.toList) = 1 + newlines := by
    rw [lineAfter, flatMap_slice_segments]
  refine ⟨foundFrom 1 (segments first.toList), ?_, ?_⟩
  · rw [items, itemsFrom_eq, ended]
  · have cut : segments (first ++ "\n" ++ second).toList =
        segments first.toList ++ ⟨.blank, ['\n']⟩ :: segments second.toList := by
      rw [String.toList_append, String.toList_append, List.append_assoc]
      exact segments_append_newline _ (isClosed_of_errors closed) _
    rw [items, cut, itemsFrom_append, ended, itemsFrom_cons, items, ← itemsFrom_later]
    rfl

/-- The first text ends where a digit would make its last two tokens one. -/
theorem items_append_newline_fraction :
    let first := "é//c\n1."
    let second := "5!"
    (∀ error ∈ errors first, error.problem ≠ .unterminatedText) ∧
      ∃ found, found.length = 3 ∧ items first = found ++ [.token ⟨.endOfInput, 2⟩] ∧
        items (first ++ "\n" ++ second) = found ++ (items second).map (Item.later 2) := by
  intro first second
  have closed : ∀ error ∈ errors first, error.problem ≠ .unterminatedText := by decide +kernel
  obtain ⟨found, ended, broken⟩ := items_append_newline first second closed
  have one : first.toList.count '\n' = 1 := by decide +kernel
  rw [one] at ended broken
  have four : (items first).length = 4 := by decide +kernel
  refine ⟨closed, found, ?_, ended, broken⟩
  rw [ended, List.length_append] at four
  exact Nat.succ.inj four

end Lox.Scan
