import Lox.Token.Scan

/-!
# The items of a scan one by one

A segment yields at most one item, and the line is all that passes from one segment to the next: the
items of segments are those of the first ones, then those of the others from the line reached there.
-/

namespace Lox.Scan

/-- The item that a segment yields which starts on the given line. -/
def Segment.item? (line : Nat) (segment : Segment) : Option Item :=
  match segment.piece with
  | .blank => none
  | .token kind => some (.token ⟨kind, line + segment.slice.count '\n'⟩)
  | .error problem => some (.error ⟨problem, line⟩)

/-- The line after some segments that start on the given one. -/
def lineAfter (line : Nat) (segments : List Segment) : Nat :=
  line + (segments.flatMap Segment.slice).count '\n'

/-- The items of some segments, without the end of the input. -/
def foundFrom (line : Nat) : List Segment → List Item
  | [] => []
  | segment :: rest =>
    (segment.item? line).toList ++ foundFrom (line + segment.slice.count '\n') rest

variable {line : Nat} {segment : Segment} {rest front back : List Segment}

theorem itemsFrom_cons : itemsFrom line (segment :: rest) =
    (segment.item? line).toList ++ itemsFrom (line + segment.slice.count '\n') rest := by
  obtain ⟨piece, slice⟩ := segment
  cases piece <;> rfl

theorem lineAfter_cons :
    lineAfter line (segment :: rest) = lineAfter (line + segment.slice.count '\n') rest := by
  simp [lineAfter, Nat.add_assoc]

/-- The items of a list of segments in two parts. -/
theorem itemsFrom_append : itemsFrom line (front ++ back) =
    foundFrom line front ++ itemsFrom (lineAfter line front) back := by
  induction front generalizing line with
  | nil => rfl
  | cons segment rest ih =>
    rw [List.cons_append, itemsFrom_cons, ih, foundFrom, lineAfter_cons, List.append_assoc]

/-- The last item is the end of the input. -/
theorem itemsFrom_eq : itemsFrom line rest =
    foundFrom line rest ++ [.token ⟨.endOfInput, lineAfter line rest⟩] := by
  have parts := @itemsFrom_append line rest []
  rwa [List.append_nil] at parts

theorem exists_of_mem_foundFrom {item : Item} (member : item ∈ foundFrom line rest) :
    ∃ segment ∈ rest, ∃ start, segment.item? start = some item := by
  induction rest generalizing line with
  | nil => cases member
  | cons segment rest ih =>
    obtain here | further := List.mem_append.mp member
    · exact ⟨segment, .head _, line, Option.mem_toList.mp here⟩
    · obtain ⟨other, among, start, found⟩ := ih further
      exact ⟨other, .tail _ among, start, found⟩

/-- Every segment of a text is the first piece of what is left from there on. -/
theorem exists_of_mem_segments : (text : List Char) → segment ∈ segments text →
    ∃ c after, segment = ⟨(firstCut c after).piece, (firstCut c after).slice⟩
  | [], member => by
    rw [segments_nil] at member
    cases member
  | c :: after, member => by
    rw [segments_cons] at member
    obtain rfl | further := List.mem_cons.mp member
    · exact ⟨c, after, rfl⟩
    · exact exists_of_mem_segments (firstCut c after).rest further
  termination_by text => text.length
  decreasing_by exact Nat.lt_succ_of_le (length_rest_firstCut c after)

/-- An item before the end of the input comes from the first piece of some text. -/
theorem firstCut_of_mem_foundFrom {item : Item} {text : List Char}
    (member : item ∈ foundFrom line (segments text)) :
    ∃ c after start, Segment.item? start ⟨(firstCut c after).piece, (firstCut c after).slice⟩ =
      some item := by
  obtain ⟨segment, among, start, found⟩ := exists_of_mem_foundFrom member
  obtain ⟨c, after, rfl⟩ := exists_of_mem_segments text among
  exact ⟨c, after, start, found⟩

/-- Every segment is asked for its item on the line that it starts on. -/
theorem exists_start_of_mem (line : Nat) (member : segment ∈ rest) :
    ∃ start, ∀ item, segment.item? start = some item → item ∈ itemsFrom line rest := by
  induction rest generalizing line with
  | nil => cases member
  | cons first rest ih =>
    rw [itemsFrom_cons]
    obtain rfl | further := List.mem_cons.mp member
    · exact ⟨line, fun item found => List.mem_append_left _ (Option.mem_toList.mpr found)⟩
    · obtain ⟨start, yields⟩ := ih (line + first.slice.count '\n') further
      exact ⟨start, fun item found => List.mem_append_right _ (yields item found)⟩

theorem Segment.item?_of_error {problem : LexicalProblem} (piece : segment.piece = .error problem) :
    segment.item? line = some (.error ⟨problem, line⟩) := by
  unfold item?
  rw [piece]

theorem Segment.piece_of_token {token : Token} (found : segment.item? line = some (.token token)) :
    segment.piece = .token token.kind := by
  unfold item? at found
  split at found <;> cases found
  assumption

end Lox.Scan
