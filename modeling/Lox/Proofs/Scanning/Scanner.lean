import Lox.Proofs.Scanning.Cuts
import Lox.Proofs.Scanning.Items

/-!
# Scanning item by item

The items of a source text can also be asked for one at a time. The scan that answers goes from
segment to segment, passes over what is blank, and once it has come to the end of the input it
has no more to give, however often it is asked.

Such a scan does not look back at the slices to tell the line: it counts up where it goes over a newline.
There are two places where it does, between tokens and inside of a text literal, and that is enough.
-/

namespace Lox.Scan

/-- A scan in progress: the line it has come to, and the text that is left, or nothing once the end
of the input was given. -/
structure Scanner where
  line : Nat
  rest : Option (List Char)

namespace Scanner

def ofSource (source : String) : Scanner := ⟨1, some source.toList⟩

/-! ## Lines -/

/-- The line that a text literal comes to, given what follows its opening quote. -/
def lineAfterLiteral (line : Nat) : List Char → Nat
  | [] => line
  | c :: rest =>
    if c = '"' then line
    else if c = '\n' then lineAfterLiteral (line + 1) rest
    else lineAfterLiteral line rest

/-- The line that the first piece of the text `c :: after` comes to. -/
def lineAfterPiece (line : Nat) (c : Char) (after : List Char) : Nat :=
  if c = '\n' then line + 1
  else if c = '"' then lineAfterLiteral line after
  else line

theorem lineAfterLiteral_eq (line : Nat) (after : List Char) :
    lineAfterLiteral line after = line + (after.takeWhile (· ≠ '"')).count '\n' := by
  induction after generalizing line with
  | nil => rfl
  | cons c rest ih =>
    rw [lineAfterLiteral]
    split
    · next quote => simp [quote]
    · next other =>
      rw [List.takeWhile_cons_of_pos (by simpa using other), List.count_cons]
      split
      · next newline =>
        rw [ih, newline]
        simp only [beq_self_eq_true, if_true]
        omega
      · next newline => rw [ih, if_neg (by simpa using newline), Nat.add_zero]

theorem count_slice_textLiteral (after : List Char) :
    (textLiteral after).slice.count '\n' = (after.takeWhile (· ≠ '"')).count '\n' := by
  unfold textLiteral
  split
  · simp
  · next left => simp [eq_of_dropWhile_ne left]

/-- Counting on the way comes to the number of newlines in the slice. -/
theorem lineAfterPiece_eq (line : Nat) (c : Char) (after : List Char) :
    lineAfterPiece line c after = line + (firstCut c after).slice.count '\n' := by
  unfold lineAfterPiece
  split
  · next newline =>
    subst newline
    rfl
  · next other =>
    split
    · next quote =>
      subst quote
      rw [lineAfterLiteral_eq, ← count_slice_textLiteral]
      rfl
    · next noQuote =>
      have none := (firstCut_cases c after).newline_not_mem_of_ne other noQuote
      rw [List.count_eq_zero.mpr none, Nat.add_zero]

/-! ## Requests -/

/-- The first item of a text, and the scan that goes on after it. A token is placed on the line that the
scan has come to with it, an error on the line it had come to before. -/
def step (line : Nat) : List Char → Item × Scanner
  | [] => (.token ⟨.endOfInput, line⟩, ⟨line, none⟩)
  | c :: after =>
    let cut := firstCut c after
    let next := lineAfterPiece line c after
    match cut.piece with
    | .blank => step next cut.rest
    | .token kind => (.token ⟨kind, next⟩, ⟨next, some cut.rest⟩)
    | .error problem => (.error ⟨problem, line⟩, ⟨next, some cut.rest⟩)
  termination_by text => text.length
  decreasing_by exact Nat.lt_succ_of_le (length_rest_firstCut c after)

/-- The next item, if there is one. -/
def next (scanner : Scanner) : Option Item × Scanner :=
  match scanner.rest with
  | none => (none, scanner)
  | some text => ((step scanner.line text).1, (step scanner.line text).2)

/-- The answer to the request of that number, counted from 0. -/
def answer (scanner : Scanner) : Nat → Option Item
  | 0 => scanner.next.1
  | count + 1 => scanner.next.2.answer count

/-- The items that are left. -/
def items (scanner : Scanner) : List Item :=
  match scanner.rest with
  | none => []
  | some text => itemsFrom scanner.line (segments text)

theorem items_step (line : Nat) : (text : List Char) →
    itemsFrom line (segments text) = (step line text).1 :: (step line text).2.items
  | [] => by
    rw [segments_nil, step]
    rfl
  | c :: after => by
    rw [segments_cons, itemsFrom, step, lineAfterPiece_eq]
    cases (firstCut c after).piece with
    | blank => exact items_step _ (firstCut c after).rest
    | token kind => rfl
    | error problem => rfl
  termination_by text => text.length
  decreasing_by exact Nat.lt_succ_of_le (length_rest_firstCut c after)

theorem items_next (scanner : Scanner) :
    scanner.items = scanner.next.1.toList ++ scanner.next.2.items := by
  obtain ⟨line, _ | text⟩ := scanner
  · rfl
  · exact items_step line text

theorem next_none {scanner : Scanner} (ended : scanner.next.1 = none) :
    scanner.next.2.items = [] := by
  obtain ⟨line, _ | text⟩ := scanner
  · rfl
  · cases ended

/-- Each request is answered with the next of the items that are left, and with nothing once there
are no more. -/
theorem answer_eq (scanner : Scanner) (count : Nat) :
    scanner.answer count = scanner.items[count]? := by
  induction count generalizing scanner with
  | zero =>
    rw [answer, items_next]
    cases ended : scanner.next.1 with
    | none => rw [next_none ended]; rfl
    | some item => rfl
  | succ count ih =>
    rw [answer, ih, items_next scanner]
    cases ended : scanner.next.1 with
    | none => rw [next_none ended]; rfl
    | some item => rfl

theorem items_ofSource (source : String) : (ofSource source).items = Scan.items source := rfl

end Scanner

end Lox.Scan
