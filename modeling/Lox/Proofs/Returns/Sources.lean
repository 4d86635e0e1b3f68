import Lox.Proofs.Progress.Positions
import Lox.Proofs.Recovery.Statements
import Lox.Proofs.Returns.Rules
import Lox.Proofs.Scanning.Placement
import Mathlib.Data.List.Forall2

/-!
# Where a return statement has no value

A `return` takes the value that follows it on its line. What is compared is the line that the next
token ends on, though: a text literal that starts on the line of the keyword and runs on to another
one is not taken, and becomes a statement of its own.
-/

namespace Lox

/-! ## Keywords by their positions -/

namespace Cursor

variable {tokens : List Token} {start here finish : Cursor}

/-- Statements that are read one after the other have their keywords further and further on. -/
theorem Gathers.places (ended : ∃ token ∈ tokens, token.kind = .endOfInput)
    {found : List (ReturnStatement Unit)} (gathers : start.Gathers found finish)
    (reached : (ofTokens tokens).Reaches start) :
    ∃ places : List Nat, places.Pairwise (· < ·) ∧
      (∀ place ∈ places, start.position tokens ≤ place) ∧
      List.Forall₂ (fun returned place => ∃ next,
        tokens[place]? = some ⟨.keyword .kwReturn, returned.line⟩ ∧
          tokens[place + 1]? = some next ∧
            (returned.value = none ↔ next.EndsReturn returned.line)) found places := by
  induction gathers with
  | nil => exact ⟨[], .nil, nofun, .nil⟩
  | @cons start here finish returned rest onward read _ ih =>
    have there := reached.trans onward
    have more : here.rest ≠ [] := fun none => by
      -- With nothing left the end of the input is at the front, which is no keyword.
      have stops := there.ends (ofTokens_ends tokens)
      have front : here.next = here.stop := by rw [next, none, List.head?_nil, Option.getD_none]
      rw [Ends, ← front, read.keyword] at stops
      cases stops
    obtain ⟨places, increasing, further, each⟩ := ih (there.trans (.advance here))
    have below : start.position tokens ≤ here.position tokens := position_le_position onward
    have after := position_advance there more
    have beyond : ∀ place ∈ places, here.position tokens < place := fun place member => by
      have := further place member
      omega
    have keyword := getElem?_position ended there
    have following := getElem?_position ended (there.trans (.advance here))
    rw [read.keyword] at keyword
    rw [after] at following
    refine ⟨here.position tokens :: places, .cons beyond increasing, fun place member => ?_,
      .cons ⟨here.advance.next, keyword, following, read.value⟩ each⟩
    obtain rfl | later := List.mem_cons.mp member
    · exact below
    · exact Nat.le_trans below (Nat.le_of_lt (beyond place later))

end Cursor

namespace Scan

theorem exists_end_of_tokens (source : String) :
    ∃ token ∈ tokens source, token.kind = .endOfInput := by
  refine ⟨⟨.endOfInput, lineAfter 1 (segments source.toList)⟩, ?_, rfl⟩
  rw [tokens, items, itemsFrom_eq, List.filterMap_append]
  exact List.mem_append_right _ (.head _)

/-- The `return` statements of a source text have their keywords in it, one after the other, and
something holds of each one, its keyword, and the token after that. -/
def ReturnsWhere (source : String)
    (holds : ReturnStatement Unit → Placed → Placed → Prop) : Prop :=
  ∃ places : List Nat, places.Pairwise (· < ·) ∧
    List.Forall₂ (fun returned place => ∃ keyword next,
      (placed source)[place]? = some keyword ∧ (placed source)[place + 1]? = some next ∧
        keyword.token = ⟨.keyword .kwReturn, returned.line⟩ ∧ holds returned keyword next)
      (Stmt.returnsEach (Program.parse (tokens source)).statements) places

/-- A token that ends a `return` statement where it stands. -/
def Placed.Ends (next : Placed) : Prop :=
  next.token.kind = .symbol .semicolon ∨ next.token.kind = .symbol .rightBrace ∨
    next.token.kind = .endOfInput

variable {source : String} {keyword next : Placed} {place line : Nat}

/-- The token after a `return` is on another line if it starts on one, or ends on one. -/
theorem line_ne_iff (stands : (placed source)[place]? = some keyword)
    (follows : (placed source)[place + 1]? = some next)
    (found : keyword.token = ⟨.keyword .kwReturn, line⟩) :
    keyword.first = line ∧
      (next.token.line ≠ line ↔ line < next.first ∨ next.first = line ∧ next.RunsOn) := by
  obtain ⟨last, lastNext, ordered⟩ := placed_spread source stands follows
  have single : keyword.token.lexeme.toList.count '\n' = 0 := by
    rw [found]
    change Keyword.kwReturn.lexeme.toList.count '\n' = 0
    decide
  have onLine : keyword.token.line = line := by rw [found]
  rw [Placed.runsOn_iff (List.mem_of_getElem? follows)]
  omega

/-- A `return` statement has no value if and only if the next token ends the statement, starts on a
later line, or is a text literal that starts on the line of the keyword and runs on. -/
theorem returns_of_source (source : String) : ReturnsWhere source fun returned keyword next =>
    keyword.first = returned.line ∧
      (returned.value = none ↔ next.Ends ∨ returned.line < next.first ∨
        next.first = returned.line ∧ next.RunsOn) := by
  obtain ⟨stmts, finish, ran⟩ := Program.exists_done (tokens source)
  obtain ⟨found, same, gathers⟩ := Reader.program_gathers _ _ stmts finish ran
  rw [List.nil_append] at same
  obtain ⟨places, increasing, -, each⟩ :=
    gathers.places (exists_end_of_tokens source) (.refl _)
  refine ⟨places, increasing, ?_⟩
  rw [Program.parse_eq_of_done ran, same]
  refine each.imp fun returned place read => ?_
  obtain ⟨token, keywordThere, tokenThere, value⟩ := read
  rw [← map_token_placed, List.getElem?_map, Option.map_eq_some_iff] at keywordThere tokenThere
  obtain ⟨keyword, stands, isKeyword⟩ := keywordThere
  obtain ⟨next, follows, rfl⟩ := tokenThere
  obtain ⟨starts, away⟩ := line_ne_iff stands follows isKeyword
  refine ⟨keyword, next, stands, follows, isKeyword, starts, ?_⟩
  rw [value, Token.EndsReturn, away, Placed.Ends]
  simp only [or_assoc]

/-- A text literal of two lines right behind a `return`: the statement has no value, although the
literal starts on the line of the keyword and ends nothing. -/
theorem returns_of_source_cut :
    ¬ ∀ source, ReturnsWhere source fun returned keyword next =>
      returned.value = none → next.Ends ∨ keyword.first < next.first := by
  intro claim
  obtain ⟨places, -, each⟩ := claim "return \"a\nb\""
  have stood : placed "return \"a\nb\"" = [⟨⟨.keyword .kwReturn, 1⟩, 1⟩, ⟨⟨.text "a\nb", 2⟩, 1⟩,
    ⟨⟨.endOfInput, 2⟩, 2⟩] := by decide +kernel
  have bare : Stmt.returnsEach (Program.parse (tokens "return \"a\nb\"")).statements =
      [⟨1, none⟩] := by
    rw [← map_token_placed, stood]
    rfl
  rw [bare, stood] at each
  cases each with
  | @cons _ place _ _ read _ =>
    obtain ⟨keyword, next, stands, follows, isKeyword, holds⟩ := read
    -- There is no other keyword in the source.
    match place with
    | 0 =>
      cases stands
      cases follows
      exact absurd (holds rfl) (by simp [Placed.Ends])
    | 1 | 2 =>
      cases stands
      cases isKeyword
    | _ + 3 => cases stands

end Scan

end Lox
