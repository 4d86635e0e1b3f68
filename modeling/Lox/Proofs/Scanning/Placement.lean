import Lox.Proofs.Scanning.Spans

/-!
# The lines that tokens start on

A token keeps the line that it ends on. The line that its first character stands on is counted in the
source, by the newlines before it; the two differ only for a text literal that runs over several
lines.
-/

namespace Lox.Scan

/-- A token, and the line that its first character stands on. -/
structure Placed where
  token : Token
  first : Nat
  deriving DecidableEq, Repr

/-- The tokens of some spans that follow the text `before`, each with the line of its first
character. -/
def placedFrom (before : List Char) : List Span → List Placed
  | [] => []
  | span :: rest =>
    let start := before ++ span.gap
    (span.item.token?.map fun token => ⟨token, 1 + start.count '\n'⟩).toList ++
      placedFrom (start ++ span.slice) rest

/-- The tokens of a source text where they stand. -/
def placed (source : String) : List Placed := placedFrom [] (spans source)

theorem map_token_placedFrom (before : List Char) (spans : List Span) :
    (placedFrom before spans).map Placed.token =
      (spans.map Span.item).filterMap Item.token? := by
  induction spans generalizing before with
  | nil => rfl
  | cons span rest ih =>
    rw [placedFrom, List.map_append, ih, List.map_cons, List.filterMap_cons]
    cases span.item.token? <;> rfl

theorem map_token_placed (source : String) : (placed source).map Placed.token = tokens source := by
  rw [placed, map_token_placedFrom, map_item_spans]
  rfl

/-- Spans that stand one after the other behind some text. -/
def StandBehind (before : List Char) (spans : List Span) : Prop :=
  ∀ front span back, spans = front ++ span :: back →
    span.Stands (before ++ front.flatMap Span.text) (back.flatMap Span.text)

theorem StandBehind.tail {before : List Char} {span : Span} {rest : List Span}
    (stand : StandBehind before (span :: rest)) :
    StandBehind (before ++ span.gap ++ span.slice) rest := by
  rintro front other back rfl
  have stands := stand (span :: front) other back rfl
  simpa [Span.text] using stands

theorem standBehind_spans (source : String) : StandBehind [] (spans source) :=
  fun _ _ _ split => stands_spansFrom [] [] source.toList .nil split

/-- Of spans behind some text, every token starts behind it and ends where it ends, and the next one
starts no earlier. -/
theorem placedFrom_spread {before : List Char} {spans : List Span}
    (stand : StandBehind before spans) :
    (∀ here ∈ placedFrom before spans, 1 + before.count '\n' ≤ here.first ∧
      here.token.line = here.first + here.token.lexeme.toList.count '\n') ∧
    (placedFrom before spans).Pairwise fun here later => here.token.line ≤ later.first := by
  induction spans generalizing before with
  | nil => exact ⟨nofun, .nil⟩
  | cons span rest ih =>
    obtain ⟨spread, ordered⟩ := ih stand.tail
    have covers := (stand [] span rest rfl).item
    rw [List.flatMap_nil, List.append_nil] at covers
    simp only [List.count_append] at spread
    rw [placedFrom]
    cases item : span.item with
    | error error =>
      refine ⟨fun here member => ?_, ordered⟩
      obtain ⟨behind, last⟩ := spread here member
      exact ⟨by omega, last⟩
    | token token =>
      rw [item] at covers
      obtain ⟨spelled, line, -⟩ := covers
      simp only [List.count_append] at line
      refine ⟨fun here member => ?_, ?_⟩
      · obtain rfl | later := List.mem_cons.mp member
        · simp only [List.count_append, ← spelled]
          omega
        · obtain ⟨behind, last⟩ := spread here later
          exact ⟨by omega, last⟩
      · refine .cons (fun later member => ?_) ordered
        have behind := (spread later member).1
        dsimp only
        omega

/-- A token that is no text literal stands on one line. -/
theorem newline_not_mem_lexeme {source : String} {token : Token} (member : token ∈ tokens source)
    (plain : ∀ contents, token.kind ≠ .text contents) : '\n' ∉ token.lexeme.toList := by
  obtain ⟨item, among, isToken⟩ := List.mem_filterMap.mp member
  obtain rfl : item = .token token := by
    cases item <;> cases isToken
    rfl
  rw [items, itemsFrom_eq, List.mem_append, List.mem_singleton] at among
  obtain inside | last := among
  · obtain ⟨c, after, start, found⟩ := firstCut_of_mem_foundFrom inside
    have piece : (firstCut c after).piece = .token token.kind := Segment.piece_of_token found
    have described := (firstCut_cases c after).describes
    rw [piece] at described
    have spelled : (firstCut c after).slice = token.lexeme.toList := described.2
    rw [← spelled]
    exact (firstCut_cases c after).newline_not_mem piece plain
  · cases last
    exact List.not_mem_nil

/-- A text literal that runs over several lines. -/
def Placed.RunsOn (placed : Placed) : Prop :=
  ∃ contents, placed.token.kind = .text contents ∧ '\n' ∈ contents.toList

theorem Placed.runsOn_iff {source : String} {here : Placed} (member : here ∈ placed source) :
    here.RunsOn ↔ 0 < here.token.lexeme.toList.count '\n' := by
  rw [List.count_pos_iff]
  constructor
  case mp =>
    rintro ⟨contents, kind, inside⟩
    simp [Token.lexeme, kind, Token.Kind.lexeme, inside]
  case mpr =>
    intro inside
    have among : here.token ∈ tokens source := by
      rw [← map_token_placed]
      exact List.mem_map_of_mem member
    cases kind : here.token.kind with
    | text contents =>
      simp only [Token.lexeme, kind, Token.Kind.lexeme, String.toList_append] at inside
      exact ⟨contents, kind, by simpa using inside⟩
    | _ => exact absurd inside (newline_not_mem_lexeme among (by simp [kind]))

/-- Where the tokens of a source start and end: each on the line that its newlines make of the line
it starts on, and none before the one that precedes it. -/
theorem placed_spread (source : String) {place : Nat} {here next : Placed}
    (stands : (placed source)[place]? = some here)
    (follows : (placed source)[place + 1]? = some next) :
    here.token.line = here.first + here.token.lexeme.toList.count '\n' ∧
      next.token.line = next.first + next.token.lexeme.toList.count '\n' ∧
      here.token.line ≤ next.first := by
  obtain ⟨spread, ordered⟩ := placedFrom_spread (standBehind_spans source)
  have before := List.mem_of_getElem? stands
  have after := List.mem_of_getElem? follows
  refine ⟨(spread here before).2, (spread next after).2, ?_⟩
  obtain ⟨within, rfl⟩ := List.getElem?_eq_some_iff.mp stands
  obtain ⟨further, rfl⟩ := List.getElem?_eq_some_iff.mp follows
  exact List.pairwise_iff_getElem.mp ordered place (place + 1) within further (Nat.lt_succ_self _)

end Lox.Scan
