import Lox.Proofs.Grammar.Written

/-!
# What readers guarantee

A cursor `Reaches` another if reading can have gone from the one to the other: tokens were taken
from the front, errors were added. It `Takes` a written form if, unless an error was added on the
way, the tokens taken spell that form; what counts of it comes from the tokens in any case. `Ensures`
is the contract of a reader: it ends, moves
forward whatever happens, and keeps its postcondition if it gives a result.
-/

namespace Lox

namespace Cursor

/-- The end of the input is where the tokens end. -/
def Ends (cursor : Cursor) : Prop := cursor.stop.kind = .endOfInput

/-! ## Moving forward -/

structure Reaches (start finish : Cursor) : Prop where
  rest : finish.rest <:+ start.rest
  stop : finish.stop = start.stop
  errors : start.errors <:+ finish.errors

namespace Reaches

variable {start middle finish : Cursor}

theorem refl (cursor : Cursor) : cursor.Reaches cursor :=
  ⟨List.suffix_refl _, rfl, List.suffix_refl _⟩

theorem trans (first : start.Reaches middle) (second : middle.Reaches finish) :
    start.Reaches finish :=
  ⟨second.rest.trans first.rest, second.stop.trans first.stop, first.errors.trans second.errors⟩

theorem advance (cursor : Cursor) : cursor.Reaches cursor.advance :=
  ⟨List.tail_suffix _, rfl, List.suffix_refl _⟩

theorem record (cursor : Cursor) (error : SyntaxError) : cursor.Reaches (cursor.record error) :=
  ⟨List.suffix_refl _, rfl, List.suffix_cons _ _⟩

theorem ends (reached : start.Reaches finish) (ends : start.Ends) : finish.Ends := by
  rw [Ends, reached.stop]
  exact ends

theorem length (reached : start.Reaches finish) : finish.rest.length ≤ start.rest.length :=
  reached.rest.length_le

/-- If no error was added in the end, none was added on the way. -/
theorem errors_middle (first : start.Reaches middle) (second : middle.Reaches finish)
    (clean : finish.errors = start.errors) : middle.errors = start.errors := by
  have shorter := first.errors.length_le
  have longer := second.errors.length_le
  rw [clean] at longer
  exact (first.errors.eq_of_length (by omega)).symm

end Reaches

/-! ## Taking written forms -/

structure Takes (start : Cursor) (kinds : List Token.Kind) (finish : Cursor) : Prop
    extends start.Reaches finish where
  taken : finish.errors = start.errors → ∃ tokens, start.rest = tokens ++ finish.rest ∧
    Token.Kind.significant (tokens.map (·.kind)) = Token.Kind.significant kinds
  listed : ∀ kind ∈ Token.Kind.significant kinds, ∃ token ∈ start.rest,
    kind ∈ Token.Kind.significant [token.kind]

namespace Takes

variable {start middle finish : Cursor} {kinds more : List Token.Kind}

theorem refl (cursor : Cursor) : cursor.Takes [] cursor :=
  ⟨.refl cursor, fun _ => ⟨[], rfl, rfl⟩, nofun⟩

theorem trans (first : start.Takes kinds middle) (second : middle.Takes more finish) :
    start.Takes (kinds ++ more) finish := by
  refine ⟨first.toReaches.trans second.toReaches, fun clean => ?_, fun kind member => ?_⟩
  · have middleClean := first.errors_middle second.toReaches clean
    obtain ⟨front, frontTaken, frontKinds⟩ := first.taken middleClean
    obtain ⟨back, backTaken, backKinds⟩ := second.taken (clean.trans middleClean.symm)
    refine ⟨front ++ back, ?_, ?_⟩
    · rw [frontTaken, backTaken, List.append_assoc]
    · simp [frontKinds, backKinds]
  · rw [Token.Kind.significant_append] at member
    cases List.mem_append.mp member with
    | inl earlier => exact first.listed kind earlier
    | inr here =>
      obtain ⟨token, there, spelled⟩ := second.listed kind here
      exact ⟨token, first.rest.subset there, spelled⟩

/-- The same tokens taken for another form with the same significant kinds. -/
theorem congr (takes : start.Takes kinds finish)
    (same : Token.Kind.significant kinds = Token.Kind.significant more) :
    start.Takes more finish :=
  ⟨takes.toReaches, fun clean => by
    obtain ⟨tokens, taken, spelled⟩ := takes.taken clean
    exact ⟨tokens, taken, spelled.trans same⟩, fun kind member => takes.listed kind (same ▸ member)⟩

/-- Where an error was added there is nothing to show about the tokens. -/
theorem ofErrors (reached : start.Reaches finish) (added : finish.errors ≠ start.errors) :
    start.Takes [] finish :=
  ⟨reached, fun clean => absurd clean added, nofun⟩

/-- The names in a form come from the tokens. -/
theorem named (takes : start.Takes kinds finish) {text : String} (member : .identifier text ∈ kinds) :
    ∃ token ∈ start.rest, token.kind = .identifier text := by
  obtain ⟨token, there, counts⟩ :=
    takes.listed _ (Token.Kind.identifier_mem_significant.mpr member)
  have named := Token.Kind.identifier_mem_significant.mp counts
  exact ⟨token, there, (List.mem_singleton.mp named).symm⟩

/-- The numbers in a form come from the tokens, however they are written there. -/
theorem numbered (takes : start.Takes kinds finish) {lexeme : String} {value : Number}
    (member : .number lexeme value ∈ kinds) :
    ∃ token ∈ start.rest, ∃ written, token.kind = .number written value := by
  obtain ⟨token, there, counts⟩ := takes.listed _ (Token.Kind.number_mem_significant.mpr ⟨lexeme, member⟩)
  obtain ⟨written, found⟩ := Token.Kind.number_mem_significant.mp counts
  exact ⟨token, there, written, (List.mem_singleton.mp found).symm⟩

end Takes

/-! ## The token at the front -/

theorem rest_ne_nil {cursor : Cursor} (ends : cursor.Ends)
    (more : cursor.next.kind ≠ .endOfInput) : cursor.rest ≠ [] := by
  intro none
  apply more
  simp only [next, none, List.head?_nil, Option.getD_none]
  exact ends

theorem rest_eq_cons {cursor : Cursor} (ends : cursor.Ends)
    (more : cursor.next.kind ≠ .endOfInput) : cursor.rest = cursor.next :: cursor.advance.rest := by
  have nonempty := rest_ne_nil ends more
  cases front : cursor.rest with
  | nil => exact absurd front nonempty
  | cons token rest => simp [next, advance, front]

/-- Going past a token of a known kind. -/
theorem takes_advance {cursor : Cursor} {kind : Token.Kind} (ends : cursor.Ends)
    (found : cursor.next.kind = kind) (more : kind ≠ .endOfInput) :
    cursor.Takes [kind] cursor.advance ∧ cursor.advance.rest.length < cursor.rest.length := by
  subst found
  have front := rest_eq_cons ends more
  refine ⟨⟨.advance cursor, fun _ => ⟨[cursor.next], front, rfl⟩, fun kind member => ?_⟩, ?_⟩
  · rw [front]
    exact ⟨cursor.next, .head _, member⟩
  · rw [front]
    simp

end Cursor

/-! ## Contracts -/

namespace Reader

variable {α β : Type} {start here : Cursor}

/-- The reader, run from `here` by one that set out from `start`, ends somewhere further on, and
with the postcondition if it gives a result. -/
def Ensures (start here : Cursor) (reader : Reader α) (post : α → Cursor → Prop) : Prop :=
  match reader here with
  | .done value finish => start.Reaches finish ∧ post value finish
  | .failed _ finish => start.Reaches finish
  | .outOfFuel => False

section

variable {reader : Reader α} {post : α → Cursor → Prop}

/-- A contract from further on holds from where one came, with a weaker postcondition. -/
theorem Ensures.rebase {stronger : α → Cursor → Prop} (ensures : Ensures here here reader stronger)
    (reached : start.Reaches here)
    (weaken : ∀ value finish, here.Reaches finish → stronger value finish → post value finish) :
    Ensures start here reader post := by
  unfold Ensures at ensures ⊢
  cases outcome : reader here with
  | done value finish =>
    rw [outcome] at ensures
    exact ⟨reached.trans ensures.1, weaken _ _ ensures.1 ensures.2⟩
  | failed error finish =>
    rw [outcome] at ensures
    exact reached.trans ensures
  | outOfFuel =>
    rw [outcome] at ensures
    exact ensures

theorem ensures_pure {value : α} (reached : start.Reaches here) (holds : post value here) :
    Ensures start here (pure value) post :=
  ⟨reached, holds⟩

theorem ensures_fail {problem : SyntaxProblem} (reached : start.Reaches here) :
    Ensures start here (fail problem) post :=
  reached

theorem ensures_failAt {problem : SyntaxProblem} {token : Token} (reached : start.Reaches here) :
    Ensures start here (failAt problem token) post :=
  reached

end

/-! ### What comes first

What the first reader ensures from where it is run is what the rest may rely on. -/

section

variable {reader : Reader α} {continuation : α → Reader β} {middle : α → Cursor → Prop}
  {post : β → Cursor → Prop}

theorem ensures_bind (reached : start.Reaches here) (first : Ensures here here reader middle)
    (second : ∀ value finish, here.Reaches finish → middle value finish →
      Ensures start finish (continuation value) post) :
    Ensures start here (reader >>= continuation) post := by
  change Ensures start here (Reader.bind reader continuation) post
  unfold Ensures Reader.bind
  unfold Ensures at first
  cases outcome : reader here with
  | done value finish =>
    rw [outcome] at first
    exact second value finish first.1 first.2
  | failed error finish =>
    rw [outcome] at first
    exact reached.trans first
  | outOfFuel =>
    rw [outcome] at first
    exact first

end

section

variable {post : β → Cursor → Prop}

theorem ensures_next {continuation : Token → Reader β}
    (rest : Ensures start here (continuation here.next) post) :
    Ensures start here (next >>= continuation) post :=
  rest

theorem ensures_atEnd {continuation : Bool → Reader β}
    (rest : Ensures start here (continuation here.rest.isEmpty) post) :
    Ensures start here (atEnd >>= continuation) post :=
  rest

theorem ensures_nextIs {symbol : Symbol} {continuation : Bool → Reader β}
    (present : here.next.kind = .symbol symbol → Ensures start here (continuation true) post)
    (absent : here.next.kind ≠ .symbol symbol → Ensures start here (continuation false) post) :
    Ensures start here (nextIs symbol >>= continuation) post := by
  change Ensures start here (continuation (decide (here.next.kind = .symbol symbol))) post
  by_cases found : here.next.kind = .symbol symbol
  · simp only [found, decide_true]
    exact present found
  · simp only [found, decide_false]
    exact absent found

theorem ensures_advance {continuation : Token → Reader β}
    (rest : Ensures start here.advance (continuation here.next) post) :
    Ensures start here (advance >>= continuation) post :=
  rest

theorem ensures_record {problem : SyntaxProblem} {continuation : Unit → Reader β}
    (rest : Ensures start (here.record ⟨problem, here.next⟩) (continuation ()) post) :
    Ensures start here (record problem >>= continuation) post :=
  rest

theorem ensures_accept {symbol : Symbol} {continuation : Bool → Reader β}
    (present : here.next.kind = .symbol symbol →
      Ensures start here.advance (continuation true) post)
    (absent : here.next.kind ≠ .symbol symbol → Ensures start here (continuation false) post) :
    Ensures start here (accept symbol >>= continuation) post := by
  change Ensures start here (Reader.bind (accept symbol) continuation) post
  unfold Ensures Reader.bind accept
  by_cases found : here.next.kind = .symbol symbol
  · simp only [found, ↓reduceIte]
    exact present found
  · simp only [found, ↓reduceIte]
    exact absent found

theorem ensures_expect {symbol : Symbol} {place : Place} {continuation : Token → Reader β}
    (reached : start.Reaches here)
    (present : here.next.kind = .symbol symbol →
      Ensures start here.advance (continuation here.next) post) :
    Ensures start here (expect symbol place >>= continuation) post := by
  change Ensures start here (Reader.bind (expect symbol place) continuation) post
  unfold Ensures Reader.bind expect
  by_cases found : here.next.kind = .symbol symbol
  · simp only [found, ↓reduceIte]
    exact present found
  · simp only [found, ↓reduceIte]
    exact reached

theorem ensures_identifier {role : NameRole} {continuation : Name → Reader β}
    (reached : start.Reaches here)
    (present : ∀ text, here.next.kind = .identifier text →
      Ensures start here.advance (continuation ⟨text, here.next.line⟩) post) :
    Ensures start here (identifier role >>= continuation) post := by
  change Ensures start here (Reader.bind (identifier role) continuation) post
  unfold Ensures Reader.bind identifier
  cases found : here.next.kind with
  | identifier text => exact present text found
  | _ => exact reached

/-- A part that is left out where a symbol is at the front. -/
theorem ensures_unless {symbol : Symbol} {absent : α} {reader : Reader α}
    {continuation : α → Reader β} (middle : α → Cursor → Prop) (reached : start.Reaches here)
    (first : here.next.kind ≠ .symbol symbol → Ensures here here reader middle)
    (leftOut : here.next.kind = .symbol symbol → middle absent here)
    (second : ∀ value finish, here.Reaches finish → middle value finish →
      Ensures start finish (continuation value) post) :
    Ensures start here (nextIs symbol >>= fun found =>
      if found = true then pure absent >>= continuation else reader >>= continuation) post := by
  refine ensures_nextIs (fun found => ?_) (fun missing => ?_)
  · simp only [↓reduceIte]
    exact second absent here (.refl here) (leftOut found)
  · simp only [Bool.false_eq_true, ↓reduceIte]
    exact ensures_bind reached (first missing) second

/-- The end of a statement takes nothing that counts. -/
theorem ensures_terminator {continuation : Unit → Reader β} (ends : here.Ends)
    (rest : ∀ finish, here.Takes [] finish → Ensures start finish (continuation ()) post) :
    Ensures start here (terminator >>= continuation) post := by
  change Ensures start here (Reader.bind (Reader.bind (accept .semicolon) _) continuation) post
  unfold Ensures Reader.bind accept
  by_cases found : here.next.kind = .symbol .semicolon
  · simp only [found, ↓reduceIte]
    exact rest _ ((Cursor.takes_advance ends found (by simp)).1.congr rfl)
  · simp only [found, ↓reduceIte]
    exact rest _ (.refl here)

end

end Reader

end Lox
