import Lox.Proofs.Recovery.Locality

/-!
# The return statements of a tree where they were read

Every `return` statement of a tree was read at a keyword of its own, and they were read in the order
in which they stand in the tree. It has no value if the token after the keyword cannot start one, or
is on another line.
-/

namespace Lox

/-! ## Return statements of trees -/

/-- A `return` statement: the line of its keyword, and its value. -/
structure ReturnStatement (β : Type) where
  line : Nat
  value : Option (Expr β)

variable {β : Type}

mutual

/-- All `return` statements inside of an expression, from the first keyword to the last one. -/
def Expr.returns : Expr β → List (ReturnStatement β)
  | .literal _ => []
  | .group inner => inner.returns
  | .unary _ _ operand => operand.returns
  | .binary _ _ left right => left.returns ++ right.returns
  | .logical _ _ left right => left.returns ++ right.returns
  | .comma operands => Expr.returnsEach operands
  | .conditional _ condition thenBranch elseBranch =>
    condition.returns ++ thenBranch.returns ++ elseBranch.returns
  | .reference _ _ => []
  | .assign _ _ value => value.returns
  | .property object _ => object.returns
  | .call callee _ arguments => callee.returns ++ Expr.returnsEach arguments
  | .function lambda => lambda.returns
  | .thisInstance _ _ => []
  | .superMethod _ _ _ => []

def Expr.returnsEach : List (Expr β) → List (ReturnStatement β)
  | [] => []
  | expr :: rest => expr.returns ++ Expr.returnsEach rest

def Expr.returnsPart : Option (Expr β) → List (ReturnStatement β)
  | none => []
  | some expr => expr.returns

def Target.returns : Target β → List (ReturnStatement β)
  | .name _ _ => []
  | .property object _ => object.returns

def Target.returnsEach : List (Target β) → List (ReturnStatement β)
  | [] => []
  | target :: rest => target.returns ++ Target.returnsEach rest

def Stmt.returns : Stmt β → List (ReturnStatement β)
  | .expression value => value.returns
  | .varDecl _ initializer => Expr.returnsPart initializer
  | .assign targets value => Target.returnsEach targets ++ value.returns
  | .set object _ value => object.returns ++ value.returns
  | .block body => Stmt.returnsEach body
  | .branch condition thenBranch elseBranch =>
    condition.returns ++ thenBranch.returns ++ Stmt.returnsPart elseBranch
  | .whileLoop condition body => condition.returns ++ body.returns
  | .forLoop initializer condition increment body =>
    Stmt.returnsPart initializer ++ Expr.returnsPart condition ++ Expr.returnsPart increment ++
      body.returns
  | .breakLoop _ => []
  | .continueLoop _ => []
  | .funDecl _ lambda => lambda.returns
  | .returnValue line value => ⟨line, value⟩ :: Expr.returnsPart value
  | .classDecl _ _ methods => Method.returnsEach methods

def Stmt.returnsEach : List (Stmt β) → List (ReturnStatement β)
  | [] => []
  | stmt :: rest => stmt.returns ++ Stmt.returnsEach rest

def Stmt.returnsPart : Option (Stmt β) → List (ReturnStatement β)
  | none => []
  | some stmt => stmt.returns

def Lambda.returns : Lambda β → List (ReturnStatement β)
  | ⟨_, body⟩ => Stmt.returnsEach body

def Method.returns : Method β → List (ReturnStatement β)
  | ⟨_, lambda⟩ => lambda.returns

def Method.returnsEach : List (Method β) → List (ReturnStatement β)
  | [] => []
  | method :: rest => method.returns ++ Method.returnsEach rest

end

theorem Stmt.returnsEach_append (front back : List (Stmt β)) :
    Stmt.returnsEach (front ++ back) = Stmt.returnsEach front ++ Stmt.returnsEach back := by
  induction front with
  | nil => rfl
  | cons stmt rest ih =>
    rw [List.cons_append, returnsEach, returnsEach, ih, List.append_assoc]

theorem Stmt.returnsEach_toList (stmt : Option (Stmt β)) :
    Stmt.returnsEach stmt.toList = Stmt.returnsPart stmt := by
  cases stmt with
  | none => rfl
  | some stmt =>
    rw [Option.toList_some, returnsEach, returnsEach, List.append_nil]
    rfl

theorem InfixOperator.returns_apply {operator : InfixOperator} {line : Nat}
    {left right : Expr Unit} :
    (operator.apply line left right).returns = left.returns ++ right.returns := by
  cases operator <;> rfl

/-! ## Where they were read -/

/-- No value comes before a token that ends the statement, or one that is on another line. -/
def Token.EndsReturn (line : Nat) (token : Token) : Prop :=
  token.kind = .symbol .semicolon ∨ token.kind = .symbol .rightBrace ∨ token.kind = .endOfInput ∨
    token.line ≠ line

/-- The statement was read at its keyword, with or without a value as the next token has it. -/
structure ReturnStatement.ReadAt (here : Cursor) (found : ReturnStatement Unit) : Prop where
  keyword : here.next = ⟨.keyword .kwReturn, found.line⟩
  value : found.value = none ↔ here.advance.next.EndsReturn found.line

/-- The statements were read one after the other between two cursors. -/
inductive Cursor.Gathers : Cursor → List (ReturnStatement Unit) → Cursor → Prop where
  | nil {start finish : Cursor} (reached : start.Reaches finish) : Gathers start [] finish
  | cons {start here finish : Cursor} {found : ReturnStatement Unit}
    {more : List (ReturnStatement Unit)} (reached : start.Reaches here) (read : found.ReadAt here)
    (further : Gathers here.advance more finish) : Gathers start (found :: more) finish

namespace Cursor.Gathers

variable {start middle finish : Cursor} {found more : List (ReturnStatement Unit)}

theorem before (reached : start.Reaches middle) (gathers : middle.Gathers found finish) :
    start.Gathers found finish := by
  cases gathers with
  | nil further => exact .nil (reached.trans further)
  | cons further read rest => exact .cons (reached.trans further) read rest

theorem trans (gathers : start.Gathers found middle) (further : middle.Gathers more finish) :
    start.Gathers (found ++ more) finish := by
  induction gathers with
  | nil reached => exact further.before reached
  | cons reached read _ ih => exact .cons reached read (ih further)

end Cursor.Gathers

/-! ## Readers -/

namespace Reader

variable {α γ : Type} {view : α → List (ReturnStatement Unit)}
  {look : γ → List (ReturnStatement Unit)} {held : List (ReturnStatement Unit)} {symbol : Symbol}

/-- What the reader gives holds, after the statements held before, those that it has read. -/
def GathersAt (held : List (ReturnStatement Unit)) (view : α → List (ReturnStatement Unit))
    (reader : Reader α) (cursor : Cursor) : Prop :=
  ∀ value after, reader cursor = .done value after →
    ∃ more, view value = held ++ more ∧ cursor.Gathers more after

def Gathers (held : List (ReturnStatement Unit)) (view : α → List (ReturnStatement Unit))
    (reader : Reader α) : Prop :=
  ∀ cursor, GathersAt held view reader cursor

theorem GathersAt.next {continuation : Token → Reader γ} {cursor : Cursor}
    (second : GathersAt held look (continuation cursor.next) cursor) :
    GathersAt held look (Reader.next >>= continuation) cursor :=
  second

namespace Gathers

variable {reader missing : Reader α}

theorem outOfFuel : Gathers held view outOfFuel := fun _ _ _ => nofun

theorem fail (problem : SyntaxProblem) : Gathers held view (fail problem) := fun _ _ _ => nofun

theorem failAt (problem : SyntaxProblem) (token : Token) :
    Gathers held view (failAt problem token) := fun _ _ _ => nofun

theorem pure {value : α} (same : view value = held) : Gathers held view (pure value) := by
  intro cursor _ after ran
  cases ran
  exact ⟨[], by rw [same, List.append_nil], .nil (.refl _)⟩

/-- A reader of tokens that no statement is made of. -/
theorem silent {big : Reader α} (widens : Widens reader big) :
    Gathers held (fun _ => held) reader := by
  intro cursor value after ran
  exact ⟨[], (List.append_nil held).symm, .nil (widens.done ran).1⟩

theorem bind {continuation : α → Reader γ} (first : Gathers held view reader)
    (second : ∀ value, Gathers (view value) look (continuation value)) :
    Gathers held look (reader >>= continuation) := by
  intro cursor result finish ran
  obtain ⟨value, middle, outcome, ran⟩ := exists_of_bind_done ran
  obtain ⟨found, sameView, gathers⟩ := first cursor value middle outcome
  obtain ⟨more, sameLook, further⟩ := second value middle result finish ran
  exact ⟨found ++ more, by rw [sameLook, sameView, List.append_assoc], gathers.trans further⟩

/-- What was held before everything else is held on. -/
theorem frame (front : List (ReturnStatement Unit)) (gathers : Gathers held view reader) :
    Gathers (front ++ held) (fun value => front ++ view value) reader := by
  intro cursor value finish ran
  obtain ⟨more, same, reads⟩ := gathers cursor value finish ran
  exact ⟨more, by rw [List.append_assoc, ← same], reads⟩

/-- A reader that nothing is handed to, after others. -/
theorem after (front : List (ReturnStatement Unit)) (gathers : Gathers [] view reader) :
    Gathers front (fun value => front ++ view value) reader := by
  have framed := gathers.frame front
  rwa [List.append_nil] at framed

theorem ite {condition : Prop} [Decidable condition] (present : Gathers held view reader)
    (absent : Gathers held view missing) :
    Gathers held view (if condition then reader else missing) := by
  split
  · exact present
  · exact absent

theorem reported {condition : Prop} [Decidable condition] {problem : SyntaxProblem}
    (rest : Gathers held view reader) :
    Gathers held view
      (if condition then Reader.record problem >>= fun _ => reader else reader) :=
  ite (bind (silent (.record problem)) fun _ => rest) rest

/-- A part that is left out where a symbol is at the front. -/
theorem leftOut {none : α} {continuation : α → Reader γ} (part : Gathers held view reader)
    (absent : view none = held)
    (rest : ∀ value, Gathers (view value) look (continuation value)) :
    Gathers held look
      (Reader.nextIs symbol >>= fun found =>
        if found = true then Pure.pure none >>= continuation else reader >>= continuation) :=
  bind (silent .nextIs) fun _ => ite (bind (pure absent) rest) (bind part rest)

theorem target (expr : Expr Unit) (equals : Token) :
    Gathers expr.returns Target.returns (target expr equals) := by
  cases expr with
  | reference name _ => exact pure rfl
  | property object name => exact pure rfl
  | _ => exact failAt _ equals

/-- A declaration that fails gives nothing, and takes what it had read with it. -/
theorem recovered {reader : Reader (Stmt Unit)} (widens : Widens reader reader)
    (gathers : Gathers [] Stmt.returns reader) :
    Gathers [] Stmt.returnsPart
      (fun start => match reader start with
        | .done stmt cursor => .done (some stmt) cursor
        | .failed error cursor => .done none (cursor.recover start error)
        | .outOfFuel => .outOfFuel) := by
  intro start value after ran
  have reached := ((Widens.recovered widens).done ran).1
  dsimp only at ran
  split at ran
  · next stmt finish outcome =>
    cases ran
    exact gathers start stmt _ outcome
  · cases ran
    exact ⟨[], rfl, .nil reached⟩
  · cases ran

end Gathers

end Reader

end Lox
