import Lox.Proofs.Documents.CompactTexts
import Lox.Proofs.Grammar.Written
import Lox.Tree.Document

/-!
# Documents tell their trees

Every node of a tree has a document with a name of its own, and the documents of its parts in it. So trees
with one document are one tree, part by part. A number that is written as `null` can only be infinity,
since no other number that is not finite is ever read from a source.
-/

namespace Lox

/-! ## Numbers that can be read -/

/-- A number is one that the scanner gives: it has no sign, and is no more than infinity. -/
def Token.Kind.IsScanned : Token.Kind → Prop
  | .number _ value => value.isNegative = false ∧ value.magnitude ≤ Number.infinityMagnitude
  | _ => True

/-- All numbers among the tokens are ones that the scanner gives. -/
def Scanned (kinds : List Token.Kind) : Prop := ∀ kind ∈ kinds, kind.IsScanned

namespace Scanned

variable {kind : Token.Kind} {kinds more : List Token.Kind}

@[simp] theorem nil : Scanned [] := nofun

@[simp] theorem cons : Scanned (kind :: kinds) ↔ kind.IsScanned ∧ Scanned kinds :=
  List.forall_mem_cons

@[simp] theorem append : Scanned (kinds ++ more) ↔ Scanned kinds ∧ Scanned more :=
  List.forall_mem_append

end Scanned

open Json (legible legibleElements legibleMembers)

/-! ## Parts of nodes -/

/-- Parts of nodes that are alike one by one. -/
def Json.AlikeParts : List (String × Json) → List (String × Json) → Prop
  | [], [] => True
  | (_, part) :: rest, (_, part') :: rest' => part.legible = part'.legible ∧ AlikeParts rest rest'
  | _, _ => False

theorem Json.alikeParts_of_legible {parts parts' : List (String × Json)}
    (same : legibleMembers parts = legibleMembers parts') : AlikeParts parts parts' := by
  induction parts generalizing parts' with
  | nil =>
    cases parts' with
    | nil => trivial
    | cons => cases same
  | cons member rest ih =>
    cases parts' with
    | nil => cases same
    | cons member' rest' =>
      obtain ⟨first, further⟩ := List.cons.inj same
      exact ⟨(Prod.mk.inj first).2, ih further⟩

theorem part_of_node {kind : String} {part part' : Json}
    (same : (node kind part).legible = (node kind part').legible) : part.legible = part'.legible := by
  have members := Json.object.inj same
  exact (Prod.mk.inj (List.cons.inj members).1).2

theorem parts_of_nodeOf {kind : String} {parts parts' : List (String × Json)}
    (same : (nodeOf kind parts).legible = (nodeOf kind parts').legible) : Json.AlikeParts parts parts' :=
  Json.alikeParts_of_legible (Json.object.inj (part_of_node same))

/-! ## Leaves -/

variable {β : Type}

theorem Name.document_inj {name name' : Name}
    (same : name.token.document.legible = name'.token.document.legible) : name = name' := by
  obtain ⟨text, line⟩ := name
  obtain ⟨text', line'⟩ := name'
  simp_all [Name.token, Token.document, Token.Kind.document, Token.lexeme, Token.Kind.lexeme, legible,
    legibleMembers]

theorem Name.documents_inj {names names' : List Name}
    (same : legibleElements (names.map (·.token.document)) =
      legibleElements (names'.map (·.token.document))) : names = names' := by
  induction names generalizing names' with
  | nil =>
    cases names' with
    | nil => rfl
    | cons => cases same
  | cons name rest ih =>
    cases names' with
    | nil => cases same
    | cons name' rest' =>
      obtain ⟨first, further⟩ := List.cons.inj same
      rw [Name.document_inj first, ih further]

theorem Name.part_inj {name name' : Option Name}
    (same : ((name.map fun n : Name => n.token.document).getD Json.null).legible =
      ((name'.map fun n : Name => n.token.document).getD Json.null).legible) : name = name' := by
  cases name with
  | none =>
    cases name' with
    | none => rfl
    | some => cases same
  | some found =>
    cases name' with
    | none => cases same
    | some found' =>
      have names : found = found' := Name.document_inj same
      rw [names]

theorem Symbol.document_inj {symbol symbol' : Symbol} {line line' : Nat}
    (same : (symbol.token line).document.legible = (symbol'.token line').document.legible) :
    symbol.lexeme = symbol'.lexeme ∧ line = line' := by
  simp_all [Symbol.token, Token.document, Token.Kind.document, Token.lexeme, Token.Kind.lexeme, legible,
    legibleMembers]

theorem Keyword.document_inj {keyword keyword' : Keyword} {line line' : Nat}
    (same : (keyword.token line).document.legible = (keyword'.token line').document.legible) :
    keyword.lexeme = keyword'.lexeme ∧ line = line' := by
  simp_all [Keyword.token, Token.document, Token.Kind.document, Token.lexeme, Token.Kind.lexeme, legible,
    legibleMembers]

/-! ## Names of nodes -/

/-- The place of the name of a node among the given ones. -/
def Json.place (names : List String) : Json → Nat
  | .object [(name, _)] => names.idxOf name
  | _ => names.length

/-- The names of constants that have a value with them. -/
def Literal.names : List String := ["Number", "Str"]

/-- The names of expressions, in the order of their constructors. -/
def Expr.names : List String :=
  ["Literal", "Grouping", "Unary", "Binary", "Logical", "Comma", "Ternary", "Variable", "Assign", "Get",
    "Call", "Function", "This", "Super"]

/-- The names of targets, in the order of their constructors. -/
def Target.names : List String := ["Name", "Property"]

/-- The names of statements, in the order of their constructors. -/
def Stmt.names : List String :=
  ["Expression", "Var", "Assign", "Set", "Block", "If", "While", "For", "Break", "Continue", "Function",
    "Return", "Class"]

theorem Expr.place_document (expr : Expr β) : Json.place Expr.names expr.document.legible = expr.ctorIdx := by
  cases expr <;> rfl

theorem Target.place_document (target : Target β) :
    Json.place Target.names target.document.legible = target.ctorIdx := by
  cases target <;> rfl

theorem Stmt.place_document (stmt : Stmt β) : Json.place Stmt.names stmt.document.legible = stmt.ctorIdx := by
  cases stmt <;> rfl

theorem Expr.ctorIdx_eq {a b : Expr β} (same : a.document.legible = b.document.legible) :
    a.ctorIdx = b.ctorIdx := by
  rw [← Expr.place_document a, ← Expr.place_document b, same]

theorem Target.ctorIdx_eq {a b : Target β} (same : a.document.legible = b.document.legible) :
    a.ctorIdx = b.ctorIdx := by
  rw [← Target.place_document a, ← Target.place_document b, same]

theorem Stmt.ctorIdx_eq {a b : Stmt β} (same : a.document.legible = b.document.legible) :
    a.ctorIdx = b.ctorIdx := by
  rw [← Stmt.place_document a, ← Stmt.place_document b, same]

/-- A node is an object, whatever it is. -/
theorem Expr.legible_document (expr : Expr β) : ∃ members, expr.document.legible = .object members := by
  cases expr <;> exact ⟨_, rfl⟩

theorem Expr.legible_ne_null (expr : Expr β) : expr.document.legible ≠ .null := by
  obtain ⟨members, node⟩ := expr.legible_document
  rw [node]
  nofun

theorem Expr.legible_ne_text (expr : Expr β) (contents : String) :
    expr.document.legible ≠ .text contents := by
  obtain ⟨members, node⟩ := expr.legible_document
  rw [node]
  nofun

theorem Stmt.legible_ne_null (stmt : Stmt β) : stmt.document.legible ≠ .null := by
  cases stmt <;> nofun

/-! ## Constants -/

theorem Number.legible_inj {value value' : Number}
    (scanned : (Token.Kind.number "" value).IsScanned) (scanned' : (Token.Kind.number "" value').IsScanned)
    (same : (Json.number value).legible = (Json.number value').legible) : value = value' := by
  simp only [legible] at same
  split at same
  · split at same
    · exact Json.number.inj same
    · cases same
  · split at same
    · cases same
    · -- Both are written as `null`, so both are infinity.
      next infinite infinite' =>
      have large := Nat.not_lt.mp fun below => infinite (decide_eq_true below)
      have large' := Nat.not_lt.mp fun below => infinite' (decide_eq_true below)
      rw [← value.ofMagnitude_self, ← value'.ofMagnitude_self, scanned.1, scanned'.1,
        Nat.le_antisymm scanned.2 large, Nat.le_antisymm scanned'.2 large']

theorem Literal.document_inj {value value' : Literal} (scanned : value.written.IsScanned)
    (scanned' : value'.written.IsScanned) (same : value.document.legible = value'.document.legible) :
    value = value' := by
  cases value with
  | nil =>
    cases value' with
    | nil => rfl
    | boolean flag => cases flag <;> exact absurd (Json.text.inj same) (by decide)
    | number | text => cases same
  | boolean flag =>
    cases value' with
    | nil => cases flag <;> exact absurd (Json.text.inj same) (by decide)
    | boolean flag' =>
      cases flag <;> cases flag' <;> first | rfl | exact absurd (Json.text.inj same) (by decide)
    | number | text => cases flag <;> cases same
  | number number =>
    cases value' with
    | nil => cases same
    | boolean flag => cases flag <;> cases same
    | number number' => rw [Number.legible_inj scanned scanned' (part_of_node same)]
    | text => exact absurd (congrArg (Json.place Literal.names) same) Nat.zero_ne_one
  | text contents =>
    cases value' with
    | nil => cases same
    | boolean flag => cases flag <;> cases same
    | number => exact absurd (congrArg (Json.place Literal.names) same) Nat.one_ne_zero
    | text contents' => rw [Json.text.inj (part_of_node same)]

/-! ## Operators -/

theorem UnaryOperator.lexeme_inj {a b : UnaryOperator} (same : a.symbol.lexeme = b.symbol.lexeme) :
    a = b := by
  cases a <;> cases b <;> first | rfl | exact absurd same (by decide)

/-- The operator that is written so. -/
def BinaryOperator.ofLexeme? (lexeme : String) : Option BinaryOperator :=
  [equal, notEqual, greater, greaterOrEqual, less, lessOrEqual, subtract, add, divide, multiply, power,
    modulo].find? (·.symbol.lexeme == lexeme)

theorem BinaryOperator.ofLexeme?_lexeme (operator : BinaryOperator) :
    ofLexeme? operator.symbol.lexeme = some operator := by
  cases operator <;> rfl

theorem BinaryOperator.lexeme_inj {a b : BinaryOperator} (same : a.symbol.lexeme = b.symbol.lexeme) :
    a = b := by
  have operators := a.ofLexeme?_lexeme
  rw [same, b.ofLexeme?_lexeme] at operators
  exact (Option.some.inj operators).symm

theorem LogicalOperator.lexeme_inj {a b : LogicalOperator} (same : a.keyword.lexeme = b.keyword.lexeme) :
    a = b := by
  cases a <;> cases b <;> first | rfl | exact absurd same (by decide)

/-! ## Numbers of parts -/

section

variable {kinds before : List Token.Kind}

theorem Expr.scanned_of_mem_after {exprs : List (Expr β)} (scanned : Scanned (Expr.writtenAfterEach exprs))
    {expr : Expr β} (member : expr ∈ exprs) : Scanned expr.written := by
  induction exprs with
  | nil => cases member
  | cons first rest ih =>
    simp only [Expr.writtenAfterEach, Scanned.cons, Scanned.append] at scanned
    cases member with
    | head => exact scanned.2.1
    | tail _ further => exact ih scanned.2.2 further

theorem Expr.scanned_of_mem {exprs : List (Expr β)} (scanned : Scanned (Expr.writtenEach exprs))
    {expr : Expr β} (member : expr ∈ exprs) : Scanned expr.written := by
  cases exprs with
  | nil => cases member
  | cons first rest =>
    simp only [Expr.writtenEach, Scanned.append] at scanned
    cases member with
    | head => exact scanned.1
    | tail _ further => exact Expr.scanned_of_mem_after scanned.2 further

theorem Expr.scanned_of_part {part : Option (Expr β)} (scanned : Scanned (Expr.writtenPart before part))
    {expr : Expr β} (member : expr ∈ part) : Scanned expr.written := by
  cases member
  exact (Scanned.append.mp scanned).2

theorem Target.scanned_of_mem {targets : List (Target β)} (scanned : Scanned (Target.writtenEach targets))
    {target : Target β} (member : target ∈ targets) : Scanned target.written := by
  induction targets with
  | nil => cases member
  | cons first rest ih =>
    simp only [Target.writtenEach, Scanned.cons, Scanned.append] at scanned
    cases member with
    | head => exact scanned.1
    | tail _ further => exact ih scanned.2.2 further

theorem Stmt.scanned_of_mem {stmts : List (Stmt β)} (scanned : Scanned (Stmt.writtenEach stmts))
    {stmt : Stmt β} (member : stmt ∈ stmts) : Scanned stmt.written := by
  induction stmts with
  | nil => cases member
  | cons first rest ih =>
    simp only [Stmt.writtenEach, Scanned.append] at scanned
    cases member with
    | head => exact scanned.1
    | tail _ further => exact ih scanned.2 further

theorem Stmt.scanned_of_part {part : Option (Stmt β)} (scanned : Scanned (Stmt.writtenPart before part))
    {stmt : Stmt β} (member : stmt ∈ part) : Scanned stmt.written := by
  cases member
  exact (Scanned.append.mp scanned).2

theorem Stmt.scanned_of_initializer {part : Option (Stmt β)}
    (scanned : Scanned (Stmt.writtenInitializer part)) {stmt : Stmt β} (member : stmt ∈ part) :
    Scanned stmt.written := by
  cases member
  exact scanned

theorem Lambda.scanned_of_mem {lambda : Lambda β} (scanned : Scanned lambda.written) {stmt : Stmt β}
    (member : stmt ∈ lambda.body) : Scanned stmt.written := by
  obtain ⟨parameters, body⟩ := lambda
  simp only [Lambda.written, Scanned.cons, Scanned.append] at scanned
  exact Stmt.scanned_of_mem scanned.2.2.2.1 member

theorem Method.scanned_of_mem {methods : List (Method β)} (scanned : Scanned (Method.writtenEach methods))
    {method : Method β} (member : method ∈ methods) : Scanned method.lambda.written := by
  induction methods with
  | nil => cases member
  | cons first rest ih =>
    simp only [Method.writtenEach, Scanned.append] at scanned
    cases member with
    | head =>
      obtain ⟨name, lambda⟩ := method
      simp only [Method.written, Scanned.cons] at scanned
      exact scanned.1.2.2
    | tail _ further => exact ih scanned.2 further

end

/-! ## Trees -/

theorem Superclass.document_inj {parent parent' : Option (Superclass Unit)}
    (same : ((parent.map fun s => node "Variable" s.name.token.document).getD .null).legible =
      ((parent'.map fun s => node "Variable" s.name.token.document).getD .null).legible) :
    parent = parent' := by
  cases parent with
  | none =>
    cases parent' with
    | none => rfl
    | some => cases same
  | some found =>
    cases parent' with
    | none => cases same
    | some found' =>
      obtain ⟨name, ⟨⟩⟩ := found
      obtain ⟨name', ⟨⟩⟩ := found'
      have names : name = name' := Name.document_inj (part_of_node same)
      rw [names]

mutual

theorem Expr.document_inj : (a b : Expr Unit) → Scanned a.written → Scanned b.written →
    a.document.legible = b.document.legible → a = b
  | .literal value, b, scanned, scanned', same => by
    have index := Expr.ctorIdx_eq same
    cases b with
    | literal value' =>
      rw [Literal.document_inj (scanned _ (.head _)) (scanned' _ (.head _)) (part_of_node same)]
    | _ => cases index
  | .group inner, b, scanned, scanned', same => by
    have index := Expr.ctorIdx_eq same
    cases b with
    | group inner' =>
      simp only [Expr.written, Scanned.cons, Scanned.append] at scanned scanned'
      rw [Expr.document_inj inner inner' scanned.2.1 scanned'.2.1 (part_of_node same)]
    | _ => cases index
  | .unary operator line operand, b, scanned, scanned', same => by
    have index := Expr.ctorIdx_eq same
    cases b with
    | unary operator' line' operand' =>
      obtain ⟨symbols, operands, -⟩ := parts_of_nodeOf same
      obtain ⟨operators, rfl⟩ := Symbol.document_inj symbols
      simp only [Expr.written, Scanned.cons] at scanned scanned'
      rw [UnaryOperator.lexeme_inj operators,
        Expr.document_inj operand operand' scanned.2 scanned'.2 operands]
    | _ => cases index
  | .binary operator line left right, b, scanned, scanned', same => by
    have index := Expr.ctorIdx_eq same
    cases b with
    | binary operator' line' left' right' =>
      obtain ⟨lefts, symbols, rights, -⟩ := parts_of_nodeOf same
      obtain ⟨operators, rfl⟩ := Symbol.document_inj symbols
      simp only [Expr.written, Scanned.cons, Scanned.append] at scanned scanned'
      rw [BinaryOperator.lexeme_inj operators,
        Expr.document_inj left left' scanned.1 scanned'.1 lefts,
        Expr.document_inj right right' scanned.2.2 scanned'.2.2 rights]
    | _ => cases index
  | .logical operator line left right, b, scanned, scanned', same => by
    have index := Expr.ctorIdx_eq same
    cases b with
    | logical operator' line' left' right' =>
      obtain ⟨lefts, keywords, rights, -⟩ := parts_of_nodeOf same
      obtain ⟨operators, rfl⟩ := Keyword.document_inj keywords
      simp only [Expr.written, Scanned.cons, Scanned.append] at scanned scanned'
      rw [LogicalOperator.lexeme_inj operators,
        Expr.document_inj left left' scanned.1 scanned'.1 lefts,
        Expr.document_inj right right' scanned.2.2 scanned'.2.2 rights]
    | _ => cases index
  | .comma operands, b, scanned, scanned', same => by
    have index := Expr.ctorIdx_eq same
    cases b with
    | comma operands' =>
      rw [Expr.documents_inj operands operands' (fun _ => Expr.scanned_of_mem scanned)
        (fun _ => Expr.scanned_of_mem scanned') (Json.array.inj (part_of_node same))]
    | _ => cases index
  | .conditional line condition thenBranch elseBranch, b, scanned, scanned', same => by
    have index := Expr.ctorIdx_eq same
    cases b with
    | conditional line' condition' thenBranch' elseBranch' =>
      obtain ⟨conditions, questions, thens, elses, -⟩ := parts_of_nodeOf same
      obtain ⟨-, rfl⟩ := Symbol.document_inj questions
      simp only [Expr.written, Scanned.cons, Scanned.append] at scanned scanned'
      rw [Expr.document_inj condition condition' scanned.1 scanned'.1 conditions,
        Expr.document_inj thenBranch thenBranch' scanned.2.2.1 scanned'.2.2.1 thens,
        Expr.document_inj elseBranch elseBranch' scanned.2.2.2.2 scanned'.2.2.2.2 elses]
    | _ => cases index
  | .reference name (), b, _, _, same => by
    have index := Expr.ctorIdx_eq same
    cases b with
    | reference name' => rw [Name.document_inj (part_of_node same)]
    | _ => cases index
  | .assign name () value, b, scanned, scanned', same => by
    have index := Expr.ctorIdx_eq same
    cases b with
    | assign name' binding value' =>
      obtain ⟨names, values, -⟩ := parts_of_nodeOf same
      simp only [Expr.written, Scanned.cons] at scanned scanned'
      rw [Name.document_inj names, Expr.document_inj value value' scanned.2.2 scanned'.2.2 values]
    | _ => cases index
  | .property object name, b, scanned, scanned', same => by
    have index := Expr.ctorIdx_eq same
    cases b with
    | property object' name' =>
      obtain ⟨objects, names, -⟩ := parts_of_nodeOf same
      simp only [Expr.written, Scanned.append] at scanned scanned'
      rw [Name.document_inj names, Expr.document_inj object object' scanned.1 scanned'.1 objects]
    | _ => cases index
  | .call callee line arguments, b, scanned, scanned', same => by
    have index := Expr.ctorIdx_eq same
    cases b with
    | call callee' line' arguments' =>
      obtain ⟨callees, parens, given, -⟩ := parts_of_nodeOf same
      obtain ⟨-, rfl⟩ := Symbol.document_inj parens
      simp only [Expr.written, Scanned.cons, Scanned.append] at scanned scanned'
      rw [Expr.document_inj callee callee' scanned.1 scanned'.1 callees,
        Expr.documents_inj arguments arguments' (fun _ => Expr.scanned_of_mem scanned.2.2.1)
          (fun _ => Expr.scanned_of_mem scanned'.2.2.1) (Json.array.inj given)]
    | _ => cases index
  | .function lambda, b, scanned, scanned', same => by
    have index := Expr.ctorIdx_eq same
    cases b with
    | function lambda' =>
      simp only [Expr.written, Scanned.cons] at scanned scanned'
      rw [(Lambda.document_inj lambda lambda' scanned.2.2 scanned'.2.2 (part_of_node same)).2]
    | _ => cases index
  | .thisInstance line (), b, _, _, same => by
    have index := Expr.ctorIdx_eq same
    cases b with
    | thisInstance line' =>
      obtain ⟨-, rfl⟩ := Keyword.document_inj (part_of_node same)
      rfl
    | _ => cases index
  | .superMethod line () method, b, _, _, same => by
    have index := Expr.ctorIdx_eq same
    cases b with
    | superMethod line' binding method' =>
      obtain ⟨keywords, methods, -⟩ := parts_of_nodeOf same
      obtain ⟨-, rfl⟩ := Keyword.document_inj keywords
      rw [Name.document_inj methods]
    | _ => cases index

theorem Expr.documents_inj : (a b : List (Expr Unit)) → (∀ expr ∈ a, Scanned expr.written) →
    (∀ expr ∈ b, Scanned expr.written) →
    legibleElements (Expr.documents a) = legibleElements (Expr.documents b) → a = b
  | [], b, _, _, same => by
    cases b with
    | nil => rfl
    | cons => cases same
  | expr :: rest, b, scanned, scanned', same => by
    cases b with
    | nil => cases same
    | cons expr' rest' =>
      obtain ⟨first, further⟩ := List.cons.inj same
      rw [List.forall_mem_cons] at scanned scanned'
      rw [Expr.document_inj expr expr' scanned.1 scanned'.1 first,
        Expr.documents_inj rest rest' scanned.2 scanned'.2 further]

theorem Expr.part_inj : (a b : Option (Expr Unit)) → (∀ expr ∈ a, Scanned expr.written) →
    (∀ expr ∈ b, Scanned expr.written) →
    (Expr.partDocument a).legible = (Expr.partDocument b).legible → a = b
  | none, b, _, _, same => by
    cases b with
    | none => rfl
    | some expr => exact absurd same.symm expr.legible_ne_null
  | some expr, b, scanned, scanned', same => by
    cases b with
    | none => exact absurd same expr.legible_ne_null
    | some expr' => rw [Expr.document_inj expr expr' (scanned _ rfl) (scanned' _ rfl) same]

theorem Expr.clause_inj : (a b : Option (Expr Unit)) → (∀ expr ∈ a, Scanned expr.written) →
    (∀ expr ∈ b, Scanned expr.written) →
    (Expr.clauseDocument a).legible = (Expr.clauseDocument b).legible → a = b
  | none, b, _, _, same => by
    cases b with
    | none => rfl
    | some expr => exact absurd same.symm (expr.legible_ne_text "Empty")
  | some expr, b, scanned, scanned', same => by
    cases b with
    | none => exact absurd same (expr.legible_ne_text "Empty")
    | some expr' => rw [Expr.document_inj expr expr' (scanned _ rfl) (scanned' _ rfl) same]

theorem Target.document_inj : (a b : Target Unit) → Scanned a.written → Scanned b.written →
    a.document.legible = b.document.legible → a = b
  | .name name (), b, _, _, same => by
    have index := Target.ctorIdx_eq same
    cases b with
    | name name' => rw [Name.document_inj (part_of_node same)]
    | _ => cases index
  | .property object name, b, scanned, scanned', same => by
    have index := Target.ctorIdx_eq same
    cases b with
    | property object' name' =>
      obtain ⟨objects, names, -⟩ := parts_of_nodeOf same
      simp only [Target.written, Scanned.append] at scanned scanned'
      rw [Name.document_inj names, Expr.document_inj object object' scanned.1 scanned'.1 objects]
    | _ => cases index

theorem Target.documents_inj : (a b : List (Target Unit)) → (∀ target ∈ a, Scanned target.written) →
    (∀ target ∈ b, Scanned target.written) →
    legibleElements (Target.documents a) = legibleElements (Target.documents b) → a = b
  | [], b, _, _, same => by
    cases b with
    | nil => rfl
    | cons => cases same
  | target :: rest, b, scanned, scanned', same => by
    cases b with
    | nil => cases same
    | cons target' rest' =>
      obtain ⟨first, further⟩ := List.cons.inj same
      rw [List.forall_mem_cons] at scanned scanned'
      rw [Target.document_inj target target' scanned.1 scanned'.1 first,
        Target.documents_inj rest rest' scanned.2 scanned'.2 further]

theorem Stmt.document_inj : (a b : Stmt Unit) → Scanned a.written → Scanned b.written →
    a.document.legible = b.document.legible → a = b
  | .expression value, b, scanned, scanned', same => by
    have index := Stmt.ctorIdx_eq same
    cases b with
    | expression value' =>
      simp only [Stmt.written, Scanned.append] at scanned scanned'
      rw [Expr.document_inj value value' scanned.1 scanned'.1 (part_of_node same)]
    | _ => cases index
  | .varDecl name initializer, b, scanned, scanned', same => by
    have index := Stmt.ctorIdx_eq same
    cases b with
    | varDecl name' initializer' =>
      obtain ⟨names, initializers, -⟩ := parts_of_nodeOf same
      simp only [Stmt.written, Scanned.cons, Scanned.append] at scanned scanned'
      rw [Name.document_inj names,
        Expr.part_inj initializer initializer' (fun _ => Expr.scanned_of_part scanned.2.2.1)
          (fun _ => Expr.scanned_of_part scanned'.2.2.1) initializers]
    | _ => cases index
  | .assign targets value, b, scanned, scanned', same => by
    have index := Stmt.ctorIdx_eq same
    cases b with
    | assign targets' value' =>
      obtain ⟨places, values, -⟩ := parts_of_nodeOf same
      simp only [Stmt.written, Scanned.append] at scanned scanned'
      rw [Target.documents_inj targets targets' (fun _ => Target.scanned_of_mem scanned.1.1)
          (fun _ => Target.scanned_of_mem scanned'.1.1) (Json.array.inj places),
        Expr.document_inj value value' scanned.1.2 scanned'.1.2 values]
    | _ => cases index
  | .set object name value, b, scanned, scanned', same => by
    have index := Stmt.ctorIdx_eq same
    cases b with
    | set object' name' value' =>
      obtain ⟨objects, names, values, -⟩ := parts_of_nodeOf same
      simp only [Stmt.written, Scanned.cons, Scanned.append] at scanned scanned'
      rw [Name.document_inj names, Expr.document_inj object object' scanned.1 scanned'.1 objects,
        Expr.document_inj value value' scanned.2.2.2.2.1 scanned'.2.2.2.2.1 values]
    | _ => cases index
  | .block body, b, scanned, scanned', same => by
    have index := Stmt.ctorIdx_eq same
    cases b with
    | block body' =>
      simp only [Stmt.written, Scanned.cons, Scanned.append] at scanned scanned'
      rw [Stmt.documents_inj body body' (fun _ => Stmt.scanned_of_mem scanned.2.1)
        (fun _ => Stmt.scanned_of_mem scanned'.2.1) (Json.array.inj (part_of_node same))]
    | _ => cases index
  | .branch condition thenBranch elseBranch, b, scanned, scanned', same => by
    have index := Stmt.ctorIdx_eq same
    cases b with
    | branch condition' thenBranch' elseBranch' =>
      obtain ⟨conditions, thens, elses, -⟩ := parts_of_nodeOf same
      simp only [Stmt.written, Scanned.cons, Scanned.append] at scanned scanned'
      obtain ⟨-, -, condition₁, -, then₁, else₁⟩ := scanned
      obtain ⟨-, -, condition₂, -, then₂, else₂⟩ := scanned'
      rw [Expr.document_inj condition condition' condition₁ condition₂ conditions,
        Stmt.document_inj thenBranch thenBranch' then₁ then₂ thens,
        Stmt.part_inj elseBranch elseBranch' (fun _ => Stmt.scanned_of_part else₁)
          (fun _ => Stmt.scanned_of_part else₂) elses]
    | _ => cases index
  | .whileLoop condition body, b, scanned, scanned', same => by
    have index := Stmt.ctorIdx_eq same
    cases b with
    | whileLoop condition' body' =>
      obtain ⟨conditions, bodies, -⟩ := parts_of_nodeOf same
      simp only [Stmt.written, Scanned.cons, Scanned.append] at scanned scanned'
      rw [Expr.document_inj condition condition' scanned.2.2.1 scanned'.2.2.1 conditions,
        Stmt.document_inj body body' scanned.2.2.2.2 scanned'.2.2.2.2 bodies]
    | _ => cases index
  | .forLoop initializer condition increment body, b, scanned, scanned', same => by
    have index := Stmt.ctorIdx_eq same
    cases b with
    | forLoop initializer' condition' increment' body' =>
      obtain ⟨initializers, conditions, increments, bodies, -⟩ := parts_of_nodeOf same
      simp only [Stmt.written, Scanned.cons, Scanned.append] at scanned scanned'
      obtain ⟨-, -, initializer₁, condition₁, -, increment₁, -, body₁⟩ := scanned
      obtain ⟨-, -, initializer₂, condition₂, -, increment₂, -, body₂⟩ := scanned'
      rw [Stmt.part_inj initializer initializer' (fun _ => Stmt.scanned_of_initializer initializer₁)
          (fun _ => Stmt.scanned_of_initializer initializer₂) initializers,
        Expr.clause_inj condition condition' (fun _ => Expr.scanned_of_part condition₁)
          (fun _ => Expr.scanned_of_part condition₂) conditions,
        Expr.clause_inj increment increment' (fun _ => Expr.scanned_of_part increment₁)
          (fun _ => Expr.scanned_of_part increment₂) increments,
        Stmt.document_inj body body' body₁ body₂ bodies]
    | _ => cases index
  | .breakLoop line, b, _, _, same => by
    have index := Stmt.ctorIdx_eq same
    cases b with
    | breakLoop line' =>
      obtain ⟨-, rfl⟩ := Keyword.document_inj (part_of_node same)
      rfl
    | _ => cases index
  | .continueLoop line, b, _, _, same => by
    have index := Stmt.ctorIdx_eq same
    cases b with
    | continueLoop line' =>
      obtain ⟨-, rfl⟩ := Keyword.document_inj (part_of_node same)
      rfl
    | _ => cases index
  | .funDecl name lambda, b, scanned, scanned', same => by
    have index := Stmt.ctorIdx_eq same
    cases b with
    | funDecl name' lambda' =>
      simp only [Stmt.written, Scanned.cons] at scanned scanned'
      obtain ⟨names, lambdas⟩ := Lambda.document_inj lambda lambda' scanned.2.2.2 scanned'.2.2.2
        (part_of_node same)
      rw [Option.some.inj names, lambdas]
    | _ => cases index
  | .returnValue line value, b, scanned, scanned', same => by
    have index := Stmt.ctorIdx_eq same
    cases b with
    | returnValue line' value' =>
      obtain ⟨keywords, values, -⟩ := parts_of_nodeOf same
      obtain ⟨-, rfl⟩ := Keyword.document_inj keywords
      simp only [Stmt.written, Scanned.cons, Scanned.append] at scanned scanned'
      rw [Expr.clause_inj value value' (fun _ => Expr.scanned_of_part scanned.2.1)
        (fun _ => Expr.scanned_of_part scanned'.2.1) values]
    | _ => cases index
  | .classDecl name superclass methods, b, scanned, scanned', same => by
    have index := Stmt.ctorIdx_eq same
    cases b with
    | classDecl name' superclass' methods' =>
      obtain ⟨names, parents, declared, -⟩ := parts_of_nodeOf same
      simp only [Stmt.written, Scanned.cons, Scanned.append] at scanned scanned'
      rw [Name.document_inj names, Superclass.document_inj parents,
        Method.documents_inj methods methods' (fun _ => Method.scanned_of_mem scanned.2.2.2.2.1)
          (fun _ => Method.scanned_of_mem scanned'.2.2.2.2.1) (Json.array.inj declared)]
    | _ => cases index

theorem Stmt.documents_inj : (a b : List (Stmt Unit)) → (∀ stmt ∈ a, Scanned stmt.written) →
    (∀ stmt ∈ b, Scanned stmt.written) →
    legibleElements (Stmt.documents a) = legibleElements (Stmt.documents b) → a = b
  | [], b, _, _, same => by
    cases b with
    | nil => rfl
    | cons => cases same
  | stmt :: rest, b, scanned, scanned', same => by
    cases b with
    | nil => cases same
    | cons stmt' rest' =>
      obtain ⟨first, further⟩ := List.cons.inj same
      rw [List.forall_mem_cons] at scanned scanned'
      rw [Stmt.document_inj stmt stmt' scanned.1 scanned'.1 first,
        Stmt.documents_inj rest rest' scanned.2 scanned'.2 further]

theorem Stmt.part_inj : (a b : Option (Stmt Unit)) → (∀ stmt ∈ a, Scanned stmt.written) →
    (∀ stmt ∈ b, Scanned stmt.written) →
    (Stmt.partDocument a).legible = (Stmt.partDocument b).legible → a = b
  | none, b, _, _, same => by
    cases b with
    | none => rfl
    | some stmt => exact absurd same.symm stmt.legible_ne_null
  | some stmt, b, scanned, scanned', same => by
    cases b with
    | none => exact absurd same stmt.legible_ne_null
    | some stmt' => rw [Stmt.document_inj stmt stmt' (scanned _ rfl) (scanned' _ rfl) same]

theorem Lambda.document_inj : (a b : Lambda Unit) → {name name' : Option Name} → Scanned a.written →
    Scanned b.written → (a.document name).legible = (b.document name').legible → name = name' ∧ a = b
  | ⟨parameters, body⟩, ⟨parameters', body'⟩, name, name', scanned, scanned', same => by
    obtain ⟨names, given, bodies, -⟩ := Json.alikeParts_of_legible (Json.object.inj same)
    rw [Name.part_inj names, Name.documents_inj (Json.array.inj given),
      Stmt.documents_inj body body' (fun _ => Lambda.scanned_of_mem scanned)
        (fun _ => Lambda.scanned_of_mem scanned') (Json.array.inj bodies)]
    exact ⟨rfl, rfl⟩

theorem Method.documents_inj : (a b : List (Method Unit)) →
    (∀ method ∈ a, Scanned method.lambda.written) → (∀ method ∈ b, Scanned method.lambda.written) →
    legibleElements (Method.documents a) = legibleElements (Method.documents b) → a = b
  | [], b, _, _, same => by
    cases b with
    | nil => rfl
    | cons => cases same
  | ⟨name, lambda⟩ :: rest, b, scanned, scanned', same => by
    cases b with
    | nil => cases same
    | cons method' rest' =>
      obtain ⟨name', lambda'⟩ := method'
      obtain ⟨first, further⟩ := List.cons.inj same
      rw [List.forall_mem_cons] at scanned scanned'
      obtain ⟨names, lambdas⟩ := Lambda.document_inj lambda lambda' scanned.1 scanned'.1 first
      rw [Option.some.inj names, lambdas,
        Method.documents_inj rest rest' scanned.2 scanned'.2 further]

end

end Lox
