import Lox.Proofs.Grammar.Productions
import Lox.Proofs.Grammar.Readable
import Lox.Proofs.Grammar.Yields

/-!
# Where trees start and stop

The first token of a tree decides which rule reads it, and the token after an expression decides
whether the rule that reads it goes on. Operations and calls are read from the left, so for these
an expression is taken apart into its leftmost operand and what is done to it.
-/

namespace Lox

namespace Token.Kind

/-! ## First tokens -/

/-- Whether a literal, a name or what brings its own brackets starts with the token. -/
def startsPrimary : Token.Kind → Bool
  | .number _ _ | .text _ | .identifier _ | .symbol .leftParen => true
  | .keyword word =>
    match word with
    | .kwFalse | .kwTrue | .kwNil | .kwThis | .kwSuper | .kwFun => true
    | _ => false
  | _ => false

def startsExpression (kind : Token.Kind) : Bool :=
  kind.startsPrimary || decide (kind = .symbol .bang) || decide (kind = .symbol .minus)

def startsStatement : Token.Kind → Bool
  | .keyword .kwClass | .keyword .kwVar | .keyword .kwFor | .keyword .kwIf | .keyword .kwWhile
  | .keyword .kwReturn | .keyword .kwBreak | .keyword .kwContinue | .symbol .leftBrace => true
  | kind => kind.startsExpression

theorem startsExpression_of_startsPrimary {kind : Token.Kind} (starts : kind.startsPrimary) :
    kind.startsExpression := by
  simp [startsExpression, starts]

theorem startsStatement_of_startsExpression {kind : Token.Kind} (starts : kind.startsExpression) :
    kind.startsStatement := by
  unfold startsStatement
  split
  all_goals first | rfl | exact starts

theorem isEmpty_of_startsStatement {kinds : List Token.Kind}
    (starts : (front kinds).startsStatement) : kinds.isEmpty = false := by
  cases kinds with
  | nil => cases starts
  | cons kind rest => rfl

/-! ## Tokens after an expression -/

/-- How tightly the expression binds that an operand becomes part of if this token follows it. -/
def continues? : Token.Kind → Option Nat
  | .symbol .leftParen | .symbol .dot => some 10
  | .symbol .question => some 2
  | .symbol .equal => some 1
  | .symbol .comma => some 0
  | kind => (InfixOperator.ofKind? kind).map (·.level.tightness)

/-- Whether an expression that has to bind so tightly ends before these tokens. -/
def Stops (tightness : Nat) (rest : List Token.Kind) : Prop :=
  ∀ looser ∈ (front rest).continues?, looser < tightness

theorem Stops.mono {loose tight : Nat} {rest : List Token.Kind} (stops : Stops loose rest)
    (tighter : loose ≤ tight) : Stops tight rest :=
  fun looser follows => Nat.lt_of_lt_of_le (stops looser follows) tighter

theorem Stops.front_ne {tightness looser : Nat} {rest : List Token.Kind} {kind : Token.Kind}
    (stops : Stops tightness rest) (follows : kind.continues? = some looser)
    (tighter : tightness ≤ looser) : front rest ≠ kind := by
  rintro rfl
  exact absurd (stops looser follows) (Nat.not_lt.mpr tighter)

theorem stops_cons {tightness looser : Nat} {kind : Token.Kind} {rest : List Token.Kind}
    (follows : kind.continues? = some looser) (tighter : looser < tightness) :
    Stops tightness (kind :: rest) := by
  intro other found
  rw [front_cons, follows] at found
  cases found
  exact tighter

/-- No expression goes on at this token. -/
theorem stops_of_none {tightness : Nat} {kind : Token.Kind} {rest : List Token.Kind}
    (ends : kind.continues? = none) : Stops tightness (kind :: rest) := by
  intro other found
  rw [front_cons, ends] at found
  cases found

end Token.Kind

open Token.Kind

theorem InfixOperator.continues?_written (operator : InfixOperator) :
    operator.written.continues? = some operator.level.tightness := by
  rcases operator with (_ | _) | (_ | _ | _ | _ | _ | _ | _ | _ | _ | _ | _ | _) <;> rfl

theorem Level.operator?_written (operator : InfixOperator) :
    operator.level.operator? operator.written = some operator := by
  rcases operator with (_ | _) | (_ | _ | _ | _ | _ | _ | _ | _ | _ | _ | _ | _) <;> rfl

theorem Level.tightness_injective {level other : Level}
    (same : level.tightness = other.tightness) : level = other := by
  cases level <;> cases other <;> first | rfl | simp [Level.tightness] at same

/-- An operation does not go on where its operands stop. -/
theorem Level.operator?_of_stops {level : Level} {rest : List Token.Kind}
    (stops : Stops level.tightness rest) : level.operator? (front rest) = none := by
  cases found : level.operator? (front rest) with
  | none => rfl
  | some operator =>
    obtain ⟨rfl, spelled⟩ := Level.operator?_eq_some found
    exact absurd spelled
      (stops.front_ne operator.continues?_written (Nat.le_refl _))

theorem InfixOperator.onLine_apply {operator : InfixOperator} {line operatorLine : Nat}
    {left right : Expr Unit} : (operator.apply operatorLine left right).onLine line =
      operator.apply line (left.onLine line) (right.onLine line) := by
  cases operator <;> rfl

/-! ## Operations from the left -/

namespace Expr

/-- What stands to the right of a left operand, the operations of one level on it, and the
expression they come to. -/
inductive Operations (level : Level) : Expr Unit → List Token.Kind → Expr Unit → Prop
  | none (left : Expr Unit) : Operations level left [] left
  | more {operator : InfixOperator} {line : Nat} {left right expr : Expr Unit}
      {kinds : List Token.Kind} (same : operator.level = level)
      (tight : level.tightness < right.tightness) (shaped : right.WellShaped)
      (readable : right.Readable)
      (further : Operations level (operator.apply line left right) kinds expr) :
      Operations level left (operator.written :: (right.written ++ kinds)) expr

theorem Operations.snoc {level : Level} {operator : InfixOperator} {line : Nat}
    {first left right : Expr Unit} {kinds : List Token.Kind}
    (operations : Operations level first kinds left) (same : operator.level = level)
    (tight : level.tightness < right.tightness) (shaped : right.WellShaped)
    (readable : right.Readable) :
    Operations level first (kinds ++ operator.written :: right.written)
      (operator.apply line left right) := by
  induction operations with
  | none left =>
    have last := Operations.more same tight shaped readable
      (.none (operator.apply line left right))
    rw [List.append_nil] at last
    exact last
  | more sameFirst tightFirst shapedFirst readableFirst _ ih =>
    rw [List.cons_append, List.append_assoc]
    exact .more sameFirst tightFirst shapedFirst readableFirst ih

/-- An expression taken apart at one level. -/
structure SplitsAt (level : Level) (expr first : Expr Unit) (kinds : List Token.Kind) : Prop where
  operations : Operations level first kinds expr
  tight : level.tightness < first.tightness
  shaped : first.WellShaped
  readable : first.Readable
  written : expr.written = first.written ++ kinds

theorem SplitsAt.apply {level : Level} {operator : InfixOperator} {line : Nat}
    {left first right : Expr Unit} {kinds : List Token.Kind}
    (split : SplitsAt level left first kinds) (same : operator.level = level)
    (tight : level.tightness < right.tightness) (shaped : right.WellShaped)
    (readable : right.Readable) :
    SplitsAt level (operator.apply line left right) first
      (kinds ++ operator.written :: right.written) := by
  refine ⟨split.operations.snoc same tight shaped readable, split.tight, split.shaped,
    split.readable, ?_⟩
  rw [InfixOperator.written_apply, split.written, List.append_assoc]

/-- By recursion into the left operand, as long as its operator is of the level too. -/
theorem exists_splitsAt (level : Level) (expr : Expr Unit) (tight : level.tightness ≤ expr.tightness)
    (shaped : expr.WellShaped) (readable : expr.Readable) :
    ∃ first kinds, SplitsAt level expr first kinds := by
  -- An expression that binds tighter is an operand of the level as a whole.
  by_cases tighter : level.tightness < expr.tightness
  · exact ⟨expr, [], .none expr, tighter, shaped, readable, by simp⟩
  · have same : expr.tightness = level.tightness := by omega
    have bounds := level.tightness_bounds
    match expr with
    | .binary operator line left right =>
      obtain ⟨leftTight, rightTight, leftShaped, rightShaped⟩ := shaped
      have levels : operator.level = level := Level.tightness_injective same
      obtain ⟨first, kinds, split⟩ := left.exists_splitsAt level
        (by rw [← levels]; exact leftTight) leftShaped readable.1
      have whole : SplitsAt level (InfixOperator.apply (.binary operator) line left right) first _ :=
        split.apply levels (by rw [← levels]; exact rightTight) rightShaped readable.2
      exact ⟨first, _, whole⟩
    | .logical operator line left right =>
      obtain ⟨leftTight, rightTight, leftShaped, rightShaped⟩ := shaped
      have levels : operator.level = level := Level.tightness_injective same
      obtain ⟨first, kinds, split⟩ := left.exists_splitsAt level
        (by rw [← levels]; exact leftTight) leftShaped readable.1
      have whole : SplitsAt level (InfixOperator.apply (.logical operator) line left right) first _ :=
        split.apply levels (by rw [← levels]; exact rightTight) rightShaped readable.2
      exact ⟨first, _, whole⟩
    | .literal _ | .group _ | .unary _ _ _ | .comma _ | .conditional _ _ _ _ | .reference _ _
    | .assign _ _ _ | .property _ _ | .call _ _ _ | .function _ | .thisInstance _ _
    | .superMethod _ _ _ =>
      simp only [Expr.tightness] at same
      omega

/-! ## Calls from the left -/

/-- Literals, names, and what brings its own brackets. -/
def IsPrimary : Expr Unit → Prop
  | .literal _ | .group _ | .reference _ _ | .function _ | .thisInstance _ _ | .superMethod _ _ _ =>
    True
  | _ => False

/-- What stands to the right of a callee, the calls of it and the properties taken from it, and the
expression they come to. -/
inductive Calls : Expr Unit → List Token.Kind → Expr Unit → Prop
  | none (callee : Expr Unit) : Calls callee [] callee
  | call {callee expr : Expr Unit} {line : Nat} {arguments : List (Expr Unit)}
      {kinds : List Token.Kind} (shaped : Expr.WellShapedEach arguments)
      (readable : Expr.ReadableEach arguments) (few : arguments.length ≤ Reader.maximumArity)
      (further : Calls (.call callee line arguments) kinds expr) :
      Calls callee (.symbol .leftParen :: (Expr.writtenEach arguments ++
        .symbol .rightParen :: kinds)) expr
  | property {callee expr : Expr Unit} {name : Name} {kinds : List Token.Kind}
      (further : Calls (.property callee name) kinds expr) :
      Calls callee (.symbol .dot :: name.written :: kinds) expr

theorem Calls.snoc_call {first callee : Expr Unit} {line : Nat} {arguments : List (Expr Unit)}
    {kinds : List Token.Kind} (calls : Calls first kinds callee)
    (shaped : Expr.WellShapedEach arguments) (readable : Expr.ReadableEach arguments)
    (few : arguments.length ≤ Reader.maximumArity) :
    Calls first (kinds ++ .symbol .leftParen :: (Expr.writtenEach arguments ++
      [.symbol .rightParen])) (.call callee line arguments) := by
  induction calls with
  | none callee => exact .call shaped readable few (.none _)
  | call shapedFirst readableFirst fewFirst _ ih =>
    rw [List.cons_append, List.append_assoc, List.cons_append]
    exact .call shapedFirst readableFirst fewFirst ih
  | property _ ih => exact .property ih

theorem Calls.snoc_property {first callee : Expr Unit} {name : Name} {kinds : List Token.Kind}
    (calls : Calls first kinds callee) :
    Calls first (kinds ++ [.symbol .dot, name.written]) (.property callee name) := by
  induction calls with
  | none callee => exact .property (.none _)
  | call shaped readable few _ ih =>
    rw [List.cons_append, List.append_assoc, List.cons_append]
    exact .call shaped readable few ih
  | property _ ih => exact .property ih

/-- An expression taken apart into the calls on what is leftmost in it. -/
structure SplitsCalls (expr first : Expr Unit) (kinds : List Token.Kind) : Prop where
  calls : Calls first kinds expr
  primary : first.IsPrimary
  shaped : first.WellShaped
  readable : first.Readable
  written : expr.written = first.written ++ kinds

theorem exists_splitsCalls (expr : Expr Unit) (tight : 10 ≤ expr.tightness)
    (shaped : expr.WellShaped) (readable : expr.Readable) :
    ∃ first kinds, SplitsCalls expr first kinds := by
  match expr with
  | .call callee line arguments =>
    obtain ⟨calleeTight, calleeShaped, argumentsShaped⟩ := shaped
    obtain ⟨calleeReadable, few, argumentsReadable⟩ := readable
    obtain ⟨first, kinds, split⟩ :=
      callee.exists_splitsCalls calleeTight calleeShaped calleeReadable
    refine ⟨first, _, split.calls.snoc_call argumentsShaped argumentsReadable few, split.primary,
      split.shaped, split.readable, ?_⟩
    rw [Expr.written, split.written, List.append_assoc]
  | .property object name =>
    obtain ⟨first, kinds, split⟩ := object.exists_splitsCalls shaped.1 shaped.2 readable
    refine ⟨first, _, split.calls.snoc_property, split.primary, split.shaped, split.readable, ?_⟩
    rw [Expr.written, split.written, List.append_assoc]
  | .literal _ | .group _ | .reference _ _ | .function _ | .thisInstance _ _
  | .superMethod _ _ _ =>
    exact ⟨_, [], .none _, trivial, shaped, readable, by simp⟩
  | .binary operator _ _ _ =>
    have := operator.level.tightness_bounds
    simp only [Expr.tightness] at tight
    omega
  | .logical operator _ _ _ =>
    have := operator.level.tightness_bounds
    simp only [Expr.tightness] at tight
    omega
  | .unary _ _ _ | .comma _ | .conditional _ _ _ _ | .assign _ _ _ =>
    simp [Expr.tightness] at tight

/-! ## What trees start with -/

theorem IsPrimary.starts {expr : Expr Unit} (primary : expr.IsPrimary) (rest : List Token.Kind) :
    (front (expr.written ++ rest)).startsPrimary := by
  cases expr with
  | literal value =>
    rcases value with _ | (_ | _) | _ | _
    all_goals rfl
  | group _ | reference _ _ | function _ | thisInstance _ _ | superMethod _ _ _ => rfl
  | _ => exact primary.elim

theorem starts (expr : Expr Unit) (shaped : expr.WellShaped) (rest : List Token.Kind) :
    (front (expr.written ++ rest)).startsExpression := by
  match expr with
  | .literal value =>
    have primary : (Expr.literal value).IsPrimary := trivial
    exact startsExpression_of_startsPrimary (primary.starts rest)
  | .group _ | .reference _ _ | .assign _ _ _ | .function _ | .thisInstance _ _
  | .superMethod _ _ _ => rfl
  | .unary operator _ _ => cases operator <;> rfl
  | .binary operator _ left right =>
    rw [Expr.written, List.append_assoc]
    exact left.starts shaped.2.2.1 _
  | .logical operator _ left right =>
    rw [Expr.written, List.append_assoc]
    exact left.starts shaped.2.2.1 _
  | .comma (first :: others) =>
    rw [Expr.written, Expr.writtenEach, List.append_assoc]
    exact first.starts shaped.2.2.1 _
  | .comma [] => exact absurd shaped.1 (by simp)
  | .conditional _ condition _ _ =>
    rw [Expr.written, List.append_assoc]
    exact condition.starts shaped.2.2.2.1 _
  | .property object _ =>
    rw [Expr.written, List.append_assoc]
    exact object.starts shaped.2 _
  | .call callee _ _ =>
    rw [Expr.written, List.append_assoc]
    exact callee.starts shaped.2.1 _

end Expr

namespace Stmt

theorem IsSimple.starts {stmt : Stmt Unit} (simple : stmt.IsSimple) (shaped : stmt.WellShaped)
    (rest : List Token.Kind) : (front (stmt.written ++ rest)).startsExpression := by
  cases stmt with
  | expression value =>
    rw [Stmt.written, List.append_assoc]
    exact value.starts shaped.2 _
  | assign targets value =>
    match targets with
    | [] => exact shaped.1.elim
    | .name _ _ :: _ => rfl
    | .property object _ :: _ =>
      rw [Stmt.written, Target.writtenEach, Target.written]
      simp only [List.append_assoc]
      exact object.starts shaped.2.1.1.2 _
  | set object _ _ =>
    rw [Stmt.written, List.append_assoc]
    exact object.starts shaped.2.1 _
  | _ => exact simple.elim

theorem starts (stmt : Stmt Unit) (shaped : stmt.WellShaped) (rest : List Token.Kind) :
    (front (stmt.written ++ rest)).startsStatement := by
  by_cases simple : stmt.IsSimple
  · exact startsStatement_of_startsExpression (simple.starts shaped rest)
  · cases stmt with
    | expression _ | assign _ _ | set _ _ _ => exact absurd trivial simple
    | _ => rfl

theorem head?_written {stmt : Stmt Unit} {kind : Token.Kind} {rest : List Token.Kind}
    (simple : stmt.IsSimple) (shaped : stmt.WellShaped)
    (found : front (stmt.written ++ rest) = kind) : stmt.written.head? = some kind := by
  have starts := simple.starts shaped []
  rw [List.append_nil] at starts
  cases spelled : stmt.written with
  | nil =>
    rw [spelled] at starts
    cases starts
  | cons first more =>
    rw [spelled] at found
    rw [← found]
    rfl

/-- After a statement among others, where declarations may stand, no `else` follows. -/
theorem front_writtenEach_ne_else {stmts : List (Stmt Unit)} {rest : List Token.Kind}
    (shaped : Stmt.WellShapedEach stmts) (after : front rest ≠ .keyword .kwElse) :
    front (Stmt.writtenEach stmts ++ rest) ≠ .keyword .kwElse := by
  cases stmts with
  | nil => exact after
  | cons stmt others =>
    rw [Stmt.writtenEach, List.append_assoc]
    intro found
    have starts := stmt.starts shaped.1 (Stmt.writtenEach others ++ rest)
    rw [found] at starts
    cases starts

end Stmt

end Lox
