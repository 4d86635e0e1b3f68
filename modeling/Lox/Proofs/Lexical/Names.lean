import Lox.Proofs.Grammar.Soundness
import Lox.Proofs.Scoping.Watch

/-!
# Where `this` and `super` are visible

No identifier is spelled `this` or `super`, so no declaration hides the instance of a method or the
superclass of a class. Inside a class with a superclass, the nearest scope that holds `super` is
therefore the one just outside the nearest scope that holds `this`.
-/

namespace Lox

/-! ## Ordinary names -/

/-- Whether the token, if it names something, leaves `this` and `super` alone. -/
def Token.Kind.IsOrdinary : Token.Kind → Prop
  | .identifier name => name ≠ thisName ∧ name ≠ superName
  | _ => True

instance : DecidablePred Token.Kind.IsOrdinary := fun kind => by
  cases kind <;> unfold Token.Kind.IsOrdinary <;> infer_instance

/-- Whether all names in a written form are ordinary. -/
def Ordinary (kinds : List Token.Kind) : Prop := ∀ kind ∈ kinds, kind.IsOrdinary

namespace Ordinary

variable {kind : Token.Kind} {kinds more : List Token.Kind}

@[simp] theorem nil : Ordinary [] := nofun

@[simp] theorem cons : Ordinary (kind :: kinds) ↔ kind.IsOrdinary ∧ Ordinary kinds :=
  List.forall_mem_cons

@[simp] theorem append : Ordinary (kinds ++ more) ↔ Ordinary kinds ∧ Ordinary more :=
  List.forall_mem_append

end Ordinary

theorem Name.isOrdinary_of_mem {names : List Name} {name : Name}
    (ordinary : Ordinary (Name.writtenEach names)) (member : name ∈ names) :
    name.written.IsOrdinary := by
  induction names with
  | nil => cases member
  | cons first rest ih =>
    cases rest with
    | nil =>
      cases List.mem_singleton.mp member
      exact (Ordinary.cons.mp ordinary).1
    | cons second more =>
      rw [Name.writtenEach_cons first (List.cons_ne_nil _ _), Ordinary.cons, Ordinary.cons]
        at ordinary
      cases member with
      | head => exact ordinary.1
      | tail _ further => exact ih ordinary.2.2 further

/-- The parameters of a function and the names in its body. -/
theorem Lambda.ordinary {lambda : Lambda Unit} (ordinary : Ordinary lambda.written) :
    (∀ parameter ∈ lambda.parameters, parameter.written.IsOrdinary) ∧
      Ordinary (Stmt.writtenEach lambda.body) := by
  obtain ⟨parameters, body⟩ := lambda
  simp only [Lambda.written, Ordinary.append, Ordinary.cons] at ordinary
  exact ⟨fun _ => Name.isOrdinary_of_mem ordinary.1, ordinary.2.2.2.1⟩

namespace Scan

/-- A word that is reserved is scanned as a keyword. -/
theorem isOrdinary_word {text : List Char} {kind : Token.Kind}
    (cut : (word text).piece = .token kind) : kind.IsOrdinary := by
  simp only [word, Piece.token.injEq] at cut
  subst cut
  split
  · trivial
  · next free =>
    refine ⟨?_, ?_⟩ <;> intro reserved <;> rw [reserved] at free <;> cases free

theorem isOrdinary_firstCut {c : Char} {after : List Char} {kind : Token.Kind}
    (cut : (firstCut c after).piece = .token kind) : kind.IsOrdinary := by
  unfold firstCut at cut
  split at cut
  · cases cut
  split at cut
  · cases cut
  split at cut
  · simp only [textLiteral] at cut
    split at cut <;> cases cut
    trivial
  split at cut
  · simp only [numberLiteral] at cut
    split at cut
    · split at cut <;> cases cut <;> trivial
    · cases cut
      trivial
  split at cut
  · exact isOrdinary_word cut
  split at cut
  · simp only [symbol] at cut
    split at cut <;> cases cut <;> trivial
  · cases cut

theorem isOrdinary_segments (text : List Char) {segment : Segment} {kind : Token.Kind}
    (member : segment ∈ segments text) (cut : segment.piece = .token kind) : kind.IsOrdinary := by
  match text with
  | [] =>
    rw [segments_nil] at member
    cases member
  | c :: after =>
    rw [segments_cons] at member
    cases member with
    | head => exact isOrdinary_firstCut cut
    | tail _ further => exact isOrdinary_segments (firstCut c after).rest further cut
  termination_by text.length
  decreasing_by exact Nat.lt_succ_of_le (length_rest_firstCut c after)

theorem isOrdinary_itemsFrom {line : Nat} {segments : List Segment} {token : Token}
    (ordinary : ∀ segment ∈ segments, ∀ kind, segment.piece = .token kind → kind.IsOrdinary)
    (member : .token token ∈ itemsFrom line segments) : token.kind.IsOrdinary := by
  induction segments generalizing line with
  | nil =>
    cases List.mem_singleton.mp member
    trivial
  | cons segment rest ih =>
    have others : ∀ next, .token token ∈ itemsFrom next rest → token.kind.IsOrdinary :=
      fun _ => ih fun other further => ordinary other (.tail _ further)
    simp only [itemsFrom] at member
    split at member
    · exact others _ member
    · next kind cut =>
      cases member with
      | head => exact ordinary segment (.head _) kind cut
      | tail _ further => exact others _ further
    · cases member with
      | tail _ further => exact others _ further

/-- Scanned tokens are ordinary. -/
theorem isOrdinary_of_mem_tokens {source : String} {token : Token} (member : token ∈ tokens source) :
    token.kind.IsOrdinary := by
  obtain ⟨item, listed, same⟩ := List.mem_filterMap.mp member
  cases item with
  | token found =>
    cases same
    exact isOrdinary_itemsFrom (fun _ member _ cut => isOrdinary_segments _ member cut) listed
  | error _ => cases same

end Scan

/-! ## Surroundings -/

/-- Going outwards, a scope that holds `this` comes first, and the next one holds `super`. -/
inductive Scopes.SuperVisible : Scopes → Prop where
  | method {names classNames : List String} {outer : Scopes} : thisName ∈ names →
      superName ∉ names → superName ∈ classNames → SuperVisible (names :: classNames :: outer)
  | inner {names : List String} {outer : Scopes} : thisName ∉ names → superName ∉ names →
      SuperVisible outer → SuperVisible (names :: outer)

namespace Scopes.SuperVisible

variable {scopes : Scopes}

theorem declare {name : String} (visible : scopes.SuperVisible) (notThis : name ≠ thisName)
    (notSuper : name ≠ superName) : (scopes.declare name).SuperVisible := by
  cases visible with
  | method held free outside =>
    refine .method (.tail _ held) (fun member => ?_) outside
    exact (List.mem_cons.mp member).elim (notSuper ·.symm) free
  | inner freeOfThis freeOfSuper outer =>
    refine .inner (fun member => ?_) (fun member => ?_) outer
    · exact (List.mem_cons.mp member).elim (notThis ·.symm) freeOfThis
    · exact (List.mem_cons.mp member).elim (notSuper ·.symm) freeOfSuper

theorem binding (visible : scopes.SuperVisible) :
    ∃ distance, scopes.binding thisName = .lexical distance ∧
      scopes.binding superName = .lexical (distance + 1) := by
  induction visible with
  | method held free outside =>
    refine ⟨0, ?_, ?_⟩
    · simp [Scopes.binding_cons, held]
    · simp [Scopes.binding_cons, free, outside]
  | inner freeOfThis freeOfSuper _ ih =>
    obtain ⟨distance, this, super⟩ := ih
    refine ⟨distance + 1, ?_, ?_⟩
    · simp [Scopes.binding_cons, freeOfThis, this]
    · simp [Scopes.binding_cons, freeOfSuper, super]

end Scopes.SuperVisible

namespace Surroundings

variable {s : Surroundings}

/-- Inside a class with a superclass, `super` is visible. -/
def Proper (s : Surroundings) : Prop := s.inClass = .withSuperclass → s.scopes.SuperVisible

theorem proper_topLevel : topLevel.Proper := nofun

namespace Proper

theorem enter (proper : s.Proper) : (s.enter []).Proper :=
  fun subclass => .inner List.not_mem_nil List.not_mem_nil (proper subclass)

theorem declare {name : Name} (proper : s.Proper) (ordinary : name.written.IsOrdinary) :
    (s.declare name.text).Proper :=
  fun subclass => (proper subclass).declare ordinary.1 ordinary.2

theorem enterFunction {parameters : List Name} (proper : s.Proper)
    (ordinary : ∀ parameter ∈ parameters, parameter.written.IsOrdinary) :
    (s.enterFunction parameters).Proper := by
  refine fun subclass => .inner (fun member => ?_) (fun member => ?_) (proper subclass)
  · obtain ⟨parameter, listed, same⟩ := List.mem_map.mp member
    exact (ordinary parameter listed).1 same
  · obtain ⟨parameter, listed, same⟩ := List.mem_map.mp member
    exact (ordinary parameter listed).2 same

end Proper

/-- A method's surroundings, whatever surrounds its class. -/
theorem proper_classBody {α : Type} (superclass : Option α) (s : Surroundings) :
    ((s.classBody superclass).enter [thisName]).Proper := by
  cases superclass with
  | none => exact nofun
  | some _ => exact fun _ => .method (.head _) (by decide) (.head _)

end Surroundings

end Lox
