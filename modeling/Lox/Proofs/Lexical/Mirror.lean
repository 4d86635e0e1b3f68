import Lox.Proofs.Lexical.Names
import Lox.Proofs.Lexical.Semantics
import Lox.Proofs.Scoping.Chains

/-!
# Frames and cells

How a machine with its frames and a lexical state with its cells stand for the same thing. Every
cell lies at a *place*, a name in a frame other than that of the globals, and no two cells lie at
the same one. A frame may hold more names than a scope that stands for it, since names are declared
in it later on; those names are not visible where the scope is.
-/

namespace Lox

namespace Lexical

/-- Where a cell lies. -/
abbrev Place := FrameId × String

variable {env later : Environment Value} {places further : List Place} {frame : FrameId}
  {visible : Visible} {scopes : Scopes} {gaining : FrameId → Prop}

/-! ## Visible names -/

/-- The frames from `frame` out to the globals hold the cells of what is visible, scope by scope. -/
def Chain (env : Environment Value) (places : List Place) : FrameId → Visible → Prop
  | frame, [] => frame = Heap.globals
  | frame, scope :: outer =>
    frame ≠ Heap.globals ∧
      (∀ name cell, scope.get? name = some cell → places[cell]? = some (frame, name)) ∧
        ∃ enclosing, env.enclosing? frame = some enclosing ∧ Chain env places enclosing outer

/-- What is visible are the names in the scopes. -/
inductive Covers : Visible → Scopes → Prop where
  | nil : Covers [] []
  | cons {scope : Table CellId} {names : List String} {visible : Visible} {scopes : Scopes} :
      (∀ name, (scope.get? name).isSome ↔ name ∈ names) → Covers visible scopes →
        Covers (scope :: visible) (names :: scopes)

theorem Chain.lt_size (chain : Chain env places frame visible) (root : Heap.globals < env.size) :
    frame < env.size := by
  cases visible with
  | nil =>
    cases chain
    exact root
  | cons scope outer =>
    obtain ⟨_, _, enclosing, lies, _⟩ := chain
    exact Environment.lt_size_of_enclosing? lies

theorem Chain.grows (chain : Chain env places frame visible) (grows : env.Grows gaining later)
    (grown : places <+: further) : Chain later further frame visible := by
  induction visible generalizing frame with
  | nil => exact chain
  | cons scope outer ih =>
    obtain ⟨inner, held, enclosing, lies, rest⟩ := chain
    refine ⟨inner, fun name cell bound => getElem?_grown grown (held name cell bound),
      enclosing, ?_, ih rest⟩
    rw [grows.enclosing frame (Environment.lt_size_of_enclosing? lies)]
    exact lies

/-- A new frame stands for a scope that holds nothing yet. -/
theorem Chain.child (chain : Chain env places frame visible) (root : Heap.globals < env.size) :
    Chain (env.child frame) places env.size (.empty :: visible) := by
  have grows : env.Grows (fun _ => False) (env.child frame) := .child _ _
  refine ⟨Nat.ne_of_gt root, fun name cell held => ?_, frame, ?_, chain.grows grows List.prefix_rfl⟩
  · cases held
  · rw [Environment.enclosing?_child, if_pos rfl]

/-- One more name in the innermost scope, with its cell. -/
theorem Chain.set {scope : Table CellId} {outer : Visible} {name : String} {cell : CellId}
    (chain : Chain env places frame (scope :: outer)) (lies : places[cell]? = some (frame, name)) :
    Chain env places frame (scope.set name cell :: outer) := by
  obtain ⟨inner, held, rest⟩ := chain
  refine ⟨inner, fun other otherCell bound => ?_, rest⟩
  rw [Table.get?_set] at bound
  split at bound
  · next same =>
    cases bound
    rw [← same]
    exact lies
  · exact held other otherCell bound

theorem Covers.enter (covers : Covers visible scopes) : Covers (.empty :: visible) ([] :: scopes) :=
  .cons (fun _ => ⟨(nomatch ·), (nomatch ·)⟩) covers

/-- Declaring a name in the innermost scope, where it may be already. -/
theorem Covers.declare {scope : Table CellId} {outer : Visible} {name : String} {cell : CellId}
    (covers : Covers (scope :: outer) scopes) :
    Covers (scope.set name cell :: outer) (scopes.declare name) := by
  cases covers with
  | cons same rest =>
    refine .cons (fun other => ?_) rest
    rw [Table.get?_set, List.mem_cons]
    split
    · next equal => simp [equal]
    · next differs =>
      rw [same other]
      exact ⟨.inr, fun member => member.resolve_left fun equal => differs equal.symm⟩

theorem Covers.declare_held {scope : Table CellId} {outer : Visible} {name : String}
    (covers : Covers (scope :: outer) scopes) (held : (scope.get? name).isSome) :
    Covers (scope :: outer) (scopes.declare name) := by
  cases covers with
  | cons same rest =>
    refine .cons (fun other => ?_) rest
    rw [List.mem_cons, same other]
    refine ⟨.inr, fun member => member.elim (fun equal => ?_) id⟩
    rw [← same other, equal]
    exact held

/-- A name that resolves to no scope is not visible. -/
theorem Covers.cell?_eq_none {name : String} (covers : Covers visible scopes)
    (resolved : scopes.binding name = .global) : visible.cell? name = none := by
  induction covers with
  | nil => rfl
  | @cons scope names outer further same _ ih =>
    rw [Scopes.binding_cons] at resolved
    split at resolved
    · cases resolved
    · next free =>
      have absent : scope.get? name = none := by
        rw [← Option.not_isSome_iff_eq_none, same name]
        simpa using free
      simp only [Visible.cell?, List.findSome?_cons, absent]
      split at resolved
      · next outside => exact ih outside
      · cases resolved

/-- A name that resolves to a scope is visible, and its cell lies in the frame of that scope. -/
theorem Covers.cell?_eq_some {name : String} {distance : Nat} (covers : Covers visible scopes)
    (chain : Chain env places frame visible) (resolved : scopes.binding name = .lexical distance) :
    ∃ ancestor cell, env.ancestor? frame distance = some ancestor ∧
      visible.cell? name = some cell ∧ places[cell]? = some (ancestor, name) := by
  induction covers generalizing frame distance with
  | nil => cases resolved
  | @cons scope names outer beyond same _ ih =>
    obtain ⟨_, held, enclosing, lies, rest⟩ := chain
    rw [Scopes.binding_cons] at resolved
    split at resolved
    · next member =>
      cases resolved
      obtain ⟨cell, found⟩ := Option.isSome_iff_exists.mp
        ((same name).mpr (List.contains_iff_mem.mp member))
      refine ⟨frame, cell, rfl, ?_, held name cell found⟩
      simp only [Visible.cell?, List.findSome?_cons, found]
    · next free =>
      -- The innermost scope does not hold the name, so it is looked for further out.
      have absent : scope.get? name = none := by
        rw [← Option.not_isSome_iff_eq_none, same name]
        simpa using free
      split at resolved
      · cases resolved
      · next outside =>
        cases resolved
        obtain ⟨ancestor, cell, reached, found, placed⟩ := ih rest outside
        refine ⟨ancestor, cell, ?_, ?_, placed⟩
        · simp only [Environment.ancestor?, lies]
          exact reached
        · simp only [Visible.cell?, List.findSome?_cons, absent]
          exact found

/-! ## What is stored -/

/-- The cells hold what the frames do. -/
structure Stored (env : Environment Value) (places : List Place) (cells : Array Value)
    (globals : Table Value) : Prop where
  root : Heap.globals < env.size
  count : places.length = cells.size
  distinct : places.Nodup
  cells : ∀ (cell : CellId) (frame : FrameId) (name : String), places[cell]? = some (frame, name) →
    frame ≠ Heap.globals ∧ env.slot? frame name = cells[cell]?
  globals : ∀ name, env.slot? Heap.globals name = globals.get? name

namespace Stored

variable {cells : Array Value} {globals : Table Value} {name : String} {value : Value}

theorem empty : Stored .root [] #[] .empty := by
  refine ⟨Nat.zero_lt_one, rfl, List.nodup_nil, nofun, fun name => rfl⟩

/-- What lies at a place is bound there. -/
theorem isSome {cell : CellId} (stored : Stored env places cells globals)
    (lies : places[cell]? = some (frame, name)) : (env.slot? frame name).isSome := by
  rw [(stored.cells cell frame name lies).2, Array.getElem?_eq_getElem]
  · rfl
  · rw [← stored.count]
    exact (List.getElem?_eq_some_iff.mp lies).1

theorem child (stored : Stored env places cells globals) :
    Stored (env.child frame) places cells globals := by
  refine ⟨Nat.lt_trans stored.root (env.size_lt_size_child frame), stored.count, stored.distinct,
    fun cell other name lies => ?_, fun name => ?_⟩
  · rw [Environment.slot?_child]
    exact stored.cells cell other name lies
  · rw [Environment.slot?_child]
    exact stored.globals name

theorem setGlobal (stored : Stored env places cells globals) :
    Stored (env.define Heap.globals name value) places cells (globals.set name value) := by
  refine ⟨?_, stored.count, stored.distinct, fun cell other otherName lies => ?_, fun other => ?_⟩
  · rw [Environment.size_define]
    exact stored.root
  · obtain ⟨inner, same⟩ := stored.cells cell other otherName lies
    refine ⟨inner, ?_⟩
    rw [Environment.slot?_define _ _ _ _ stored.root, if_neg fun both => inner both.1.symm]
    exact same
  · rw [Environment.slot?_define _ _ _ _ stored.root, Table.get?_set, stored.globals]
    simp only [true_and]

/-- A new value in a cell is a new value at its place, and at no other. -/
theorem write {cell : CellId} (stored : Stored env places cells globals)
    (lies : places[cell]? = some (frame, name)) :
    Stored (env.define frame name value) places (cells.setIfInBounds cell value) globals := by
  have made := Environment.lt_size_of_slot? (stored.isSome lies)
  have inside : cell < cells.size := by
    rw [← stored.count]
    exact (List.getElem?_eq_some_iff.mp lies).1
  refine ⟨?_, ?_, stored.distinct, fun other otherFrame otherName placed => ?_, fun other => ?_⟩
  · rw [Environment.size_define]
    exact stored.root
  · rw [Array.size_setIfInBounds]
    exact stored.count
  · obtain ⟨inner, same⟩ := stored.cells other otherFrame otherName placed
    refine ⟨inner, ?_⟩
    rw [Environment.slot?_define _ _ _ _ made, Array.getElem?_setIfInBounds]
    by_cases here : cell = other
    · subst here
      cases lies.symm.trans placed
      rw [if_pos ⟨rfl, rfl⟩, if_pos rfl, if_pos inside]
    -- No two cells lie at one place, so the other one lies elsewhere.
    · have apart : ¬(frame = otherFrame ∧ name = otherName) := by
        rintro ⟨rfl, rfl⟩
        exact here ((List.getElem?_inj (List.getElem?_eq_some_iff.mp lies).1 stored.distinct).mp
          (lies.trans placed.symm))
      rw [if_neg apart, if_neg here]
      exact same
  · rw [Environment.slot?_define _ _ _ _ made, if_neg, stored.globals]
    rintro ⟨rfl, _⟩
    exact (stored.cells cell _ name lies).1 rfl

/-- A name that a frame does not bind yet is bound there to a new cell. -/
theorem push (value : Value) (stored : Stored env places cells globals) (made : frame < env.size)
    (inner : frame ≠ Heap.globals) (free : env.slot? frame name = none) :
    Stored (env.define frame name value) (places ++ [(frame, name)]) (cells.push value)
      globals := by
  -- A place with a cell is bound, and this one is not.
  have new : (frame, name) ∉ places := by
    intro member
    obtain ⟨cell, lies⟩ := List.getElem?_of_mem member
    have bound := stored.isSome lies
    rw [free] at bound
    cases bound
  refine ⟨?_, ?_, ?_, fun cell other otherName lies => ?_, fun other => ?_⟩
  · rw [Environment.size_define]
    exact stored.root
  · rw [List.length_append, Array.size_push, stored.count]
    rfl
  · exact List.nodup_append.mpr ⟨stored.distinct, by simp, fun place member _ last same =>
      new (List.mem_singleton.mp last ▸ same ▸ member)⟩
  · rw [Environment.slot?_define _ _ _ _ made]
    by_cases old : cell < places.length
    · rw [List.getElem?_append_left old] at lies
      obtain ⟨outside, same⟩ := stored.cells cell other otherName lies
      refine ⟨outside, ?_⟩
      rw [if_neg, Array.getElem?_push, if_neg]
      · exact same
      · rw [← stored.count]
        exact Nat.ne_of_lt old
      · rintro ⟨rfl, rfl⟩
        exact new (List.mem_of_getElem? lies)
    · rw [List.getElem?_append_right (Nat.le_of_not_lt old)] at lies
      obtain ⟨last, same⟩ := List.getElem?_eq_some_iff.mp lies
      -- What lies at the last place is the cell that was made last.
      have newest : cell = cells.size :=
        (Nat.le_antisymm (Nat.sub_eq_zero_iff_le.mp (Nat.lt_one_iff.mp last))
          (Nat.le_of_not_lt old)).trans stored.count
      cases same.symm.trans (List.getElem_singleton _)
      subst newest
      rw [if_pos ⟨rfl, rfl⟩, Array.getElem?_push_size]
      exact ⟨inner, rfl⟩
  · rw [Environment.slot?_define _ _ _ _ made, if_neg fun both => inner both.1, stored.globals]

end Stored

end Lexical

end Lox
