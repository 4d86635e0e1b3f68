import Lox.Heap

/-!
# Chains of frames

The frames from the innermost scope of a running program out to the globals, against the scopes that
are open where its names are resolved: there are as many frames as scopes, and each frame binds at
least the names of its scope. Then a name that resolves to a scope is bound where it is looked for.
-/

namespace Lox

/-- What a list holds is still there when it has grown. -/
theorem getElem?_grown {α : Type} {before after : List α} {id : Nat} {entry : α}
    (grown : before <+: after) (found : before[id]? = some entry) : after[id]? = some entry := by
  obtain ⟨more, rfl⟩ := grown
  rw [List.getElem?_append_left (List.getElem?_eq_some_iff.mp found).1]
  exact found

/-- The scopes without a name of the innermost one. -/
def Scopes.without (name : String) : Scopes → Scopes
  | [] => []
  | innermost :: outer => innermost.filter (· ≠ name) :: outer

namespace Environment

variable {α : Type} {env later last : Environment α} {frame : FrameId} {scopes : Scopes}

/-! ## Matching scopes -/

/-- The frames from `frame` out to the globals match the scopes, the innermost first. -/
def Matches (env : Environment α) : FrameId → Scopes → Prop
  | frame, [] => frame = Heap.globals
  | frame, names :: outer =>
    frame ≠ Heap.globals ∧ (∀ name ∈ names, (env.slot? frame name).isSome) ∧
      ∃ enclosing, env.enclosing? frame = some enclosing ∧ env.Matches enclosing outer

instance decidableMatches (env : Environment α) : (frame : FrameId) → (scopes : Scopes) →
    Decidable (env.Matches frame scopes)
  | frame, [] => inferInstanceAs (Decidable (frame = Heap.globals))
  | frame, names :: outer =>
    match found : env.enclosing? frame with
    | none => isFalse fun ⟨_, _, enclosing, lies, _⟩ => by
        rw [found] at lies
        cases lies
    | some enclosing =>
      have : Decidable (env.Matches enclosing outer) := decidableMatches env enclosing outer
      decidable_of_iff (frame ≠ Heap.globals ∧ (∀ name ∈ names, (env.slot? frame name).isSome) ∧
          env.Matches enclosing outer)
        ⟨fun ⟨inner, bound, rest⟩ => ⟨inner, bound, enclosing, found, rest⟩,
          fun ⟨inner, bound, _, lies, rest⟩ => by
            rw [found] at lies
            cases lies
            exact ⟨inner, bound, rest⟩⟩

theorem lt_size_of_enclosing? {enclosing : FrameId} (lies : env.enclosing? frame = some enclosing) :
    frame < env.size := by
  by_cases made : frame < env.frames.size
  · exact made
  · simp [enclosing?, Array.getElem?_eq_none (Nat.le_of_not_lt made)] at lies

theorem lt_size_of_slot? {name : String} (bound : (env.slot? frame name).isSome) :
    frame < env.size := by
  by_cases made : frame < env.frames.size
  · exact made
  · simp [slot?, Array.getElem?_eq_none (Nat.le_of_not_lt made)] at bound

/-- What a frame binds a name to after a binding was made, be the frame there or not. -/
theorem slot?_define_eq_some {other : FrameId} {name otherName : String} {value held : α}
    (found : (env.define frame name value).slot? other otherName = some held) :
    (frame = other ∧ name = otherName ∧ value = held) ∨ env.slot? other otherName = some held := by
  by_cases made : frame < env.size
  · rw [slot?_define _ _ _ _ made] at found
    split at found
    · next same => exact .inl ⟨same.1, same.2, Option.some.inj found⟩
    · exact .inr found
  · right
    by_cases same : frame = other
    · subst same
      -- Where there is no such frame nothing is bound.
      have missing : env.frames[frame]? = none := Array.getElem?_eq_none (Nat.le_of_not_lt made)
      simp [define, slot?, Array.getElem?_modify, missing] at found
    · simpa [define, slot?, Array.getElem?_modify, same] using found

theorem Matches.lt_size (matched : env.Matches frame scopes) (root : Heap.globals < env.size) :
    frame < env.size := by
  cases scopes with
  | nil =>
    cases matched
    exact root
  | cons names outer =>
    obtain ⟨_, _, enclosing, lies, _⟩ := matched
    exact lt_size_of_enclosing? lies

/-- A name that is declared where its frame binds it. -/
theorem Matches.declare {name : String} (matched : env.Matches frame scopes)
    (bound : (env.slot? frame name).isSome) : env.Matches frame (scopes.declare name) := by
  cases scopes with
  | nil => exact matched
  | cons names outer =>
    obtain ⟨inner, boundNames, rest⟩ := matched
    refine ⟨inner, fun other member => ?_, rest⟩
    cases List.mem_cons.mp member with
    | inl same =>
      rw [same]
      exact bound
    | inr old => exact boundNames other old

/-- A scope in which a name is declared, but for that name. -/
theorem Matches.declare_without (matched : env.Matches frame scopes) (name : String) :
    env.Matches frame ((scopes.declare name).without name) := by
  cases scopes with
  | nil => exact matched
  | cons names outer =>
    obtain ⟨inner, bound, rest⟩ := matched
    refine ⟨inner, fun other member => ?_, rest⟩
    obtain ⟨declared, differs⟩ := List.mem_filter.mp member
    cases List.mem_cons.mp declared with
    -- The name is the one that was left out.
    | inl same => simp [same] at differs
    | inr old => exact bound other old

/-! ## Growing environments

Frames are added and names are bound; no frame is moved and no name is unbound. Which of the frames
that were there before may have gained names is told apart, since most steps add names to new frames
and to the globals only. -/

structure Grows (gaining : FrameId → Prop) (env later : Environment α) : Prop where
  size : env.size ≤ later.size
  enclosing : ∀ frame < env.size, later.enclosing? frame = env.enclosing? frame
  kept : ∀ frame name, (env.slot? frame name).isSome → (later.slot? frame name).isSome
  gained : ∀ frame name, frame < env.size → ¬gaining frame →
    (later.slot? frame name).isSome → (env.slot? frame name).isSome

namespace Grows

variable {gaining wider : FrameId → Prop}

theorem refl (env : Environment α) : env.Grows gaining env :=
  ⟨Nat.le_refl _, fun _ _ => rfl, fun _ _ => id, fun _ _ _ _ => id⟩

theorem trans (first : env.Grows gaining later) (second : later.Grows wider last)
    (within : ∀ frame < env.size, wider frame → gaining frame) : env.Grows gaining last := by
  refine ⟨Nat.le_trans first.size second.size, fun frame made => ?_,
    fun frame name bound => second.kept frame name (first.kept frame name bound),
    fun frame name made closed bound => ?_⟩
  · rw [second.enclosing frame (Nat.lt_of_lt_of_le made first.size), first.enclosing frame made]
  · exact first.gained frame name made closed (second.gained frame name
      (Nat.lt_of_lt_of_le made first.size) (fun opened => closed (within frame made opened)) bound)

/-- Names in a frame that was not there before are nothing to those that were. -/
theorem trans_new (first : env.Grows gaining later) (second : later.Grows (· = env.size) last) :
    env.Grows gaining last :=
  first.trans second fun _ old new => absurd new (Nat.ne_of_lt old)

theorem mono (grows : env.Grows gaining later) (within : ∀ frame, gaining frame → wider frame) :
    env.Grows wider later :=
  ⟨grows.size, grows.enclosing, grows.kept, fun frame name made closed =>
    grows.gained frame name made fun opened => closed (within frame opened)⟩

theorem child (env : Environment α) (frame : FrameId) : env.Grows gaining (env.child frame) := by
  refine ⟨by rw [size_child]; exact Nat.le_succ _, fun other made => ?_, fun other name => ?_,
    fun other name _ _ => ?_⟩
  · rw [enclosing?_child, if_neg (Nat.ne_of_lt made)]
  · rw [slot?_child]
    exact id
  · rw [slot?_child]
    exact id

theorem define {name : String} {value : α} (made : frame < env.size)
    (opened : gaining frame ∨ (env.slot? frame name).isSome) :
    env.Grows gaining (env.define frame name value) := by
  refine ⟨Nat.le_of_eq (size_define env frame name value).symm,
    fun other _ => enclosing?_define env frame name value other, fun other otherName bound => ?_,
    fun other otherName _ closed bound => ?_⟩
  · rw [slot?_define env frame name value made]
    split
    · rfl
    · exact bound
  · rw [slot?_define env frame name value made] at bound
    split at bound
    -- The one new binding is in a frame that is open to it, or it was there before.
    case isTrue same =>
      obtain ⟨rfl, rfl⟩ := same
      exact opened.resolve_left closed
    case isFalse => exact bound

end Grows

theorem Matches.grows {gaining : FrameId → Prop} (matched : env.Matches frame scopes)
    (grows : env.Grows gaining later) : later.Matches frame scopes := by
  induction scopes generalizing frame with
  | nil => exact matched
  | cons names outer ih =>
    obtain ⟨inner, bound, enclosing, lies, rest⟩ := matched
    refine ⟨inner, fun name member => grows.kept frame name (bound name member), enclosing, ?_,
      ih rest⟩
    rw [grows.enclosing frame (lt_size_of_enclosing? lies)]
    exact lies

/-- The scope that a new frame opens holds no names yet. -/
theorem Matches.child (matched : env.Matches frame scopes) (root : Heap.globals < env.size) :
    (env.child frame).Matches env.size ([] :: scopes) := by
  have grown : env.Grows (fun _ => False) (env.child frame) := Grows.child env frame
  refine ⟨Nat.ne_of_gt root, fun name member => absurd member List.not_mem_nil, frame, ?_,
    matched.grows grown⟩
  rw [enclosing?_child, if_pos rfl]

theorem size_lt_size_child (env : Environment α) (frame : FrameId) :
    env.size < (env.child frame).size := by
  rw [size_child]
  exact Nat.lt_succ_self _

theorem slot?_define_self {name : String} {value : α} (made : frame < env.size) :
    (env.define frame name value).slot? frame name = some value := by
  rw [slot?_define env frame name value made, if_pos ⟨rfl, rfl⟩]

theorem Grows.define_child (frame : FrameId) (name : String) (value : α) :
    (env.child frame).Grows (· = env.size) ((env.child frame).define env.size name value) :=
  .define (env.size_lt_size_child frame) (.inl rfl)

/-- A new frame with one name. -/
theorem Grows.child_define {gaining : FrameId → Prop} (frame : FrameId) (name : String)
    (value : α) : env.Grows gaining ((env.child frame).define env.size name value) :=
  (Grows.child env frame).trans_new (.define_child frame name value)

/-- A new frame with one name opens a scope of that name. -/
theorem Matches.define_child (matched : env.Matches frame scopes) (root : Heap.globals < env.size)
    (name : String) (value : α) :
    ((env.child frame).define env.size name value).Matches env.size ([name] :: scopes) := by
  refine ((matched.child root).grows (.define_child frame name value)).declare ?_
  rw [slot?_define_self (env.size_lt_size_child frame)]
  rfl

/-! ## Finding names -/

theorem get?_globals (env : Environment α) (name : String) :
    env.get? Heap.globals name = env.slot? Heap.globals name := by
  unfold get? holder?
  by_cases bound : (env.slot? Heap.globals name).isSome
  · rw [if_pos bound]
    rfl
  · rw [if_neg bound]
    rw [Option.not_isSome_iff_eq_none.mp bound]
    cases env.enclosing? Heap.globals <;> rfl

theorem assign_globals (env : Environment α) (name : String) (value : α) :
    env.assign Heap.globals name value =
      if (env.slot? Heap.globals name).isSome then (true, env.define Heap.globals name value)
      else (false, env) := by
  unfold assign holder?
  by_cases bound : (env.slot? Heap.globals name).isSome
  · rw [if_pos bound, if_pos bound]
  · rw [if_neg bound, if_neg bound]
    cases env.enclosing? Heap.globals <;> rfl

end Environment

theorem Scopes.binding_cons (names : List String) (outer : Scopes) (name : String) :
    Scopes.binding (names :: outer) name =
      if names.contains name then .lexical 0
      else
        match outer.binding name with
        | .global => .global
        | .lexical distance => .lexical (distance + 1) := by
  simp only [Scopes.binding, List.findIdx?_cons]
  by_cases here : names.contains name
  · rw [if_pos here, if_pos here]
  · rw [if_neg here, if_neg here]
    cases outer.findIdx? (·.contains name) <;> rfl

namespace Environment

variable {α : Type} {env : Environment α} {frame : FrameId} {scopes : Scopes}

/-- A name that resolves to a scope is bound in the frame of that scope. -/
theorem Matches.ancestor? {name : String} {distance : Nat} (matched : env.Matches frame scopes)
    (resolved : scopes.binding name = .lexical distance) :
    ∃ ancestor, env.ancestor? frame distance = some ancestor ∧ ancestor ≠ Heap.globals ∧
      (env.slot? ancestor name).isSome := by
  induction scopes generalizing frame distance with
  | nil => cases resolved
  | cons names outer ih =>
    obtain ⟨inner, bound, enclosing, lies, rest⟩ := matched
    rw [Scopes.binding_cons] at resolved
    split at resolved
    case isTrue here =>
      cases resolved
      exact ⟨frame, rfl, inner, bound name (List.contains_iff_mem.mp here)⟩
    case isFalse =>
      cases further : Scopes.binding outer name with
      | global =>
        rw [further] at resolved
        cases resolved
      | lexical beyond =>
        rw [further] at resolved
        cases resolved
        -- One scope further out is one frame further out.
        obtain ⟨ancestor, found, outside, boundThere⟩ := ih rest further
        refine ⟨ancestor, ?_, outside, boundThere⟩
        simp only [Environment.ancestor?, lies]
        exact found

end Environment

end Lox
