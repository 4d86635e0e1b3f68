import Lox.Table

/-!
# Environments

An environment is a forest of frames. Each frame binds names to values and may lie in another
frame, its *enclosing* frame, which was there before it. Frames are never removed, so a closure can
come back to the frame it was made in at any time, and frames made in one frame share it.

A frame is denoted by its number in the order of creation.
-/

namespace Lox

/-- The number of a frame. -/
abbrev FrameId := Nat

/-- One scope of a running program. -/
structure Frame (α : Type) where
  bindings : Table α
  enclosing : Option FrameId

/-- All frames made so far. -/
structure Environment (α : Type) where
  frames : Array (Frame α)

namespace Environment

variable {α : Type}

/-! ## Making frames -/

/-- The environment of a single frame, number 0, that lies in no other. -/
def root : Environment α := ⟨#[⟨.empty, none⟩]⟩

/-- The number that the next frame gets. -/
def size (env : Environment α) : Nat := env.frames.size

/-- The environment with a new, empty frame in `frame`. -/
def child (env : Environment α) (frame : FrameId) : Environment α :=
  ⟨env.frames.push ⟨.empty, some frame⟩⟩

/-! ## One frame -/

/-- The frame around a frame. -/
def enclosing? (env : Environment α) (frame : FrameId) : Option FrameId :=
  (env.frames[frame]?).bind (·.enclosing)

/-- What a frame itself binds a name to. -/
def slot? (env : Environment α) (frame : FrameId) (name : String) : Option α :=
  (env.frames[frame]?).bind (·.bindings.get? name)

/-- Binds a name in a frame, in place of what the frame bound it to before. -/
def define (env : Environment α) (frame : FrameId) (name : String) (value : α) : Environment α :=
  ⟨env.frames.modify frame fun f => ⟨f.bindings.set name value, f.enclosing⟩⟩

/-! ## What making and binding change

A new frame is empty and changes none of the others; binding a name changes that name in that
frame. No link to an enclosing frame ever changes. -/

theorem size_child (env : Environment α) (frame : FrameId) :
    (env.child frame).size = env.size + 1 := by
  simp [child, size]

theorem size_define (env : Environment α) (frame : FrameId) (name : String) (value : α) :
    (env.define frame name value).size = env.size := by
  simp [define, size]

theorem enclosing?_child (env : Environment α) (frame other : FrameId) :
    (env.child frame).enclosing? other =
      if other = env.size then some frame else env.enclosing? other := by
  by_cases new : other = env.frames.size <;>
    simp [child, enclosing?, size, Array.getElem?_push, new]

theorem slot?_child (env : Environment α) (frame other : FrameId) (name : String) :
    (env.child frame).slot? other name = env.slot? other name := by
  by_cases new : other = env.frames.size
  · simp [child, slot?, new, Table.get?_empty]
  · simp [child, slot?, Array.getElem?_push, new]

theorem enclosing?_define (env : Environment α) (frame : FrameId) (name : String) (value : α)
    (other : FrameId) : (env.define frame name value).enclosing? other = env.enclosing? other := by
  by_cases same : frame = other
  · subst same
    cases found : env.frames[frame]? <;>
      simp [define, enclosing?, Array.getElem?_modify, found]
  · simp [define, enclosing?, Array.getElem?_modify, same]

theorem slot?_define (env : Environment α) (frame : FrameId) (name : String) (value : α)
    (made : frame < env.size) (other : FrameId) (otherName : String) :
    (env.define frame name value).slot? other otherName =
      if frame = other ∧ name = otherName then some value else env.slot? other otherName := by
  by_cases same : frame = other
  · subst same
    have bound : frame < env.frames.size := made
    have found : env.frames[frame]? = some env.frames[frame] := Array.getElem?_eq_getElem bound
    simp [define, slot?, Array.getElem?_modify, found, Table.get?_set]
  · simp [define, slot?, Array.getElem?_modify, same]

/-! ## Along the chain -/

/-- The nearest frame, from `frame` outwards, that binds a name. Every frame lies in an earlier
one, so the search goes down in the numbers. -/
def holder? (env : Environment α) (name : String) (frame : FrameId) : Option FrameId :=
  if (env.slot? frame name).isSome then some frame
  else
    match env.enclosing? frame with
    | none => none
    | some outer => if outer < frame then env.holder? name outer else none
  termination_by frame

/-- The value of a name: that of the nearest frame that binds it. -/
def get? (env : Environment α) (frame : FrameId) (name : String) : Option α :=
  (env.holder? name frame).bind fun holder => env.slot? holder name

/-- Gives a name a new value in the nearest frame that binds it, and says whether there is one. -/
def assign (env : Environment α) (frame : FrameId) (name : String) (value : α) :
    Bool × Environment α :=
  match env.holder? name frame with
  | none => (false, env)
  | some holder => (true, env.define holder name value)

/-- The frame so many frames further out. -/
def ancestor? (env : Environment α) (frame : FrameId) : Nat → Option FrameId
  | 0 => some frame
  | distance + 1 =>
    match env.enclosing? frame with
    | none => none
    | some outer => env.ancestor? outer distance

/-- The value that the frame so many frames further out binds a name to. -/
def getAt? (env : Environment α) (frame : FrameId) (distance : Nat) (name : String) : Option α :=
  (env.ancestor? frame distance).bind fun ancestor => env.slot? ancestor name

/-- Gives a name a new value in the frame so many frames further out, if that frame binds it, and
says whether it does. -/
def assignAt (env : Environment α) (frame : FrameId) (distance : Nat) (name : String)
    (value : α) : Bool × Environment α :=
  match env.ancestor? frame distance with
  | none => (false, env)
  | some ancestor =>
    if (env.slot? ancestor name).isSome then (true, env.define ancestor name value)
    else (false, env)

end Environment

end Lox
