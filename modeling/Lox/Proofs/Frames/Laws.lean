import Lox.Proofs.Scoping.Chains

/-!
# The laws of frames

Environments as they come about: from a root, by making frames in frames that are there and by giving
names values. However that went, the links to enclosing frames run in no circle. So a search for a name
is never cut short: it comes to the nearest frame of the chain that binds the name, and finds there what
is read when one goes out by that frame's distance without searching.

Giving a name a value, whether the frame is searched for or gone to by its distance, changes that name in
that one frame. Every chain that leads through the frame sees the change, and nothing else does.
-/

namespace Lox.Environment

variable {α : Type} {env later : Environment α} {frame holder : FrameId} {name : String} {distance : Nat}

/-! ## Definitions -/

/-- The environments that can be built from a root. -/
inductive Built : Environment α → Prop where
  | root : Built root
  | child {env : Environment α} {frame : FrameId} :
      Built env → frame < env.size → Built (env.child frame)
  | define {env : Environment α} {frame : FrameId} (name : String) (value : α) :
      Built env → frame < env.size → Built (env.define frame name value)
  | assign {env : Environment α} {frame : FrameId} (name : String) (value : α) :
      Built env → frame < env.size → Built (env.assign frame name value).2
  | assignAt {env : Environment α} {frame : FrameId} (distance : Nat) (name : String) (value : α) :
      Built env → frame < env.size → Built (env.assignAt frame distance name value).2

/-- The nearest frame from `frame` outwards that binds the name is `holder`, so many frames away. -/
structure Nearest (env : Environment α) (frame : FrameId) (name : String) (distance : Nat)
    (holder : FrameId) : Prop where
  reached : env.ancestor? frame distance = some holder
  bound : (env.slot? holder name).isSome
  first : ∀ nearer < distance, env.getAt? frame nearer name = none

/-- What becomes of an environment when one name of one frame is given a value: that name of that frame
has the value, and all else is as it was. -/
structure Sets (env : Environment α) (frame : FrameId) (name : String) (value : α)
    (later : Environment α) : Prop where
  size : later.size = env.size
  enclosing : ∀ other, later.enclosing? other = env.enclosing? other
  slots : ∀ other otherName, later.slot? other otherName =
    if frame = other ∧ name = otherName then some value else env.slot? other otherName

/-- The laws of searching, of going by a distance, and of what each of the operations changes. -/
structure Lawful (env : Environment α) : Prop where
  acyclic : ∀ frame distance, env.ancestor? frame (distance + 1) ≠ some frame
  get_nearest : ∀ frame name distance holder, env.Nearest frame name distance holder →
    env.get? frame name = env.getAt? frame distance name
  get_fails : ∀ frame name,
    env.get? frame name = none ↔ ∀ distance, env.getAt? frame distance name = none
  assign_succeeds : ∀ frame name value,
    (env.assign frame name value).1 = (env.get? frame name).isSome
  assign_sets : ∀ frame name value distance holder, env.Nearest frame name distance holder →
    env.Sets holder name value (env.assign frame name value).2 ∧
      (env.assign frame name value).2.get? frame name = some value
  assign_fails : ∀ frame name value, (env.assign frame name value).1 = false →
    (env.assign frame name value).2 = env
  assignAt_succeeds : ∀ frame distance name value,
    (env.assignAt frame distance name value).1 = (env.getAt? frame distance name).isSome
  assignAt_sets : ∀ frame distance name value ancestor,
    env.ancestor? frame distance = some ancestor →
      (env.assignAt frame distance name value).1 = true →
        env.Sets ancestor name value (env.assignAt frame distance name value).2
  assignAt_fails : ∀ frame distance name value,
    (env.assignAt frame distance name value).1 = false →
      (env.assignAt frame distance name value).2 = env
  define_sets : ∀ frame name value, frame < env.size →
    env.Sets frame name value (env.define frame name value)

/-! ## Going by a distance -/

theorem getAt?_succ {outer : FrameId} (lies : env.enclosing? frame = some outer) (distance : Nat)
    (name : String) : env.getAt? frame (distance + 1) name = env.getAt? outer distance name := by
  simp only [getAt?, ancestor?, lies]

theorem getAt?_outermost (outermost : env.enclosing? frame = none) (distance : Nat) (name : String) :
    env.getAt? frame (distance + 1) name = none := by
  simp only [getAt?, ancestor?, outermost, Option.bind_none]

theorem Nearest.getAt? (nearest : env.Nearest frame name distance holder) :
    env.getAt? frame distance name = env.slot? holder name := by
  simp only [Environment.getAt?, nearest.reached, Option.bind_some]

/-- From the enclosing frame the nearest frame is one closer. -/
theorem Nearest.tail (nearest : env.Nearest frame name (distance + 1) holder) :
    ∃ outer, env.enclosing? frame = some outer ∧ env.Nearest outer name distance holder := by
  have reached := nearest.reached
  simp only [ancestor?] at reached
  cases lies : env.enclosing? frame with
  | none =>
    rw [lies] at reached
    cases reached
  | some outer =>
    rw [lies] at reached
    refine ⟨outer, rfl, reached, nearest.bound, fun nearer closer => ?_⟩
    rw [← getAt?_succ lies]
    exact nearest.first (nearer + 1) (Nat.succ_lt_succ closer)

/-- Frames lie in earlier frames only. -/
def Ordered (env : Environment α) : Prop :=
  ∀ frame outer, env.enclosing? frame = some outer → outer < frame

theorem Ordered.ancestor?_le (ordered : env.Ordered)
    (reached : env.ancestor? frame distance = some holder) : holder ≤ frame := by
  induction distance generalizing frame with
  | zero =>
    cases reached
    exact Nat.le_refl _
  | succ distance ih =>
    simp only [ancestor?] at reached
    split at reached
    · cases reached
    · next outer lies => exact Nat.le_trans (ih reached) (Nat.le_of_lt (ordered frame outer lies))

theorem Ordered.acyclic (ordered : env.Ordered) (frame : FrameId) (distance : Nat) :
    env.ancestor? frame (distance + 1) ≠ some frame := by
  intro reached
  simp only [ancestor?] at reached
  split at reached
  · cases reached
  · next outer lies =>
    have below := ordered frame outer lies
    exact Nat.not_lt_of_le (ordered.ancestor?_le reached) below

/-! ## Searching -/

/-- In an ordered environment the search goes on in the enclosing frame, whatever its number. -/
theorem Ordered.holder?_eq (ordered : env.Ordered) (name : String) (frame : FrameId) :
    env.holder? name frame =
      if (env.slot? frame name).isSome then some frame
      else (env.enclosing? frame).bind (env.holder? name) := by
  rw [holder?]
  split
  · rfl
  · cases lies : env.enclosing? frame with
    | none => rfl
    | some outer => exact if_pos (ordered frame outer lies)

theorem Ordered.holder?_of_nearest (ordered : env.Ordered)
    (nearest : env.Nearest frame name distance holder) : env.holder? name frame = some holder := by
  induction distance generalizing frame with
  | zero =>
    have here : frame = holder := Option.some.inj nearest.reached
    rw [ordered.holder?_eq, here, if_pos nearest.bound]
  | succ distance ih =>
    obtain ⟨outer, lies, further⟩ := nearest.tail
    have absent : env.slot? frame name = none := nearest.first 0 (Nat.succ_pos _)
    rw [ordered.holder?_eq, if_neg (by simp [absent]), lies]
    exact ih further

theorem Ordered.exists_nearest (ordered : env.Ordered) (found : env.holder? name frame = some holder) :
    ∃ distance, env.Nearest frame name distance holder := by
  induction frame using Nat.strongRecOn with
  -- The search goes on in an earlier frame.
  | ind frame ih =>
    rw [ordered.holder?_eq] at found
    split at found
    · next bound =>
      cases found
      exact ⟨0, rfl, bound, fun _ closer => absurd closer (Nat.not_lt_zero _)⟩
    · next unbound =>
      obtain ⟨outer, lies, further⟩ := Option.bind_eq_some_iff.mp found
      obtain ⟨distance, nearest⟩ := ih outer (ordered frame outer lies) further
      refine ⟨distance + 1, ?_, nearest.bound, fun nearer closer => ?_⟩
      · simp only [ancestor?, lies, nearest.reached]
      · cases nearer with
        | zero => exact Option.not_isSome_iff_eq_none.mp unbound
        | succ nearer =>
          rw [getAt?_succ lies]
          exact nearest.first nearer (Nat.lt_of_succ_lt_succ closer)

/-- Where a search fails, no frame of the chain binds the name. -/
theorem Ordered.getAt?_of_holder?_none (ordered : env.Ordered) (missing : env.holder? name frame = none)
    (distance : Nat) : env.getAt? frame distance name = none := by
  induction distance generalizing frame with
  | zero =>
    rw [ordered.holder?_eq] at missing
    split at missing
    · cases missing
    · next unbound => exact Option.not_isSome_iff_eq_none.mp unbound
  | succ distance ih =>
    rw [ordered.holder?_eq] at missing
    split at missing
    · cases missing
    · cases lies : env.enclosing? frame with
      | none => exact getAt?_outermost lies distance name
      | some outer =>
        rw [lies] at missing
        rw [getAt?_succ lies]
        exact ih missing

theorem get?_of_holder? (found : env.holder? name frame = some holder) :
    env.get? frame name = env.slot? holder name := by
  rw [get?, found, Option.bind_some]

theorem Ordered.get?_eq_none_iff (ordered : env.Ordered) (frame : FrameId) (name : String) :
    env.get? frame name = none ↔ ∀ distance, env.getAt? frame distance name = none := by
  cases found : env.holder? name frame with
  | none =>
    have fails : env.get? frame name = none := by rw [get?, found, Option.bind_none]
    exact iff_of_true fails (ordered.getAt?_of_holder?_none found)
  | some holder =>
    obtain ⟨distance, nearest⟩ := ordered.exists_nearest found
    have bound := nearest.bound
    refine iff_of_false (fun fails => ?_) fun absent => ?_
    · rw [← get?_of_holder? found, fails] at bound
      cases bound
    · rw [← nearest.getAt?, absent distance] at bound
      cases bound

/-! ## What the operations change -/

theorem sets_define (made : frame < env.size) (name : String) (value : α) :
    env.Sets frame name value (env.define frame name value) :=
  { size := size_define env frame name value
    enclosing := enclosing?_define env frame name value
    slots := slot?_define env frame name value made }

/-- Assigning is defining in the frame that the search comes to. -/
theorem assign_of_holder? (found : env.holder? name frame = some holder) (value : α) :
    env.assign frame name value = (true, env.define holder name value) := by
  rw [assign, found]

theorem assign_of_missing (missing : env.holder? name frame = none) (value : α) :
    env.assign frame name value = (false, env) := by
  rw [assign, missing]

theorem assign_cases (env : Environment α) (frame : FrameId) (name : String) (value : α) :
    (∃ holder, env.holder? name frame = some holder ∧
        env.assign frame name value = (true, env.define holder name value)) ∨
      env.holder? name frame = none ∧ env.assign frame name value = (false, env) := by
  cases found : env.holder? name frame with
  | none => exact .inr ⟨rfl, assign_of_missing found value⟩
  | some holder => exact .inl ⟨holder, rfl, assign_of_holder? found value⟩

theorem assignAt_cases (env : Environment α) (frame : FrameId) (distance : Nat) (name : String)
    (value : α) :
    (∃ ancestor, env.ancestor? frame distance = some ancestor ∧ (env.slot? ancestor name).isSome ∧
        env.assignAt frame distance name value = (true, env.define ancestor name value)) ∨
      env.getAt? frame distance name = none ∧
        env.assignAt frame distance name value = (false, env) := by
  unfold assignAt getAt?
  cases env.ancestor? frame distance with
  | none => exact .inr ⟨rfl, rfl⟩
  | some ancestor =>
    by_cases bound : (env.slot? ancestor name).isSome
    · exact .inl ⟨ancestor, rfl, bound, if_pos bound⟩
    · exact .inr ⟨Option.not_isSome_iff_eq_none.mp bound, if_neg bound⟩

/-! ## Built environments are lawful -/

theorem Ordered.define (ordered : env.Ordered) (frame : FrameId) (name : String) (value : α) :
    (env.define frame name value).Ordered := by
  intro other outer lies
  rw [enclosing?_define] at lies
  exact ordered other outer lies

theorem Built.ordered (built : env.Built) : env.Ordered := by
  induction built with
  | root =>
    intro frame outer lies
    cases frame <;> cases lies
  | @child env frame _ made ih =>
    intro other outer lies
    rw [enclosing?_child] at lies
    split at lies
    · next new =>
      cases lies
      exact new ▸ made
    · exact ih other outer lies
  | define name value _ _ ih => exact ih.define _ name value
  | @assign env frame name value _ _ ih =>
    obtain ⟨holder, _, same⟩ | ⟨_, same⟩ := assign_cases env frame name value
    · rw [same]
      exact ih.define holder name value
    · rw [same]
      exact ih
  | @assignAt env frame distance name value _ _ ih =>
    obtain ⟨ancestor, _, _, same⟩ | ⟨_, same⟩ := assignAt_cases env frame distance name value
    · rw [same]
      exact ih.define ancestor name value
    · rw [same]
      exact ih

theorem ancestor?_congr (same : ∀ other, later.enclosing? other = env.enclosing? other)
    (frame : FrameId) (distance : Nat) :
    later.ancestor? frame distance = env.ancestor? frame distance := by
  induction distance generalizing frame with
  | zero => rfl
  | succ distance ih =>
    simp only [ancestor?, same]
    split
    · rfl
    · exact ih _

/-- The frame that binds the name nearest is still that one when it has given the name a value. -/
theorem Nearest.sets {value : α} (nearest : env.Nearest frame name distance holder)
    (sets : env.Sets holder name value later) : later.Nearest frame name distance holder := by
  refine ⟨?_, ?_, fun nearer closer => ?_⟩
  · rw [ancestor?_congr sets.enclosing, nearest.reached]
  · rw [sets.slots, if_pos ⟨rfl, rfl⟩]
    rfl
  · have absent := nearest.first nearer closer
    simp only [Environment.getAt?, ancestor?_congr sets.enclosing] at absent ⊢
    cases reached : env.ancestor? frame nearer with
    | none => rfl
    | some ancestor =>
      rw [reached] at absent
      have unbound : env.slot? ancestor name = none := absent
      -- The frame that was set bound the name before, so it is none of the nearer ones.
      have differs : ¬(holder = ancestor ∧ name = name) := fun same => by
        have bound := nearest.bound
        rw [same.1, unbound] at bound
        cases bound
      rw [Option.bind_some, sets.slots, if_neg differs, unbound]

theorem Ordered.assign_nearest (ordered : env.Ordered) (value : α)
    (nearest : env.Nearest frame name distance holder) :
    env.Sets holder name value (env.assign frame name value).2 ∧
      (env.assign frame name value).2.get? frame name = some value := by
  rw [assign_of_holder? (ordered.holder?_of_nearest nearest)]
  have sets := sets_define (lt_size_of_slot? nearest.bound) name value
  refine ⟨sets, ?_⟩
  have found := (ordered.define holder name value).holder?_of_nearest (nearest.sets sets)
  rw [get?_of_holder? found, sets.slots, if_pos ⟨rfl, rfl⟩]

theorem Ordered.assign_succeeds (ordered : env.Ordered) (frame : FrameId) (name : String) (value : α) :
    (env.assign frame name value).1 = (env.get? frame name).isSome := by
  obtain ⟨holder, found, same⟩ | ⟨missing, same⟩ := assign_cases env frame name value
  · obtain ⟨distance, nearest⟩ := ordered.exists_nearest found
    rw [same, get?_of_holder? found, nearest.bound]
  · rw [same, get?, missing]
    rfl

theorem assignAt_succeeds (env : Environment α) (frame : FrameId) (distance : Nat) (name : String)
    (value : α) :
    (env.assignAt frame distance name value).1 = (env.getAt? frame distance name).isSome := by
  obtain ⟨ancestor, reached, bound, same⟩ | ⟨absent, same⟩ :=
    assignAt_cases env frame distance name value
  · rw [same, getAt?, reached, Option.bind_some, bound]
  · rw [same, absent]
    rfl

theorem assignAt_sets {ancestor : FrameId} {value : α}
    (reached : env.ancestor? frame distance = some ancestor)
    (succeeds : (env.assignAt frame distance name value).1 = true) :
    env.Sets ancestor name value (env.assignAt frame distance name value).2 := by
  obtain ⟨other, reachedOther, bound, same⟩ | ⟨_, same⟩ :=
    assignAt_cases env frame distance name value
  · cases reached.symm.trans reachedOther
    rw [same]
    exact sets_define (lt_size_of_slot? bound) name value
  · rw [same] at succeeds
    cases succeeds

/-- In every environment that can be built from a root, by whatever operations, the laws hold of all its
frames. -/
theorem Built.lawful (built : env.Built) : env.Lawful :=
  { acyclic := built.ordered.acyclic
    get_nearest := fun _ _ _ _ nearest => by
      rw [get?_of_holder? (built.ordered.holder?_of_nearest nearest), nearest.getAt?]
    get_fails := built.ordered.get?_eq_none_iff
    assign_succeeds := built.ordered.assign_succeeds
    assign_sets := fun _ _ value _ _ nearest => built.ordered.assign_nearest value nearest
    assign_fails := fun frame name value fails => by
      obtain ⟨_, _, same⟩ | ⟨_, same⟩ := assign_cases env frame name value
      · rw [same] at fails
        cases fails
      · rw [same]
    assignAt_succeeds := assignAt_succeeds env
    assignAt_sets := fun _ _ _ _ _ => assignAt_sets
    assignAt_fails := fun frame distance name value fails => by
      obtain ⟨_, _, _, same⟩ | ⟨_, same⟩ := assignAt_cases env frame distance name value
      · rw [same] at fails
        cases fails
      · rw [same]
    define_sets := fun _ name value made => sets_define made name value }

/-- Two frames in one frame that binds the name: what is assigned through the one is read through the
other. -/
theorem Built.lawful_shared :
    let env : Environment Value := (((Environment.root.child 0).define 1 "a" Value.nil).child 1).child 1
    env.Built ∧ env.Lawful ∧ env.Nearest 3 "a" 1 1 ∧
      (env.assign 3 "a" (.boolean true)).2.get? 2 "a" = some (.boolean true) ∧
      (env.assign 3 "b" (.boolean true)).1 = false := by
  intro env
  have built : env.Built := by
    refine .child (.child (.define "a" Value.nil (.child Built.root ?_) ?_) ?_) ?_ <;> decide
  refine ⟨built, built.lawful, ⟨rfl, by decide +kernel, fun nearer closer => ?_⟩,
    by decide +kernel, by decide +kernel⟩
  cases Nat.lt_one_iff.mp closer
  rfl

end Lox.Environment
