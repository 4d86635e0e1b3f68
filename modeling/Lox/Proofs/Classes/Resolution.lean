import Lox.Proofs.Classes.Evaluation
import Lox.Proofs.Homes.Housing
import Lox.Proofs.Jobs.Arguments

/-!
# How methods and fields are found

In every state that a session comes to, the chain of superclasses from a class upwards ends and has no
class on it twice, whatever names the classes go by: a class is younger than its superclass. So the search
for a method goes up the chain to the first class that declares one of the name, and takes the one that is
written last there. A property of an instance is the value that was last set on this very instance, and a
method of its class only where none ever was.
-/

namespace Lox

open Deed

/-! ## Statements -/

/-- The class, its superclass and so on, up to a class that extends none. -/
inductive Heap.Lineage (heap : Heap) : ClassId → List ClassId → Prop where
  | root {id : ClassId} {classObject : ClassObject} :
      heap.classes[id]? = some classObject → classObject.superclass = none → Lineage heap id [id]
  | inherits {id parent : ClassId} {classObject : ClassObject} {chain : List ClassId} :
      heap.classes[id]? = some classObject → classObject.superclass = some parent →
        Lineage heap parent chain → Lineage heap id (id :: chain)

/-- Whether a method of the name is written in the declaration of the class. -/
def Deed.writes (past : List Deed) (name : String) (id : ClassId) : Bool :=
  ((declarations past)[id]?).any fun declaration =>
    declaration.methods.any fun method => method.name.text == name

/-- The function is the class's own method of the name: it is made of the one that is written last in the
declaration of the class. -/
def Heap.HasMethod (heap : Heap) (past : List Deed) (id : ClassId) (name : String)
    (function : FunctionId) : Prop :=
  ∃ declaration method classObject closure, (declarations past)[id]? = some declaration ∧
    Method.last? declaration.methods name = some method ∧ heap.classes[id]? = some classObject ∧
      classObject.methods.get? name = some function ∧ heap.functions[function]? = some closure ∧
        closure.IsOf method

/-- How a property is read: a field that was ever set has the value that was last set; else it is the
method of the class, bound to the instance; else there is none. -/
def Machine.ReadsProperty (machine : Machine) (past : List Deed) (id : InstanceId) (classId : ClassId)
    (name : Name) : Prop :=
  match lastSet? past id name.text with
  | some value => Step.getProperty id name machine = .finished value machine
  | none =>
    match machine.heap.findMethod? name.text classId with
    | some method => ∃ bound after, Step.getProperty id name machine = .finished (.function bound) after ∧
        after.heap.Binds method bound id
    | none =>
      Step.getProperty id name machine = .failed ⟨.undefinedProperty name.text, name.token⟩ machine

/-- The machine with a value set to a field of an instance. -/
def Machine.setField (machine : Machine) (id : InstanceId) (field : String) (value : Value) : Machine :=
  { machine with heap := machine.heap.setField id field value }

/-- What is found under names in the classes and the instances, given what was done to them so far. -/
structure Machine.Resolves (machine : Machine) (past : List Deed) : Prop where
  /-- The classes are those that were declared, in that order, with the superclasses that the names came to. -/
  classes : machine.heap.classes.toList.map (fun c => (c.name, c.superclass)) =
    (declarations past).map fun declaration => (declaration.name, declaration.superclass)
  /-- The instances are those that were made, in that order. -/
  instances : machine.heap.instances.toList.map (·.classId) = makings past
  /-- The superclass of a class was there before it. -/
  older : ∀ (id : ClassId) (classObject : ClassObject), machine.heap.classes[id]? = some classObject →
    ∀ parent ∈ classObject.superclass, parent < id
  /-- From each class upwards there is one chain, and no class is on it twice. -/
  lineage : ∀ id, id < machine.heap.classes.size →
    ∃ chain, chain.Nodup ∧ ∀ other, machine.heap.Lineage id other ↔ other = chain
  /-- A method is the own method of the first class up the chain in whose declaration one of the name is
  written, and there is none if none is. -/
  methods : ∀ id chain name, machine.heap.Lineage id chain →
    match chain.find? (writes past name) with
    | some ancestor => ∃ method, machine.heap.HasMethod past ancestor name method ∧
        machine.heap.findMethod? name id = some method
    | none => machine.heap.findMethod? name id = none
  properties : ∀ (id : InstanceId) (i : Instance), machine.heap.instances[id]? = some i →
    ∀ name, machine.ReadsProperty past id i.classId name
  /-- A field that is set makes no difference to what is read from another instance or found from a class,
  nor to how any value is shown. -/
  others : ∀ (id : InstanceId) (field : Name) (value : Value),
    Step.setProperty (.object id) field value machine =
        .finished () (machine.setField id field.text value) ∧
      (∀ other name, other ≠ id →
        Step.getProperty other name (machine.setField id field.text value) =
          (Step.getProperty other name machine).mapMachine (·.setField id field.text value)) ∧
      (∀ name classId, (machine.setField id field.text value).heap.findMethod? name classId =
        machine.heap.findMethod? name classId) ∧
      (machine.setField id field.text value).heap.shown = machine.heap.shown

/-! ## Classes -/

namespace Heap

variable {heap : Heap} {past : List Deed} {name : String} {id parent : ClassId}
  {classObject : ClassObject}

theorem findMethod?_of_own {method : FunctionId} (known : heap.classes[id]? = some classObject)
    (own : classObject.methods.get? name = some method) : heap.findMethod? name id = some method := by
  rw [findMethod?, known]
  simp only [own]

theorem findMethod?_of_root (known : heap.classes[id]? = some classObject)
    (missing : classObject.methods.get? name = none) (root : classObject.superclass = none) :
    heap.findMethod? name id = none := by
  rw [findMethod?, known]
  simp only [missing, root]

theorem findMethod?_of_inherits (known : heap.classes[id]? = some classObject)
    (missing : classObject.methods.get? name = none) (inherits : classObject.superclass = some parent)
    (older : parent < id) : heap.findMethod? name id = heap.findMethod? name parent := by
  rw [findMethod?, known]
  simp only [missing, inherits, if_pos older]

end Heap

theorem Method.last?_eq_none_iff (methods : List (Method Binding)) (name : String) :
    last? methods name = none ↔ methods.any (fun method => method.name.text == name) = false := by
  simp [last?]

namespace Heap.HasClasses

variable {heap : Heap} {past : List Deed} {id : ClassId} {classObject : ClassObject}

/-- What a class was declared as. -/
theorem declaration {declared : List Declaration} (has : heap.HasClasses declared)
    (known : heap.classes[id]? = some classObject) :
    ∃ declaration, declared[id]? = some declaration ∧ declaration.superclass = classObject.superclass ∧
      heap.Tabulates declaration.methods classObject.methods := by
  have inside : id < declared.length := has.count ▸ (Array.getElem?_eq_some_iff.mp known).1
  have found := List.getElem?_eq_getElem inside
  obtain ⟨table, there, tabulates⟩ := has.made id _ found
  cases known.symm.trans there
  exact ⟨_, found, rfl, tabulates⟩

theorem map_eq {declared : List Declaration} (has : heap.HasClasses declared) :
    heap.classes.toList.map (fun c => (c.name, c.superclass)) =
      declared.map fun declaration => (declaration.name, declaration.superclass) := by
  refine List.ext_getElem? fun id => ?_
  simp only [List.getElem?_map, Array.getElem?_toList]
  cases found : declared[id]? with
  | some declaration =>
    obtain ⟨table, there, _⟩ := has.made id declaration found
    rw [there]
    rfl
  | none =>
    have beyond := List.getElem?_eq_none_iff.mp found
    rw [Array.getElem?_eq_none (has.count ▸ beyond)]
    rfl

theorem superclass_lt {declared : List Declaration} (has : heap.HasClasses declared)
    (known : heap.classes[id]? = some classObject) : ∀ parent ∈ classObject.superclass, parent < id := by
  obtain ⟨declaration, found, same, _⟩ := has.declaration known
  exact same ▸ has.older id declaration found

/-! ### Chains -/

theorem exists_lineage {declared : List Declaration} (has : heap.HasClasses declared)
    (inside : id < heap.classes.size) : ∃ chain, heap.Lineage id chain := by
  induction id using Nat.strongRecOn with
  -- The superclass is older, so there is a chain from it.
  | ind id ih =>
    have known := Array.getElem?_eq_getElem inside
    cases extended : (heap.classes[id]).superclass with
    | none => exact ⟨_, .root known extended⟩
    | some parent =>
      have older := has.superclass_lt known parent extended
      obtain ⟨chain, lineage⟩ := ih parent older (Nat.lt_trans older inside)
      exact ⟨_, .inherits known extended lineage⟩

theorem lineage_le {declared : List Declaration} (has : heap.HasClasses declared) {chain : List ClassId}
    (lineage : heap.Lineage id chain) : ∀ ancestor ∈ chain, ancestor ≤ id := by
  induction lineage with
  | root =>
    intro ancestor member
    exact Nat.le_of_eq (List.mem_singleton.mp member)
  | inherits known extended _ ih =>
    intro ancestor member
    cases member with
    | head => exact Nat.le_refl _
    | tail _ member =>
      exact Nat.le_trans (ih ancestor member) (Nat.le_of_lt (has.superclass_lt known _ extended))

theorem nodup_lineage {declared : List Declaration} (has : heap.HasClasses declared) {chain : List ClassId}
    (lineage : heap.Lineage id chain) : chain.Nodup := by
  induction lineage with
  | root => simp
  | inherits known extended further ih =>
    refine List.nodup_cons.mpr ⟨fun member => ?_, ih⟩
    exact Nat.not_le_of_lt (has.superclass_lt known _ extended) (has.lineage_le further _ member)

omit past in
theorem lineage_unique {chain other : List ClassId} (lineage : heap.Lineage id chain)
    (another : heap.Lineage id other) : other = chain := by
  induction lineage generalizing other with
  | root known top =>
    cases another with
    | root => rfl
    | inherits knownAgain extended _ =>
      cases known.symm.trans knownAgain
      cases top.symm.trans extended
  | inherits known extended _ ih =>
    cases another with
    | root knownAgain top =>
      cases known.symm.trans knownAgain
      cases top.symm.trans extended
    | inherits knownAgain extendedAgain further =>
      cases known.symm.trans knownAgain
      cases extended.symm.trans extendedAgain
      rw [ih further]

/-! ### Methods -/

/-- What a class has of its own is what its declaration writes. -/
theorem own (has : heap.HasClasses (declarations past)) (known : heap.classes[id]? = some classObject)
    (name : String) :
    match writes past name id with
    | true => ∃ method, heap.HasMethod past id name method ∧ classObject.methods.get? name = some method
    | false => classObject.methods.get? name = none := by
  obtain ⟨declaration, found, _, tabulates⟩ := has.declaration known
  have named := tabulates name
  have written : writes past name id =
      declaration.methods.any fun method => method.name.text == name := by
    simp [writes, found]
  cases last : Method.last? declaration.methods name with
  | none =>
    rw [last] at named
    rw [written, (Method.last?_eq_none_iff _ _).mp last]
    exact named
  | some method =>
    rw [last] at named
    obtain ⟨function, closure, table, made, isOf⟩ := named
    have some : declaration.methods.any (fun method => method.name.text == name) = true :=
      eq_true_of_ne_false fun none =>
        nomatch last.symm.trans ((Method.last?_eq_none_iff _ _).mpr none)
    rw [written, some]
    exact ⟨function, ⟨_, method, classObject, closure, found, last, known, table, made, isOf⟩, table⟩

theorem findMethod? (has : heap.HasClasses (declarations past)) {chain : List ClassId} (name : String)
    (lineage : heap.Lineage id chain) :
    match chain.find? (writes past name) with
    | some ancestor => ∃ method, heap.HasMethod past ancestor name method ∧
        heap.findMethod? name id = some method
    | none => heap.findMethod? name id = none := by
  induction lineage with
  | @root id _ known top =>
    have own := has.own known name
    cases written : writes past name id with
    | true =>
      rw [written] at own
      obtain ⟨method, isOwn, named⟩ := own
      simpa only [List.find?_cons_of_pos written] using ⟨method, isOwn, findMethod?_of_own known named⟩
    | false =>
      rw [written] at own
      have skipped : [id].find? (writes past name) = none := by simp [written]
      rw [skipped]
      exact findMethod?_of_root known own top
  | @inherits id parent _ chain known extended _ ih =>
    have own := has.own known name
    cases written : writes past name id with
    | true =>
      rw [written] at own
      obtain ⟨method, isOwn, named⟩ := own
      simpa only [List.find?_cons_of_pos written] using ⟨method, isOwn, findMethod?_of_own known named⟩
    | false =>
      rw [written] at own
      have skipped : (id :: chain).find? (writes past name) = chain.find? (writes past name) := by
        simp [written]
      rw [skipped, findMethod?_of_inherits known own extended (has.superclass_lt known _ extended)]
      exact ih

end Heap.HasClasses

/-! ## Instances -/

namespace Heap.HasInstances

variable {heap : Heap} {past : List Deed} {id : InstanceId} {i : Instance}

/-- The fields of an instance are those that were set, with the values that were last set. -/
theorem fields (has : heap.HasInstances past) (known : heap.instances[id]? = some i) (name : String) :
    heap.field? id name = lastSet? past id name := by
  have inside : id < (makings past).length := has.count ▸ (Array.getElem?_eq_some_iff.mp known).1
  obtain ⟨_, fields, there, held⟩ := has.made id _ (List.getElem?_eq_getElem inside)
  cases known.symm.trans there
  rw [Heap.field?, known]
  exact held name

theorem map_eq (has : heap.HasInstances past) : heap.instances.toList.map (·.classId) = makings past := by
  refine List.ext_getElem? fun id => ?_
  simp only [List.getElem?_map, Array.getElem?_toList]
  cases found : (makings past)[id]? with
  | some classId =>
    obtain ⟨_, fields, there, _⟩ := has.made id classId found
    rw [there]
    rfl
  | none =>
    have beyond := List.getElem?_eq_none_iff.mp found
    rw [Array.getElem?_eq_none (has.count ▸ beyond)]
    rfl

end Heap.HasInstances

namespace Machine

variable {machine : Machine} {past : List Deed} {id : InstanceId}

theorem Accounted.readsProperty {i : Instance} (accounted : machine.Accounted past)
    (known : machine.heap.instances[id]? = some i) (name : Name) :
    machine.ReadsProperty past id i.classId name := by
  have field := accounted.made.instances.fields known name.text
  unfold ReadsProperty Step.getProperty
  cases set : lastSet? past id name.text with
  | some value => simp only [field, set]
  | none =>
    simp only [field, set, known, Option.bind_some]
    cases found : machine.heap.findMethod? name.text i.classId with
    | none => rfl
    | some method =>
      have there := Nat.lt_of_not_le (accounted.steady.intact.findMethod? found)
      exact ⟨_, _, rfl, machine.heap.binds_bindMethod (Array.getElem?_eq_getElem there) id⟩

/-! ### Setting a field -/

theorem instances_setField {other : InstanceId} (differs : other ≠ id) (field : String) (value : Value) :
    (machine.setField id field value).heap.instances[other]? = machine.heap.instances[other]? := by
  simp [setField, Heap.setField, Array.getElem?_modify, differs.symm]

theorem findMethod?_setField (field name : String) (value : Value) (classId : ClassId) :
    (machine.setField id field value).heap.findMethod? name classId =
      machine.heap.findMethod? name classId := by
  have same : (machine.setField id field value).heap.classes = machine.heap.classes := rfl
  exact Heap.findMethod?_of_classes same name classId

theorem shown_setField (field : String) (value : Value) :
    (machine.setField id field value).heap.shown = machine.heap.shown := by
  funext shown
  cases shown with
  | object other =>
    -- Of an instance its class is shown, and that it keeps.
    have ofClass : (machine.setField id field value).heap.instances[other]?.map (·.classId) =
        machine.heap.instances[other]?.map (·.classId) := by
      simp only [setField, Heap.setField, Array.getElem?_modify]
      split
      · cases machine.heap.instances[other]? <;> rfl
      · rfl
    change ((machine.setField id field value).heap.instances[other]?.map
      (machine.heap.className ∘ (·.classId))).getD "" ++ " instance" = _
    rw [← Option.map_map, ofClass, Option.map_map]
    rfl
  | boolean truth => cases truth <;> rfl
  | _ => rfl

theorem bindMethod_setField (heap : Heap) (method : FunctionId) (receiver : InstanceId) (field : String)
    (value : Value) : (heap.setField id field value).bindMethod method receiver =
      ((heap.bindMethod method receiver).1, (heap.bindMethod method receiver).2.setField id field value) := by
  have same : (heap.setField id field value).functions = heap.functions := rfl
  unfold Heap.bindMethod
  rw [same]
  cases heap.functions[method]? <;> rfl

theorem getProperty_setField {other : InstanceId} (differs : other ≠ id) (field : String) (name : Name)
    (value : Value) : Step.getProperty other name (machine.setField id field value) =
      (Step.getProperty other name machine).mapMachine (·.setField id field value) := by
  have there := machine.instances_setField differs field value
  have read : (machine.setField id field value).heap.field? other name.text =
      machine.heap.field? other name.text := by
    rw [Heap.field?, there]
    rfl
  unfold Step.getProperty
  rw [read, there]
  simp only [findMethod?_setField]
  cases machine.heap.field? other name.text with
  | some held => rfl
  | none =>
    dsimp only
    cases (machine.heap.instances[other]?).bind fun i => machine.heap.findMethod? name.text i.classId with
    | none => rfl
    | some method =>
      simp only [setField, bindMethod_setField]
      rfl

end Machine

/-! ## Sessions -/

namespace Session.Past

/-- Whatever a session has come to, methods and fields are found as they were declared and set. -/
theorem resolves_methods {past : List Deed} {machine : Machine} (reached : Past past machine) :
    machine.Resolves past := by
  have accounted := reached.accounted
  obtain ⟨classes, instances⟩ := accounted.made
  exact {
    classes := classes.map_eq
    instances := instances.map_eq
    older := fun id classObject known => classes.superclass_lt known
    lineage := fun id inside => by
      obtain ⟨chain, lineage⟩ := classes.exists_lineage inside
      refine ⟨chain, classes.nodup_lineage lineage, fun other => ?_⟩
      exact ⟨Heap.HasClasses.lineage_unique lineage, fun same => same ▸ lineage⟩
    methods := fun id chain name lineage => classes.findMethod? name lineage
    properties := fun id i known name => accounted.readsProperty known name
    others := fun id field value => ⟨rfl,
      fun other name differs => Machine.getProperty_setField differs field.text name value,
      fun name classId => Machine.findMethod?_setField field.text name value classId,
      Machine.shown_setField field.text value⟩ }

/-- `class A { m() {} }  class B < A {}  class A < B { m() {} m() { return; } }` and then
`var x = A(); var y = A(); x.m = true; x.m = false;`. -/
theorem resolves_methods_redeclared :
    let a : Name := ⟨"A", 1⟩
    let m : Name := ⟨"m", 1⟩
    let method (body : List (Stmt Binding)) : Method Binding := ⟨m, ⟨[], body⟩⟩
    let made : Expr Binding := .call (.reference a .global) 1 []
    let set (value : Bool) : Stmt Binding :=
      .set (.reference ⟨"x", 1⟩ .global) m (.literal (.boolean value))
    let stmts : List (Stmt Binding) :=
      [.classDecl a none [method []], .classDecl ⟨"B", 1⟩ (some ⟨a, .global⟩) [],
        .classDecl a (some ⟨⟨"B", 1⟩, .global⟩) [method [], method [.returnValue 1 none]],
        .varDecl ⟨"x", 1⟩ (some made), .varDecl ⟨"y", 1⟩ (some made), set true, set false]
    ∃ past machine, Past past machine ∧
      (Step.runTopLevel 8 stmts (.initial .unlimited fun _ => .zero)).machine? = some machine ∧
      (Deed.declarations past).map (·.superclass) = [none, some 0, some 1] ∧
      Deed.makings past = [2, 2] ∧ Deed.lastSet? past 0 "m" = some (.boolean false) ∧
      Deed.lastSet? past 1 "m" = none ∧ machine.Resolves past := by
  intro a m method made set stmts
  let start : Machine := .initial .unlimited fun _ => .zero
  let past := (Job.runTopLevel 8 stmts).deeds start
  have ended : ((Step.runTopLevel 8 stmts start).machine?).isSome := by decide +kernel
  obtain ⟨machine, leaves⟩ := Option.isSome_iff_exists.mp ended
  have isRoot : (Job.runTopLevel 8 stmts).IsRoot := trivial
  have reached : Past past machine := List.nil_append past ▸ (Past.initial _ _).of_run isRoot leaves
  have told : ((Deed.declarations past).map (·.superclass), Deed.makings past,
      Deed.lastSet? past 0 "m", Deed.lastSet? past 1 "m") =
        ([none, some 0, some 1], [2, 2], some (.boolean false), none) := by
    decide +kernel
  obtain ⟨superclasses, rest⟩ := Prod.mk.inj told
  obtain ⟨makings, rest⟩ := Prod.mk.inj rest
  obtain ⟨first, second⟩ := Prod.mk.inj rest
  exact ⟨past, machine, reached, leaves, superclasses, makings, first, second, reached.resolves_methods⟩

end Session.Past

end Lox
