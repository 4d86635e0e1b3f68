import Lox.Proofs.Classes.Deeds
import Lox.Proofs.Classes.Sparing

/-!
# Classes and instances are what deeds made them

The classes of a heap are what the declarations that were executed made of them, each of a superclass that
was there before it; and the instances are of the classes that they were made of, with the values that
were last set to their fields.
-/

namespace Lox

open Deed

/-! ## What deeds made -/

/-- The function is closed over what is written in the declaration of the method. -/
structure Closure.IsOf (closure : Closure) (method : Method Binding) : Prop where
  name : closure.name = some method.name.text
  lambda : closure.lambda = method.lambda
  isInitializer : closure.isInitializer = (method.name.text == initializerName)

/-- The table has, for each name, a function made of the method of that name that is written last, and
none where none is written. -/
def Heap.Tabulates (heap : Heap) (methods : List (Method Binding)) (table : Table FunctionId) : Prop :=
  ∀ name, match Method.last? methods name with
    | none => table.get? name = none
    | some method => ∃ id closure, table.get? name = some id ∧ heap.functions[id]? = some closure ∧
        closure.IsOf method

/-- The classes are those that were declared, in that order. -/
structure Heap.HasClasses (heap : Heap) (declared : List Declaration) : Prop where
  count : heap.classes.size = declared.length
  made : ∀ (id : ClassId) (declaration : Declaration), declared[id]? = some declaration →
    ∃ table, heap.classes[id]? = some ⟨declaration.name, declaration.superclass, table⟩ ∧
      heap.Tabulates declaration.methods table
  older : ∀ (id : ClassId) (declaration : Declaration), declared[id]? = some declaration →
    ∀ parent ∈ declaration.superclass, parent < id

/-- The instances are those that were made, in that order, with the values that were last set. -/
structure Heap.HasInstances (heap : Heap) (past : List Deed) : Prop where
  count : heap.instances.size = (makings past).length
  made : ∀ (id : InstanceId) (classId : ClassId), (makings past)[id]? = some classId →
    classId < heap.classes.size ∧ ∃ fields, heap.instances[id]? = some ⟨classId, fields⟩ ∧
      ∀ name, fields.get? name = lastSet? past id name
  unset : ∀ (id : InstanceId) (name : String), heap.instances.size ≤ id → lastSet? past id name = none

structure Heap.IsMadeBy (heap : Heap) (past : List Deed) : Prop where
  classes : heap.HasClasses (declarations past)
  instances : heap.HasInstances past

/-! ## The deeds so far and one more -/

namespace Deed

variable {past : List Deed} {id : InstanceId} {field : String}

theorem lastSet?_append_sets (other : InstanceId) (name : String) (value : Value) :
    lastSet? (past ++ [.sets other name value]) id field =
      if other = id ∧ name = field then some value else lastSet? past id field := by
  rw [lastSet?, List.filterMap_append]
  by_cases same : other = id ∧ name = field <;> simp [lastSet?, value?, same]

theorem lastSet?_append_of_value?_eq_none {deed : Deed} (other : deed.value? id field = none) :
    lastSet? (past ++ [deed]) id field = lastSet? past id field := by
  simp [lastSet?, other]

end Deed

theorem Method.last?_append (methods : List (Method Binding)) (method : Method Binding) (name : String) :
    last? (methods ++ [method]) name =
      if method.name.text = name then some method else last? methods name := by
  rw [last?, List.filter_append]
  by_cases same : method.name.text = name <;> simp [last?, same]

/-- What is at a place of a list with one entry more. -/
theorem of_getElem?_concat {α : Type} {entries : List α} {entry other : α} {index : Nat}
    (found : (entries ++ [entry])[index]? = some other) :
    entries[index]? = some other ∨ index = entries.length ∧ other = entry := by
  rw [List.getElem?_append] at found
  split at found
  · exact .inl found
  · next beyond =>
    obtain ⟨inside, same⟩ := List.getElem?_eq_some_iff.mp found
    have last : index - entries.length = 0 := Nat.lt_one_iff.mp inside
    exact .inr ⟨by omega, by simpa [last] using same.symm⟩

/-! ## Heaps that changed -/

namespace Heap

variable {heap after : Heap} {past : List Deed} {methods : List (Method Binding)}
  {table : Table FunctionId}

theorem Tabulates.mono (tabulates : heap.Tabulates methods table) (grown : heap.Extends after) :
    after.Tabulates methods table := by
  intro name
  have before := tabulates name
  split at before
  · exact before
  · obtain ⟨id, closure, named, found, isOf⟩ := before
    exact ⟨id, closure, named, grown.functions _ _ found, isOf⟩

theorem Tabulates.empty (heap : Heap) : heap.Tabulates [] .empty := fun _ => rfl

/-- One method more, made into a function. -/
theorem Tabulates.set {method : Method Binding} {id : FunctionId} {closure : Closure}
    (tabulates : heap.Tabulates methods table) (found : heap.functions[id]? = some closure)
    (isOf : closure.IsOf method) :
    heap.Tabulates (methods ++ [method]) (table.set method.name.text id) := by
  intro name
  rw [Table.get?_set, Method.last?_append]
  by_cases same : method.name.text = name
  · simpa only [if_pos same] using ⟨id, closure, rfl, found, isOf⟩
  · simpa only [if_neg same] using tabulates name

theorem Tabulates.there (tabulates : heap.Tabulates methods table) {name : String} {id : FunctionId}
    (named : table.get? name = some id) : ¬(Node.function id).IsNew heap := by
  have made := tabulates name
  split at made
  · cases named.symm.trans made
  · obtain ⟨same, closure, isNamed, found, _⟩ := made
    cases named.symm.trans isNamed
    exact Nat.not_le_of_lt (Array.getElem?_eq_some_iff.mp found).1

/-! ### Classes -/

theorem HasClasses.mono {declared : List Declaration} (has : heap.HasClasses declared)
    (same : after.classes = heap.classes) (grown : heap.Extends after) : after.HasClasses declared where
  count := same ▸ has.count
  made id declaration known := by
    obtain ⟨table, found, tabulates⟩ := has.made id declaration known
    exact ⟨table, same ▸ found, tabulates.mono grown⟩
  older := has.older

theorem HasClasses.addClass {declared : List Declaration} {declaration : Declaration}
    (has : heap.HasClasses declared)
    (there : ∀ parent ∈ declaration.superclass, ¬(Node.classObject parent).IsNew heap)
    (tabulates : heap.Tabulates declaration.methods table) :
    (heap.addClass ⟨declaration.name, declaration.superclass, table⟩).2.HasClasses
      (declared ++ [declaration]) := by
  have grown := (Retains.addClass heap ⟨declaration.name, declaration.superclass, table⟩).grown
  refine ⟨?_, fun id other found => ?_, fun id other found parent extended => ?_⟩
  · simp [Heap.addClass, has.count]
  · obtain before | ⟨rfl, rfl⟩ := of_getElem?_concat found
    · obtain ⟨own, there, made⟩ := has.made id other before
      exact ⟨own, (Retains.addClass heap _).classes _ _ there, made.mono grown⟩
    · exact ⟨table, by simp [Heap.addClass, ← has.count], tabulates.mono grown⟩
  · obtain before | ⟨rfl, rfl⟩ := of_getElem?_concat found
    · exact has.older id other before parent extended
    · exact has.count ▸ Nat.lt_of_not_le (there parent extended)

/-! ### Instances -/

theorem HasInstances.mono (has : heap.HasInstances past) (fewer : heap.classes.size ≤ after.classes.size)
    (same : after.instances = heap.instances) : after.HasInstances past where
  count := same ▸ has.count
  made id classId known := by
    obtain ⟨ofClass, found⟩ := has.made id classId known
    exact ⟨Nat.lt_of_lt_of_le ofClass fewer, same ▸ found⟩
  unset id name new := has.unset id name (same ▸ new)

/-- A deed that neither makes an instance nor sets a field. -/
theorem HasInstances.append {deed : Deed} (has : heap.HasInstances past) (makes : deed.madeOf? = none)
    (sets : ∀ id name, deed.value? id name = none) : heap.HasInstances (past ++ [deed]) := by
  have same : makings (past ++ [deed]) = makings past := by simp [makings, makes]
  have kept : ∀ id name, lastSet? (past ++ [deed]) id name = lastSet? past id name :=
    fun id name => lastSet?_append_of_value?_eq_none (sets id name)
  refine ⟨same ▸ has.count, fun id classId known => ?_, fun id name new => ?_⟩
  · rw [same] at known
    obtain ⟨ofClass, fields, found, held⟩ := has.made id classId known
    exact ⟨ofClass, fields, found, fun name => (held name).trans (kept id name).symm⟩
  · exact (kept id name).trans (has.unset id name new)

theorem HasInstances.addInstance {classId : ClassId} (has : heap.HasInstances past)
    (there : ¬(Node.classObject classId).IsNew heap) :
    (heap.addInstance classId).2.HasInstances (past ++ [.makes classId]) := by
  have made : makings (past ++ [.makes classId]) = makings past ++ [classId] := by
    simp [makings, madeOf?]
  have kept : ∀ id name, lastSet? (past ++ [.makes classId]) id name = lastSet? past id name :=
    fun id name => lastSet?_append_of_value?_eq_none rfl
  refine ⟨by simp [Heap.addInstance, made, has.count], fun id other known => ?_, fun id name new => ?_⟩
  · obtain before | ⟨rfl, rfl⟩ := of_getElem?_concat (made ▸ known)
    · obtain ⟨ofClass, fields, found, held⟩ := has.made id other before
      refine ⟨ofClass, fields, ?_, fun name => (held name).trans (kept id name).symm⟩
      have inside := (Array.getElem?_eq_some_iff.mp found).1
      change (heap.instances.push _)[id]? = _
      rw [Array.getElem?_push, if_neg (Nat.ne_of_lt inside), found]
    · -- No field of the new instance was ever set.
      refine ⟨Nat.lt_of_not_le there, .empty, by simp [Heap.addInstance, ← has.count], fun name => ?_⟩
      rw [kept, has.unset _ name (Nat.le_of_eq has.count)]
      rfl
  · have older : heap.instances.size ≤ id := by
      simp only [Heap.addInstance, Array.size_push] at new
      omega
    rw [kept, has.unset id name older]

theorem HasInstances.setField {id : InstanceId} {name : String} {value : Value}
    (has : heap.HasInstances past) (there : ¬(Node.object id).IsNew heap) :
    (heap.setField id name value).HasInstances (past ++ [.sets id name value]) := by
  have made : makings (past ++ [.sets id name value]) = makings past := by simp [makings, madeOf?]
  refine ⟨by simp [Heap.setField, made, has.count], fun other classId known => ?_,
    fun other field new => ?_⟩
  · rw [made] at known
    obtain ⟨ofClass, fields, found, held⟩ := has.made other classId known
    refine ⟨ofClass, if id = other then fields.set name value else fields, ?_, fun field => ?_⟩
    · change (heap.instances.modify id _)[other]? = _
      rw [Array.getElem?_modify, found]
      split <;> rfl
    · rw [lastSet?_append_sets, ← held field]
      by_cases same : id = other
      · simp [same, Table.get?_set]
      · simp [same]
  · have inside : id < heap.instances.size := Nat.lt_of_not_le there
    have beyond : heap.instances.size ≤ other := by simpa [Heap.setField] using new
    have differs : ¬(id = other ∧ name = field) := fun same => Nat.not_le_of_lt inside (same.1 ▸ beyond)
    rw [lastSet?_append_sets, if_neg differs, has.unset other field beyond]

namespace IsMadeBy

theorem nothing (heap : Heap) (classes : heap.classes = #[]) (instances : heap.instances = #[]) :
    heap.IsMadeBy [] where
  classes := ⟨by simp [classes, declarations], nofun, nofun⟩
  instances := ⟨by simp [instances, makings], nofun, fun _ _ _ => rfl⟩

theorem spares (made : heap.IsMadeBy past) (spares : heap.Spares after) : after.IsMadeBy past where
  classes := made.classes.mono spares.classes spares.retains.grown
  instances := made.instances.mono (Nat.le_of_eq (congrArg Array.size spares.classes).symm) spares.instances

theorem addClass {declaration : Declaration} (made : heap.IsMadeBy past)
    (there : ∀ parent ∈ declaration.superclass, ¬(Node.classObject parent).IsNew heap)
    (tabulates : heap.Tabulates declaration.methods table) :
    (heap.addClass ⟨declaration.name, declaration.superclass, table⟩).2.IsMadeBy
      (past ++ [.declares declaration]) where
  classes := by
    have declared : declarations (past ++ [.declares declaration]) = declarations past ++ [declaration] := by
      simp [declarations, declaration?]
    exact declared ▸ made.classes.addClass there tabulates
  instances := (made.instances.append rfl fun _ _ => rfl).mono
    (by simp [Heap.addClass]) rfl

theorem addInstance {classId : ClassId} (made : heap.IsMadeBy past)
    (there : ¬(Node.classObject classId).IsNew heap) :
    (heap.addInstance classId).2.IsMadeBy (past ++ [.makes classId]) where
  classes := by
    have declared : declarations (past ++ [.makes classId]) = declarations past := by
      simp [declarations, declaration?]
    exact declared ▸ made.classes.mono rfl (Retains.addInstance heap classId).grown
  instances := made.instances.addInstance there

theorem setField {id : InstanceId} {name : String} {value : Value} (made : heap.IsMadeBy past)
    (there : ¬(Node.object id).IsNew heap) :
    (heap.setField id name value).IsMadeBy (past ++ [.sets id name value]) where
  classes := by
    have declared : declarations (past ++ [.sets id name value]) = declarations past := by
      simp [declarations, declaration?]
    exact declared ▸ made.classes.mono rfl (Retains.setField heap id name value).grown
  instances := made.instances.setField there

end IsMadeBy

end Heap

end Lox
