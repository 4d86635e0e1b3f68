import Lox.Proofs.Homes.Housing

/-!
# What is true of events

Code in a class comes to `this` and to `super` at home: `this` is the instance of the home, and `super`
finds methods from the superclass of the home upwards, whatever the class of the instance is, and binds
them to the instance. A call of a class gives a new instance of that class, and a call of an initializer
gives the instance that it is bound to. A chronicle is truthful if all its events are like this.
-/

namespace Lox

/-- What a method's name comes to after `super`: the first method of that name from the superclass
upwards, bound to the receiver. Where no class from there upwards has one, it is the error that names
the method and the superclass. -/
inductive SuperOutcome (moment : Machine) (parent : ClassId) (receiver : InstanceId)
    (method : Name) : Outcome Value → Prop where
  | found {found bound : FunctionId} {after : Machine} :
      moment.heap.Provides method.text parent found → after.heap.Binds found bound receiver →
        SuperOutcome moment parent receiver method (.finished (.function bound) after)
  | missing {classObject : ClassObject} :
      (∀ found, ¬moment.heap.Provides method.text parent found) →
        moment.heap.classes[parent]? = some classObject →
          SuperOutcome moment parent receiver method
            (.failed ⟨.undefinedSuperclassProperty method.text classObject.name, method.token⟩ moment)

namespace Event

/-- Code that comes to `this` is in a class, and comes to the instance of its home. Code that comes to
`super` is in a class with a superclass, from which the method is looked up for that same instance. -/
def KeepsSuper (event : Event) : Prop :=
  match event.occasion with
  | .this home => ∃ found, home = some found ∧
      event.outcome = .finished (.object found.receiver) event.moment
  | .super home method => ∃ parent receiver, home = some ⟨some parent, receiver⟩ ∧
      SuperOutcome event.moment parent receiver method event.outcome
  | _ => True

/-- A call of a class, unless it fails, gives an instance of the class that was not there before. A
method is only called once it is bound, and a call of an initializer, unless it fails, gives the
instance that it is bound to. -/
def Constructs (event : Event) : Prop :=
  match event.occasion with
  | .classCall classId => ∀ value after, event.outcome = .finished value after →
      ∃ id fields, value = .object id ∧ event.moment.heap.instances.size ≤ id ∧
        after.heap.instances[id]? = some ⟨classId, fields⟩
  | .functionCall belonging => ∀ name, belonging.method? = some name →
      ∃ home, belonging = .bound name home ∧
        (name = initializerName → ∀ value after, event.outcome = .finished value after →
          value = .object home.receiver)
  | _ => True

structure Truthful (event : Event) : Prop where
  keepsSuper : event.KeepsSuper
  constructs : event.Constructs

end Event

def Record.Truthful (record : Record) : Prop := ∀ event ∈ record.events, event.Truthful

end Lox
