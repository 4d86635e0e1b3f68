import Lox.Proofs.Homes.Operations

/-!
# Evaluation tells the truth

The chronicle of a tethered tree tells the truth wherever the tree is at home. The functions of the
evaluator call each other, so they are shown together, by recursion on the fuel. A call leaves the home
of the caller and goes on in that of the callee, which is where the callee was made.
-/

namespace Lox

/-- What a statement ends with. -/
def Flow.Known (heap : Heap) (belongings : List Belonging) : Flow → Prop
  | .returns _ value => value.Known heap belongings
  | _ => True

/-- A function that can be called is at home where it was closed. -/
theorem Belonging.Houses.callable {env : Environment Value} {closure : Closure}
    {belonging : Belonging} (houses : belonging.Houses env closure)
    (callable : belonging.IsCallable) : ∃ tether, closure.lambda.Tethered tether ∧
      Home.Reaches belonging.home? tether env closure.frame := by
  cases houses with
  | function _ tethered reaches => exact ⟨_, tethered, reaches⟩
  | method _ _ _ => cases callable
  | @bound name home _ tethered anchored =>
    refine ⟨_, tethered, fun length same => ?_⟩
    cases same
    exact ⟨home, rfl, anchored.leads⟩

namespace Chronicle

variable {home : Option Home} {tether : Option Tether} {machine : Machine} {record : Record}

/-! ## Calls -/

/-- What a call of a function gives. -/
def Given (belonging : Belonging) (value : Value) (heap : Heap) (belongings : List Belonging) : Prop :=
  value.Known heap belongings ∧
    ∀ home, belonging = .bound initializerName home → value = .object home.receiver

/-- What a call of a class gives, where the call found the heap as it was before. -/
def Made (classId : ClassId) (before : Heap) (value : Value) (heap : Heap) (_ : List Belonging) :
    Prop :=
  ∃ id fields, value = .object id ∧ (Node.object id).IsNew before ∧
    heap.instances[id]? = some ⟨classId, fields⟩

/-- A function that can be called is no bare method, so a call of it constructs as it should. -/
theorem tells_functionCall {inner : Chronicle Value} {belonging : Belonging}
    (told : (inner machine record).Tells machine record (Given belonging))
    (callable : belonging.IsCallable) :
    (noting (.functionCall belonging) inner machine record).Tells machine record
      fun value heap belongings => value.Known heap belongings := by
  refine tells_noting (tells_mono told fun _ _ _ holds => holds.1) ⟨trivial, fun name same => ?_⟩
  cases belonging with
  | function home => cases same
  | method name superclass => cases callable
  | bound name home =>
    cases same
    refine ⟨home, rfl, fun isInitializer value after ended => ?_⟩
    exact (tells_finished told ended).2 home (isInitializer ▸ rfl)

theorem tells_classCall {inner : Chronicle Value} {classId : ClassId}
    (told : (inner machine record).Tells machine record (Made classId machine.heap)) :
    (noting (.classCall classId) inner machine record).Tells machine record
      fun value heap belongings => value.Known heap belongings := by
  refine tells_noting (tells_mono told fun value _ _ holds => ?_)
    ⟨trivial, fun value after ended => tells_finished told ended⟩
  obtain ⟨_, _, rfl, _⟩ := holds
  trivial

/-- An initializer gives the instance that it is bound to, whatever its body ended with. -/
theorem tells_callResult {closure : Closure} {belonging : Belonging} {flow : Flow}
    (here : AtHome home tether machine record)
    (houses : belonging.Houses machine.heap.environment closure)
    (known : flow.Known machine.heap record.belongings) :
    (lift (Step.callResult closure flow) machine record).Tells machine record (Given belonging) := by
  unfold Step.callResult
  split
  · refine tells_readHeap here ⟨?_, ?_⟩
    · change ((machine.heap.environment.slot? closure.frame thisName).getD .nil).Known _ _
      cases held : machine.heap.environment.slot? closure.frame thisName with
      | none => trivial
      | some value => exact here.housed.slots _ _ _ held
    · rintro home rfl
      cases houses with
      | bound _ _ anchored =>
        -- Whatever ran since, the frame that the method is closed over binds the same `this`.
        change (machine.heap.environment.slot? closure.frame thisName).getD .nil = _
        rw [anchored.this]
        rfl
  · next ordinary =>
    -- The function is no initializer, whatever it belongs to.
    have other : ∀ home, belonging ≠ .bound initializerName home := by
      rintro home rfl
      cases houses with
      | bound named _ _ => exact ordinary (named.trans (beq_self_eq_true _))
    cases flow with
    | normal => exact ⟨here.stay, trivial, fun home same => absurd same (other home)⟩
    | returns line value => exact ⟨here.stay, known, fun home same => absurd same (other home)⟩
    | breaks line | continues line => exact tells_fail here _ _

/-! ## Declarations -/

theorem tells_declareFunction {name : Name} {lambda : Lambda Binding}
    (here : AtHome home tether machine record) (ordinary : name.written.IsOrdinary)
    (tethered : lambda.Tethered tether) :
    (declareFunction home name lambda machine record).Tells machine record fun _ _ _ => True := by
  have nil : (Value.nil).Known machine.heap record.belongings := trivial
  refine tells_bind here (tells_define here ordinary nil) fun _ _ _ _ there _ => ?_
  refine tells_bind there (tells_close there (.function rfl tethered there.reaches))
    fun id _ _ _ there listed => ?_
  refine tells_define there ordinary ?_
  exact ⟨_, listed, trivial⟩

/-- Methods are closed over the scope that binds the superclass, and know their class by it. -/
theorem tells_closeMethods {superclass : Option ClassId} {methods : List (Method Binding)}
    {table : Table FunctionId} (here : AtHome home tether machine record)
    (held : ∀ parent ∈ superclass, machine.frame ≠ Heap.globals ∧
      machine.heap.environment.slot? machine.frame superName = some (.classObject parent))
    (tethered : Method.TetheredEach (some (.ofClass superclass)) methods)
    (listed : ∀ name method, table.get? name = some method →
      record.belongings[method]? = some (.method name superclass)) :
    (closeMethods superclass table methods machine record).Tells machine record
      fun table _ belongings => ∀ name method, table.get? name = some method →
        belongings[method]? = some (.method name superclass) := by
  induction methods generalizing table machine record with
  | nil => exact ⟨here.stay, listed⟩
  | cons method rest ih =>
    obtain ⟨tethered, tetheredRest⟩ := tethered
    refine tells_bind here (tells_close here (.method rfl tethered.lambda held))
      fun id _ _ onward there new => ?_
    refine ih there (fun parent extended => ?_) tetheredRest fun name other found => ?_
    · obtain ⟨inner, bound⟩ := held parent extended
      rw [onward.keeps.frame]
      exact ⟨inner, onward.secures.slots _ _ _ inner (.inr rfl) bound⟩
    · rw [Table.get?_set] at found
      split at found
      · next same =>
        cases found
        exact same ▸ new
      · exact getElem?_grown onward.grown (listed name other found)

theorem tells_closeMethodsOf {superclass : Option ClassId} {methods : List (Method Binding)}
    (here : AtHome home tether machine record)
    (known : ∀ id ∈ superclass, (Value.classObject id).Known machine.heap record.belongings)
    (tethered : Method.TetheredEach (some (.ofClass superclass)) methods) :
    (closeMethodsOf superclass methods machine record).Tells machine record
      fun table _ belongings => ∀ name method, table.get? name = some method →
        belongings[method]? = some (.method name superclass) := by
  cases superclass with
  | none => exact tells_closeMethods here nofun tethered nofun
  | some id =>
    refine tells_inScope here fun entered => ?_
    -- The scope is new, so it may bind `super`.
    have absent := machine.heap.environment.slot?_child_size machine.frame superName
    have secures : machine.enter.heap.environment.Secures
        (machine.enter.heap.define machine.enter.frame superName (.classObject id)).environment :=
      .define_new absent _
    have defined : (lift (Step.define superName (.classObject id)) machine.enter record).Tells
        machine.enter record fun _ heap _ => machine.enter.frame ≠ Heap.globals ∧
          heap.environment.slot? machine.enter.frame superName = some (.classObject id) := by
      refine ⟨entered.change (entered.housed.define secures (known id rfl))
        (.ofEnvironment secures.extended) secures, Nat.ne_of_gt here.housed.root, ?_⟩
      exact Environment.slot?_define_self (machine.heap.environment.size_lt_size_child _)
    refine tells_bind entered defined fun _ _ _ onward there bound => ?_
    refine tells_closeMethods there (fun parent same => ?_) tethered nofun
    cases same
    rw [onward.keeps.frame]
    exact bound

theorem tells_declareClass {name : Name} {superclass : Option (Superclass Binding)}
    {methods : List (Method Binding)} (here : AtHome home tether machine record)
    (ordinary : name.written.IsOrdinary)
    (tethered : Method.TetheredEach (some (.ofClass superclass)) methods) :
    (declareClass name superclass methods machine record).Tells machine record
      fun _ _ _ => True := by
  refine tells_bind here (tells_superclassOf here superclass)
    fun parent _ _ _ there ⟨same, known⟩ => ?_
  -- What the superclass came to is there if and only if one is written.
  have short : Tether.ofClass superclass = Tether.ofClass parent := congrArg (Tether.mk 0) same.symm
  rw [short] at tethered
  refine tells_bind there (tells_define there ordinary trivial) fun _ _ _ onward there _ => ?_
  have known := fun id extended => onward.known (known id extended)
  refine tells_bind there (tells_closeMethodsOf there known tethered)
    fun table middle next onward there listed => ?_
  have housed : ClassObject.Housed ⟨name.text, parent, table⟩ middle.heap.classes.size
      next.belongings := ⟨fun id extended => onward.known (known id extended), listed⟩
  refine tells_bind there (tells_addClass there housed) fun id _ _ _ there made => ?_
  exact tells_define there ordinary made

/-! ## Expressions and statements -/

mutual

theorem evaluate_tells : ∀ fuel {home tether machine record} {expr : Expr Binding},
    expr.Tethered tether → AtHome home tether machine record →
      (evaluate fuel home expr machine record).Tells machine record
        fun value heap belongings => value.Known heap belongings
  | 0, _, _, _, _, _, _, here => tells_outOfFuel here
  | fuel + 1, home, tether, machine, record, expr, tethered, here => by
    cases expr with
    | literal value => exact ⟨here.stay, .of_node?_eq_none value.node?_value⟩
    | group inner =>
      have inner : inner.Tethered tether := tethered
      exact evaluate_tells fuel inner here
    | unary operator line operand =>
      have operand : operand.Tethered tether := tethered
      refine tells_bind here (evaluate_tells fuel operand here) fun value _ _ _ there _ => ?_
      exact tells_ofOperands there _ fun _ => UnaryOperator.node?_apply
    | binary operator line left right =>
      refine tells_bind here (evaluate_tells fuel tethered.1 here) fun a _ _ _ there _ => ?_
      refine tells_bind there (evaluate_tells fuel tethered.2 there) fun b _ _ _ there _ => ?_
      exact tells_ofOperands there _ fun _ => BinaryOperator.node?_apply
    | logical operator line left right =>
      refine tells_bind here (evaluate_tells fuel tethered.1 here) fun value _ _ _ there known => ?_
      split
      · exact ⟨there.stay, known⟩
      · exact evaluate_tells fuel tethered.2 there
    | comma operands =>
      have nil : (Value.nil).Known machine.heap record.belongings := trivial
      exact evaluateLast_tells fuel nil tethered here
    | conditional line condition thenBranch elseBranch =>
      obtain ⟨condition, thenTethered, elseTethered⟩ := tethered
      refine tells_bind here (evaluate_tells fuel condition here) fun value _ _ _ there _ => ?_
      split
      · exact evaluate_tells fuel thenTethered there
      · exact evaluate_tells fuel elseTethered there
      · exact tells_fail there _ _
    | reference name binding => exact tells_lookUp here _ _ _
    | assign name binding value =>
      refine tells_bind here (evaluate_tells fuel tethered.2 here) fun value _ _ _ there known => ?_
      refine tells_bind there (tells_assign there tethered.1 binding known)
        fun _ _ _ onward there _ => ?_
      exact ⟨there.stay, onward.known known⟩
    | property object name =>
      have object : object.Tethered tether := tethered
      refine tells_bind here (evaluate_tells fuel object here) fun value _ _ _ there _ => ?_
      split
      · exact tells_getProperty there _ name
      · exact tells_fail there _ _
    | call callee line arguments =>
      refine tells_bind here (evaluateEach_tells fuel tethered.1 here)
        fun values _ _ _ there known => ?_
      refine tells_bind there (evaluate_tells fuel tethered.2 there)
        fun value _ _ onward there callable => ?_
      exact call_tells fuel callable (fun argument member => onward.known (known argument member)) _
        there
    | function lambda =>
      refine tells_bind here (tells_close here (.function rfl tethered here.reaches))
        fun id _ _ _ there listed => ?_
      exact ⟨there.stay, _, listed, trivial⟩
    | thisInstance line binding =>
      obtain ⟨length, rfl, rfl⟩ := tethered
      obtain ⟨found, isHome, ended⟩ := lookUp_this here (Keyword.kwThis.token line)
      exact tells_noting (tells_lookUp here _ _ _) ⟨⟨found, isHome, ended⟩, trivial⟩
    | superMethod line binding method =>
      obtain ⟨length, rfl, subclass, rfl⟩ := tethered
      obtain ⟨tells, keeps⟩ := superProperty_tells here subclass line method
      exact tells_noting tells ⟨keeps, trivial⟩

theorem evaluateEach_tells : ∀ fuel {home tether machine record} {exprs : List (Expr Binding)},
    Expr.TetheredEach tether exprs → AtHome home tether machine record →
      (evaluateEach fuel home exprs machine record).Tells machine record
        fun values heap belongings => ∀ value ∈ values, value.Known heap belongings
  | 0, _, _, _, _, _, _, here => tells_outOfFuel here
  | _ + 1, _, _, _, _, [], _, here => ⟨here.stay, nofun⟩
  | fuel + 1, _, _, _, _, expr :: rest, tethered, here => by
    refine tells_bind here (evaluate_tells fuel tethered.1 here) fun value _ _ _ there known => ?_
    refine tells_bind there (evaluateEach_tells fuel tethered.2 there)
      fun values _ _ onward there others => ?_
    exact ⟨there.stay, List.forall_mem_cons.mpr ⟨onward.known known, others⟩⟩

theorem evaluateLast_tells : ∀ fuel {home tether machine record last}
    {exprs : List (Expr Binding)}, last.Known machine.heap record.belongings →
      Expr.TetheredEach tether exprs → AtHome home tether machine record →
        (evaluateLast fuel home last exprs machine record).Tells machine record
          fun value heap belongings => value.Known heap belongings
  | 0, _, _, _, _, _, _, _, _, here => tells_outOfFuel here
  | _ + 1, _, _, _, _, _, [], known, _, here => ⟨here.stay, known⟩
  | fuel + 1, _, _, _, _, _, _ :: _, _, tethered, here =>
    tells_bind here (evaluate_tells fuel tethered.1 here) fun _ _ _ _ there known =>
      evaluateLast_tells fuel known tethered.2 there

theorem evaluatePart_tells : ∀ fuel {home tether machine record} {part : Option (Expr Binding)},
    Expr.TetheredPart tether part → AtHome home tether machine record →
      (evaluatePart fuel home part machine record).Tells machine record
        fun value heap belongings => value.Known heap belongings
  | 0, _, _, _, _, _, _, here => tells_outOfFuel here
  | _ + 1, _, _, _, _, none, _, here => ⟨here.stay, trivial⟩
  | fuel + 1, _, _, _, _, some _, tethered, here => evaluate_tells fuel tethered here

theorem call_tells : ∀ fuel {home tether machine record callee arguments},
    callee.Known machine.heap record.belongings →
      (∀ argument ∈ arguments, Value.Known machine.heap record.belongings argument) → ∀ paren,
        AtHome home tether machine record →
          (call fuel callee arguments paren machine record).Tells machine record
            fun value heap belongings => value.Known heap belongings
  | 0, _, _, _, _, _, _, _, _, _, here => tells_outOfFuel here
  | fuel + 1, home, tether, machine, record, callee, arguments, callable, known, paren, here => by
    cases callee with
    | native id => exact tells_callNative here id paren known
    | function id =>
      obtain ⟨belonging, listed, callable⟩ := callable
      obtain ⟨closure, found, houses⟩ := here.housed.closure? listed
      have reads : (lift (Step.readHeap (·.functions[id]?)) machine record).Tells machine record
          fun found? _ _ => found? = some closure := tells_readHeap here found
      refine tells_bind here reads fun _ _ _ first there same => ?_
      subst same
      refine tells_bind there (tells_checkArity there _ _ _) fun _ _ _ second there _ => ?_
      have onward := first.trans second
      have belongs := tells_belongingOf there (getElem?_grown onward.grown listed)
      refine tells_bind there belongs fun _ _ _ third there same => ?_
      subst same
      have onward := onward.trans third
      exact tells_functionCall (callClosure_tells fuel (houses.later onward.secures) callable
        (fun argument member => onward.known (known argument member)) paren there) callable
    | classObject id => exact tells_classCall (construct_tells fuel id known paren here)
    | nil | boolean _ | number _ | text _ | object _ => exact tells_fail here _ _

theorem construct_tells : ∀ fuel {home tether machine record arguments} (classId : ClassId),
    (∀ argument ∈ arguments, Value.Known machine.heap record.belongings argument) → ∀ paren,
      AtHome home tether machine record →
        (construct fuel classId arguments paren machine record).Tells machine record
          (Made classId machine.heap)
  | 0, _, _, _, _, _, _, _, _, here => tells_outOfFuel here
  | fuel + 1, home, tether, machine, record, arguments, classId, known, paren, here => by
    have reads : (lift (Step.readHeap (·.findMethod? initializerName classId)) machine
        record).Tells machine record fun initializer? _ belongings => ∀ initializer ∈ initializer?,
          ∃ superclass, belongings[initializer]? = some (.method initializerName superclass) :=
      tells_readHeap here fun initializer found => here.housed.findMethod? found
    refine tells_bind here reads fun initializer? _ _ first there isMethod => ?_
    cases initializer? with
    | none =>
      refine tells_bind there (tells_checkArity there _ _ _) fun _ _ _ second there _ => ?_
      refine tells_bind there (tells_addInstance there classId) fun id _ _ _ there ⟨new, made⟩ => ?_
      exact ⟨there.stay, id, _, rfl, (first.trans second).retains.isNew new, made⟩
    | some initializer =>
      obtain ⟨superclass, listed⟩ := isMethod initializer rfl
      have arity : (lift (Step.readHeap fun heap => ((heap.functions[initializer]?).map
          (·.lambda.parameters.length)).getD 0) _ _).Tells _ _ fun _ _ _ => True :=
        tells_readHeap there trivial
      refine tells_bind there arity fun arity _ _ second there _ => ?_
      refine tells_bind there (tells_checkArity there _ _ _) fun _ _ _ third there _ => ?_
      refine tells_bind there (tells_addInstance there classId)
        fun id _ _ fourth there ⟨new, made⟩ => ?_
      have new := (first.trans (second.trans third)).retains.isNew new
      have onward := second.trans (third.trans fourth)
      have listed := getElem?_grown onward.grown listed
      refine tells_bind there (tells_bindMethod there listed)
        fun bound _ _ fifth there ⟨isBound, _⟩ => ?_
      obtain ⟨closure, found, houses⟩ := there.housed.closure? isBound
      have reads : (lift (Step.readHeap (·.functions[bound]?)) _ _).Tells _ _
          fun found? _ _ => found? = some closure := tells_readHeap there found
      refine tells_bind there reads fun _ _ _ sixth there same => ?_
      subst same
      have belongs := tells_belongingOf there (getElem?_grown sixth.grown isBound)
      refine tells_bind there belongs fun _ _ _ seventh there same => ?_
      subst same
      have whole := first.trans (onward.trans (fifth.trans (sixth.trans seventh)))
      have called := tells_functionCall (callClosure_tells fuel
        (houses.later (sixth.trans seventh).secures) trivial
        (fun argument member => whole.known (known argument member)) paren there) trivial
      refine tells_bind there called fun _ _ _ last there _ => ?_
      -- Whatever the initializer did, the instance stayed, and stayed of its class.
      have since := fifth.trans (sixth.trans (seventh.trans last))
      obtain ⟨_, made⟩ := since.retains.instances id _ made
      exact ⟨there.stay, id, _, rfl, new, made⟩

theorem callClosure_tells : ∀ fuel {home tether machine record closure belonging arguments},
    Belonging.Houses machine.heap.environment closure belonging → belonging.IsCallable →
      (∀ argument ∈ arguments, Value.Known machine.heap record.belongings argument) → ∀ paren,
        AtHome home tether machine record →
          (callClosure fuel belonging closure arguments paren machine record).Tells machine record
            (Given belonging)
  | 0, _, _, _, _, _, _, _, _, _, _, _, here => tells_outOfFuel here
  | fuel + 1, home, tether, machine, record, closure, belonging, arguments, houses, callable, known,
      paren, here => by
    -- The body is at home where the callee was made, wherever it is called from.
    obtain ⟨length, tethered, reaches⟩ := houses.callable callable
    refine tells_bind here (tells_inCall here tethered reaches known fun entered inside =>
      executeEach_tells fuel tethered.parts.2 inside) fun flow _ _ onward there known => ?_
    exact tells_callResult there (houses.later onward.secures) known

theorem storeEach_tells : ∀ fuel {home tether machine record value}
    {targets : List (Target Binding)}, Value.Known machine.heap record.belongings value →
      Target.TetheredEach tether targets → AtHome home tether machine record →
        (storeEach fuel home value targets machine record).Tells machine record fun _ _ _ => True
  | 0, _, _, _, _, _, _, _, _, here => tells_outOfFuel here
  | _ + 1, _, _, _, _, _, [], _, _, here => ⟨here.stay, trivial⟩
  | fuel + 1, _, _, _, _, _, .name name binding :: rest, known, tethered, here =>
    tells_bind here (tells_assignOrDefine here tethered.1 binding known) fun _ _ _ onward there _ =>
      storeEach_tells fuel (onward.known known) tethered.2 there
  | fuel + 1, _, _, _, _, _, .property object name :: rest, known, tethered, here => by
    have object : object.Tethered _ := tethered.1
    refine tells_bind here (evaluate_tells fuel object here) fun object _ _ first there _ => ?_
    refine tells_bind there (tells_setProperty there name (first.known known))
      fun _ _ _ second there _ => ?_
    exact storeEach_tells fuel ((first.trans second).known known) tethered.2 there

theorem execute_tells : ∀ fuel {home tether machine record} {stmt : Stmt Binding},
    stmt.Tethered tether → AtHome home tether machine record →
      (execute fuel home stmt machine record).Tells machine record
        fun flow heap belongings => flow.Known heap belongings
  | 0, _, _, _, _, _, _, here => tells_outOfFuel here
  | fuel + 1, home, tether, machine, record, stmt, tethered, here => by
    cases stmt with
    | expression value =>
      have value : value.Tethered tether := tethered
      exact tells_bind here (evaluate_tells fuel value here) fun _ _ _ _ there _ =>
        ⟨there.stay, trivial⟩
    | varDecl name initializer =>
      refine tells_bind here (evaluatePart_tells fuel tethered.2 here) fun _ _ _ _ there known => ?_
      exact tells_bind there (tells_define there tethered.1 known) fun _ _ _ _ there _ =>
        ⟨there.stay, trivial⟩
    | assign targets value =>
      refine tells_bind here (evaluate_tells fuel tethered.1 here) fun _ _ _ _ there known => ?_
      exact tells_bind there (storeEach_tells fuel known tethered.2 there) fun _ _ _ _ there _ =>
        ⟨there.stay, trivial⟩
    | set object name value =>
      refine tells_bind here (evaluate_tells fuel tethered.1 here) fun object _ _ _ there _ => ?_
      split
      · refine tells_bind there (evaluate_tells fuel tethered.2 there) fun _ _ _ _ there known => ?_
        exact tells_bind there (tells_setProperty there name known) fun _ _ _ _ there _ =>
          ⟨there.stay, trivial⟩
      · exact tells_fail there _ _
    | block body => exact tells_inScope here fun inside => executeEach_tells fuel tethered inside
    | branch condition thenBranch elseBranch =>
      obtain ⟨condition, thenTethered, elseTethered⟩ := tethered
      refine tells_inScope here fun inside => ?_
      refine tells_bind inside (evaluate_tells fuel condition inside) fun value _ _ _ there _ => ?_
      split
      · exact execute_tells fuel thenTethered there
      · exact executePart_tells fuel elseTethered there
    | whileLoop condition body =>
      obtain ⟨conditionTethered, bodyTethered⟩ := tethered
      have whole : Expr.TetheredPart (tether.map .longer) (some condition) := conditionTethered
      exact tells_inScope here fun inside => loop_tells fuel whole trivial bodyTethered inside
    | forLoop initializer condition increment body =>
      obtain ⟨initializer, condition, increment, body⟩ := tethered
      refine tells_inScope here fun inside => ?_
      refine tells_bind inside (executePart_tells fuel initializer inside) fun _ _ _ _ there _ => ?_
      exact loop_tells fuel condition increment body there
    | breakLoop line | continueLoop line => exact ⟨here.stay, trivial⟩
    | funDecl name lambda =>
      exact tells_bind here (tells_declareFunction here tethered.1 tethered.2) fun _ _ _ _ there _ =>
        ⟨there.stay, trivial⟩
    | returnValue line value =>
      exact tells_bind here (evaluatePart_tells fuel tethered here) fun _ _ _ _ there known =>
        ⟨there.stay, known⟩
    | classDecl name superclass methods =>
      exact tells_bind here (tells_declareClass here tethered.1 tethered.2) fun _ _ _ _ there _ =>
        ⟨there.stay, trivial⟩

theorem executeEach_tells : ∀ fuel {home tether machine record} {stmts : List (Stmt Binding)},
    Stmt.TetheredEach tether stmts → AtHome home tether machine record →
      (executeEach fuel home stmts machine record).Tells machine record
        fun flow heap belongings => flow.Known heap belongings
  | 0, _, _, _, _, _, _, here => tells_outOfFuel here
  | _ + 1, _, _, _, _, [], _, here => ⟨here.stay, trivial⟩
  | fuel + 1, _, _, _, _, stmt :: rest, tethered, here => by
    refine tells_bind here (execute_tells fuel tethered.1 here) fun flow _ _ _ there known => ?_
    cases flow with
    | normal => exact executeEach_tells fuel tethered.2 there
    | _ => exact ⟨there.stay, known⟩

theorem executePart_tells : ∀ fuel {home tether machine record} {part : Option (Stmt Binding)},
    Stmt.TetheredPart tether part → AtHome home tether machine record →
      (executePart fuel home part machine record).Tells machine record
        fun flow heap belongings => flow.Known heap belongings
  | 0, _, _, _, _, _, _, here => tells_outOfFuel here
  | _ + 1, _, _, _, _, none, _, here => ⟨here.stay, trivial⟩
  | fuel + 1, _, _, _, _, some _, tethered, here => execute_tells fuel tethered here

theorem loop_tells : ∀ fuel {home tether machine record condition increment body},
    Expr.TetheredPart tether condition → Expr.TetheredPart tether increment →
      Stmt.Tethered tether body → AtHome home tether machine record →
        (loop fuel home condition increment body machine record).Tells machine record
          fun flow heap belongings => flow.Known heap belongings
  | 0, _, _, _, _, _, _, _, _, _, _, here => tells_outOfFuel here
  | fuel + 1, home, tether, machine, record, condition, increment, body, conditionTethered,
      incrementTethered, bodyTethered, here => by
    -- One round, given whether the condition held, on whatever machine it was found to.
    have round : ∀ (holds : Bool) {machine record}, AtHome home tether machine record →
        ((if holds = true then execute fuel home body >>= fun
          | .breaks _ => Pure.pure .normal
          | .returns line value => Pure.pure (.returns line value)
          | _ => evaluatePart fuel home increment >>= fun _ =>
            loop fuel home condition increment body
        else Pure.pure .normal : Chronicle Flow) machine record).Tells machine record
          fun flow heap belongings => flow.Known heap belongings := by
      intro holds machine record here
      split
      · refine tells_bind here (execute_tells fuel bodyTethered here)
          fun flow _ _ _ there known => ?_
        have again := tells_bind there (evaluatePart_tells fuel incrementTethered there)
          fun _ _ _ _ there _ =>
            loop_tells fuel conditionTethered incrementTethered bodyTethered there
        cases flow with
        | normal => exact again
        | continues line => exact again
        | breaks line => exact ⟨there.stay, trivial⟩
        | returns line value => exact ⟨there.stay, known⟩
      · exact ⟨here.stay, trivial⟩
    cases condition with
    | none => exact round true here
    | some expr =>
      exact tells_bind here (evaluate_tells fuel conditionTethered here) fun value _ _ _ there _ =>
        round value.isTruthy there

end

/-! ## Programs -/

theorem runTopLevel_tells (fuel : Nat) {stmts : List (Stmt Binding)}
    (tethered : ∀ stmt ∈ stmts, Stmt.Tethered none stmt) (here : AtHome none none machine record) :
    (runTopLevel fuel stmts machine record).Tells machine record fun _ _ _ => True := by
  induction stmts generalizing machine record with
  | nil => exact ⟨here.stay, trivial⟩
  | cons stmt rest ih =>
    refine tells_bind here (execute_tells fuel (tethered stmt (.head _)) here)
      fun flow _ _ _ there _ => ?_
    cases flow with
    | normal => exact ih (fun other member => tethered other (.tail _ member)) there
    | _ => exact tells_fail there _ _

theorem result_tells (fuel : Nat) {stmt : Stmt Binding} (tethered : stmt.Tethered none)
    (here : AtHome none none machine record) :
    (result fuel stmt machine record).Tells machine record fun _ _ _ => True := by
  cases stmt with
  | expression value =>
    have value : value.Tethered none := tethered
    exact tells_bind here (evaluate_tells fuel value here) fun _ _ _ _ there _ =>
      ⟨there.stay, trivial⟩
  | _ =>
    exact tells_bind here (execute_tells fuel tethered here) fun _ _ _ _ there _ =>
      ⟨there.stay, trivial⟩

end Chronicle

end Lox
