import Lox.Proofs.Grammar.Soundness
import Lox.Proofs.Plans.Keeping
import Lox.Proofs.Scoping.Runs
import Lox.Session

/-!
# Scopes and frames in sessions

A machine that has run nothing but programs whose names were resolved can run another one of them,
and wherever that one comes to, its frames match the scopes that its names were resolved in. This
holds of every program there is a source text for, with native routines that give back no function
but those they are given.
-/

namespace Lox

/-! ## Machines before a program -/

namespace Native

theorem forwards_clock : clock.Forwards := fun _ _ _ replied => nomatch replied

theorem forwards_print : print.Forwards := fun _ _ _ replied => nomatch replied

theorem forwards_println : println.Forwards := fun _ _ _ replied => nomatch replied

end Native

namespace Heap.Sound

variable {heap : Heap} {origins : List Origin}

theorem empty : Heap.empty.Sound [] :=
  { root := Nat.zero_lt_one
    count := rfl
    functions := nofun
    classes := nofun
    slots := by
      intro frame name value found
      cases frame <;> cases found
    fields := nofun
    natives := nofun }

theorem install {native : Native} (sound : heap.Sound origins) (forwards : native.Forwards) :
    (heap.install native).Sound origins := by
  have pushed : Heap.Sound { heap with natives := heap.natives.push native } origins :=
    { root := sound.root
      count := sound.count
      functions := sound.functions
      classes := sound.classes
      slots := sound.slots
      fields := sound.fields
      natives := by
        intro id other found
        by_cases new : id = heap.natives.size
        · subst new
          rw [Array.getElem?_push_size] at found
          cases found
          exact forwards
        · rw [Array.getElem?_push, if_neg new] at found
          exact sound.natives id other found }
  exact pushed.define sound.root trivial

end Heap.Sound

/-! ## Programs and their statements -/

theorem Stmt.resolveTopLevel_cons {stmt : Stmt Unit} {rest : List (Stmt Unit)}
    {resolved : List (Stmt Binding)} (resolves : Stmt.resolveTopLevel (stmt :: rest) = .ok resolved) :
    ∃ first others, stmt.resolve .topLevel = .ok first ∧ Stmt.resolveTopLevel rest = .ok others ∧
      resolved = first :: others := by
  simp only [Stmt.resolveTopLevel] at resolves
  split at resolves
  · next first others resolvesFirst resolvesRest =>
    cases resolves
    exact ⟨first, others, resolvesFirst, resolvesRest, rfl⟩
  all_goals cases resolves

/-- Only an expression statement resolves to one. -/
theorem Stmt.resolve_eq_expression {s : Surroundings} {stmt : Stmt Unit} {value : Expr Binding}
    (resolves : stmt.resolve s = .ok (.expression value)) : ∃ inner, stmt = .expression inner := by
  cases stmt with
  | expression inner => exact ⟨inner, rfl⟩
  | breakLoop line | continueLoop line =>
    simp only [Stmt.resolve] at resolves
    split at resolves <;> cases resolves
  | returnValue line value =>
    simp only [Stmt.resolve] at resolves
    split at resolves
    · obtain ⟨_, _, made⟩ := Except.bind_eq_ok resolves
      cases made
    · cases resolves
  | classDecl name superclass methods =>
    obtain ⟨_, _, _, made⟩ := Stmt.resolve_classDecl resolves
    cases made
  | _ =>
    -- Every other statement resolves part by part to one of its own kind.
    repeat obtain ⟨_, _, resolves⟩ := Except.bind_eq_ok resolves
    cases resolves

/-- A statement of a resolved program was resolved at the top level. -/
theorem Stmt.exists_of_mem_resolveTopLevel {stmts : List (Stmt Unit)}
    {resolved : List (Stmt Binding)} {stmt : Stmt Binding}
    (resolves : Stmt.resolveTopLevel stmts = .ok resolved) (member : stmt ∈ resolved) :
    ∃ original ∈ stmts, original.resolve .topLevel = .ok stmt := by
  induction stmts generalizing resolved with
  | nil =>
    cases resolves
    cases member
  | cons original rest ih =>
    obtain ⟨first, others, resolvesFirst, resolvesRest, rfl⟩ := Stmt.resolveTopLevel_cons resolves
    cases member with
    | head => exact ⟨original, .head _, resolvesFirst⟩
    | tail _ further =>
      obtain ⟨other, listed, resolvesOther⟩ := ih resolvesRest further
      exact ⟨other, .tail _ listed, resolvesOther⟩

/-- What a watched step comes to, if it is not astray. -/
def Watched.outcome? {α : Type} : Watched α → Option (Outcome α)
  | finished result machine _ => some (.finished result machine)
  | failed error machine _ => some (.failed error machine)
  | outOfFuel => some .outOfFuel
  | astray => none

/-- Whether a watched step ends with this machine, its functions coming from there. -/
def Watched.EndsIn {α : Type} (machine : Machine) (origins : List Origin) : Watched α → Prop
  | finished _ after later => after = machine ∧ later = origins
  | failed _ after later => after = machine ∧ later = origins
  | _ => False

namespace Watch

variable {machine after : Machine} {origins later : List Origin} {fuel : Nat}

theorem stands_initial (output : Output) (clock : Nat → Number) :
    Stands .topLevel (Machine.initial output clock) [] :=
  ⟨((Heap.Sound.empty.install Native.forwards_clock).install Native.forwards_print).install
    Native.forwards_println, rfl⟩

theorem Stands.install {native : Native} (stands : Stands .topLevel machine origins)
    (forwards : native.Forwards) : Stands .topLevel (machine.install native) origins :=
  ⟨stands.sound.install forwards, stands.matched⟩

/-! ## Whole programs -/

section

variable {α : Type} {opens : Prop} {s : Surroundings} {watch : Watch α} {step : Step α}
  {post : α → Machine → List Origin → Prop}

theorem Agrees.outcome? (agrees : Agrees opens machine origins watch step post) :
    (watch machine origins).outcome? = some (step machine) := by
  simp only [Agrees] at agrees
  cases outcome : step machine with
  | finished result after =>
    rw [outcome] at agrees
    obtain ⟨later, watched, _⟩ := agrees
    rw [watched]
    rfl
  | failed error after =>
    rw [outcome] at agrees
    obtain ⟨later, watched, _⟩ := agrees
    rw [watched]
    rfl
  | outOfFuel =>
    rw [outcome] at agrees
    rw [agrees]
    rfl

theorem Agrees.endsIn (agrees : Agrees opens machine origins watch step post)
    (left : (step machine).machine? = some after) :
    ∃ later, (watch machine origins).EndsIn after later := by
  simp only [Agrees] at agrees
  cases outcome : step machine with
  | finished result last =>
    rw [outcome] at agrees left
    obtain ⟨later, watched, _⟩ := agrees
    cases left
    exact ⟨later, watched ▸ ⟨rfl, rfl⟩⟩
  | failed error last =>
    rw [outcome] at agrees left
    obtain ⟨later, watched, _⟩ := agrees
    cases left
    exact ⟨later, watched ▸ ⟨rfl, rfl⟩⟩
  | outOfFuel =>
    rw [outcome] at left
    cases left

theorem Stands.endsIn (stands : Stands s machine origins)
    (agrees : Agrees opens machine origins watch step post)
    (ends : (watch machine origins).EndsIn after later) : Stands s after later := by
  simp only [Agrees] at agrees
  cases outcome : step machine with
  | finished result last =>
    rw [outcome] at agrees
    obtain ⟨latest, watched, steady, _⟩ := agrees
    rw [watched] at ends
    obtain ⟨rfl, rfl⟩ := ends
    exact stands.steady steady
  | failed error last =>
    rw [outcome] at agrees
    obtain ⟨latest, watched, steady⟩ := agrees
    rw [watched] at ends
    obtain ⟨rfl, rfl⟩ := ends
    exact stands.steady steady
  | outOfFuel =>
    rw [outcome] at agrees
    rw [agrees] at ends
    exact ends.elim

end

/-- A statement that is stepped through: an expression is evaluated for its value. -/
def result (fuel : Nat) : Stmt Unit → Watch StatementResult
  | .expression expr => do
    let value ← evaluate fuel .topLevel expr
    pure (.value value)
  | stmt => do
    let flow ← execute fuel .topLevel stmt
    pure (.flow flow)

theorem agrees_result {stmt : Stmt Unit} {resolved : Stmt Binding}
    (stands : Stands .topLevel machine origins) (resolves : stmt.resolve .topLevel = .ok resolved)
    (shaped : stmt.WellShaped) :
    Agrees True machine origins (result fuel stmt) (Session.result fuel resolved)
      fun _ _ _ => True := by
  have executed : Agrees True machine origins
      (execute fuel .topLevel stmt >>= fun flow => pure (StatementResult.flow flow))
      (Step.execute fuel resolved >>= fun flow => pure (StatementResult.flow flow))
      fun _ _ _ => True := by
    have ran := (faithful fuel).execute resolves shaped stands
    refine agrees_bind (ran.weaken (fun _ => trivial) fun _ _ _ _ leaves => leaves) ?_
    intro flow after later steady _
    exact agrees_pure steady.sound trivial
  cases resolved with
  | expression value =>
    obtain ⟨inner, rfl⟩ := Stmt.resolve_eq_expression resolves
    obtain ⟨_, resolvesValue, made⟩ := Except.bind_eq_ok resolves
    cases made
    have ran := (faithful fuel).evaluate resolvesValue shaped.2 stands
    refine agrees_bind ran.opened ?_
    intro value after later steady _
    exact agrees_pure steady.sound trivial
  | _ =>
    cases stmt with
    | expression inner =>
      obtain ⟨_, _, made⟩ := Except.bind_eq_ok resolves
      cases made
    | _ => exact executed

/-- No statement at the top level leaves a name in any scope. -/
theorem agrees_runTopLevel {stmts : List (Stmt Unit)} {resolved : List (Stmt Binding)}
    (stands : Stands .topLevel machine origins)
    (resolves : Stmt.resolveTopLevel stmts = .ok resolved) (shaped : Stmt.WellShapedEach stmts) :
    Agrees True machine origins (runTopLevel fuel stmts) (Step.runTopLevel fuel resolved)
      fun _ _ _ => True := by
  induction stmts generalizing machine origins resolved with
  | nil =>
    cases resolves
    exact agrees_pure stands.sound trivial
  | cons stmt rest ih =>
    obtain ⟨first, others, resolvesFirst, resolvesRest, rfl⟩ := Stmt.resolveTopLevel_cons resolves
    have ran := (faithful fuel).execute resolvesFirst shaped.1 stands
    refine agrees_bind (ran.weaken (fun _ => trivial) fun _ _ _ _ leaves => leaves) ?_
    rintro flow after later steady _
    cases flow with
    | normal => exact ih (stands.steady steady) resolvesRest shaped.2
    | _ => exact agrees_fail steady.sound

end Watch

/-! ## Sessions -/

/-- The machines that sessions come to, with where their functions come from. A text runs whole, or
one of its statements is stepped through. -/
inductive Reached : Machine → List Origin → Prop where
  | initial (output : Output) (clock : Nat → Number) : Reached (.initial output clock) []
  | install {machine : Machine} {origins : List Origin} {native : Native} :
      Reached machine origins → native.Forwards → Reached (machine.install native) origins
  | program {machine after : Machine} {origins later : List Origin} {tokens : List Token}
      {resolved : List (Stmt Binding)} {fuel : Nat} :
      Reached machine origins →
        Stmt.resolveTopLevel (Program.parse tokens).statements = .ok resolved →
          (Watch.runTopLevel fuel (Program.parse tokens).statements machine origins).EndsIn after
            later → Reached after later
  | statement {machine after : Machine} {origins later : List Origin} {tokens : List Token}
      {stmt : Stmt Unit} {resolved : Stmt Binding} {fuel : Nat} :
      Reached machine origins → stmt ∈ (Program.parse tokens).statements →
        stmt.resolve .topLevel = .ok resolved →
          (Watch.result fuel stmt machine origins).EndsIn after later → Reached after later

namespace Reached

variable {machine : Machine} {origins : List Origin} {tokens : List Token}
  {resolved : List (Stmt Binding)} {fuel : Nat}

theorem stands (reached : Reached machine origins) : Watch.Stands .topLevel machine origins := by
  induction reached with
  | initial output clock => exact Watch.stands_initial output clock
  | install _ forwards ih => exact ih.install forwards
  | program _ resolves ends ih =>
    exact ih.endsIn (Watch.agrees_runTopLevel ih resolves (Program.wellShaped_parse _)) ends
  | statement _ member resolves ends ih =>
    have shaped := (Program.wellShaped_parse _).of_mem member
    exact ih.endsIn (Watch.agrees_result ih resolves shaped) ends

/-- Programs whose names resolve run without going astray, and end as they do unwatched; so do their
statements when they are stepped through. -/
theorem runTopLevel_never_astray (reached : Reached machine origins)
    (resolves : Stmt.resolveTopLevel (Program.parse tokens).statements = .ok resolved)
    (fuel : Nat) :
    (Watch.runTopLevel fuel (Program.parse tokens).statements machine origins).outcome? =
        some (Step.runTopLevel fuel resolved machine) ∧
      ∀ stmt ∈ (Program.parse tokens).statements, ∀ single, stmt.resolve .topLevel = .ok single →
        (Watch.result fuel stmt machine origins).outcome? =
          some (Session.result fuel single machine) := by
  refine ⟨(Watch.agrees_runTopLevel reached.stands resolves
    (Program.wellShaped_parse tokens)).outcome?, fun stmt member single resolvesSingle => ?_⟩
  have shaped := (Program.wellShaped_parse tokens).of_mem member
  exact (Watch.agrees_result reached.stands resolvesSingle shaped).outcome?

/-- A function that is called after the block that it was made in declared another name. -/
theorem runTopLevel_never_astray_closure :
    let tokens : List Token := [⟨.symbol .leftBrace, 1⟩, ⟨.keyword .kwVar, 1⟩, ⟨.identifier "a", 1⟩,
      ⟨.keyword .kwFun, 1⟩, ⟨.identifier "f", 1⟩, ⟨.symbol .leftParen, 1⟩, ⟨.symbol .rightParen, 1⟩,
      ⟨.symbol .leftBrace, 1⟩, ⟨.keyword .kwReturn, 1⟩, ⟨.identifier "a", 1⟩,
      ⟨.symbol .rightBrace, 1⟩, ⟨.keyword .kwVar, 1⟩, ⟨.identifier "b", 1⟩, ⟨.symbol .equal, 1⟩,
      ⟨.identifier "f", 1⟩, ⟨.symbol .leftParen, 1⟩, ⟨.symbol .rightParen, 1⟩,
      ⟨.symbol .rightBrace, 1⟩, ⟨.endOfInput, 2⟩]
    let machine := Machine.initial .unlimited fun _ => .zero
    ∃ resolved, Stmt.resolveTopLevel (Program.parse tokens).statements = .ok resolved ∧
      (Watch.runTopLevel 20 (Program.parse tokens).statements machine []).outcome? =
        some (Step.runTopLevel 20 resolved machine) ∧
      (Step.runTopLevel 20 resolved machine).machine?.isSome :=
  ⟨_, rfl, (runTopLevel_never_astray (.initial _ _) rfl 20).1, by decide +kernel⟩

/-- Whatever text is run with its names resolved, the machine afterwards is a reached one. -/
theorem answer {keepsResults : Bool} {source : String} {answer : Session.Answer}
    (reached : Reached machine origins)
    (answered : Session.answer fuel ⟨true, keepsResults⟩ source machine = some answer) :
    ∃ later, Reached answer.machine later := by
  have shaped := Program.wellShaped_parse (Scan.tokens source)
  refine Session.answer_induction (∃ later, Reached · later) ⟨origins, reached⟩ ?_ ?_ answered
  · intro stmts resolves after ran
    obtain ⟨later, watched⟩ := (Watch.agrees_runTopLevel reached.stands resolves shaped).endsIn ran
    exact ⟨later, reached.program resolves watched⟩
  · rintro stmts resolves stmt member before after ⟨known, between⟩ ran
    obtain ⟨original, listed, resolvesOriginal⟩ :=
      Stmt.exists_of_mem_resolveTopLevel resolves member
    obtain ⟨later, watched⟩ :=
      (Watch.agrees_result between.stands resolvesOriginal (shaped.of_mem listed)).endsIn ran
    exact ⟨later, between.statement listed resolvesOriginal watched⟩

end Reached

end Lox
