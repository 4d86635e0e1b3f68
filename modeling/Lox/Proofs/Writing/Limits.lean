import Lox.Proofs.Writing.Evaluation

/-!
# Runs with limited room

What a run does when its output has room for so many bytes only, told by what it does with room for
everything. If all it writes fits, it does the same. If not, it ends in the call whose text does not
fit: what fits of the text is written, and nothing comes after it.
-/

namespace Lox

/-- The machine with room for so many more bytes of output. -/
def Machine.limitedTo (room : Nat) (machine : Machine) : Machine :=
  { machine with output := { machine.output with room := some room } }

namespace Output

variable {output : Output} {bytes : ByteArray} {room : Nat}

/-- The output with some more bytes written. -/
def append (output : Output) (more : ByteArray) : Output :=
  { output with written := output.written ++ more }

theorem write_of_unlimited (unlimited : output.room = none) :
    output.write bytes = (output.append bytes, true) := by
  simp only [write, unlimited, append]

theorem write_of_fits (fits : bytes.size ≤ room) :
    ({ output with room := some room } : Output).write bytes =
      ({ output.append bytes with room := some (room - bytes.size) }, true) := by
  simp only [write, if_pos fits, append]

theorem write_of_overflows (overflows : room < bytes.size) :
    ({ output with room := some room } : Output).write bytes =
      (⟨output.written ++ bytes.extract 0 room, some 0, output.flushFails⟩, false) := by
  simp only [write, if_neg (Nat.not_le_of_lt overflows)]

end Output

theorem extract_of_size_le {bytes : ByteArray} {size : Nat} (within : bytes.size ≤ size) :
    bytes.extract 0 size = bytes := by
  apply ByteArray.ext
  rw [ByteArray.data_extract]
  exact Array.extract_eq_self_of_le within

section

variable {α : Type} {outcome : Outcome α} {machine after : Machine}

/-- What is done in silence leaves the output as it was. -/
theorem output_of_silent (silent : outcome = outcome.mapMachine (·.writingTo machine.output))
    (left : outcome.machine? = some after) : after.output = machine.output := by
  rw [silent, Outcome.machine?_mapMachine, Option.map_eq_some_iff] at left
  obtain ⟨later, _, rfl⟩ := left
  rfl

end

namespace Plan

variable {α β : Type}

/-- The run comes to a call of the native routine, closed by a parenthesis on that line, that writes
across the limit: what was written before is within it, and with the text of the call it is not. -/
def Crosses (plan : Plan α) (machine : Machine) (limit : Nat) (native : Native) (line : Nat) :
    Prop :=
  ∃ (id : NativeId) (arguments : List Value) (text : String) (moment : Machine) (calls : Nat),
    plan.Visits machine (callNative id arguments (Symbol.rightParen.token line)) moment calls ∧
    moment.heap.natives[id]? = some native ∧ native.arity = arguments.length ∧
    native.routine moment.heap.shown arguments = .write text ∧
    moment.output.written.size ≤ limit ∧
    limit < moment.output.written.size + text.toUTF8.size

/-- How the plan runs with room for so many bytes, where with room for everything its run writes
these. -/
structure Limits (plan : Plan α) (machine : Machine) (room : Nat) (more : ByteArray) : Prop where
  within : more.size ≤ room → plan.run (machine.limitedTo room) =
    (plan.run machine).mapMachine (·.limitedTo (room - more.size))
  beyond : room < more.size → ∃ native line stopped,
    plan.run (machine.limitedTo room) =
      .failed ⟨.outputFull, Symbol.rightParen.token line⟩ stopped ∧
    stopped.output = ⟨machine.output.written ++ more.extract 0 room, some 0,
      machine.output.flushFails⟩ ∧
    plan.Crosses machine (machine.output.written.size + room) native line

/-- The run writes something if there is room for everything, and is limited by what room there is. -/
def TruncatesOn (plan : Plan α) (machine : Machine) : Prop :=
  machine.output.room = none → ∀ after, (plan.run machine).machine? = some after →
    ∃ more, after.output = machine.output.append more ∧ ∀ room, plan.Limits machine room more

namespace TruncatesOn

variable {machine : Machine}

/-- A run that is silent on a machine writes nothing and needs no room. -/
theorem ofSilent {plan : Plan α} (silent : ∀ output, plan.run (machine.writingTo output) =
    (plan.run machine).mapMachine (·.writingTo output)) : plan.TruncatesOn machine := by
  intro _ after left
  have kept : ∀ later, (plan.run machine).machine? = some later → later.output = machine.output :=
    fun later => output_of_silent (silent machine.output)
  refine ⟨.empty, ?_, fun room => ⟨fun _ => ?_, fun less => absurd less (Nat.not_lt_zero room)⟩⟩
  · rw [kept after left, Output.append, ByteArray.append_empty]
  · refine (silent { machine.output with room := some room }).trans ?_
    refine Outcome.mapMachine_congr fun later leaves => ?_
    simp only [Machine.writingTo, Machine.limitedTo, kept later leaves, ByteArray.size_empty,
      Nat.sub_zero]

/-- A native routine is where a run ends whose text does not fit. -/
theorem callNative (id : NativeId) (arguments : List Value) (line : Nat) :
    (Plan.callNative id arguments (Symbol.rightParen.token line)).TruncatesOn machine := by
  obtain silent | ⟨native, text, found, fits, replied, writes⟩ :=
    Step.callNative_cases id arguments (Symbol.rightParen.token line) machine
  · exact ofSilent silent
  -- The call comes down to one write, so all that matters is whether the text fits.
  intro unlimited after left
  have ran : (Plan.callNative id arguments (Symbol.rightParen.token line)).run machine =
      .finished .nil (machine.writingTo (machine.output.append text.toUTF8)) := by
    refine (writes machine.output).trans ?_
    rw [Step.write_nil_eq, Machine.output_writingTo, Output.write_of_unlimited unlimited]
    rfl
  rw [ran] at left
  cases left
  refine ⟨text.toUTF8, rfl, fun room => ⟨fun within => ?_, fun beyond => ?_⟩⟩
  · rw [ran]
    refine (writes { machine.output with room := some room }).trans ?_
    rw [Step.write_nil_eq, Machine.output_writingTo, Output.write_of_fits within]
    rfl
  · refine ⟨native, line, machine.writingTo ⟨machine.output.written ++ text.toUTF8.extract 0 room, some 0,
      machine.output.flushFails⟩, ?_, rfl, ?_⟩
    · refine (writes { machine.output with room := some room }).trans ?_
      rw [Step.write_nil_eq, Machine.output_writingTo, Output.write_of_overflows beyond]
      rfl
    · exact ⟨id, arguments, text, machine, 0, .here, found, fits, replied,
        Nat.le_add_right _ _, Nat.add_lt_add_left beyond _⟩

end TruncatesOn

/-! ## Sequencing -/

theorem Crosses.first {first : Plan α} {rest : α → Plan β} {machine : Machine} {limit line : Nat}
    {native : Native} (crosses : first.Crosses machine limit native line) :
    (first >>= rest).Crosses machine limit native line := by
  obtain ⟨id, arguments, text, moment, calls, visits, overflows⟩ := crosses
  exact ⟨id, arguments, text, moment, calls, visits.first, overflows⟩

theorem Crosses.rest {first : Plan α} {rest : α → Plan β} {result : α} {machine middle : Machine}
    {limit line : Nat} {native : Native} (ran : first.run machine = .finished result middle)
    (crosses : (rest result).Crosses middle limit native line) :
    (first >>= rest).Crosses machine limit native line := by
  obtain ⟨id, arguments, text, moment, calls, visits, overflows⟩ := crosses
  exact ⟨id, arguments, text, moment, calls, visits.rest ran, overflows⟩

namespace Limits

variable {first : Plan α} {rest : α → Plan β} {machine middle : Machine} {room : Nat}
  {written more : ByteArray}

theorem bind_failed {error : RuntimeError} (ran : first.run machine = .failed error middle)
    (limits : first.Limits machine room written) : (first >>= rest).Limits machine room written where
  within fits := by
    have ranLimited := limits.within fits
    rw [ran] at ranLimited
    rw [run_bind, Step.bind_of_failed ran, Step.bind_of_failed ranLimited]
    rfl
  beyond less := by
    obtain ⟨native, line, stopped, failed, output, crosses⟩ := limits.beyond less
    exact ⟨native, line, stopped, Step.bind_of_failed failed, output, crosses.first⟩

/-- What the first plan leaves of the room is there for the rest. -/
theorem bind_finished {result : α} (ran : first.run machine = .finished result middle)
    (output : middle.output = machine.output.append written)
    (limits : first.Limits machine room written)
    (following : (rest result).Limits middle (room - written.size) more) :
    (first >>= rest).Limits machine room (written ++ more) where
  within fits := by
    rw [ByteArray.size_append] at fits ⊢
    have ranLimited := limits.within (by omega)
    rw [ran] at ranLimited
    rw [run_bind, Step.bind_of_finished ran, Step.bind_of_finished ranLimited,
      following.within (by omega), Nat.sub_sub]
  beyond less := by
    rw [ByteArray.size_append] at less
    -- The limit lies in what the rest writes, or already in what the first plan does.
    by_cases fits : written.size ≤ room
    · obtain ⟨native, line, stopped, failed, stoppedOutput, crosses⟩ := following.beyond (by omega)
      have spent : middle.output.written.size + (room - written.size) =
          machine.output.written.size + room := by
        rw [output]
        change (machine.output.written ++ written).size + _ = _
        rw [ByteArray.size_append]
        omega
      have ranLimited := limits.within fits
      rw [ran] at ranLimited
      refine ⟨native, line, stopped, ?_, ?_, .rest ran (spent ▸ crosses)⟩
      · exact (Step.bind_of_finished ranLimited).trans failed
      · rw [stoppedOutput, output, ByteArray.extract_append, extract_of_size_le fits, Nat.zero_sub]
        simp only [Output.append, ByteArray.append_assoc]
    · obtain ⟨native, line, stopped, failed, stoppedOutput, crosses⟩ := limits.beyond (by omega)
      refine ⟨native, line, stopped, Step.bind_of_failed failed, ?_, crosses.first⟩
      rw [stoppedOutput, ByteArray.extract_append, Nat.sub_eq_zero_of_le (Nat.le_of_not_le fits),
        Nat.zero_sub, ByteArray.extract_same, ByteArray.append_empty]

end Limits

namespace TruncatesOn

variable {machine : Machine}

theorem bind {first : Plan α} {rest : α → Plan β} (leading : first.TruncatesOn machine)
    (following : ∀ result middle, (rest result).TruncatesOn middle) :
    (first >>= rest).TruncatesOn machine := by
  intro unlimited after left
  cases ran : first.run machine with
  | finished result middle =>
    obtain ⟨written, output, limits⟩ := leading unlimited middle (by rw [ran]; rfl)
    have unlimitedStill : middle.output.room = none := by rw [output]; exact unlimited
    rw [run_bind, Step.bind_of_finished ran] at left
    obtain ⟨more, afterOutput, moreLimits⟩ := following result middle unlimitedStill after left
    refine ⟨written ++ more, ?_, fun room =>
      (limits room).bind_finished ran output (moreLimits (room - written.size))⟩
    rw [afterOutput, output, Output.append, Output.append, Output.append, ByteArray.append_assoc]
  | failed error middle =>
    obtain ⟨written, output, limits⟩ := leading unlimited middle (by rw [ran]; rfl)
    rw [run_bind, Step.bind_of_failed ran] at left
    cases left
    exact ⟨written, output, fun room => (limits room).bind_failed ran⟩
  | outOfFuel =>
    rw [run_bind, Step.bind_of_outOfFuel ran] at left
    cases left

/-! ## Scopes and calls -/

/-- A plan that runs another one in a scope of its own has room for as much as that one. -/
theorem around {plan inner : Plan α} {entered : Machine} {back : Machine → Machine}
    (truncates : inner.TruncatesOn entered)
    (runs : plan.run machine = (inner.run entered).mapMachine back)
    (runsLimited : ∀ room, plan.run (machine.limitedTo room) =
      (inner.run (entered.limitedTo room)).mapMachine back)
    (commutes : ∀ room after, back (after.limitedTo room) = (back after).limitedTo room)
    (keeps : ∀ after, (back after).output = after.output)
    (same : entered.output = machine.output)
    (onward : ∀ limit native line, inner.Crosses entered limit native line →
      plan.Crosses machine limit native line) :
    plan.TruncatesOn machine := by
  intro unlimited after left
  rw [runs, Outcome.machine?_mapMachine, Option.map_eq_some_iff] at left
  obtain ⟨later, leaves, rfl⟩ := left
  obtain ⟨more, output, limits⟩ := truncates (same ▸ unlimited) later leaves
  refine ⟨more, ?_, fun room => ⟨fun fits => ?_, fun less => ?_⟩⟩
  · rw [keeps, output, same]
  · rw [runsLimited, (limits room).within fits, runs, Outcome.mapMachine_mapMachine,
      Outcome.mapMachine_mapMachine]
    exact Outcome.mapMachine_congr fun later _ => commutes _ later
  · obtain ⟨native, line, stopped, failed, stoppedOutput, crosses⟩ := (limits room).beyond less
    rw [same] at stoppedOutput crosses
    refine ⟨native, line, back stopped, ?_, ?_, onward _ _ _ crosses⟩
    · rw [runsLimited, failed]
      rfl
    · rw [keeps, stoppedOutput]

theorem inScope {inner : Plan α} (truncates : inner.TruncatesOn machine.enter) :
    (Plan.inScope inner).TruncatesOn machine := by
  have runs (machine : Machine) : (Plan.inScope inner).run machine =
      (inner.run machine.enter).mapMachine Machine.leave := Step.inScope_eq inner.run machine
  refine truncates.around (runs machine) (fun room => runs (machine.limitedTo room))
    (fun _ _ => rfl) (fun _ => rfl) rfl ?_
  rintro limit native line ⟨id, arguments, text, moment, calls, visits, overflows⟩
  exact ⟨id, arguments, text, moment, calls, visits.scope, overflows⟩

theorem inCall {closure : Closure} {arguments : List Value} {body : Plan Flow} (paren : Token)
    (truncates : body.TruncatesOn (machine.enterCall closure arguments)) :
    (Plan.inCall closure arguments paren body).TruncatesOn machine := by
  by_cases full : Step.maximumDepth ≤ machine.depth
  · -- A call that is refused writes nothing.
    have refused (output : Output) :
        (Plan.inCall closure arguments paren body).run (machine.writingTo output) =
          .failed ⟨.stackOverflow, paren⟩ (machine.writingTo output) := by
      rw [inCall_run]
      exact if_pos full
    refine ofSilent fun output => ?_
    rw [refused output, show machine = machine.writingTo machine.output from rfl,
      refused machine.output]
    rfl
  · have runs (output : Output) :
        (Plan.inCall closure arguments paren body).run (machine.writingTo output) =
          (body.run ((machine.writingTo output).enterCall closure arguments)).mapMachine
            machine.leaveCall := by
      rw [inCall_run]
      exact if_neg full
    refine truncates.around (runs machine.output) (fun room => runs _) (fun _ _ => rfl)
      (fun _ => rfl) rfl ?_
    rintro limit native line ⟨id, arguments, text, moment, calls, visits, overflows⟩
    exact ⟨id, arguments, text, moment, calls + 1, visits.body (Nat.lt_of_not_le full),
      overflows⟩

end TruncatesOn

/-! ## Whole runs -/

/-- Whatever writes in calls only is limited by the room there is. -/
theorem WritesInCalls.truncatesOn {plan : Plan α} (writes : plan.WritesInCalls) (machine : Machine) :
    plan.TruncatesOn machine := by
  induction writes generalizing machine with
  | pure result => exact .ofSilent (Step.Silent.pure result machine)
  | outOfFuel => exact .ofSilent fun _ => rfl
  | fail problem token => exact .ofSilent (Step.Silent.fail problem token machine)
  | silent silent => exact .ofSilent (silent machine)
  | native id arguments line => exact .callNative id arguments line
  | function? id => exact .ofSilent (Step.Silent.readHeap _ machine)
  | close name lambda isInitializer => exact .ofSilent fun _ => rfl
  | bind _ _ ihFirst ihRest => exact (ihFirst machine).bind ihRest
  | inScope _ ih => exact (ih _).inScope
  | inCall closure arguments paren _ ih => exact (ih _).inCall paren

end Plan

end Lox
