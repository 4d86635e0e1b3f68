import Lox.Proofs.Progress.Positions
import Lox.Proofs.Recovery.Statements

/-!
# Trails lead onward

A tracer follows a reader if it ends as the reader does and its trail leads onward: no token is read beyond
the first end of input and the index is never moved there, each call of `declaration` starts beyond the one
before it, and where a rule stops is beyond the start of every declaration that it called.

How far the calls have to be ahead is what the rules differ in. Those that are put together from
declarations may call one where they start; any other rule takes a brace before it does.
-/

namespace Lox

/-! ## Readers -/

/-- A declaration that is called where there are tokens left takes at least one of them, whether it
gives a statement or not. -/
theorem Cursor.length_of_declaration {cursor finish : Cursor} {fuel : Nat} {stmt : Option (Stmt Unit)}
    (ends : cursor.Ends) (more : cursor.rest ≠ [])
    (ran : Reader.declaration fuel cursor = .done stmt finish) :
    finish.rest.length < cursor.rest.length := by
  -- With enough fuel the contract of declarations applies, and the outcome is the same.
  let extra := 32 * cursor.rest.length + 19
  obtain ⟨reached, same⟩ := (Reader.declaration_widens fuel extra).done ran
  have wide := same ⟨[], cursor.stop, []⟩ (.inr ⟨rfl, reached.stop.symm⟩)
  rw [extend_nil, ← reached.stop, extend_nil] at wide
  have ensured := (Reader.sound (extra + fuel)).declaration cursor ends more (Nat.le_add_right _ _)
  unfold Reader.Ensures at ensured
  rw [wide] at ensured
  exact ensured.2.2.1

/-- What is done about an error. -/
def Parsed.handle {α : Type} (parsed : Parsed α) (handler : SyntaxError → Cursor → Parsed α) :
    Parsed α :=
  match parsed with
  | .failed error finish => handler error finish
  | parsed => parsed

/-- A declaration is what is read for it, or nothing. -/
theorem Reader.declaration_succ (fuel : Nat) (cursor : Cursor) :
    Reader.declaration (fuel + 1) cursor =
      ((Reader.declared fuel >>= fun stmt => pure (some stmt)) cursor).handle fun error failed =>
        .done none (failed.recover cursor error) := by
  unfold Reader.declaration Parsed.handle
  cases ran : Reader.declared fuel cursor with
  | done stmt finish => rw [bind_of_done ran]; rfl
  | failed error finish => rw [bind_of_failed ran]
  | outOfFuel => rw [bind_of_outOfFuel ran]

/-! ## Trails -/

namespace Landed

variable {α : Type}

/-- Reading by index ends as reading does from the cursor at the same token. -/
inductive Sees : Landed α → Parsed α → Prop where
  | done (value : α) (finish : Pointer) : Sees (.done value finish) (.done value finish.cursor)
  | failed (error : SyntaxError) (finish : Pointer) :
    Sees (.failed error finish) (.failed error finish.cursor)
  | outOfFuel : Sees .outOfFuel .outOfFuel

/-- Where a reader by index stops. -/
def stops? : Landed α → Option Pointer
  | done _ finish => some finish
  | failed _ finish => some finish
  | outOfFuel => none
  | outOfRange => none

end Landed

/-- The declaration ended, and further on than it started. -/
def Call.Advances (call : Call) : Prop :=
  ∃ stmt finish, call.outcome = .done stmt finish ∧ call.start.Onward finish ∧
    call.start.current < finish.current

/-- The trail leads onward from the pointer and not beyond the first end of input, and no call on it is
made before an index. -/
structure Trail.Leads (bound : Nat) (pointer : Pointer) (trail : Trail) : Prop where
  reads : ∀ index ∈ trail.reads, index ≤ Token.firstEnd pointer.tokens
  moves : ∀ index ∈ trail.moves, index ≤ Token.firstEnd pointer.tokens
  calls : ∀ call ∈ trail.calls, pointer.Onward call.start ∧ bound ≤ call.start.current ∧
    call.start.current < Token.firstEnd pointer.tokens
  declares : ∀ call ∈ trail.calls, ∃ fuel,
    call.outcome.Sees (Reader.declaration fuel call.start.cursor)
  order : trail.calls.Pairwise fun call later => call.start.current < later.start.current

namespace Trail.Leads

variable {bound smaller : Nat} {pointer middle : Pointer} {trail further : Trail}

/-- Where nothing is called, all that counts are the indices. -/
theorem ofIndices {reads moves : List Nat}
    (read : ∀ index ∈ reads, index ≤ Token.firstEnd pointer.tokens)
    (moved : ∀ index ∈ moves, index ≤ Token.firstEnd pointer.tokens) :
    Leads bound pointer ⟨reads, moves, []⟩ :=
  ⟨read, moved, List.forall_mem_nil _, List.forall_mem_nil _, .nil⟩

theorem mono (leads : trail.Leads bound pointer) (within : smaller ≤ bound) :
    trail.Leads smaller pointer :=
  { leads with
    calls := fun call member =>
      have ⟨onward, beyond, before⟩ := leads.calls call member
      ⟨onward, Nat.le_trans within beyond, before⟩ }

/-- A trail goes on where it stopped. -/
theorem append (leads : trail.Leads bound pointer) (onward : pointer.Onward middle)
    (passed : ∀ call ∈ trail.calls, call.start.current < middle.current)
    (rest : further.Leads bound middle) : (trail ++ further).Leads bound pointer where
  reads index member := by
    obtain earlier | later := List.mem_append.mp member
    · exact leads.reads index earlier
    · exact onward.tokens ▸ rest.reads index later
  moves index member := by
    obtain earlier | later := List.mem_append.mp member
    · exact leads.moves index earlier
    · exact onward.tokens ▸ rest.moves index later
  calls call member := by
    obtain earlier | later := List.mem_append.mp member
    · exact leads.calls call earlier
    · obtain ⟨there, beyond, before⟩ := rest.calls call later
      exact ⟨onward.trans there, beyond, onward.tokens ▸ before⟩
  declares call member :=
    (List.mem_append.mp member).elim (leads.declares call) (rest.declares call)
  order := by
    refine List.pairwise_append.mpr ⟨leads.order, rest.order, fun call earlier other later => ?_⟩
    exact Nat.lt_of_lt_of_le (passed call earlier) (rest.calls other later).1.current

/-- A call whose own calls are all made after something was taken. -/
theorem call {outcome : Landed (Option (Stmt Unit))} (here : pointer.Onward pointer)
    (before : pointer.current < Token.firstEnd pointer.tokens)
    (declares : ∃ fuel, outcome.Sees (Reader.declaration fuel pointer.cursor))
    (inside : trail.Leads (pointer.current + 1) pointer) :
    (⟨[], [], [⟨pointer, outcome⟩]⟩ ++ trail : Trail).Leads pointer.current pointer where
  reads := inside.reads
  moves := inside.moves
  calls := List.forall_mem_cons.mpr
    ⟨⟨here, Nat.le_refl _, before⟩, (inside.mono (Nat.le_succ _)).calls⟩
  declares := List.forall_mem_cons.mpr ⟨declares, inside.declares⟩
  order := .cons (fun later member => (inside.calls later member).2.1) inside.order

end Trail.Leads

namespace Tracer

variable {α β γ : Type}

/-! ## Steps that call nothing -/

/-- The step gives a value and goes from the one pointer to the other. It calls nothing, and no index on
its trail is beyond the first end of input. -/
structure GoesTo (step : Tracer α) (value : α) (pointer middle : Pointer) : Prop where
  onward : pointer.Onward middle
  trail : ∃ reads moves, step pointer = ⟨.done value middle, ⟨reads, moves, []⟩⟩ ∧
    (∀ index ∈ reads, index ≤ Token.firstEnd pointer.tokens) ∧
      ∀ index ∈ moves, index ≤ Token.firstEnd pointer.tokens

theorem GoesTo.bind {pointer middle finish : Pointer} {step : Tracer α} {further : α → Tracer β}
    {value : α} {result : β} (first : GoesTo step value pointer middle)
    (second : GoesTo (further value) result middle finish) :
    GoesTo (step >>= further) result pointer finish := by
  obtain ⟨reads, moves, ran, read, moved⟩ := first.trail
  obtain ⟨readsMore, movesMore, ranMore, readMore, movedMore⟩ := second.trail
  rw [first.onward.tokens] at readMore movedMore
  refine ⟨first.onward.trans second.onward, reads ++ readsMore, moves ++ movesMore, ?_,
    List.forall_mem_append.mpr ⟨read, readMore⟩, List.forall_mem_append.mpr ⟨moved, movedMore⟩⟩
  rw [bind_of_done ran, ranMore]
  rfl

/-! ## Following a reader -/

/-- What is traced from the pointer on ends as it should, and where it stops all calls on its trail have been
passed. -/
structure FollowsAt (bound : Nat) (pointer : Pointer) (traced : Traced α) (parsed : Parsed α) :
    Prop where
  sees : traced.outcome.Sees parsed
  leads : traced.trail.Leads bound pointer
  stops : ∀ finish, traced.outcome.stops? = some finish → pointer.Onward finish ∧
    ∀ call ∈ traced.trail.calls, call.start.current < finish.current ∧ call.Advances

namespace FollowsAt

variable {bound smaller : Nat} {pointer middle : Pointer} {tracer : Tracer α} {reader : Reader α}
  {parsed : Parsed α}

theorem mono {traced : Traced α} (follows : FollowsAt bound pointer traced parsed)
    (within : smaller ≤ bound) : FollowsAt smaller pointer traced parsed :=
  ⟨follows.sees, follows.leads.mono within, follows.stops⟩

/-- A step that calls nothing. -/
theorem ofGoesTo {value : α} (goes : GoesTo tracer value pointer middle) :
    FollowsAt bound pointer (tracer pointer) (.done value middle.cursor) := by
  obtain ⟨reads, moves, ran, read, moved⟩ := goes.trail
  rw [ran]
  refine ⟨.done value middle, .ofIndices read moved, fun finish stopped => ?_⟩
  cases stopped
  exact ⟨goes.onward, List.forall_mem_nil _⟩

theorem failed (inRange : pointer.InRange) (error : SyntaxError) :
    FollowsAt bound pointer (⟨.failed error pointer, ⟨[], [], []⟩⟩ : Traced α)
      (.failed error pointer.cursor) := by
  refine ⟨.failed error pointer, .ofIndices (List.forall_mem_nil _) (List.forall_mem_nil _),
    fun finish stopped => ?_⟩
  cases stopped
  exact ⟨inRange.refl, List.forall_mem_nil _⟩

theorem outOfFuel : FollowsAt bound pointer (outOfFuel pointer : Traced α) .outOfFuel := by
  refine ⟨.outOfFuel, .ofIndices (List.forall_mem_nil _) (List.forall_mem_nil _),
    fun finish stopped => ?_⟩
  cases stopped

/-- A trail that was led to a pointer goes on from there. -/
theorem goOn {trail : Trail} {rest : Traced α} (leads : trail.Leads bound pointer)
    (onward : pointer.Onward middle)
    (passed : ∀ call ∈ trail.calls, call.start.current < middle.current ∧ call.Advances)
    (follows : FollowsAt bound middle rest parsed) :
    FollowsAt bound pointer ⟨rest.outcome, trail ++ rest.trail⟩ parsed := by
  refine ⟨follows.sees, leads.append onward (fun call member => (passed call member).1) follows.leads,
    fun finish stopped => ?_⟩
  obtain ⟨further, passedFurther⟩ := follows.stops finish stopped
  refine ⟨onward.trans further, fun call member => ?_⟩
  obtain earlier | later := List.mem_append.mp member
  · obtain ⟨before, advances⟩ := passed call earlier
    exact ⟨Nat.lt_of_lt_of_le before further.current, advances⟩
  · exact passedFurther call later

theorem bind {further : α → Tracer β} {continuation : α → Reader β}
    (first : FollowsAt bound pointer (tracer pointer) (reader pointer.cursor))
    (second : ∀ value middle, reader pointer.cursor = .done value middle.cursor →
      pointer.Onward middle →
        FollowsAt bound middle (further value middle) (continuation value middle.cursor)) :
    FollowsAt bound pointer ((tracer >>= further) pointer)
      ((reader >>= continuation) pointer.cursor) := by
  change FollowsAt bound pointer (Tracer.bind tracer further pointer)
    (Reader.bind reader continuation pointer.cursor)
  unfold Tracer.bind Reader.bind
  generalize tracer pointer = traced at first ⊢
  generalize reader pointer.cursor = parsed at first second ⊢
  obtain ⟨outcome, trail⟩ := traced
  obtain ⟨sees, leads, stops⟩ := first
  dsimp only at sees leads stops ⊢
  cases sees with
  | done value middle =>
    obtain ⟨onward, passed⟩ := stops middle rfl
    exact .goOn leads onward passed (second value middle rfl onward)
  | failed error middle => exact ⟨.failed error middle, leads, stops⟩
  | outOfFuel => exact ⟨.outOfFuel, leads, stops⟩

/-- After a step that calls nothing. -/
theorem after {step : Tracer γ} {further : γ → Tracer α} {value : γ}
    (goes : GoesTo step value pointer middle)
    (rest : FollowsAt bound middle (further value middle) parsed) :
    FollowsAt bound pointer ((step >>= further) pointer) parsed := by
  obtain ⟨reads, moves, ran, read, moved⟩ := goes.trail
  rw [bind_of_done ran]
  exact .goOn (.ofIndices read moved) goes.onward (List.forall_mem_nil _) rest

/-- What is done about an error starts where the error was found. -/
theorem handle {handler : SyntaxError → Tracer α} {handled : SyntaxError → Cursor → Parsed α}
    (first : FollowsAt bound pointer (tracer pointer) parsed)
    (second : ∀ error failed, pointer.Onward failed →
      FollowsAt bound failed (handler error failed) (handled error failed.cursor)) :
    FollowsAt bound pointer (handle tracer handler pointer) (parsed.handle handled) := by
  unfold Tracer.handle Parsed.handle
  generalize tracer pointer = traced at first ⊢
  obtain ⟨outcome, trail⟩ := traced
  obtain ⟨sees, leads, stops⟩ := first
  dsimp only at sees leads stops ⊢
  cases sees with
  | done value middle => exact ⟨.done value middle, leads, stops⟩
  | outOfFuel => exact ⟨.outOfFuel, leads, stops⟩
  | failed error failed =>
    obtain ⟨onward, passed⟩ := stops failed rfl
    exact .goOn leads onward passed (second error failed onward)

end FollowsAt

end Tracer

end Lox
