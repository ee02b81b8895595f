import ArcRelay.Lib.Program

/-!
# Programs that may be killed

A program that runs by itself may be stopped after any of its calls; what it has done
to the world by then stays. `Endures` follows a program together with the world, as
`wp` does, and asks for an invariant at every point where it may be stopped.
`Finishes` is the other side: with given proposals every call is answered and the
program returns.
-/

namespace Program

variable {Call : Type} {Reply : Call → Type} {World α β : Type}

/-- What is left of a program, and the world, after at most so many calls. -/
def advance (handle : Handler World Reply) (proposals : Nat → (call : Call) → Reply call) :
    Nat → Nat → Program Reply α → World → Program Reply α × World
  | 0, _, program, world => (program, world)
  | _ + 1, _, .done value, world => (.done value, world)
  | steps + 1, time, .await call next, world =>
    match handle world call (proposals time call) with
    | none => (.await call next, world)
    | some (reply, after) => advance handle proposals steps (time + 1) (next reply) after

variable {handle : Handler World Reply} {proposals : Nat → (call : Call) → Reply call}

/-- A program that has returned makes no further call. -/
@[simp] theorem advance_done (steps time : Nat) (value : α) (world : World) :
    advance handle proposals steps time (.done value) world = (.done value, world) := by
  cases steps <;> rfl

/-! ## Whatever the environment proposes -/

/-- The invariant holds before and after every call, and the program ends as described. -/
def Endures (handle : Handler World Reply) (invariant : World → Prop)
    (post : α → World → Prop) : Program Reply α → World → Prop
  | .done value, world => invariant world ∧ post value world
  | .await call next, world => invariant world ∧ ∀ proposal reply after,
      handle world call proposal = some (reply, after) →
        Endures handle invariant post (next reply) after

variable {invariant : World → Prop} {post : α → World → Prop}

variable {program : Program Reply α} {world : World}

/-- A program followed by another. -/
theorem endures_bind {post : β → World → Prop} {next : α → Program Reply β}
    (endures : Endures handle invariant
      (fun value after => Endures handle invariant post (next value) after) program world) :
    Endures handle invariant post (program >>= next) world := by
  induction program generalizing world with
  | done value => exact endures.2
  | await call rest ih =>
    exact ⟨endures.1, fun proposal reply after answered =>
      ih reply (endures.2 proposal reply after answered)⟩

/-- A weaker postcondition, which may use the invariant. -/
theorem Endures.mono {weaker : α → World → Prop}
    (endures : Endures handle invariant post program world)
    (weaken : ∀ value after, invariant after → post value after → weaker value after) :
    Endures handle invariant weaker program world := by
  induction program generalizing world with
  | done value => exact ⟨endures.1, weaken value world endures.1 endures.2⟩
  | await call rest ih =>
    exact ⟨endures.1, fun proposal reply after answered =>
      ih reply (endures.2 proposal reply after answered)⟩

/-- A program that keeps an invariant keeps every weaker one. -/
theorem Endures.weaken {other : World → Prop} {program : Program Reply α} {world : World}
    (endures : Endures handle invariant post program world)
    (weaken : ∀ world, invariant world → other world) :
    Endures handle other post program world := by
  induction program generalizing world with
  | done value => exact ⟨weaken world endures.1, endures.2⟩
  | await call rest ih =>
    exact ⟨weaken world endures.1, fun proposal reply after answered =>
      ih reply (endures.2 proposal reply after answered)⟩

/-- Wherever the program is stopped the invariant holds, and if it has returned it has ended as
described. -/
theorem Endures.advance (endures : Endures handle invariant post program world) (steps time : Nat) :
    invariant (advance handle proposals steps time program world).2 ∧
      ∀ value, (advance handle proposals steps time program world).1 = .done value →
        post value (advance handle proposals steps time program world).2 := by
  induction program generalizing world steps time with
  | done value =>
    rw [advance_done]
    refine ⟨endures.1, fun other same => ?_⟩
    cases same
    exact endures.2
  | await call next ih =>
    cases steps with
    | zero => exact ⟨endures.1, nofun⟩
    | succ steps =>
      unfold Program.advance
      split
      · exact ⟨endures.1, nofun⟩
      · rename_i reply after answered
        exact ih reply (endures.2 _ reply after answered) steps (time + 1)

/-! ## With given proposals -/

/-- Every call is answered and the program ends as described. -/
def Finishes (handle : Handler World Reply) (proposals : Nat → (call : Call) → Reply call)
    (post : α → World → Prop) : Nat → Program Reply α → World → Prop
  | _, .done value, world => post value world
  | time, .await call next, world => ∃ reply after,
      handle world call (proposals time call) = some (reply, after) ∧
        Finishes handle proposals post (time + 1) (next reply) after

/-- A program followed by another, whenever that starts. -/
theorem finishes_bind {post : β → World → Prop} {next : α → Program Reply β} {time : Nat}
    (finishes : Finishes handle proposals
      (fun value after => ∀ later, Finishes handle proposals post later (next value) after)
      time program world) :
    Finishes handle proposals post time (program >>= next) world := by
  induction program generalizing world time with
  | done value => exact finishes time
  | await call rest ih =>
    obtain ⟨reply, after, answered, remaining⟩ := finishes
    exact ⟨reply, after, answered, ih reply remaining⟩

/-- The postcondition of a program that finishes may be weakened. -/
theorem Finishes.mono {weaker : α → World → Prop} {time : Nat}
    (finishes : Finishes handle proposals post time program world)
    (weaken : ∀ value after, post value after → weaker value after) :
    Finishes handle proposals weaker time program world := by
  induction program generalizing world time with
  | done value => exact weaken value world finishes
  | await call rest ih =>
    obtain ⟨reply, after, answered, remaining⟩ := finishes
    exact ⟨reply, after, answered, ih reply remaining⟩

/-- Given enough calls the program has returned. -/
theorem Finishes.advance {time : Nat}
    (finishes : Finishes handle proposals post time program world) :
    ∃ enough, ∀ steps, enough ≤ steps → ∃ value after,
      advance handle proposals steps time program world = (.done value, after) ∧
        post value after := by
  induction program generalizing world time with
  | done value => exact ⟨0, fun steps _ => ⟨value, world, advance_done _ _ _ _, finishes⟩⟩
  | await call next ih =>
    obtain ⟨reply, after, answered, remaining⟩ := finishes
    obtain ⟨enough, returned⟩ := ih reply remaining
    refine ⟨enough + 1, fun steps many => ?_⟩
    obtain ⟨fewer, rfl⟩ : ∃ fewer, steps = fewer + 1 := ⟨steps - 1, by omega⟩
    obtain ⟨value, last, reached, known⟩ := returned fewer (by omega)
    refine ⟨value, last, ?_, known⟩
    unfold Program.advance
    rw [answered]
    exact reached

end Program

namespace Async

variable {Call : Type} {Reply : Call → Type} {World ε α β : Type}
  {handle : Program.Handler World Reply} {proposals : Nat → (call : Call) → Reply call}
  {invariant : World → Prop}

variable {program : Async Reply ε α} {world : World}

/-- A step followed by the rest. -/
theorem endures_bind {post : Except ε β → World → Prop} {next : α → Async Reply ε β}
    (first : program.run.Endures handle invariant (fun result after => match result with
      | .ok value => (next value).run.Endures handle invariant post after
      | .error error => post (.error error) after) world) :
    (program >>= next).run.Endures handle invariant post world := by
  refine Program.endures_bind (first.mono fun result after kept known => ?_)
  cases result with
  | ok value => exact known
  | error error => exact ⟨kept, known⟩

/-- A step whose result is looked at, followed by the rest. -/
theorem endures_result_bind {post : Except ε β → World → Prop} {next : Except ε α → Async Reply ε β}
    (first : program.run.Endures handle invariant (fun result after =>
      (next result).run.Endures handle invariant post after) world) :
    (result program >>= next).run.Endures handle invariant post world := by
  refine endures_bind (Program.endures_bind (first.mono fun outcome after kept known => ?_))
  exact ⟨kept, known⟩

/-- A step that succeeds followed by the rest. -/
theorem finishes_bind {post : Except ε β → World → Prop} {next : α → Async Reply ε β} {time : Nat}
    (first : program.run.Finishes handle proposals (fun result after => ∃ value,
      result = .ok value ∧
        ∀ later, (next value).run.Finishes handle proposals post later after) time world) :
    (program >>= next).run.Finishes handle proposals post time world := by
  refine Program.finishes_bind (first.mono fun result after known => ?_)
  obtain ⟨value, rfl, remaining⟩ := known
  exact remaining

/-- A step whose result is looked at, followed by the rest. -/
theorem finishes_result_bind {post : Except ε β → World → Prop}
    {next : Except ε α → Async Reply ε β} {time : Nat}
    (first : program.run.Finishes handle proposals (fun result after =>
      ∀ later, (next result).run.Finishes handle proposals post later after) time world) :
    (result program >>= next).run.Finishes handle proposals post time world := by
  refine finishes_bind (Program.finishes_bind (first.mono fun outcome after known later => ?_))
  exact ⟨outcome, rfl, known⟩

end Async
