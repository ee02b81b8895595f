import ArcRelay.Lib.Program
import ArcRelay.Lib.Sides

/-!
# Two programs that exchange messages

Two programs run at the ends of a link: each has calls that send a message to the other
end, calls that wait for one, and calls it answers by itself. Messages arrive in the order
they were sent, after any delay, so the two ends take their steps in any order.

The order does not matter. Steps of different ends commute, hence a schedule that leads to
a state in which neither end can move bounds all others: every schedule can be continued to
the same state, and none is longer. What one end does is described by `Plays`, without the
other end: it consumes some messages and sends some. A run of the link is then put together
from the moves of its ends.
-/

/-! ## Steps that commute -/

namespace Schedule

variable {State Label : Type} (step : State → Label → Option State)

/-- Take the steps of a schedule, all of which have to be possible. -/
def run (state : State) (schedule : List Label) : Option State := schedule.foldlM step state

/-- Nothing can happen any more. -/
def Final (state : State) : Prop := ∀ label, step state label = none

/-- Two different steps can be taken in either order, and lead to the same state. -/
def Commutes : Prop :=
  ∀ state first second afterFirst afterSecond, first ≠ second →
    step state first = some afterFirst → step state second = some afterSecond →
      ∃ both, step afterFirst second = some both ∧ step afterSecond first = some both

variable {step}

@[simp] theorem run_nil (state : State) : run step state [] = some state := rfl

@[simp] theorem run_cons (state : State) (label : Label) (schedule : List Label) :
    run step state (label :: schedule) = (step state label).bind (run step · schedule) := rfl

/-- One schedule after the other. -/
theorem run_append (state : State) (first second : List Label) :
    run step state (first ++ second) = (run step state first).bind (run step · second) :=
  List.foldlM_append

variable [DecidableEq Label]

variable {state last : State} {schedule : List Label}

/-- A step that is possible before a schedule to the end is part of the schedule, and can be taken
first. -/
theorem run_erase (commutes : Commutes step) {next : State} {label : Label}
    (runs : run step state schedule = some last) (final : Final step last)
    (taken : step state label = some next) :
    label ∈ schedule ∧ run step next (schedule.erase label) = some last := by
  induction schedule generalizing state next with
  | nil =>
    have stays : state = last := Option.some.inj runs
    rw [stays, final label] at taken
    cases taken
  | cons head rest ih =>
    rw [run_cons] at runs
    obtain ⟨middle, moved, later⟩ := Option.bind_eq_some_iff.mp runs
    by_cases same : head = label
    · have meets : middle = next := by
        rw [same, taken] at moved
        exact (Option.some.inj moved).symm
      rw [same, List.erase_cons_head, ← meets]
      exact ⟨List.mem_cons_self, later⟩
    · obtain ⟨both, aside, forward⟩ := commutes state head label middle next same moved taken
      obtain ⟨member, continued⟩ := ih later aside
      refine ⟨List.mem_cons_of_mem _ member, ?_⟩
      rw [List.erase_cons_tail (by simpa using same), run_cons, forward]
      exact continued

/-- Every schedule can be continued to the state in which one schedule has ended, and both then
consist of the same steps. -/
theorem run_completes (commutes : Commutes step) (runs : run step state schedule = some last)
    (final : Final step last) {other : List Label} {reached : State}
    (leads : run step state other = some reached) :
    ∃ rest, run step reached rest = some last ∧ (other ++ rest).Perm schedule := by
  induction other generalizing state schedule with
  | nil =>
    cases leads
    exact ⟨schedule, runs, List.Perm.refl _⟩
  | cons label later ih =>
    rw [run_cons] at leads
    obtain ⟨next, taken, continued⟩ := Option.bind_eq_some_iff.mp leads
    obtain ⟨member, shorter⟩ := run_erase commutes runs final taken
    obtain ⟨rest, finishes, same⟩ := ih shorter continued
    exact ⟨rest, finishes, (same.cons label).trans (List.perm_cons_erase member).symm⟩

/-- No schedule is longer than one that has ended. -/
theorem length_le_of_final (commutes : Commutes step) (runs : run step state schedule = some last)
    (final : Final step last) {other : List Label} {reached : State}
    (leads : run step state other = some reached) :
    other.length ≤ schedule.length := by
  obtain ⟨rest, -, same⟩ := run_completes commutes runs final leads
  have together := same.length_eq
  rw [List.length_append] at together
  omega

/-- There is one state at most in which a schedule can end. -/
theorem final_unique (commutes : Commutes step) (runs : run step state schedule = some last)
    (final : Final step last) {other : List Label} {reached : State}
    (leads : run step state other = some reached) (stuck : Final step reached) :
    reached = last := by
  obtain ⟨rest, finishes, -⟩ := run_completes commutes runs final leads
  cases rest with
  | nil => exact Option.some.inj finishes
  | cons label later =>
    rw [run_cons, stuck label] at finishes
    cases finishes

end Schedule

/-! ## The ends of a link -/

namespace Duplex

open Sides (Side)

/-- What a call means for the end that makes it. -/
inductive Port (Message Own Answer : Type) where
  /-- It sends a message and is answered at once. -/
  | send (message : Message) (answer : Answer)
  | receive (read : Message → Answer)
  /-- The end answers it itself, or lets it wait. -/
  | own (answers : Own → Option (Answer × Own))

variable {Call : Type} {Reply : Call → Type} {α β Message Own : Type}

variable (Reply Message Own) in
/-- What every call means. -/
abbrev Wiring := (call : Call) → Port Message Own (Reply call)

variable (Reply α Message Own) in
/-- An end of a link: what is left of its program, its own state, and the messages that have been
sent to it. -/
structure End where
  rest : Program Reply α
  own : Own
  /-- The messages it has not received yet, oldest first. -/
  inbox : List Message

/-- More messages are on their way to an end. -/
def End.deliver (receiver : End Reply α Message Own) (messages : List Message) :
    End Reply α Message Own :=
  { receiver with inbox := receiver.inbox ++ messages }

/-- The next call of an end, if it has one that need not wait, and what it sends. -/
def End.move (wiring : Wiring Reply Message Own) (mover : End Reply α Message Own) :
    Option (End Reply α Message Own × List Message) :=
  match mover.rest with
  | .done _ => none
  | .await call next =>
    match wiring call with
    | .send message answer => some ({ mover with rest := next answer }, [message])
    | .receive read =>
      match mover.inbox with
      | [] => none
      | message :: later => some ({ mover with rest := next (read message), inbox := later }, [])
    | .own answers =>
      (answers mover.own).map fun answered =>
        ({ mover with rest := next answered.1, own := answered.2 }, [])

/-- An end that can move moves in the same way if more messages arrive. -/
theorem End.move_deliver {wiring : Wiring Reply Message Own} {mover after : End Reply α Message Own}
    {sent : List Message} (moves : mover.move wiring = some (after, sent))
    (messages : List Message) :
    (mover.deliver messages).move wiring = some (after.deliver messages, sent) := by
  obtain ⟨rest, own, inbox⟩ := mover
  cases rest with
  | done value => cases moves
  | await call next =>
    simp only [End.move, End.deliver] at moves ⊢
    cases port : wiring call with
    | send message answer =>
      rw [port] at moves
      cases moves
      rfl
    | receive read =>
      rw [port] at moves
      cases inbox with
      | nil => cases moves
      | cons message later =>
        cases moves
        rfl
    | own answers =>
      rw [port] at moves
      obtain ⟨answered, known, same⟩ := Option.map_eq_some_iff.mp moves
      cases same
      simp only [known, Option.map_some]

variable (Reply α Message Own) in
/-- Two ends with what is on the way between them. -/
structure Link where
  left : End Reply α Message Own
  right : End Reply α Message Own

variable (leftWiring rightWiring : Wiring Reply Message Own)

/-- One end makes its next call. -/
def Link.step (link : Link Reply α Message Own) : Side → Option (Link Reply α Message Own)
  | .left => (link.left.move leftWiring).map fun moved => ⟨moved.1, link.right.deliver moved.2⟩
  | .right => (link.right.move rightWiring).map fun moved => ⟨link.left.deliver moved.2, moved.1⟩

/-- Steps of different ends commute. -/
theorem Link.commutes :
    Schedule.Commutes (Link.step leftWiring rightWiring :
      Link Reply α Message Own → Side → Option (Link Reply α Message Own)) := by
  have opposite : ∀ (link onLeft onRight : Link Reply α Message Own),
      link.step leftWiring rightWiring .left = some onLeft →
        link.step leftWiring rightWiring .right = some onRight →
          ∃ both, onLeft.step leftWiring rightWiring .right = some both ∧
            onRight.step leftWiring rightWiring .left = some both := by
    intro link onLeft onRight first second
    obtain ⟨⟨left, toRight⟩, leftMoves, same⟩ := Option.map_eq_some_iff.mp first
    obtain ⟨⟨right, toLeft⟩, rightMoves, same'⟩ := Option.map_eq_some_iff.mp second
    subst same same'
    refine ⟨⟨left.deliver toLeft, right.deliver toRight⟩, ?_, ?_⟩
    · simp only [Link.step, End.move_deliver rightMoves toRight, Option.map_some]
    · simp only [Link.step, End.move_deliver leftMoves toLeft, Option.map_some]
  intro link first second afterFirst afterSecond different stepFirst stepSecond
  cases first with
  | left =>
    cases second with
    | left => exact absurd rfl different
    | right => exact opposite link afterFirst afterSecond stepFirst stepSecond
  | right =>
    cases second with
    | left =>
      obtain ⟨both, second, first⟩ := opposite link afterSecond afterFirst stepSecond stepFirst
      exact ⟨both, first, second⟩
    | right => exact absurd rfl different

/-! ## What an end does by itself -/

/-- What the other end can notice. -/
inductive Exchange (Message : Type) where
  | sent (message : Message)
  | got (message : Message)

/-- An end goes from one program and state to another, with these exchanges on the way. -/
inductive Plays (wiring : Wiring Reply Message Own) :
    Program Reply α → Own → List (Exchange Message) → Program Reply α → Own → Prop
  | nil (program : Program Reply α) (own : Own) : Plays wiring program own [] program own
  | send {call : Call} {next : Reply call → Program Reply α} {message : Message}
    {answer : Reply call} {own after : Own} {exchanges : List (Exchange Message)}
    {rest : Program Reply α} (port : wiring call = .send message answer)
    (later : Plays wiring (next answer) own exchanges rest after) :
    Plays wiring (.await call next) own (.sent message :: exchanges) rest after
  | receive {call : Call} {next : Reply call → Program Reply α} {read : Message → Reply call}
    {own after : Own} {exchanges : List (Exchange Message)} {rest : Program Reply α}
    (port : wiring call = .receive read) (message : Message)
    (later : Plays wiring (next (read message)) own exchanges rest after) :
    Plays wiring (.await call next) own (.got message :: exchanges) rest after
  | own {call : Call} {next : Reply call → Program Reply α}
    {answers : Own → Option (Reply call × Own)} {answer : Reply call} {own middle after : Own}
    {exchanges : List (Exchange Message)} {rest : Program Reply α}
    (port : wiring call = .own answers) (answered : answers own = some (answer, middle))
    (later : Plays wiring (next answer) middle exchanges rest after) :
    Plays wiring (.await call next) own exchanges rest after

section Plays

variable {wiring : Wiring Reply Message Own} {own middle after : Own}
  {exchanges more : List (Exchange Message)}

/-- Two parts that are played one after the other are played together. -/
theorem Plays.trans {program between rest : Program Reply α}
    (first : Plays wiring program own exchanges between middle)
    (second : Plays wiring between middle more rest after) :
    Plays wiring program own (exchanges ++ more) rest after := by
  induction first with
  | nil program own => exact second
  | send port later ih => exact .send port (ih second)
  | receive port message later ih => exact .receive port message (ih second)
  | own port answered later ih => exact .own port answered (ih second)

/-- A program plays as the first part of another. -/
theorem Plays.bind {program rest : Program Reply α}
    (plays : Plays wiring program own exchanges rest after) (next : α → Program Reply β) :
    Plays wiring (program >>= next) own exchanges (rest >>= next) after := by
  induction plays with
  | nil program own => exact .nil _ _
  | send port later ih => exact .send port ih
  | receive port message later ih => exact .receive port message ih
  | own port answered later ih => exact .own port answered ih

/-- The end answers a call itself, without a change. -/
def Answered (wiring : Wiring Reply Message Own) (own : Own) (call : Call) : Prop :=
  ∃ answers answer, wiring call = .own answers ∧ answers own = some (answer, own)

/-- A program all of whose calls are answered in this way returns something. -/
theorem exists_plays {World : Type} (world : World) {program : Program Reply α}
    {past : List (Program.Moment World Reply)} {post : List (Program.Moment World Reply) → α → Prop}
    (ensures : Program.Ensures ⟨fun _ => Answered wiring own, fun _ _ => True⟩ post past program) :
    ∃ value, Plays wiring program own [] (.done value) own := by
  induction program generalizing past with
  | done value => exact ⟨value, .nil _ _⟩
  | await call next ih =>
    obtain ⟨⟨answers, answer, port, answered⟩, later⟩ := ensures
    obtain ⟨value, plays⟩ := ih answer (later world answer trivial)
    exact ⟨value, .own port answered plays⟩

end Plays

/-! ## Putting the ends together -/

/-- The link seen from the other side. -/
def Link.swap (link : Link Reply α Message Own) : Link Reply α Message Own :=
  ⟨link.right, link.left⟩

/-- One link can become the other. -/
def Leads (leftWiring rightWiring : Wiring Reply Message Own)
    (before after : Link Reply α Message Own) : Prop :=
  ∃ schedule, Schedule.run (Link.step leftWiring rightWiring) before schedule = some after

variable {leftWiring rightWiring}

/-- A link leads to itself. -/
theorem Leads.refl (link : Link Reply α Message Own) : Leads leftWiring rightWiring link link :=
  ⟨[], rfl⟩

variable {before : Link Reply α Message Own}

/-- One thing happens after the other. -/
theorem Leads.trans {between after : Link Reply α Message Own}
    (first : Leads leftWiring rightWiring before between)
    (second : Leads leftWiring rightWiring between after) :
    Leads leftWiring rightWiring before after := by
  obtain ⟨schedule, runs⟩ := first
  obtain ⟨later, continues⟩ := second
  refine ⟨schedule ++ later, ?_⟩
  rw [Schedule.run_append, runs]
  exact continues

/-- A link leads wherever a step of its left end leads. -/
theorem Leads.left {between after : Link Reply α Message Own}
    (steps : before.step leftWiring rightWiring .left = some between)
    (later : Leads leftWiring rightWiring between after) :
    Leads leftWiring rightWiring before after := by
  obtain ⟨schedule, runs⟩ := later
  refine ⟨.left :: schedule, ?_⟩
  rw [Schedule.run_cons, steps]
  exact runs

/-- What happens on a link happens seen from the other side. -/
theorem Leads.swap {after : Link Reply α Message Own}
    (leads : Leads leftWiring rightWiring before after) :
    Leads rightWiring leftWiring before.swap after.swap := by
  obtain ⟨schedule, runs⟩ := leads
  induction schedule generalizing before with
  | nil =>
    cases runs
    exact .refl _
  | cons side later ih =>
    rw [Schedule.run_cons] at runs
    obtain ⟨between, steps, continues⟩ := Option.bind_eq_some_iff.mp runs
    have seen : before.swap.step rightWiring leftWiring side.other = some between.swap := by
      cases side <;>
        obtain ⟨moved, moves, rfl⟩ := Option.map_eq_some_iff.mp steps <;>
        simp only [Link.step, Link.swap, Side.other, moves, Option.map_some]
    obtain ⟨schedule, reaches⟩ := ih continues
    refine ⟨side.other :: schedule, ?_⟩
    rw [Schedule.run_cons, seen]
    exact reaches

/-- Delivering no message changes nothing. -/
theorem End.deliver_nil (receiver : End Reply α Message Own) : receiver.deliver [] = receiver := by
  simp [End.deliver]

/-- The left end answers a call itself. -/
theorem Link.step_own {call : Call} {next : Reply call → Program Reply α}
    {answers : Own → Option (Reply call × Own)} {answer : Reply call} {own middle : Own}
    (port : leftWiring call = .own answers) (answered : answers own = some (answer, middle))
    (inbox : List Message) (right : End Reply α Message Own) :
    Link.step leftWiring rightWiring ⟨⟨.await call next, own, inbox⟩, right⟩ .left =
      some ⟨⟨next answer, middle, inbox⟩, right⟩ := by
  simp only [Link.step, End.move, port, answered, Option.map_some, End.deliver_nil]

section Left

variable {program rest : Program Reply α} {own after : Own} {exchanges : List (Exchange Message)}
  (inbox : List Message) (right : End Reply α Message Own)

/-- Calls that the left end answers itself happen on the link. -/
theorem Plays.leads_nil (plays : Plays leftWiring program own [] rest after) :
    Leads leftWiring rightWiring ⟨⟨program, own, inbox⟩, right⟩ ⟨⟨rest, after, inbox⟩, right⟩ := by
  generalize none : ([] : List (Exchange Message)) = exchanges at plays
  induction plays with
  | nil program own => exact .refl _
  | send => cases none
  | receive => cases none
  | own port answered later ih => exact .left (Link.step_own port answered _ _) (ih none)

/-- If the left end is to send a message next, it can. -/
theorem Plays.leads_sent {message : Message}
    (plays : Plays leftWiring program own (.sent message :: exchanges) rest after) :
    ∃ between middle, Plays leftWiring between middle exchanges rest after ∧
      Leads leftWiring rightWiring ⟨⟨program, own, inbox⟩, right⟩
        ⟨⟨between, middle, inbox⟩, right.deliver [message]⟩ := by
  generalize all : Exchange.sent message :: exchanges = whole at plays
  induction plays with
  | nil => cases all
  | @send _ next _ answer own _ _ _ port later =>
    cases all
    have steps : Link.step leftWiring rightWiring ⟨⟨.await _ next, own, inbox⟩, right⟩ .left =
        some ⟨⟨next answer, own, inbox⟩, right.deliver [message]⟩ := by
      simp only [Link.step, End.move, port, Option.map_some]
    exact ⟨next answer, own, later, .left steps (.refl _)⟩
  | receive => cases all
  | own port answered later ih =>
    obtain ⟨between, last, continues, leads⟩ := ih all
    exact ⟨between, last, continues, .left (Link.step_own port answered _ _) leads⟩

/-- If the left end is to receive a message next that has arrived, it can. -/
theorem Plays.leads_got {message : Message}
    (plays : Plays leftWiring program own (.got message :: exchanges) rest after) :
    ∃ between middle, Plays leftWiring between middle exchanges rest after ∧
      Leads leftWiring rightWiring ⟨⟨program, own, message :: inbox⟩, right⟩
        ⟨⟨between, middle, inbox⟩, right⟩ := by
  generalize all : Exchange.got message :: exchanges = whole at plays
  induction plays with
  | nil => cases all
  | send => cases all
  | @receive _ next read own _ _ _ port _ later =>
    cases all
    have steps : Link.step leftWiring rightWiring
        ⟨⟨.await _ next, own, message :: inbox⟩, right⟩ .left =
          some ⟨⟨next (read message), own, inbox⟩, right⟩ := by
      simp only [Link.step, End.move, port, Option.map_some, End.deliver_nil]
    exact ⟨next (read message), own, later, .left steps (.refl _)⟩
  | own port answered later ih =>
    obtain ⟨between, last, continues, leads⟩ := ih all
    exact ⟨between, last, continues, .left (Link.step_own port answered _ _) leads⟩

end Left

/-- The exchanges of two ends fit together, given what is on its way to either: some order of them
receives every message after it was sent, and all of them. -/
inductive Meshes : List (Exchange Message) → List (Exchange Message) → List Message →
    List Message → Prop
  | nil : Meshes [] [] [] []
  | sentLeft {message : Message} {left right : List (Exchange Message)}
    {toLeft toRight : List Message} (later : Meshes left right toLeft (toRight ++ [message])) :
    Meshes (.sent message :: left) right toLeft toRight
  | gotLeft {message : Message} {left right : List (Exchange Message)}
    {toLeft toRight : List Message} (later : Meshes left right toLeft toRight) :
    Meshes (.got message :: left) right (message :: toLeft) toRight
  | sentRight {message : Message} {left right : List (Exchange Message)}
    {toLeft toRight : List Message} (later : Meshes left right (toLeft ++ [message]) toRight) :
    Meshes left (.sent message :: right) toLeft toRight
  | gotRight {message : Message} {left right : List (Exchange Message)}
    {toLeft toRight : List Message} (later : Meshes left right toLeft toRight) :
    Meshes left (.got message :: right) toLeft (message :: toRight)

/-- Ends whose exchanges fit together can play them. -/
theorem Meshes.leads {left right : List (Exchange Message)} {toLeft toRight : List Message}
    (meshes : Meshes left right toLeft toRight) {leftProgram leftRest : Program Reply α}
    {rightProgram rightRest : Program Reply α} {leftOwn leftAfter rightOwn rightAfter : Own}
    (leftPlays : Plays leftWiring leftProgram leftOwn left leftRest leftAfter)
    (rightPlays : Plays rightWiring rightProgram rightOwn right rightRest rightAfter) :
    Leads leftWiring rightWiring
      ⟨⟨leftProgram, leftOwn, toLeft⟩, ⟨rightProgram, rightOwn, toRight⟩⟩
      ⟨⟨leftRest, leftAfter, []⟩, ⟨rightRest, rightAfter, []⟩⟩ := by
  induction meshes generalizing leftProgram leftOwn rightProgram rightOwn with
  | nil => exact (leftPlays.leads_nil _ _).trans (rightPlays.leads_nil _ _).swap
  | sentLeft later ih =>
    obtain ⟨between, middle, continues, leads⟩ := leftPlays.leads_sent _ _
    exact leads.trans (ih continues rightPlays)
  | gotLeft later ih =>
    obtain ⟨between, middle, continues, leads⟩ := leftPlays.leads_got _ _
    exact leads.trans (ih continues rightPlays)
  | sentRight later ih =>
    obtain ⟨between, middle, continues, leads⟩ := rightPlays.leads_sent _ _
    exact leads.swap.trans (ih leftPlays continues)
  | gotRight later ih =>
    obtain ⟨between, middle, continues, leads⟩ := rightPlays.leads_got _ _
    exact leads.swap.trans (ih leftPlays continues)

/-- The link ends with these values, whichever end moves when: no schedule is longer than some
bound, every schedule can be continued until both ends have returned them, and where neither end can
move they have. -/
structure Concludes (leftWiring rightWiring : Wiring Reply Message Own)
    (link : Link Reply α Message Own) (leftValue rightValue : α) : Prop where
  bounded : ∃ bound, ∀ schedule reached,
    Schedule.run (Link.step leftWiring rightWiring) link schedule = some reached →
      schedule.length ≤ bound
  /-- Both ends can always still return. -/
  reachable : ∀ schedule reached,
    Schedule.run (Link.step leftWiring rightWiring) link schedule = some reached →
      ∃ last, Leads leftWiring rightWiring reached last ∧
        last.left.rest = .done leftValue ∧ last.right.rest = .done rightValue
  unblocked : ∀ schedule reached,
    Schedule.run (Link.step leftWiring rightWiring) link schedule = some reached →
      Schedule.Final (Link.step leftWiring rightWiring) reached →
        reached.left.rest = .done leftValue ∧ reached.right.rest = .done rightValue

/-- One schedule on which both ends return settles all of them. -/
theorem Leads.concludes {link last : Link Reply α Message Own} {leftValue rightValue : α}
    (leads : Leads leftWiring rightWiring link last)
    (leftDone : last.left.rest = .done leftValue) (rightDone : last.right.rest = .done rightValue) :
    Concludes leftWiring rightWiring link leftValue rightValue := by
  obtain ⟨schedule, runs⟩ := leads
  have commutes := Link.commutes (α := α) leftWiring rightWiring
  have final : Schedule.Final (Link.step leftWiring rightWiring) last := by
    intro side
    cases side with
    | left => simp [Link.step, End.move, leftDone]
    | right => simp [Link.step, End.move, rightDone]
  refine ⟨⟨schedule.length, fun other reached => ?_⟩, fun other reached run => ?_,
    fun other reached run stuck => ?_⟩
  · exact Schedule.length_le_of_final commutes runs final
  · obtain ⟨rest, finishes, -⟩ := Schedule.run_completes commutes runs final run
    exact ⟨last, ⟨rest, finishes⟩, leftDone, rightDone⟩
  · rw [Schedule.final_unique commutes runs final run stuck]
    exact ⟨leftDone, rightDone⟩

end Duplex

/-! ## Early returns -/

namespace Async

open Duplex

variable {Call : Type} {Reply : Call → Type} {ε α β Message Own : Type}
  {wiring : Wiring Reply Message Own} {own after : Own} {exchanges : List (Exchange Message)}

/-- A program plays until it returns a value. -/
def Plays (wiring : Wiring Reply Message Own) (program : Async Reply ε α) (own : Own)
    (exchanges : List (Exchange Message)) (value : α) (after : Own) : Prop :=
  Duplex.Plays wiring program.run own exchanges (.done (.ok value)) after

/-- Two programs, one after the other. -/
theorem plays_bind {middle : Own} {more : List (Exchange Message)} {program : Async Reply ε α}
    {value : α} {next : α → Async Reply ε β} {result : β}
    (first : Plays wiring program own exchanges value middle)
    (second : Plays wiring (next value) middle more result after) :
    Plays wiring (program >>= next) own (exchanges ++ more) result after :=
  (Duplex.Plays.bind first _).trans second

/-- A program that exchanges nothing, followed by another. -/
theorem plays_silent {middle : Own} {program : Async Reply ε α} {value : α}
    {next : α → Async Reply ε β} {result : β} (first : Plays wiring program own [] value middle)
    (second : Plays wiring (next value) middle exchanges result after) :
    Plays wiring (program >>= next) own exchanges result after :=
  plays_bind first second

/-- A returned value is played without an exchange. -/
theorem plays_pure (value : α) : Plays wiring (pure value : Async Reply ε α) own [] value own :=
  .nil _ _

/-- A computation that succeeds returns its result. -/
theorem plays_ofExcept {result : Except ε α} {value : α} (succeeds : result = .ok value) :
    Plays wiring (ofExcept result : Async Reply ε α) own [] value own := by
  subst succeeds
  exact .nil _ _

/-- A condition that does not hold refuses nothing. -/
theorem plays_refuse {condition : Bool} {error : ε} (passes : condition = false) :
    Plays wiring (refuse condition error : Async Reply ε Unit) own [] () own := by
  subst passes
  exact .nil _ _

/-- A call that the end answers itself. -/
theorem plays_own {call : Call} {answers : Own → Option (Reply call × Own)} {answer : Reply call}
    (port : wiring call = .own answers) (answered : answers own = some (answer, after)) :
    Plays wiring (Async.call call : Async Reply ε _) own [] answer after :=
  .own port answered (.nil _ _)

/-- A call that sends a message. -/
theorem plays_send {call : Call} {message : Message} {answer : Reply call}
    (port : wiring call = .send message answer) :
    Plays wiring (Async.call call : Async Reply ε _) own [.sent message] answer own :=
  .send port (.nil _ _)

/-- A call that receives a message. -/
theorem plays_receive {call : Call} {read : Message → Reply call}
    (port : wiring call = .receive read) (message : Message) :
    Plays wiring (Async.call call : Async Reply ε _) own [.got message] (read message) own :=
  .receive port message (.nil _ _)

/-- A result is returned as a value, whatever it is. -/
theorem plays_result {program : Async Reply ε α} {result : Except ε α}
    (plays : Duplex.Plays wiring program.run own exchanges (.done result) after) :
    Plays wiring (Async.result program : Async Reply ε _) own exchanges result after := by
  have joined := Duplex.Plays.bind plays fun value =>
    (Program.done (.ok value) : Program Reply (Except ε (Except ε α)))
  exact joined

end Async
