import ArcRelay.Lib.Run

/-!
# Programs that await replies

An asynchronous function is a tree: it has returned, or it awaits the reply to a
call and continues with it. Calls are everything it shares with the rest of the
system, so what happens between two calls is one indivisible segment. Programs
form a monad, and `Async` adds early returns with an error.

Two ways of reasoning are provided. `Ensures` is for programs among others: it follows
the program alone, relying on something in every reply and guaranteeing something of
every call, where both may depend on what has happened before. `wp` is for a program
that runs by itself: it follows the program together with the state its calls change.
-/

/-- A program that returns an `α` and makes calls with the given replies. -/
inductive Program {Call : Type} (Reply : Call → Type) (α : Type) : Type where
  | done (value : α)
  /-- The program makes a call and continues with its reply. -/
  | await (call : Call) (next : Reply call → Program Reply α)

namespace Program

variable {Call : Type} {Reply : Call → Type} {α β γ : Type}

/-- Continue with what a program returns. -/
def bind (program : Program Reply α) (next : α → Program Reply β) : Program Reply β :=
  match program with
  | .done value => next value
  | .await call rest => .await call fun reply => (rest reply).bind next

/-- One call, returning its reply. -/
def perform (call : Call) : Program Reply (Reply call) := .await call .done

instance : Monad (Program Reply) where
  pure := .done
  bind := bind

/-- Returning is `done`. -/
@[simp] theorem pure_eq (value : α) : (pure value : Program Reply α) = .done value := rfl

/-- Continuing from a returned value. -/
@[simp] theorem done_bind (value : α) (next : α → Program Reply β) :
    (Program.done value >>= next) = next value := rfl

/-- Binding a program that awaits a call binds what follows the call. -/
@[simp] theorem await_bind (call : Call) (rest : Reply call → Program Reply α)
    (next : α → Program Reply β) :
    (Program.await call rest >>= next) = .await call fun reply => rest reply >>= next := rfl

/-! ## Traces -/

/-- A call with its reply, and the state of the world in which it was made. -/
structure Moment (World : Type) (Reply : Call → Type) where
  world : World
  call : Call
  reply : Reply call

variable {World : Type}

/-- The moments take a program to what is left of it. -/
inductive Leads : Program Reply α → List (Moment World Reply) → Program Reply α → Prop
  | nil (program : Program Reply α) : Leads program [] program
  | cons (world : World) (call : Call) (next : Reply call → Program Reply α) (reply : Reply call)
    (moments : List (Moment World Reply)) (rest : Program Reply α)
    (later : Leads (next reply) moments rest) :
    Leads (.await call next) (⟨world, call, reply⟩ :: moments) rest

/-- The moments make a program return a value. -/
def Returns (program : Program Reply α) (moments : List (Moment World Reply)) (value : α) : Prop :=
  Leads program moments (.done value)

variable {moments : List (Moment World Reply)} {rest program : Program Reply α}

/-- What takes a program forward takes it forward before anything else. -/
theorem Leads.bind (leads : Leads program moments rest) (next : α → Program Reply β) :
    Leads (program >>= next) moments (rest >>= next) := by
  induction leads with
  | nil program => exact .nil _
  | cons world call following reply moments rest later ih =>
    exact .cons world call _ reply moments _ ih

/-- A run of a program is continued by a run of what it has left. -/
theorem Leads.trans {middle : Program Reply α} {earlier later : List (Moment World Reply)}
    (first : Leads program earlier middle) (second : Leads middle later rest) :
    Leads program (earlier ++ later) rest := by
  induction first with
  | nil program => exact second
  | cons world call next reply moments middle _ ih => exact .cons world call _ reply _ _ (ih second)

/-- The replies determine a run: what takes a program to a point and then further takes what is left
at that point further. -/
theorem Leads.cancel {middle : Program Reply α} {earlier later : List (Moment World Reply)}
    (first : Leads program earlier middle) (all : Leads program (earlier ++ later) rest) :
    Leads middle later rest := by
  induction first with
  | nil program => exact all
  | cons world call next reply moments middle _ ih =>
    cases all with
    | cons _ _ _ _ _ _ following => exact ih following

/-- A mapped program returns what the program returns, mapped. -/
theorem returns_of_map {f : α → β} {value : β} (returns : Returns (f <$> program) moments value) :
    ∃ inner, Returns program moments inner ∧ f inner = value := by
  induction program generalizing moments with
  | done inner =>
    cases returns
    exact ⟨inner, .nil _, rfl⟩
  | await call next ih =>
    cases returns with
    | cons world _ _ reply moments _ later =>
      obtain ⟨inner, returned, same⟩ := ih reply later
      exact ⟨inner, .cons world call next reply moments _ returned, same⟩

/-- A program returns if every call is answered. -/
theorem exists_returns (world : World) (answer : (call : Call) → Reply call)
    (program : Program Reply α) :
    ∃ moments value, Returns program moments value ∧
      ∀ moment ∈ moments, ∃ call, moment = ⟨world, call, answer call⟩ := by
  induction program with
  | done value => exact ⟨[], value, .nil _, fun _ absent => absurd absent List.not_mem_nil⟩
  | await call next induction =>
    obtain ⟨moments, value, returns, answered⟩ := induction (answer call)
    refine ⟨⟨world, call, answer call⟩ :: moments, value,
      .cons world call next (answer call) moments _ returns, ?_⟩
    intro moment member
    cases List.mem_cons.mp member with
    | inl first => exact ⟨call, first⟩
    | inr later => exact answered moment later

/-- One more reply takes a program one call further. -/
theorem Leads.concat {call : Call} {next : Reply call → Program Reply α}
    (leads : Leads program moments (.await call next)) (world : World) (reply : Reply call) :
    Leads program (moments ++ [⟨world, call, reply⟩]) (next reply) := by
  generalize awaiting : Program.await call next = rest at leads
  induction leads with
  | nil program =>
    subst awaiting
    exact .cons world call next reply [] _ (.nil _)
  | cons world' call' next' reply' moments rest later ih =>
    exact .cons world' call' next' reply' _ _ (ih awaiting)

/-! ## Programs among others -/

/-- What a program guarantees of its calls and relies on in the replies, given what has happened to
it so far. -/
structure Contract (World : Type) {Call : Type} (Reply : Call → Type) where
  /-- What holds of a call when it is made. -/
  guarantee : List (Moment World Reply) → Call → Prop
  /-- What holds of a call with its reply. -/
  rely : List (Moment World Reply) → Moment World Reply → Prop

/-- As long as the replies are as relied on, every call has the guarantee and a returned value the
postcondition. -/
def Ensures (contract : Contract World Reply) (post : List (Moment World Reply) → α → Prop) :
    List (Moment World Reply) → Program Reply α → Prop
  | past, .done value => post past value
  | past, .await call next => contract.guarantee past call ∧ ∀ world reply,
      contract.rely past ⟨world, call, reply⟩ →
        Ensures contract post (past ++ [⟨world, call, reply⟩]) (next reply)

variable {contract : Contract World Reply} {post : List (Moment World Reply) → α → Prop}
  {past : List (Moment World Reply)}

/-- A program followed by another. -/
theorem ensures_bind {middle : List (Moment World Reply) → α → Prop}
    {post : List (Moment World Reply) → β → Prop} {next : α → Program Reply β}
    (first : Ensures contract middle past program)
    (second : ∀ now value, middle now value → Ensures contract post now (next value)) :
    Ensures contract post past (program >>= next) := by
  induction program generalizing past with
  | done value => exact second past value first
  | await call rest ih =>
    exact ⟨first.1, fun world reply relied => ih reply (first.2 world reply relied)⟩

/-- A weaker postcondition. -/
theorem Ensures.mono {weaker : List (Moment World Reply) → α → Prop}
    (ensures : Ensures contract post past program)
    (weaken : ∀ now value, post now value → weaker now value) :
    Ensures contract weaker past program := by
  induction program generalizing past with
  | done value => exact weaken past value ensures
  | await call rest ih =>
    exact ⟨ensures.1, fun world reply relied => ih reply (ensures.2 world reply relied)⟩

/-- What has happened is not undone. -/
theorem Ensures.since (ensures : Ensures contract post past program) :
    Ensures contract (fun now value => post now value ∧ past <+: now) past program := by
  induction program generalizing past with
  | done value => exact ⟨ensures, List.prefix_refl _⟩
  | await call rest ih =>
    refine ⟨ensures.1, fun world reply relied => ?_⟩
    refine (ih reply (ensures.2 world reply relied)).mono fun now value known => ?_
    exact ⟨known.1, (List.prefix_append _ _).trans known.2⟩

/-- Since an earlier moment only calls of one sort have been made. -/
def Trail (sort : Call → Bool) (past now : List (Moment World Reply)) : Prop :=
  ∃ more, now = past ++ more ∧ ∀ moment ∈ more, sort moment.call = true

section Trails

variable {sort : Call → Bool} {between now : List (Moment World Reply)}
  {moment : Moment World Reply}

/-- The calls of the past are among those of the present. -/
theorem Trail.grown (trail : Trail sort past now) : past ⊆ now := by
  obtain ⟨more, rfl, -⟩ := trail
  exact List.subset_append_left _ _

/-- A trail may be empty. -/
theorem Trail.refl (past : List (Moment World Reply)) : Trail sort past past :=
  ⟨[], by simp, by simp⟩

/-- Two trails that follow each other are one. -/
theorem Trail.trans (first : Trail sort past between) (second : Trail sort between now) :
    Trail sort past now := by
  obtain ⟨more, rfl, each⟩ := first
  obtain ⟨further, rfl, others⟩ := second
  exact ⟨more ++ further, by simp, List.forall_mem_append.mpr ⟨each, others⟩⟩

/-- Calls of one sort are calls of a wider one. -/
theorem Trail.mono {wider : Call → Bool} (trail : Trail sort past now)
    (implies : ∀ call, sort call = true → wider call = true) : Trail wider past now := by
  obtain ⟨more, rfl, each⟩ := trail
  exact ⟨more, rfl, fun moment member => implies _ (each moment member)⟩

/-- A moment was there before or is of the sort. -/
theorem Trail.mem (trail : Trail sort past now) (member : moment ∈ now) :
    moment ∈ past ∨ sort moment.call = true := by
  obtain ⟨more, rfl, each⟩ := trail
  exact (List.mem_append.mp member).imp_right (each moment)

/-- A moment of another sort was there before. -/
theorem Trail.earlier (trail : Trail sort past now) (member : moment ∈ now)
    (other : sort moment.call = false) : moment ∈ past :=
  (trail.mem member).resolve_right (by simp [other])

/-- One call of the sort is a trail. -/
theorem trail_concat (belongs : sort moment.call = true) : Trail sort past (past ++ [moment]) :=
  ⟨[moment], rfl, List.forall_mem_singleton.mpr belongs⟩

/-- What is guaranteed of every call is true of every call made since. -/
theorem Ensures.trail (ensures : Ensures contract post past program)
    (implies : ∀ now call, contract.guarantee now call → sort call = true) :
    Ensures contract (fun now value => post now value ∧ Trail sort past now) past program := by
  induction program generalizing past with
  | done value => exact ⟨ensures, .refl past⟩
  | await call rest ih =>
    refine ⟨ensures.1, fun world reply relied => ?_⟩
    refine (ih reply (ensures.2 world reply relied)).mono fun now value known => ?_
    exact ⟨known.1, (trail_concat (implies _ _ ensures.1)).trans known.2⟩

end Trails

/-- Two contracts that rely on nothing. -/
theorem Ensures.and {first second : List (Moment World Reply) → Call → Prop}
    {other : List (Moment World Reply) → α → Prop}
    (left : Ensures ⟨first, fun _ _ => True⟩ post past program)
    (right : Ensures ⟨second, fun _ _ => True⟩ other past program) :
    Ensures ⟨fun past call => first past call ∧ second past call, fun _ _ => True⟩
      (fun now value => post now value ∧ other now value) past program := by
  induction program generalizing past with
  | done value => exact ⟨left, right⟩
  | await call rest ih =>
    exact ⟨⟨left.1, right.1⟩, fun world reply relied =>
      ih reply (left.2 world reply relied) (right.2 world reply relied)⟩

/-- A program of which nothing is asked. -/
theorem ensures_true {guarantee : List (Moment World Reply) → Call → Prop}
    (anything : ∀ past call, guarantee past call) (holds : ∀ past value, post past value)
    (program : Program Reply α) : Ensures ⟨guarantee, fun _ _ => True⟩ post past program := by
  induction program generalizing past with
  | done value => exact holds past value
  | await call rest ih => exact ⟨anything past call, fun _ reply _ => ih reply⟩

/-- What a program achieves while the replies can be relied on, it achieves unless one cannot. -/
theorem Ensures.unless {reliable : Moment World Reply → Prop}
    {guarantee : List (Moment World Reply) → Call → Prop}
    (ensures : Ensures ⟨guarantee, fun _ moment => reliable moment⟩ post past program) :
    Ensures ⟨fun _ _ => True, fun _ _ => True⟩
      (fun now value => (∃ moment ∈ now, ¬ reliable moment) ∨ post now value) past program := by
  induction program generalizing past with
  | done value => exact Or.inr ensures
  | await call rest ih =>
    refine ⟨trivial, fun world reply _ => ?_⟩
    by_cases relied : reliable ⟨world, call, reply⟩
    · exact ih reply (ensures.2 world reply relied)
    · have anyhow : Ensures ⟨fun _ _ => True, fun _ _ => True⟩ (fun _ _ => True)
          (past ++ [⟨world, call, reply⟩]) (rest reply) :=
        ensures_true (fun _ _ => trivial) (fun _ _ => trivial) _
      refine anyhow.since.mono fun now value known => Or.inl ⟨_, known.2.subset ?_, relied⟩
      exact List.mem_concat_self

/-- A program with a mapped result ensures what holds of the mapped value. -/
theorem ensures_map {post : List (Moment World Reply) → β → Prop} {f : α → β}
    (ensures : Ensures contract (fun now value => post now (f value)) past program) :
    Ensures contract post past (f <$> program) :=
  ensures_bind ensures fun _ _ known => known

/-- A contract that guarantees less and relies on more. -/
theorem Ensures.relax {other : Contract World Reply} (ensures : Ensures contract post past program)
    (guarantees : ∀ now call, contract.guarantee now call → other.guarantee now call)
    (relies : ∀ now moment, other.rely now moment → contract.rely now moment) :
    Ensures other post past program := by
  induction program generalizing past with
  | done value => exact ensures
  | await call rest ih =>
    exact ⟨guarantees past call ensures.1, fun world reply relied =>
      ih reply (ensures.2 world reply (relies _ _ relied))⟩

/-- A contract that guarantees less while something holds of the past that every call keeps. -/
theorem Ensures.relax_along {other : Contract World Reply}
    (ensures : Ensures contract post past program) (invariant : List (Moment World Reply) → Prop)
    (start : invariant past)
    (keeps : ∀ now moment, invariant now → contract.guarantee now moment.call →
      invariant (now ++ [moment]))
    (guarantees : ∀ now call, invariant now → contract.guarantee now call →
      other.guarantee now call)
    (relies : ∀ now moment, other.rely now moment → contract.rely now moment) :
    Ensures other (fun now value => invariant now ∧ post now value) past program := by
  induction program generalizing past with
  | done value => exact ⟨start, ensures⟩
  | await call rest ih =>
    exact ⟨guarantees past call start ensures.1, fun world reply relied =>
      ih reply (ensures.2 world reply (relies _ _ relied)) (keeps _ _ start ensures.1)⟩

/-- More past never hurts: guarantees stay and nothing more is relied on. -/
structure Contract.Monotone (contract : Contract World Reply) : Prop where
  guarantee : ∀ {past more call}, past ⊆ more → contract.guarantee past call →
    contract.guarantee more call
  rely : ∀ {past more moment}, past ⊆ more → contract.rely more moment → contract.rely past moment

/-- With more past, a program ensures the same. -/
theorem Ensures.extend (monotone : contract.Monotone)
    (grows : ∀ past more value, past ⊆ more → post past value → post more value)
    {more : List (Moment World Reply)} (subset : past ⊆ more)
    (ensures : Ensures contract post past program) : Ensures contract post more program := by
  induction program generalizing past more with
  | done value => exact grows _ _ _ subset ensures
  | await call rest ih =>
    refine ⟨monotone.guarantee subset ensures.1, fun world reply relied => ?_⟩
    refine ih reply ?_ (ensures.2 world reply (monotone.rely subset relied))
    exact List.append_subset.mpr
      ⟨List.subset_append_of_subset_left _ subset, List.subset_append_right _ _⟩

/-- What is left of a program ensures what the program did. -/
theorem Ensures.leads {program rest : Program Reply α} {moments : List (Moment World Reply)}
    (ensures : Ensures contract post past program) (leads : Leads program moments rest)
    (relied : ∀ now moment, now ++ [moment] <+: past ++ moments → contract.rely now moment) :
    Ensures contract post (past ++ moments) rest := by
  induction leads generalizing past with
  | nil program => simpa using ensures
  | cons world call next reply moments rest later ih =>
    rw [List.append_cons] at relied ⊢
    exact ih (ensures.2 world reply (relied past _ (List.prefix_append _ _))) relied

/-- Every call a program has made had the guarantee. -/
theorem Ensures.calls (ensures : Ensures contract post past program)
    (leads : Leads program moments rest)
    (relied : ∀ now moment, now ++ [moment] <+: past ++ moments → contract.rely now moment) :
    ∀ moment ∈ moments, ∃ now, contract.guarantee now moment.call := by
  induction leads generalizing past with
  | nil program => simp
  | cons world call next reply moments rest later ih =>
    rw [List.append_cons] at relied
    intro moment member
    rcases List.mem_cons.mp member with rfl | rest
    · exact ⟨past, ensures.1⟩
    · exact ih (ensures.2 world reply (relied past _ (List.prefix_append _ _))) relied moment rest

/-- What a program returned has the postcondition. -/
theorem Ensures.returns {program : Program Reply α} {moments : List (Moment World Reply)}
    {value : α} (ensures : Ensures contract post [] program)
    (returns : Returns program moments value)
    (relied : ∀ now moment, now ++ [moment] <+: moments → contract.rely now moment) :
    post moments value :=
  ensures.leads returns relied

/-! ## A program by itself -/

/-- How the world answers a call: from a proposal of the environment it makes a reply and the world
after it, or the call has to wait. -/
abbrev Handler (World : Type) (Reply : Call → Type) :=
  World → (call : Call) → Reply call → Option (Reply call × World)

/-- A program runs by itself from one world to another. -/
inductive Runs (handle : Handler World Reply) : World → Program Reply α → α → World → Prop
  | done (world : World) (value : α) : Runs handle world (.done value) value world
  /-- A call is answered and the rest runs. -/
  | await (world : World) (call : Call) (next : Reply call → Program Reply α)
    (proposal reply : Reply call) (between after : World) (value : α)
    (answered : handle world call proposal = some (reply, between))
    (later : Runs handle between (next reply) value after) :
    Runs handle world (.await call next) value after

/-- The world has answered so. -/
def Answered (handle : Handler World Reply) (moment : Moment World Reply) : Prop :=
  ∃ proposal after, handle moment.world moment.call proposal = some (moment.reply, after)

/-- Run a program by itself on a world that answers every call at once. -/
def complete (answer : World → (call : Call) → Reply call × World) :
    Program Reply α → World → α × World
  | .done value, world => (value, world)
  | .await call next, world =>
    complete answer (next (answer world call).1) (answer world call).2

/-- What a program ensures, whatever the world is like, holds of what it returns to an environment
whose replies can be relied on. -/
theorem Ensures.complete {Environment : Type}
    {answer : Environment → (call : Call) → Reply call × Environment} {property : α → Prop}
    (ensures : Ensures contract (fun _ => property) past program)
    (relied : ∀ past world environment call,
      contract.rely past ⟨world, call, (answer environment call).1⟩) (world : World)
    (environment : Environment) : property (complete answer program environment).1 := by
  induction program generalizing past environment with
  | done value => exact ensures
  | await call next ih => exact ih _ (ensures.2 world _ (relied past world environment call)) _

/-- Run a program by itself with given proposals, numbered from the first call on. -/
def eval (handle : Handler World Reply) (proposals : Nat → (call : Call) → Reply call) :
    Nat → Program Reply α → World → Option (List (Moment World Reply) × α × World)
  | _, .done value, world => some ([], value, world)
  | time, .await call next, world =>
    match handle world call (proposals time call) with
    | none => none
    | some (reply, after) => (eval handle proposals (time + 1) (next reply) after).map fun rest =>
      (⟨world, call, reply⟩ :: rest.1, rest.2)

variable {proposals : Nat → (call : Call) → Reply call} {time : Nat}

variable {world : World}

/-- What has been evaluated runs. -/
theorem runs_of_eval {handle : Handler World Reply} {value : α} {after : World}
    (evaluated : eval handle proposals time program world = some (moments, value, after)) :
    Runs handle world program value after := by
  induction program generalizing time world moments with
  | done result =>
    cases evaluated
    exact .done _ _
  | await call next ih =>
    rw [eval] at evaluated
    split at evaluated
    · cases evaluated
    · rename_i reply between answered
      obtain ⟨⟨rest, result, last⟩, later, same⟩ := Option.map_eq_some_iff.mp evaluated
      cases same
      exact .await _ _ _ _ _ _ _ _ answered (ih reply later)

/-- What has been evaluated has made these calls, and the world has answered them. -/
theorem returns_of_eval {handle : Handler World Reply} {value : α} {after : World}
    (evaluated : eval handle proposals time program world = some (moments, value, after)) :
    Returns program moments value ∧ ∀ moment ∈ moments, Answered handle moment := by
  induction program generalizing time world moments with
  | done result =>
    cases evaluated
    exact ⟨.nil _, by simp⟩
  | await call next ih =>
    rw [eval] at evaluated
    split at evaluated
    · cases evaluated
    · rename_i reply between answered
      obtain ⟨⟨rest, result, last⟩, later, same⟩ := Option.map_eq_some_iff.mp evaluated
      cases same
      obtain ⟨returns, each⟩ := ih reply later
      refine ⟨.cons _ _ _ _ _ _ returns, fun moment member => ?_⟩
      rcases List.mem_cons.mp member with rfl | earlier
      · exact ⟨_, _, answered⟩
      · exact each moment earlier

/-- Whatever the environment proposes, the program ends as described. -/
def wp (handle : Handler World Reply) (post : α → World → Prop) :
    Program Reply α → World → Prop
  | .done value, world => post value world
  | .await call next, world => ∀ proposal reply after,
      handle world call proposal = some (reply, after) → wp handle post (next reply) after

variable {handle : Handler World Reply}

/-- A program followed by another. -/
theorem wp_bind {post : β → World → Prop} {next : α → Program Reply β}
    (ends : wp handle (fun value after => wp handle post (next value) after) program world) :
    wp handle post (program >>= next) world := by
  induction program generalizing world with
  | done value => exact ends
  | await call rest ih =>
    exact fun proposal reply after answered => ih reply (ends proposal reply after answered)

/-- A postcondition may be weakened. -/
theorem wp_mono {post weaker : α → World → Prop} (ends : wp handle post program world)
    (weaken : ∀ value after, post value after → weaker value after) :
    wp handle weaker program world := by
  induction program generalizing world with
  | done value => exact weaken value world ends
  | await call rest ih =>
    exact fun proposal reply after answered => ih reply (ends proposal reply after answered)

/-- Every run ends as described. -/
theorem wp_sound {post : α → World → Prop} {after : World} {value : α}
    (ends : wp handle post program world) (runs : Runs handle world program value after) :
    post value after := by
  induction runs with
  | done world value => exact ends
  | await world call next proposal reply between after value answered later ih =>
    exact ih (ends proposal reply between answered)

/-- What a program ensures, it ensures by itself, and its calls relate the worlds before and after
if each call does. -/
theorem Ensures.wp (ensures : Ensures contract post past program) (relation : World → World → Prop)
    (refl : ∀ world, relation world world)
    (trans : ∀ {first second third}, relation first second → relation second third →
      relation first third)
    (steps : ∀ {past world call proposal reply after}, contract.guarantee past call →
      handle world call proposal = some (reply, after) →
        contract.rely past ⟨world, call, reply⟩ ∧ relation world after) (world : World) :
    wp handle (fun value after => (∃ now, post now value) ∧ relation world after) program
      world := by
  induction program generalizing past world with
  | done value => exact ⟨⟨past, ensures⟩, refl world⟩
  | await call next ih =>
    intro proposal reply after answered
    obtain ⟨relied, related⟩ := steps ensures.1 answered
    exact wp_mono (ih reply (ensures.2 world reply relied) after)
      fun value last known => ⟨known.1, trans related known.2⟩

/-! ## Timeouts -/

/-- Give a program up when the clock says so. The clock is asked before every call. -/
def timeout (clock : Call) (expired : Reply clock → Bool) (program : Program Reply α) :
    Program Reply (Option α) :=
  match program with
  | .done value => .done (some value)
  | .await call next => .await clock fun tick =>
    if expired tick then .done none
    else .await call fun reply => timeout clock expired (next reply)

/-- A program that is given up ensures nothing of a value it does not return. The questions to the
clock become part of the past, so what the contract says must not depend on their absence. -/
theorem ensures_timeout {clock : Call} {expired : Reply clock → Bool} (monotone : contract.Monotone)
    (asks : ∀ past, contract.guarantee past clock)
    (grows : ∀ past more value, past ⊆ more → post past value → post more value)
    (ensures : Ensures contract post past program) :
    Ensures contract (fun now result => ∀ value, result = some value → post now value) past
      (timeout clock expired program) := by
  induction program generalizing past with
  | done value =>
    intro other same
    cases same
    exact ensures
  | await call next ih =>
    refine ⟨asks past, fun world tick _ => ?_⟩
    dsimp only
    split
    · intro value same
      cases same
    · have later := ensures.extend monotone grows
        (List.subset_append_left past [⟨world, clock, tick⟩])
      exact ⟨later.1, fun world reply relied => ih reply (later.2 world reply relied)⟩

/-- A program that is never given up ensures what it would without a clock. -/
theorem ensures_timeout_prompt {clock : Call} {expired : Reply clock → Bool}
    (monotone : contract.Monotone) (asks : ∀ past, contract.guarantee past clock)
    (prompt : ∀ past world tick, contract.rely past ⟨world, clock, tick⟩ → expired tick = false)
    (grows : ∀ past more value, past ⊆ more → post past value → post more value)
    (ensures : Ensures contract post past program) :
    Ensures contract (fun now result => ∃ value, result = some value ∧ post now value) past
      (timeout clock expired program) := by
  induction program generalizing past with
  | done value => exact ⟨value, rfl, ensures⟩
  | await call next ih =>
    refine ⟨asks past, fun world tick relied => ?_⟩
    dsimp only
    rw [prompt past world tick relied]
    have later := ensures.extend monotone grows
      (List.subset_append_left past [⟨world, clock, tick⟩])
    exact ⟨later.1, fun world reply relied => ih reply (later.2 world reply relied)⟩

end Program

/-! ## Early returns -/

/-- A program that returns a value or stops with an error. -/
abbrev Async {Call : Type} (Reply : Call → Type) (ε α : Type) : Type :=
  ExceptT ε (Program Reply) α

namespace Async

variable {Call : Type} {Reply : Call → Type} {World ε α β : Type}

/-- One call, returning its reply. -/
def call (request : Call) : Async Reply ε (Reply request) :=
  ExceptT.mk (Program.perform request >>= fun reply => pure (.ok reply))

/-- A computation that makes no call. -/
def ofExcept (result : Except ε α) : Async Reply ε α := ExceptT.mk (pure result)

/-- Stop with an error if the condition holds. -/
def refuse (condition : Bool) (error : ε) : Async Reply ε Unit :=
  ofExcept (if condition then .error error else .ok ())

/-- Run a program if the condition holds. -/
def whenever (condition : Prop) [Decidable condition] (program : Async Reply ε Unit) :
    Async Reply ε Unit :=
  if condition then program else pure ()

/-- Run to the end and return its result as a value. -/
def result (program : Async Reply ε α) : Async Reply ε (Except ε α) :=
  ExceptT.mk (program.run >>= fun value => pure (.ok value))

variable {value : α}

/-- A computation that makes no call returns its value. -/
theorem returns_ofExcept {result : Except ε α} (succeeds : result = .ok value) :
    Program.Returns (ofExcept result : Async Reply ε α).run
      ([] : List (Program.Moment World Reply)) (.ok value) := by
  rw [succeeds]
  exact .nil _

variable {later earlier : List (Program.Moment World Reply)} {next : α → Async Reply ε β}
  {program : Async Reply ε α}

/-- A run of a program that returned a value is continued by a run of what follows. -/
theorem returns_bind {rest : Program Reply (Except ε β)}
    (first : Program.Returns program.run earlier (.ok value))
    (second : Program.Leads (next value).run later rest) :
    Program.Leads (program >>= next).run (earlier ++ later) rest :=
  (Program.Leads.bind first _).trans second

/-- If what follows can go on after a program that returned a value, so can both together. -/
theorem leads_bind (first : Program.Returns program.run earlier (.ok value))
    (second : ∃ rest, Program.Leads (next value).run later rest) :
    ∃ rest, Program.Leads (program >>= next).run (earlier ++ later) rest := by
  obtain ⟨rest, continues⟩ := second
  exact ⟨rest, returns_bind first continues⟩

/-- A run that goes on after a program has returned a value is a run of what follows. -/
theorem leads_of_bind {rest : Program Reply (Except ε β)}
    (first : Program.Returns program.run earlier (.ok value))
    (all : Program.Leads (program >>= next).run (earlier ++ later) rest) :
    Program.Leads (next value).run later rest :=
  (Program.Leads.bind first _).cancel all

/-- As long as the replies are as relied on, every call has the guarantee and a value that is
returned the postcondition. Errors are unconstrained. -/
def Ensures (contract : Program.Contract World Reply)
    (post : List (Program.Moment World Reply) → α → Prop)
    (past : List (Program.Moment World Reply)) (program : Async Reply ε α) : Prop :=
  program.run.Ensures contract (fun now result => ∀ value, result = .ok value → post now value) past

variable {contract : Program.Contract World Reply}
  {post : List (Program.Moment World Reply) → α → Prop} {past : List (Program.Moment World Reply)}

variable {middle : List (Program.Moment World Reply) → α → Prop}

/-- A step followed by the rest. -/
theorem ensures_bind {post : List (Program.Moment World Reply) → β → Prop}
    (first : Ensures contract middle past program)
    (second : ∀ now value, middle now value → Ensures contract post now (next value)) :
    Ensures contract post past (program >>= next) := by
  refine Program.ensures_bind first (fun now result known => ?_)
  cases result with
  | ok value => exact second now value (known value rfl)
  | error error =>
    intro value same
    cases same

/-- A step followed by the rest, which can still look at what was there before the step. -/
theorem ensures_bind_since {post : List (Program.Moment World Reply) → β → Prop}
    (first : Ensures contract middle past program)
    (second : ∀ now value, past <+: now → middle now value →
      Ensures contract post now (next value)) :
    Ensures contract post past (program >>= next) := by
  refine Program.ensures_bind (Program.Ensures.since first) (fun now result known => ?_)
  cases result with
  | ok value => exact second now value known.2 (known.1 value rfl)
  | error error =>
    intro value same
    cases same

/-- A step followed by the rest, if errors matter as well. -/
theorem ensures_bind_run {middle : List (Program.Moment World Reply) → Except ε α → Prop}
    {post : List (Program.Moment World Reply) → Except ε β → Prop}
    (first : program.run.Ensures contract middle past)
    (second : ∀ now value, middle now (.ok value) → (next value).run.Ensures contract post now)
    (failed : ∀ now error, middle now (.error error) → post now (.error error)) :
    (program >>= next).run.Ensures contract post past := by
  refine Program.ensures_bind first fun now result known => ?_
  cases result with
  | ok value => exact second now value known
  | error error => exact failed now error known

variable {request : Call}

/-- One call followed by the rest, if errors matter as well. -/
theorem ensures_call_bind {next : Reply request → Async Reply ε β}
    {post : List (Program.Moment World Reply) → Except ε β → Prop}
    (asks : contract.guarantee past request)
    (second : ∀ world reply, contract.rely past ⟨world, request, reply⟩ →
      (next reply).run.Ensures contract post (past ++ [⟨world, request, reply⟩])) :
    (call request >>= next).run.Ensures contract post past :=
  ⟨asks, second⟩

/-- A step whose result is looked at, followed by the rest. -/
theorem ensures_result_bind {post : List (Program.Moment World Reply) → Except ε β → Prop}
    {next : Except ε α → Async Reply ε β}
    (first : program.run.Ensures contract (fun now result =>
      (next result).run.Ensures contract post now) past) :
    (result program >>= next).run.Ensures contract post past :=
  Program.ensures_bind (Program.ensures_bind first fun _ _ known => known) fun _ _ known => known

/-- A program that returns a value ensures what holds of it. -/
theorem ensures_pure (holds : post past value) :
    Ensures contract post past (pure value : Async Reply ε α) := by
  intro other same
  cases same
  exact holds

/-- A program that fails at once ensures everything of the value. -/
theorem ensures_throw (error : ε) :
    Ensures contract post past (throw error : Async Reply ε α) := by
  intro other same
  cases same

/-- One call. -/
theorem ensures_call {post : List (Program.Moment World Reply) → Reply request → Prop}
    (asks : contract.guarantee past request)
    (replied : ∀ world reply, contract.rely past ⟨world, request, reply⟩ →
      post (past ++ [⟨world, request, reply⟩]) reply) :
    Ensures contract post past (call request : Async Reply ε _) := by
  refine ⟨asks, fun world reply relied value same => ?_⟩
  cases same
  exact replied world reply relied

/-- A computation that makes no call. -/
theorem ensures_ofExcept {result : Except ε α}
    (holds : ∀ value, result = .ok value → post past value) :
    Ensures contract post past (ofExcept result : Async Reply ε α) := holds

/-- A computation that makes no call, followed by the rest. -/
theorem ensures_ofExcept_bind {post : List (Program.Moment World Reply) → β → Prop}
    {result : Except ε α}
    (second : ∀ value, result = .ok value → Ensures contract post past (next value)) :
    Ensures contract post past (ofExcept result >>= next) := by
  cases result with
  | ok value => exact second value rfl
  | error error =>
    intro value same
    cases same

/-- After a check that may refuse, the condition is known not to hold. -/
theorem ensures_refuse {condition : Bool} {error : ε}
    {post : List (Program.Moment World Reply) → Unit → Prop}
    (holds : condition = false → post past ()) :
    Ensures contract post past (refuse condition error : Async Reply ε Unit) := by
  refine ensures_ofExcept (fun value passed => ?_)
  cases condition with
  | true => simp at passed
  | false => exact holds rfl

/-- A computation that succeeded. -/
theorem ensures_succeeded {result : Except ε α} :
    Ensures contract (fun _ value => result = .ok value) past (ofExcept result : Async Reply ε α) :=
  ensures_ofExcept fun _ same => same

/-- A check that passed. -/
theorem ensures_passed {condition : Bool} {error : ε} :
    Ensures contract (fun _ _ => condition = false) past
      (refuse condition error : Async Reply ε Unit) :=
  ensures_refuse id

/-- A program that runs under a condition. -/
theorem ensures_whenever {condition : Prop} [Decidable condition] {program : Async Reply ε Unit}
    {post : List (Program.Moment World Reply) → Unit → Prop}
    (runs : condition → Ensures contract post past program) (skips : ¬condition → post past ()) :
    Ensures contract post past (whenever condition program) := by
  unfold whenever
  split
  · exact runs ‹_›
  · exact ensures_pure (skips ‹_›)

/-- The result of a program as a value. -/
theorem ensures_result (ensures : Ensures contract post past program) :
    Ensures contract (fun now result => ∀ value, result = .ok value → post now value) past
      (result program) := by
  refine Program.ensures_bind ensures (fun now value known other same => ?_)
  cases same
  exact known

/-- What holds however a program ends also holds after its result was dropped. -/
theorem ensures_discard {after : List (Program.Moment World Reply) → Prop} {value : β}
    (ensures : program.run.Ensures contract (fun now _ => after now) past) :
    (do let _ ← result program
        return value : Async Reply ε β).run.Ensures contract (fun now _ => after now) past := by
  have taken : (result program).run.Ensures contract (fun now _ => after now) past :=
    Program.ensures_bind ensures fun _ _ known => known
  refine Program.ensures_bind taken fun now outcome known => ?_
  cases outcome with
  | ok result => exact known
  | error error => exact known

/-- A weaker postcondition. -/
theorem Ensures.mono {weaker : List (Program.Moment World Reply) → α → Prop}
    (ensures : Ensures contract post past program)
    (weaken : ∀ now value, post now value → weaker now value) :
    Ensures contract weaker past program :=
  Program.Ensures.mono ensures fun now _ known value same => weaken now value (known value same)

/-- The program never stops with an error. -/
def Succeeds (contract : Program.Contract World Reply) (past : List (Program.Moment World Reply))
    (program : Async Reply ε α) : Prop :=
  program.run.Ensures contract (fun _ result => ∃ value, result = .ok value) past

/-- A step followed by the rest. -/
theorem succeeds_bind (first : Succeeds contract past program)
    (second : ∀ now value, Succeeds contract now (next value)) :
    Succeeds contract past (program >>= next) := by
  refine Program.ensures_bind first (fun now result known => ?_)
  obtain ⟨value, rfl⟩ := known
  exact second now value

/-- A program that returns a value succeeds. -/
theorem succeeds_pure (value : α) : Succeeds contract past (pure value : Async Reply ε α) :=
  ⟨value, rfl⟩

/-- A call that is guaranteed succeeds. -/
theorem succeeds_call (asks : contract.guarantee past request) :
    Succeeds contract past (call request : Async Reply ε _) :=
  ⟨asks, fun _ reply _ => ⟨reply, rfl⟩⟩

/-- Taking the result of a program as a value succeeds. -/
theorem succeeds_result (ensures : Ensures contract post past program) :
    Succeeds contract past (result program) :=
  Program.ensures_bind ensures fun _ value _ => ⟨value, rfl⟩

/-- The program never stops with an error, and what it returns has the postcondition. -/
def Achieves (contract : Program.Contract World Reply)
    (post : List (Program.Moment World Reply) → α → Prop)
    (past : List (Program.Moment World Reply)) (program : Async Reply ε α) : Prop :=
  program.run.Ensures contract (fun now result => ∃ value, result = .ok value ∧ post now value) past

/-- A step that cannot fail, followed by the rest. -/
theorem achieves_bind_run {post : List (Program.Moment World Reply) → Except ε β → Prop}
    (first : Achieves contract middle past program)
    (second : ∀ now value, middle now value → (next value).run.Ensures contract post now) :
    (program >>= next).run.Ensures contract post past := by
  refine Program.ensures_bind first fun now result known => ?_
  obtain ⟨value, rfl, holds⟩ := known
  exact second now value holds

/-- A step followed by the rest. -/
theorem achieves_bind {post : List (Program.Moment World Reply) → β → Prop}
    (first : Achieves contract middle past program)
    (second : ∀ now value, middle now value → Achieves contract post now (next value)) :
    Achieves contract post past (program >>= next) :=
  achieves_bind_run first second

/-- A program that returns a value achieves what holds of it. -/
theorem achieves_pure (holds : post past value) :
    Achieves contract post past (pure value : Async Reply ε α) :=
  ⟨value, rfl, holds⟩

/-- One call. -/
theorem achieves_call {post : List (Program.Moment World Reply) → Reply request → Prop}
    (asks : contract.guarantee past request)
    (replied : ∀ world reply, contract.rely past ⟨world, request, reply⟩ →
      post (past ++ [⟨world, request, reply⟩]) reply) :
    Achieves contract post past (call request : Async Reply ε _) :=
  ⟨asks, fun world reply relied => ⟨reply, rfl, replied world reply relied⟩⟩

/-- A computation that succeeds. -/
theorem achieves_ofExcept {result : Except ε α} (succeeds : result = .ok value) :
    Achieves contract (fun _ found => found = value) past (ofExcept result : Async Reply ε α) :=
  ⟨value, succeeds, rfl⟩

/-- A check whose condition does not hold achieves its postcondition. -/
theorem achieves_refuse {condition : Bool} {error : ε} (passes : condition = false) :
    Achieves contract (fun _ _ => True) past (refuse condition error : Async Reply ε Unit) := by
  subst passes
  exact ⟨(), rfl, trivial⟩

/-- A program that never fails. -/
theorem Succeeds.achieves (succeeds : Succeeds contract past program) :
    Achieves contract (fun _ _ => True) past program :=
  Program.Ensures.mono succeeds fun _ _ ⟨value, same⟩ => ⟨value, same, trivial⟩

variable {handle : Program.Handler World Reply}

/-- A step followed by the rest, for a program by itself. -/
theorem wp_bind {ends : Except ε β → World → Prop} {world : World}
    (first : program.run.wp handle (fun result after => match result with
      | .ok value => (next value).run.wp handle ends after
      | .error error => ends (.error error) after) world) :
    (program >>= next).run.wp handle ends world := by
  refine Program.wp_bind (Program.wp_mono first fun result after known => ?_)
  cases result with
  | ok value => exact known
  | error error => exact known

/-- One call, for a program by itself. -/
theorem wp_call {ends : Except ε (Reply request) → World → Prop} {world : World}
    (replied : ∀ proposal reply after, handle world request proposal = some (reply, after) →
      ends (.ok reply) after) :
    (call request : Async Reply ε _).run.wp handle ends world :=
  replied

/-- A computation without calls, for a program by itself. -/
theorem wp_ofExcept {result : Except ε α} {ends : Except ε α → World → Prop} {world : World}
    (holds : ends result world) : (ofExcept result : Async Reply ε α).run.wp handle ends world :=
  holds

end Async
