import ArcRelay.Lib.Run
import ArcRelay.TwoParty
import ArcRelay.Verif.Registry

/-!
# What two ends see of two sessions

An end is abstracted to which of the two sessions its registry holds and which
of their connections are open. On these two facts `register_session` is a small
function, and the registries of both runtimes are shown to follow it from every
state with no live entry under the key. Arbitration is then a matter of the
abstract ends alone.
-/

namespace ArcRelay.TwoParty

open Sides (Side)

/-! ## The abstract end -/

/-- What matters of one end. -/
structure End where
  held : Option Dial
  opened : Dial → Bool

namespace End

/-- Close a connection. -/
def close (view : End) (dial : Dial) : End :=
  { view with opened := fun other => if other = dial then false else view.opened other }

/-- Registering a session, where `keeps` says which held session survives which incoming one. -/
def register (keeps : Dial → Dial → Bool) (view : End) (dial : Dial) : End :=
  match view.held with
  | none => { view with held := some dial }
  | some current =>
    if current = dial then view
    else if view.opened current && keeps current dial then view.close dial
    else { view.close current with held := some dial }

/-- Looking up the key drops a held session that is closed. -/
def lookup (view : End) : End :=
  match view.held with
  | none => view
  | some current => if view.opened current then view else { view with held := none }

end End

/-- Both abstract ends, and what each has registered. -/
structure Ends where
  view : Side → End
  order : Side → List Dial

/-- Change one end. -/
def Ends.at (ends : Ends) (side : Side) (view : End) : Ends :=
  { ends with view := fun other => if other = side then view else ends.view other }

/-- Add a session to what an end has registered. -/
def Ends.note (ends : Ends) (side : Side) (dial : Dial) : Ends :=
  { ends with
    order := fun other => if other = side then ends.order side ++ [dial] else ends.order other }

@[simp] theorem Ends.at_order (ends : Ends) (side : Side) (view : End) :
    (ends.at side view).order = ends.order := rfl

/-- One action on the abstract ends. -/
def Ends.step (keeps : Dial → Dial → Bool) (ends : Ends) : Action → Ends
  | .register side dial => (ends.at side ((ends.view side).register keeps dial)).note side dial
  | .deliver side dial =>
    if (ends.view side.other).opened dial then ends
    else ends.at side ((ends.view side).close dial)
  | .lookup side => ends.at side (ends.view side).lookup
  | .fail side dial => ends.at side ((ends.view side).close dial)

/-! ## Abstraction -/

variable (pair : DialPair)

/-- The session of the pair that an entry is for. -/
def dialOf (side : Side) (entry : ActiveSession) : Option Dial :=
  if entry.connection = pair.conn .first side then some .first
  else if entry.connection = pair.conn .second side then some .second
  else none

/-- The end a registry amounts to. -/
def view (side : Side) (registry : Registry) : End where
  held := (registry.sessions (pair.key side)).bind (dialOf pair side)
  opened dial := registry.isOpen (pair.conn dial side)

/-- A registry in which only the two sessions can be live under the key: their handles are held,
an entry is for one of them or stale, and it has not retired the peer's process. -/
structure Clean (side : Side) (registry : Registry) : Prop where
  handled : ∀ dial, registry.handles (pair.conn dial side) = true
  /-- An entry for one of the connections is for that session. -/
  own : ∀ entry dial, registry.sessions (pair.key side) = some entry →
    entry.connection = pair.conn dial side → entry.session = pair.session dial side
  stale : ∀ entry, registry.sessions (pair.key side) = some entry →
    dialOf pair side entry = none → registry.live entry = none
  admitted : ∀ entry dial, registry.sessions (pair.key side) = some entry →
    Registry.retires entry (pair.session dial side) = false

/-- Whether a held session survives an incoming one. -/
def keeps (current incoming : Dial) : Bool :=
  Registry.keepsActive (pair.session current .left) (pair.session incoming .left)

theorem keepsActive_side (side : Side) (current incoming : Dial) :
    Registry.keepsActive (pair.session current side) (pair.session incoming side) =
      keeps pair current incoming := by
  cases side with
  | left => rfl
  | right => simp [keeps, Registry.keepsActive, pair.sameRank, pair.sameRelay]

variable {pair} {side : Side} {registry : Registry}

variable {entry : ActiveSession} {dial : Dial}

/-- An entry is for a session when it has the session's connection. -/
theorem dialOf_eq_some :
    dialOf pair side entry = some dial ↔ entry.connection = pair.conn dial side := by
  have separate : pair.conn .first side ≠ pair.conn .second side := pair.separate side
  unfold dialOf
  cases dial with
  | first =>
    split
    · simp_all
    · split <;> simp_all
  | second =>
    split
    · simp_all
    · split <;> simp_all

/-- An entry is for neither session when it has a connection of its own. -/
theorem dialOf_eq_none :
    dialOf pair side entry = none ↔ ∀ dial, entry.connection ≠ pair.conn dial side := by
  constructor
  · intro neither dial same
    rw [dialOf_eq_some.mpr same] at neither
    cases neither
  · intro different
    cases found : dialOf pair side entry with
    | none => rfl
    | some dial => exact absurd (dialOf_eq_some.mp found) (different dial)

theorem conn_inj {other : Dial} :
    pair.conn dial side = pair.conn other side ↔ dial = other := by
  have separate : pair.conn .first side ≠ pair.conn .second side := pair.separate side
  cases dial <;> cases other <;> simp [separate, separate.symm]

theorem held_of_found (found : registry.sessions (pair.key side) = some entry) :
    (view pair side registry).held = dialOf pair side entry := by
  simp [view, found]

theorem held_of_absent (absent : registry.sessions (pair.key side) = none) :
    (view pair side registry).held = none := by
  simp [view, absent]

/-- A session of the pair displaces no process of an entry for the pair. -/
theorem displaced_own (current incoming : Dial) (retired : List ProcessInstanceId) :
    Registry.displaced ⟨retired, pair.session current side⟩ (pair.session incoming side) =
      none := by
  have same : (pair.session current side).peerProcessInstanceId =
      (pair.session incoming side).peerProcessInstanceId := by
    cases current <;> cases incoming <;> simp [pair.sameInstance]
  unfold Registry.displaced ActiveSession.peerProcessInstanceId
  rw [same]
  cases (pair.session incoming side).peerProcessInstanceId <;> simp

theorem view_closeWith (registry : Registry) (dial : Dial) (reason : ConnectionError) :
    view pair side (registry.closeWith (pair.conn dial side) reason) =
      (view pair side registry).close dial := by
  simp only [view, End.close, Registry.closeWith_sessions, End.mk.injEq, true_and]
  funext other
  by_cases same : other = dial <;> simp [same, conn_inj]

theorem Clean.closeWith (clean : Clean pair side registry) (connection : ConnectionId)
    (reason : ConnectionError) : Clean pair side (registry.closeWith connection reason) where
  handled := by simpa using clean.handled
  own := by simpa using clean.own
  stale := by
    intro entry found neither
    have gone := clean.stale entry (by simpa using found) neither
    simp only [Registry.live, Registry.upgrade, Registry.closeWith_handles,
      Registry.isOpen_closeWith] at gone ⊢
    split at gone <;> simp_all
  admitted := by simpa using clean.admitted

theorem instance_eq (dial other : Dial) : (pair.session dial side).peerProcessInstanceId =
    (pair.session other side).peerProcessInstanceId := by
  cases dial <;> cases other <;> simp [pair.sameInstance]

/-- Registering a session does not retire the process it came from. -/
theorem retires_retiredAfter {incoming : Dial}
    (admitted : Registry.retires entry (pair.session incoming side) = false) (dial : Dial)
    (session : Session) :
    Registry.retires ⟨Registry.retiredAfter entry (pair.session incoming side), session⟩
      (pair.session dial side) = false := by
  unfold Registry.retires at admitted ⊢
  rw [instance_eq dial incoming]
  split at admitted
  · rename_i process named
    simp only [List.contains_eq_mem, decide_eq_false_iff_not] at admitted ⊢
    unfold Registry.retiredAfter
    split
    · rename_i previous displaced
      intro member
      rcases List.mem_concat_iff.mp (List.mem_of_mem_drop member) with earlier | latest
      · exact admitted earlier
      · have different : previous ≠ process := by
          rintro rfl
          unfold Registry.displaced at displaced
          split at displaced <;> simp_all
        exact different latest.symm
    · exact admitted
  · rfl

/-- A registry that holds a session of the pair with its handles kept is clean. -/
theorem Clean.of_inserted {after : Registry} {retired : List ProcessInstanceId}
    (handled : ∀ dial, after.handles (pair.conn dial side) = true)
    (inserted : after.sessions (pair.key side) = some ⟨retired, pair.session dial side⟩)
    (admitted : ∀ other, Registry.retires ⟨retired, pair.session dial side⟩
      (pair.session other side) = false) : Clean pair side after where
  handled := handled
  own := by
    intro entry other found same
    cases inserted.symm.trans found
    rw [conn_inj.mp same]
  stale := by
    intro entry found neither
    cases inserted.symm.trans found
    exact absurd rfl (dialOf_eq_none.mp neither dial)
  admitted := by
    intro entry other found
    cases inserted.symm.trans found
    exact admitted other

theorem view_of_inserted {after : Registry} {retired : List ProcessInstanceId}
    (inserted : after.sessions (pair.key side) = some ⟨retired, pair.session dial side⟩) :
    view pair side after = ⟨some dial, fun other => after.isOpen (pair.conn other side)⟩ := by
  have held := held_of_found inserted
  rw [dialOf_eq_some.mpr rfl] at held
  simp only [view] at held ⊢
  rw [held]

/-- On a clean registry `register_session` does what registering does on its view, and the registry
stays clean. -/
theorem register_refines (clean : Clean pair side registry) (dial : Dial) :
    Clean pair side (registry.registerSession (pair.session dial side)).2 ∧
      view pair side (registry.registerSession (pair.session dial side)).2 =
        (view pair side registry).register (keeps pair) dial := by
  have outcome := registry.registerSession_registration (pair.session dial side)
  have keyed : (pair.session dial side).key = pair.key side := pair.keyed dial side
  generalize (registry.registerSession (pair.session dial side)).1 = result at outcome
  generalize (registry.registerSession (pair.session dial side)).2 = after at outcome ⊢
  cases outcome with
  | fresh absent =>
    rw [keyed] at absent
    have inserted : (registry.put ⟨[], pair.session dial side⟩).sessions (pair.key side) =
        some ⟨[], pair.session dial side⟩ := by simp [keyed]
    refine ⟨.of_inserted clean.handled inserted (fun other => ?_), ?_⟩
    · unfold Registry.retires
      split <;> simp
    · rw [view_of_inserted inserted, End.register, held_of_absent absent]
      rfl
  | obsolete current found retired _ returned =>
    rw [keyed] at found
    simp [clean.admitted current dial found] at retired
  | same current found admitted held identical =>
    rw [keyed] at found
    have own := clean.own current dial found identical
    have unchanged : registry.settleRestart current (pair.session dial side) = registry := by
      obtain ⟨retired, session⟩ := current
      cases own
      simp [Registry.settleRestart, displaced_own]
    rw [unchanged]
    refine ⟨clean, ?_⟩
    simp [End.register, held_of_found found, dialOf_eq_some.mpr identical]
  | kept current found admitted held different opened undisplaced preferred =>
    rw [keyed] at found
    refine ⟨clean.closeWith _ _, ?_⟩
    cases own : dialOf pair side current with
    | none =>
      have gone := clean.stale current found own
      have held' : registry.handles current.session.conn = true := held
      have opened' : registry.isOpen current.session.conn = true := opened
      simp [Registry.live, Registry.upgrade, held', opened'] at gone
    | some incumbent =>
      have connection := dialOf_eq_some.mp own
      have distinct : incumbent ≠ dial := by
        rintro rfl
        exact different connection
      have wins : keeps pair incumbent dial = true := by
        rw [← keepsActive_side pair side, ← clean.own current incumbent found connection]
        exact preferred
      have shown : (view pair side registry).opened incumbent = true := by
        rw [← opened, connection]
        rfl
      rw [End.register, held_of_found found, own]
      simp only [distinct, ↓reduceIte, shown, wins, Bool.and_self]
      exact view_closeWith registry dial _
  | replaced current found admitted different lost =>
    rw [keyed] at found
    have inserted : ((registry.cleared current (pair.session dial side)).replace current
        (pair.session dial side)
        (Registry.retiredAfter current (pair.session dial side))).sessions (pair.key side) =
        some ⟨Registry.retiredAfter current (pair.session dial side), pair.session dial side⟩ := by
      simp [Registry.replace, keyed]
    refine ⟨.of_inserted (by simpa [Registry.replace] using clean.handled) inserted
      (fun other => retires_retiredAfter admitted other _), ?_⟩
    rw [view_of_inserted inserted, End.register, held_of_found found]
    cases own : dialOf pair side current with
    | none =>
      have separate := dialOf_eq_none.mp own
      simp only [view, End.mk.injEq, true_and]
      funext other
      rw [Registry.replace, Registry.isOpen_release_of_ne _ (separate other).symm,
        Registry.isOpen_put, Registry.isOpen_cleared]
      simp [(separate other).symm]
    | some incumbent =>
      have connection := dialOf_eq_some.mp own
      have session := clean.own current incumbent found connection
      have handled : registry.handles current.connection = true :=
        connection ▸ clean.handled incumbent
      have distinct : incumbent ≠ dial := by
        rintro rfl
        exact different handled connection
      have undisplaced : Registry.displaced current (pair.session dial side) = none := by
        obtain ⟨retired, _⟩ := current
        cases session
        exact displaced_own incumbent dial retired
      have loses : ((view pair side registry).opened incumbent && keeps pair incumbent dial) =
          false := by
        rw [Bool.and_eq_false_imp]
        intro opened
        rw [← keepsActive_side pair side, ← session]
        exact lost handled (connection ▸ opened) undisplaced
      simp only [distinct, ↓reduceIte, loses, Bool.false_eq_true]
      simp only [End.close, view, End.mk.injEq, true_and]
      funext other
      have conn : current.session.conn = pair.conn incumbent side := connection
      by_cases same : other = incumbent
      · subst same
        simp [Registry.replace, Registry.isOpen_release, Registry.isOpen_cleared, connection,
          clean.handled other]
      · have apart : pair.conn other side ≠ current.session.conn := by
          rw [conn]
          exact fun equal => same (conn_inj.mp equal)
        rw [Registry.replace, Registry.isOpen_release_of_ne _ apart, Registry.isOpen_put,
          Registry.isOpen_cleared]
        have apart' : pair.conn other side ≠ current.connection := apart
        simp [same, apart']

/-- A held session of a clean registry can be upgraded exactly while it is open. -/
theorem Clean.live_own (clean : Clean pair side registry)
    (found : registry.sessions (pair.key side) = some entry)
    (own : dialOf pair side entry = some dial) :
    (registry.live entry).isSome = (view pair side registry).opened dial := by
  have session := clean.own entry dial found (dialOf_eq_some.mp own)
  have handled : registry.handles (pair.session dial side).conn = true := clean.handled dial
  have opened : (view pair side registry).opened dial =
      registry.isOpen (pair.session dial side).conn := rfl
  rw [opened]
  simp only [Registry.live, Registry.upgrade, session, handled, ↓reduceIte, Option.filter_some]
  cases registry.isOpen (pair.session dial side).conn <;> rfl

/-- On a clean registry `active` does what a lookup does on its view, and the registry stays
clean. -/
theorem lookup_refines (clean : Clean pair side registry) :
    Clean pair side (registry.active (pair.key side).1 (pair.key side).2).2 ∧
      view pair side (registry.active (pair.key side).1 (pair.key side).2).2 =
        (view pair side registry).lookup := by
  have removed : Clean pair side (registry.remove (pair.key side)) :=
    { handled := by simpa using clean.handled
      own := by simp
      stale := by simp
      admitted := by simp }
  cases found : registry.sessions (pair.key side) with
  | none =>
    have unchanged : (registry.active (pair.key side).1 (pair.key side).2).2 = registry := by
      simp [Registry.active, Registry.remove, found]
    rw [unchanged, End.lookup, held_of_absent found]
    exact ⟨clean, rfl⟩
  | some entry =>
    cases live : registry.live entry with
    | some session =>
      have unchanged : (registry.active (pair.key side).1 (pair.key side).2).2 = registry := by
        simp [Registry.active, found, live]
      rw [unchanged, End.lookup, held_of_found found]
      refine ⟨clean, ?_⟩
      cases own : dialOf pair side entry with
      | none => rfl
      | some dial =>
        have opened := clean.live_own found own
        rw [live] at opened
        simp [← opened]
    | none =>
      have dropped : (registry.active (pair.key side).1 (pair.key side).2).2 =
          registry.remove (pair.key side) := by
        simp [Registry.active, found, live]
      rw [dropped]
      refine ⟨removed, ?_⟩
      have absent : (registry.remove (pair.key side)).sessions (pair.key side) = none := by simp
      have openness : ∀ dial, (dialOf pair side entry = some dial →
          (view pair side registry).opened dial = false) →
          (registry.remove (pair.key side)).isOpen (pair.conn dial side) =
            registry.isOpen (pair.conn dial side) := by
        intro dial closed
        by_cases own : entry.connection = pair.conn dial side
        · have shut : registry.isOpen (pair.conn dial side) = false :=
            closed (dialOf_eq_some.mpr own)
          rw [shut]
          by_contra opened
          rw [Bool.not_eq_false] at opened
          rw [Registry.isOpen_of_remove _ opened] at shut
          cases shut
        · refine registry.isOpen_remove_of_ne (fun current present => ?_)
          cases found.symm.trans present
          exact fun same => own same.symm
      have ends : (view pair side (registry.remove (pair.key side))) =
          ⟨none, (view pair side registry).opened⟩ := by
        simp only [view, absent, Option.bind_none, End.mk.injEq, true_and]
        funext dial
        refine openness dial (fun own => ?_)
        have opened := clean.live_own found own
        rw [live] at opened
        exact opened.symm
      rw [ends, End.lookup, held_of_found found]
      cases own : dialOf pair side entry with
      | none =>
        have held := held_of_found found
        rw [own] at held
        change (⟨none, (view pair side registry).opened⟩ : End) = view pair side registry
        rw [← held]
      | some dial =>
        have opened := clean.live_own found own
        rw [live] at opened
        simp [← opened]

/-! ## Runs -/

/-- Both registries are clean. -/
def Tidy (pair : DialPair) (state : State) : Prop := ∀ side, Clean pair side (state.registry side)

/-- The ends both registries amount to. -/
def ends (pair : DialPair) (state : State) : Ends :=
  ⟨fun side => view pair side (state.registry side), state.order⟩

variable {state : State}

/-- Changing one clean registry keeps both clean and changes one end. -/
theorem at_refines (tidy : Tidy pair state) {registry : Registry} {after : End}
    (refined : Clean pair side registry ∧ view pair side registry = after) :
    Tidy pair (state.at side registry) ∧
      ends pair (state.at side registry) = (ends pair state).at side after := by
  constructor
  · intro other
    unfold State.at
    dsimp only
    split
    · rename_i same
      exact same ▸ refined.1
    · exact tidy other
  · simp only [ends, State.at, Ends.at, Ends.mk.injEq, and_true]
    funext other
    split
    · rename_i same
      rw [same]
      exact refined.2
    · rfl

/-- One action on the registries is the same action on their ends. -/
theorem step_refines (tidy : Tidy pair state) (action : Action) :
    Tidy pair (step pair state action) ∧
      ends pair (step pair state action) = (ends pair state).step (keeps pair) action := by
  cases action with
  | register side dial =>
    obtain ⟨clean, same⟩ := at_refines tidy (register_refines (tidy side) dial)
    refine ⟨clean, ?_⟩
    change (ends pair (state.at side _)).note side dial = _
    rw [same]
    rfl
  | deliver side dial =>
    have opened : ((ends pair state).view side.other).opened dial =
        (state.registry side.other).isOpen (pair.conn dial side.other) := rfl
    simp only [step, Ends.step, opened]
    split
    · exact ⟨tidy, rfl⟩
    · exact at_refines tidy ⟨(tidy side).closeWith _ _, view_closeWith _ dial _⟩
  | lookup side => exact at_refines tidy (lookup_refines (tidy side))
  | fail side dial => exact at_refines tidy ⟨(tidy side).closeWith _ _, view_closeWith _ dial _⟩

theorem run_refines (tidy : Tidy pair state) (actions : List Action) :
    Tidy pair (Run.exec (step pair) state actions) ∧
      ends pair (Run.exec (step pair) state actions) =
        Run.exec (Ends.step (keeps pair)) (ends pair state) actions := by
  induction actions using List.reverseRecOn with
  | nil => exact ⟨tidy, rfl⟩
  | append_singleton actions action ih =>
    rw [Run.exec_concat, Run.exec_concat, ← ih.2]
    exact step_refines ih.1 action

/-- The registry of a side holds a session of the pair. -/
def Holds (pair : DialPair) (state : State) (side : Side) (dial : Dial) : Prop :=
  ∃ entry, (state.registry side).sessions (pair.key side) = some entry ∧
    entry.session = pair.session dial side

/-- The connection of a session is open at a side. -/
def IsOpen (pair : DialPair) (state : State) (side : Side) (dial : Dial) : Prop :=
  (state.registry side).isOpen (pair.conn dial side) = true

theorem holds_of_held {pair : DialPair} (tidy : Tidy pair state) {side : Side}
    (held : ((ends pair state).view side).held = some dial) :
    Holds pair state side dial := by
  obtain ⟨entry, found, own⟩ := Option.bind_eq_some_iff.mp held
  exact ⟨entry, found, (tidy side).own entry dial found (dialOf_eq_some.mp own)⟩

/-! ## Before the first registration -/

/-- Before the two sessions are registered: both are open with their handles held, and no live
session is registered under their key. A stale entry may be left, which has not retired the peer's
process. -/
structure Idle (pair : DialPair) (side : Side) (registry : Registry) : Prop where
  opened : ∀ dial, registry.isOpen (pair.conn dial side) = true
  handled : ∀ dial, registry.handles (pair.conn dial side) = true
  /-- An entry left under the key is neither of the sessions. -/
  foreign : ∀ entry dial, registry.sessions (pair.key side) = some entry →
    entry.connection ≠ pair.conn dial side
  stale : ∀ entry, registry.sessions (pair.key side) = some entry → registry.live entry = none
  admitted : ∀ entry dial, registry.sessions (pair.key side) = some entry →
    Registry.retires entry (pair.session dial side) = false

theorem Idle.clean (idle : Idle pair side registry) : Clean pair side registry where
  handled := idle.handled
  own := fun entry dial found same => absurd same (idle.foreign entry dial found)
  stale := fun entry found _ => idle.stale entry found
  admitted := idle.admitted

theorem Idle.view_eq (idle : Idle pair side registry) :
    view pair side registry = ⟨none, fun _ => true⟩ := by
  have opened : (fun dial => registry.isOpen (pair.conn dial side)) = fun _ => true :=
    funext idle.opened
  cases found : registry.sessions (pair.key side) with
  | none => simp [view, found, opened]
  | some entry =>
    have foreign : dialOf pair side entry = none :=
      dialOf_eq_none.mpr fun dial => idle.foreign entry dial found
    simp [view, found, opened, foreign]

/-- Both ends before anything is registered. -/
def Ends.initial : Ends := ⟨fun _ => ⟨none, fun _ => true⟩, fun _ => []⟩

/-- A run from idle registries follows the abstract run from its initial ends. -/
theorem run_from_idle {start : Side → Registry} (idle : ∀ side, Idle pair side (start side))
    (actions : List Action) :
    ends pair (Run.exec (step pair) ⟨start, fun _ => []⟩ actions) =
      Run.exec (Ends.step (keeps pair)) Ends.initial actions := by
  have initial : ends pair ⟨start, fun _ => []⟩ = Ends.initial := by
    simp only [ends, Ends.initial, (idle _).view_eq]
  rw [← initial]
  exact (run_refines (fun side => (idle side).clean) actions).2

theorem idle_empty (pair : DialPair) (side : Side) : Idle pair side .empty where
  opened := fun _ => rfl
  handled := fun _ => rfl
  foreign := by
    intro entry dial found
    cases found
  stale := by
    intro entry found
    cases found
  admitted := by
    intro entry dial found
    cases found

end ArcRelay.TwoParty
