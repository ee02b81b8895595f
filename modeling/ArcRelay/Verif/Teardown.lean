import ArcRelay.Lib.Run
import ArcRelay.Verif.Registry

/-!
# Teardown reaches every registered connection

Runs of the registry operations, of connection closes and of handles being
dropped. Teardown is complete when every connection the registry ever accepted
and that is still open is the one registered under its key, for then closing what
is registered closes everything.

Two operations can lose an open connection: `active`, which removes an entry it
cannot upgrade, and `register_session`, which overwrites one. Both look at the
session handle only. When the handle is gone and a raw `transport_handle` clone, or
the clean-up task of a relay, keeps the connection open, the connection is forgotten
without being closed. Runs in which neither falls on such an entry are exactly the
runs in which teardown is complete.
-/

namespace ArcRelay.Teardown

open Registry

/-- One step of the registry and of the world around it. -/
inductive Operation where
  /-- `register_session`, by a task that holds the session. -/
  | register (session : Session)
  | active (id : DeviceId) (kind : SessionKind)
  | disconnect (peer : DeviceId) (reason : String)
  | forget (peer : DeviceId)
  | grant (peer : DeviceId) (capability : CapabilityId)
  | revoke (peer : DeviceId)
  /-- The clean-up task of a relayed session, awake once its connection has closed. -/
  | relayCleanup (session : Session)
  | dropHandle (session : Session)
  /-- `Session::transport_handle`, called on a held session. -/
  | cloneTransport (session : Session)
  | dropTransport (session : Session)
  | closed (connection : ConnectionId) (reason : ConnectionError)

/-- The registry, and every key and connection that `register_session` accepted so far. -/
structure State where
  registry : Registry
  accepted : List (SessionKey × ConnectionId)

/-- A fresh runtime. -/
def State.initial : State := ⟨.empty, []⟩

/-- The accepted connections once `register_session` has returned: the session's own is added if
the session itself is what was returned. -/
def accept (accepted : List (SessionKey × ConnectionId)) (session : Session) :
    Except NetworkError Session → List (SessionKey × ConnectionId)
  | .ok returned =>
    if returned.conn = session.conn then (session.key, session.conn) :: accepted else accepted
  | .error _ => accepted

/-- `register_session` and what it accepted. -/
def register (state : State) (session : Session) : State where
  registry := (state.registry.registerSession session).2
  accepted := accept state.accepted session (state.registry.registerSession session).1

/-- One step. A step that needs a handle it does not have, or a close that has not happened, does
not take place. -/
def perform (state : State) : Operation → State
  | .register session =>
    if state.registry.handles session.conn then register state session else state
  | .active id kind => { state with registry := (state.registry.active id kind).2 }
  | .disconnect peer reason => { state with registry := (state.registry.disconnect peer reason).2 }
  | .forget peer => { state with registry := state.registry.forget peer }
  | .grant peer capability => { state with registry := state.registry.grant peer capability }
  | .revoke peer => { state with registry := state.registry.revoke peer }
  | .relayCleanup session =>
    if state.registry.isOpen session.conn then state
    else { state with registry := state.registry.relayCleanup session }
  | .dropHandle session => { state with registry := state.registry.dropHandle session }
  | .cloneTransport session => { state with registry := state.registry.cloneTransport session }
  | .dropTransport session => { state with registry := state.registry.dropTransport session }
  | .closed connection reason =>
    { state with registry := state.registry.closeWith connection reason }

/-- The state after a run of a fresh runtime. -/
abbrev run (operations : List Operation) : State := Run.exec perform .initial operations

/-- Every accepted connection that is still open is the one registered under its key. -/
def Complete (state : State) : Prop :=
  ∀ key connection, (key, connection) ∈ state.accepted →
    state.registry.isOpen connection = true →
      ∃ entry, state.registry.sessions key = some entry ∧ entry.connection = connection

/-- Every registered connection was accepted under its key. -/
def Tracked (state : State) : Prop :=
  ∀ key entry, state.registry.sessions key = some entry →
    (key, entry.connection) ∈ state.accepted

/-- No connection ever accepted for the peer is open. -/
def Severed (state : State) (peer : DeviceId) : Prop :=
  ∀ key connection, (key, connection) ∈ state.accepted → key.1 = peer →
    state.registry.isOpen connection = false

/-- The peer an operation tears down, when it returns successfully. -/
def Operation.severs : Operation → Option DeviceId
  | .disconnect peer _ | .forget peer | .revoke peer => some peer
  | _ => none

/-- The entry under a key has lost its session handle while its connection is open, and would stay
open without the entry: it is relayed, or a raw clone holds it. -/
def Dangling (registry : Registry) (key : SessionKey) : Prop :=
  ∃ entry, registry.sessions key = some entry ∧ registry.isOpen entry.connection = true ∧
    registry.handles entry.connection = false ∧
      (entry.session.isRelayed = true ∨ registry.raw entry.connection = true)

/-- A step does not lose a dangling entry: no lookup falls on one, and a registration falls on one
only when it is refused as obsolete or closes the connection of a displaced process. -/
def Spares (state : State) : Operation → Prop
  | .active id kind => ¬ Dangling state.registry (id, kind)
  | .register session =>
    state.registry.handles session.conn = true → Dangling state.registry session.key →
      ∃ entry, state.registry.sessions session.key = some entry ∧
        (retires entry session = true ∨ (displaced entry session).isSome = true)
  | _ => True

/-! ## Steps that only remove and close -/

variable {state : State} {registry : Registry}

/-- A state with the same accepted connections stays complete if nothing opens again and every
key that changed has lost its connection. -/
theorem complete_of_registry (complete : Complete state)
    (closes : ∀ connection, registry.isOpen connection = true →
      state.registry.isOpen connection = true)
    (keeps : ∀ key entry, state.registry.sessions key = some entry →
      registry.isOpen entry.connection = true → registry.sessions key = some entry) :
    Complete { state with registry := registry } := by
  intro key connection member opened
  obtain ⟨entry, found, rfl⟩ := complete key connection member (closes connection opened)
  exact ⟨entry, keeps key entry found opened, rfl⟩

/-- Removing one key with its connection keeps every key whose connection stays open. -/
theorem removeAndClose_keeps (registry : Registry) (key : SessionKey) (code : Nat) (reason : String)
    (other : SessionKey) (entry : ActiveSession) (found : registry.sessions other = some entry)
    (opened : (registry.removeAndClose key code reason).isOpen entry.connection = true) :
    (registry.removeAndClose key code reason).sessions other = some entry := by
  rw [isOpen_removeAndClose] at opened
  have different : other ≠ key := by
    rintro rfl
    exact opened.2 entry found rfl
  simp [different, found]

/-- Removing a peer with its connections keeps every key whose connection stays open. -/
theorem removePeer_keeps (registry : Registry) (peer : DeviceId) (code : Nat) (reason : String)
    (other : SessionKey) (entry : ActiveSession) (found : registry.sessions other = some entry)
    (opened : (registry.removePeer peer code reason).isOpen entry.connection = true) :
    (registry.removePeer peer code reason).sessions other = some entry := by
  rw [isOpen_removePeer] at opened
  have different : other.1 ≠ peer := by
    rintro rfl
    exact opened.2 other.2 entry found rfl
  simp [different, found]

theorem complete_removePeer (complete : Complete state) (peer : DeviceId) (code : Nat)
    (reason : String) :
    Complete { state with registry := state.registry.removePeer peer code reason } :=
  complete_of_registry complete
    (fun connection opened => ((isOpen_removePeer _ peer code reason connection).mp opened).1)
    (fun key entry => removePeer_keeps _ peer code reason key entry)

theorem severed_removePeer (complete : Complete state) (peer : DeviceId) (code : Nat)
    (reason : String) :
    Severed { state with registry := state.registry.removePeer peer code reason } peer := by
  intro key connection member same
  by_contra opened
  rw [Bool.not_eq_false] at opened
  obtain ⟨before, others⟩ := (isOpen_removePeer _ peer code reason connection).mp opened
  obtain ⟨entry, found, rfl⟩ := complete key connection member before
  subst same
  exact others key.2 entry found rfl

/-! ## Lookups -/

/-- An entry that `active` drops while its connection stays open was dangling. -/
theorem dangling_of_remove {key : SessionKey} {entry : ActiveSession}
    (found : registry.sessions key = some entry) (dead : registry.live entry = none)
    (opened : (registry.remove key).isOpen entry.connection = true) : Dangling registry key := by
  have before := isOpen_of_remove registry opened
  have lost : registry.handles entry.connection = false := by
    by_contra held
    rw [Bool.not_eq_false] at held
    simp [live, upgrade, show registry.handles entry.session.conn = true from held,
      show registry.isOpen entry.session.conn = true from before] at dead
  have keyEq := registry.keyed key entry found
  have gone : (registry.take key).holds entry.session = false := by
    simp [holds, keyEq]
  have lost' : registry.handles entry.session.conn = false := lost
  simp only [remove, found, isOpen_release, owned, take_handles, take_raw, gone, lost',
    isOpen_take, Bool.and_eq_true, Bool.or_eq_true, Bool.not_eq_true', Bool.false_eq_true,
    decide_eq_false_iff_not, false_or] at opened
  obtain ⟨-, distinct | kept⟩ := opened
  · exact absurd rfl distinct
  · exact ⟨entry, found, before, lost, kept⟩

/-- A lookup that spares dangling entries keeps teardown complete. -/
theorem complete_active (complete : Complete state) (id : DeviceId) (kind : SessionKind)
    (spares : ¬ Dangling state.registry (id, kind)) :
    Complete { state with registry := (state.registry.active id kind).2 } := by
  unfold active
  split
  · exact complete
  · rename_i missing
    refine complete_of_registry complete (fun connection => isOpen_of_remove _) ?_
    intro key entry found opened
    have different : key ≠ (id, kind) := by
      rintro rfl
      have dead : state.registry.live entry = none := by simpa [found] using missing
      exact spares (dangling_of_remove found dead opened)
    simp [different, found]

/-- A lookup that falls on a dangling entry loses its connection. -/
theorem spares_of_complete_active (tracked : Tracked state) (id : DeviceId) (kind : SessionKind)
    (complete : Complete { state with registry := (state.registry.active id kind).2 }) :
    ¬ Dangling state.registry (id, kind) := by
  rintro ⟨entry, found, opened, lost, kept⟩
  have dead : state.registry.live entry = none := by
    simp [live, upgrade, show state.registry.handles entry.session.conn = false from lost]
  have removed : (state.registry.active id kind).2 = state.registry.remove (id, kind) := by
    simp [active, found, dead]
  rw [removed] at complete
  have kept : entry.session.isRelayed = true ∨ state.registry.raw entry.session.conn = true := kept
  have still : (state.registry.remove (id, kind)).isOpen entry.connection = true := by
    simp only [remove, found, isOpen_release, owned, take_handles, take_raw, isOpen_take, opened]
    rcases kept with relayed | held
    · simp [relayed]
    · simp [held]
  obtain ⟨other, present, -⟩ := complete _ _ (tracked _ entry found) still
  simp at present

/-! ## Registrations -/

variable {session : Session}

/-- The current entry of a replacement stays open only if it was dangling, or if the incoming
session has the same connection. -/
theorem dangling_of_replace {current : ActiveSession} {retired : List ProcessInstanceId}
    (found : registry.sessions session.key = some current)
    (opened : ((registry.cleared current session).replace current session retired).isOpen
      current.connection = true) :
    current.connection = session.conn ∨
      (Dangling registry session.key ∧ displaced current session = none) := by
  have keyEq := registry.keyed _ current found
  simp only [replace, isOpen_release, isOpen_put, isOpen_cleared, owned, put_handles, put_raw,
    cleared_handles, cleared_raw, holds, put_sessions, keyEq, ↓reduceIte, Bool.and_eq_true,
    Bool.or_eq_true, Bool.not_eq_true', decide_true, Bool.true_eq_false, false_or,
    Option.isNone_iff_eq_none, beq_iff_eq] at opened
  obtain ⟨⟨before, lost, undisplaced⟩, distinct | ((kept | same) | relayed) | held⟩ := opened
  · simp [ActiveSession.connection] at distinct
  · exact absurd (show registry.handles current.connection = true from kept) (by simp [lost])
  · exact Or.inl same.symm
  · exact Or.inr ⟨⟨current, found, before, lost, Or.inl relayed⟩, undisplaced⟩
  · exact Or.inr ⟨⟨current, found, before, lost, Or.inr held⟩, undisplaced⟩

theorem isOpen_of_replace {current : ActiveSession} {retired : List ProcessInstanceId}
    {connection : ConnectionId}
    (opened : ((registry.cleared current session).replace current session retired).isOpen
      connection = true) : registry.isOpen connection = true := by
  have cleared := isOpen_of_release _ opened
  rw [isOpen_put, isOpen_cleared] at cleared
  simp only [Bool.and_eq_true] at cleared
  exact cleared.1

/-- After a replacement its key holds the incoming session and no other key has changed. -/
theorem replace_sessions (registry : Registry) (session : Session) (current : ActiveSession)
    (retired : List ProcessInstanceId) (key : SessionKey) :
    ((registry.cleared current session).replace current session retired).sessions key =
      if key = session.key then some ⟨retired, session⟩ else registry.sessions key := by
  simp [replace]

/-- A connection is accepted earlier, or now with its session returned. -/
theorem mem_accept {accepted : List (SessionKey × ConnectionId)}
    {result : Except NetworkError Session} {pair : SessionKey × ConnectionId}
    (member : pair ∈ accept accepted session result) :
    pair ∈ accepted ∨ (pair = (session.key, session.conn) ∧
      ∃ returned, result = .ok returned ∧ returned.conn = session.conn) := by
  unfold accept at member
  split at member
  · split at member
    · rename_i returned same
      rcases List.mem_cons.mp member with rfl | earlier
      · exact Or.inr ⟨rfl, returned, rfl, same⟩
      · exact Or.inl earlier
    · exact Or.inl member
  · exact Or.inl member

theorem accept_of_mem {accepted : List (SessionKey × ConnectionId)} (session : Session)
    (result : Except NetworkError Session) {pair : SessionKey × ConnectionId}
    (member : pair ∈ accepted) : pair ∈ accept accepted session result := by
  unfold accept
  split
  · split
    · exact List.mem_cons_of_mem _ member
    · exact member
  · exact member

theorem accept_self (accepted : List (SessionKey × ConnectionId)) (session : Session) :
    (session.key, session.conn) ∈ accept accepted session (.ok session) := by
  simp [accept]

/-- A registration keeps teardown complete if it opens nothing again, every connection it leaves
open stays registered under its key, and so does the session it accepts. -/
theorem complete_of_accept {result : Except NetworkError Session} (complete : Complete state)
    (closes : ∀ connection, registry.isOpen connection = true →
      state.registry.isOpen connection = true)
    (stays : ∀ key entry, state.registry.sessions key = some entry →
      registry.isOpen entry.connection = true →
        ∃ after, registry.sessions key = some after ∧ after.connection = entry.connection)
    (own : ∀ returned, result = .ok returned → returned.conn = session.conn →
      registry.isOpen session.conn = true →
        ∃ after, registry.sessions session.key = some after ∧ after.connection = session.conn) :
    Complete ⟨registry, accept state.accepted session result⟩ := by
  intro key connection member opened
  rcases mem_accept member with earlier | ⟨fresh, returned, returns, same⟩
  · obtain ⟨entry, found, rfl⟩ := complete key connection earlier (closes connection opened)
    exact stays key entry found opened
  · cases fresh
    exact own returned returns same opened

/-- A registration that spares dangling entries keeps teardown complete. -/
theorem complete_register (complete : Complete state) (session : Session)
    (spares : Dangling state.registry session.key →
      ∃ entry, state.registry.sessions session.key = some entry ∧
        (retires entry session = true ∨ (displaced entry session).isSome = true)) :
    Complete (register state session) := by
  have outcome := state.registry.registerSession_registration session
  unfold register
  generalize (state.registry.registerSession session).1 = result at outcome ⊢
  generalize (state.registry.registerSession session).2 = registry at outcome ⊢
  cases outcome with
  | fresh absent =>
    refine complete_of_accept complete (fun _ opened => opened) ?_ ?_
    · intro key entry found _
      have different : key ≠ session.key := by
        rintro rfl
        simp [absent] at found
      exact ⟨entry, by simp [different, found], rfl⟩
    · intro _ _ _ _
      exact ⟨⟨[], session⟩, by simp, rfl⟩
  | obsolete current found retired _ returned =>
    refine complete_of_accept complete (fun connection opened => ?_) ?_ ?_
    · simp only [close_eq, isOpen_closeWith, Bool.and_eq_true] at opened
      exact opened.1
    · intro key entry present _
      exact ⟨entry, by simp [present], rfl⟩
    · intro _ _ _ opened
      simp at opened
  | same current found admitted held identical =>
    refine complete_of_accept complete (fun connection opened => ?_) ?_ ?_
    · simp only [isOpen_settleRestart, Bool.and_eq_true] at opened
      exact opened.1
    · intro key entry present _
      exact ⟨entry, by simp [present], rfl⟩
    · intro _ _ _ _
      exact ⟨current, by simp [found], identical⟩
  | kept current found admitted held different opened undisplaced preferred =>
    refine complete_of_accept complete (fun connection opened => ?_) ?_ ?_
    · simp only [close_eq, isOpen_closeWith, Bool.and_eq_true] at opened
      exact opened.1
    · intro key entry present _
      exact ⟨entry, by simp [present], rfl⟩
    · intro returned returns same _
      cases returns
      exact absurd same different
  | replaced current found admitted different lost =>
    refine complete_of_accept complete (fun connection opened => isOpen_of_replace opened) ?_ ?_
    · intro key entry present opened
      by_cases here : key = session.key
      · subst here
        obtain rfl := Option.some.inj (found.symm.trans present)
        refine ⟨_, by rw [replace_sessions, if_pos rfl], ?_⟩
        rcases dangling_of_replace found opened with same | ⟨dangling, undisplaced⟩
        · exact same.symm
        · obtain ⟨entry, again, obsolete | restarted⟩ := spares dangling
          · obtain rfl := Option.some.inj (found.symm.trans again)
            simp [admitted] at obsolete
          · obtain rfl := Option.some.inj (found.symm.trans again)
            simp [undisplaced] at restarted
      · exact ⟨entry, by rw [replace_sessions, if_neg here, present], rfl⟩
    · intro _ _ _ _
      exact ⟨_, by rw [replace_sessions, if_pos rfl], rfl⟩

/-- Everything a registration leaves registered was accepted. -/
theorem tracked_register (tracked : Tracked state) (session : Session) :
    Tracked (register state session) := by
  have outcome := state.registry.registerSession_registration session
  unfold register
  generalize (state.registry.registerSession session).1 = result at outcome ⊢
  generalize (state.registry.registerSession session).2 = registry at outcome ⊢
  have unchanged : ∀ registry : Registry, registry.sessions = state.registry.sessions →
      Tracked ⟨registry, accept state.accepted session result⟩ := by
    intro registry sessions key entry found
    exact accept_of_mem _ _ (tracked key entry (sessions ▸ found))
  have inserted : ∀ (registry : Registry) (retired : List ProcessInstanceId),
      (∀ key, registry.sessions key =
        if key = session.key then some ⟨retired, session⟩ else state.registry.sessions key) →
        Tracked ⟨registry, accept state.accepted session (.ok session)⟩ := by
    intro registry retired sessions key entry found
    simp only [sessions] at found
    split at found
    · rename_i same
      cases found
      rw [same]
      exact accept_self _ _
    · exact accept_of_mem session (.ok session) (tracked key entry found)
  cases outcome with
  | fresh absent => exact inserted _ [] (fun _ => rfl)
  | obsolete current found retired _ returned => exact unchanged _ (by simp)
  | same current found admitted held identical => exact unchanged _ (by simp)
  | kept current found admitted held different opened undisplaced preferred =>
    exact unchanged _ (by simp)
  | replaced current found admitted different lost =>
    exact inserted _ _ (replace_sessions _ session current _)

/-- A registration over a dangling entry that neither refuses the session nor closes the displaced
process loses the connection of the entry. -/
theorem spares_of_complete_register (tracked : Tracked state) (session : Session)
    (held : state.registry.handles session.conn = true)
    (complete : Complete (register state session))
    (dangling : Dangling state.registry session.key) :
    ∃ entry, state.registry.sessions session.key = some entry ∧
      (retires entry session = true ∨ (displaced entry session).isSome = true) := by
  obtain ⟨entry, found, opened, lost, kept⟩ := dangling
  refine ⟨entry, found, ?_⟩
  by_contra neither
  simp only [not_or, Bool.not_eq_true, Option.isSome_eq_false_iff,
    Option.isNone_iff_eq_none] at neither
  obtain ⟨admitted, undisplaced⟩ := neither
  have replaced : (state.registry.registerSession session).2 =
      (state.registry.cleared entry session).replace entry session
        (retiredAfter entry session) := by
    have outcome := state.registry.registerSession_registration session
    generalize (state.registry.registerSession session).1 = result at outcome
    generalize (state.registry.registerSession session).2 = registry at outcome ⊢
    cases outcome with
    | fresh absent => simp [found] at absent
    | obsolete current again retired _ returned =>
      obtain rfl := Option.some.inj (found.symm.trans again)
      simp [admitted] at retired
    | same current again _ handle identical =>
      obtain rfl := Option.some.inj (found.symm.trans again)
      simp [lost] at handle
    | kept current again _ handle different _ _ preferred =>
      obtain rfl := Option.some.inj (found.symm.trans again)
      simp [lost] at handle
    | replaced current again _ different _ =>
      obtain rfl := Option.some.inj (found.symm.trans again)
      rfl
  have member : (session.key, entry.connection) ∈ (register state session).accepted :=
    accept_of_mem _ _ (tracked _ entry found)
  have kept : entry.session.isRelayed = true ∨ state.registry.raw entry.session.conn = true := kept
  have still : (register state session).registry.isOpen entry.connection = true := by
    rcases kept with relayed | clone
    · simp [register, replaced, replace, isOpen_release, isOpen_cleared, owned, opened, lost,
        undisplaced, relayed]
    · simp [register, replaced, replace, isOpen_release, isOpen_cleared, owned, opened, lost,
        undisplaced, clone]
  obtain ⟨after, present, same⟩ := complete _ _ member still
  simp only [register, replaced, replace_sessions, ↓reduceIte, Option.some.injEq] at present
  subst present
  have shared : session.conn = entry.connection := same
  rw [shared, lost] at held
  cases held

/-! ## Runs -/

/-- Only a registration adds an entry. -/
theorem recedes_perform (state : State) {operation : Operation}
    (other : ∀ session, operation ≠ .register session) :
    state.registry.Recedes (perform state operation).registry := by
  cases operation with
  | register session => exact absurd rfl (other session)
  | active id kind => exact recedes_active _ _ _
  | disconnect peer reason => exact recedes_removePeer _ _ _ _
  | forget peer => exact recedes_removePeer _ _ _ _
  | grant peer capability =>
    simp only [perform, Registry.grant]
    split
    · exact recedes_removeAndClose _ _ _ _
    · exact recedes_removePeer _ _ _ _
  | revoke peer => exact recedes_removePeer _ _ _ _
  | relayCleanup session =>
    simp only [perform]
    split
    · exact recedes_of_sessions rfl
    · exact recedes_relayCleanup _ _
  | dropHandle session => exact recedes_of_sessions (release_sessions _ _)
  | cloneTransport session =>
    simp only [perform, Registry.cloneTransport]
    split <;> exact recedes_of_sessions rfl
  | dropTransport session => exact recedes_of_sessions (release_sessions _ _)
  | closed connection reason => exact recedes_of_sessions (closeWith_sessions _ _ _)

theorem perform_accepted (state : State) {operation : Operation}
    (other : ∀ session, operation ≠ .register session) :
    (perform state operation).accepted = state.accepted := by
  cases operation with
  | register session => exact absurd rfl (other session)
  | relayCleanup session =>
    simp only [perform]
    split <;> rfl
  | _ => rfl

theorem tracked_perform (state : State) (operation : Operation) (tracked : Tracked state) :
    Tracked (perform state operation) := by
  by_cases registers : ∃ session, operation = .register session
  · obtain ⟨session, rfl⟩ := registers
    simp only [perform]
    split
    · exact tracked_register tracked session
    · exact tracked
  · have other : ∀ session, operation ≠ .register session :=
      fun session same => registers ⟨session, same⟩
    intro key entry found
    rw [perform_accepted state other]
    exact tracked key entry (recedes_perform state other key entry found)

/-- Every step that spares dangling entries keeps teardown complete. -/
theorem complete_perform (state : State) (operation : Operation) (complete : Complete state)
    (spares : Spares state operation) : Complete (perform state operation) := by
  cases operation with
  | register session =>
    simp only [perform]
    split
    · rename_i held
      exact complete_register complete session (spares held)
    · exact complete
  | active id kind => exact complete_active complete id kind spares
  | disconnect peer reason => exact complete_removePeer complete peer 0 reason
  | forget peer => exact complete_removePeer complete peer 403 "peer forgotten"
  | grant peer capability =>
    simp only [perform, Registry.grant]
    split
    · exact complete_of_registry complete
        (fun connection opened => ((isOpen_removeAndClose _ _ _ _ connection).mp opened).1)
        (fun key entry => removeAndClose_keeps _ _ _ _ key entry)
    · exact complete_removePeer complete peer 0 "authorization changed"
  | revoke peer => exact complete_removePeer complete peer 0 "authorization changed"
  | relayCleanup session =>
    simp only [perform, Registry.relayCleanup]
    split
    · exact complete
    · rename_i closed
      split
      · rename_i held
        refine complete_of_registry complete (fun connection => isOpen_of_remove _) ?_
        intro key entry found opened
        have different : key ≠ session.key := by
          rintro rfl
          simp only [holds, found, beq_iff_eq] at held
          have before := isOpen_of_remove _ opened
          rw [held] at before
          exact closed before
        simp [different, found]
      · exact complete
  | dropHandle session =>
    exact complete_of_registry complete
      (fun connection opened => by have := isOpen_of_release _ opened; exact this)
      (fun key entry found _ => by simpa [Registry.dropHandle] using found)
  | cloneTransport session =>
    simp only [perform, Registry.cloneTransport]
    split
    · exact complete_of_registry complete (fun connection opened => opened)
        (fun key entry found _ => found)
    · exact complete
  | dropTransport session =>
    exact complete_of_registry complete
      (fun connection opened => by have := isOpen_of_release _ opened; exact this)
      (fun key entry found _ => by simpa [Registry.dropTransport] using found)
  | closed connection reason =>
    refine complete_of_registry complete (fun other opened => ?_)
      (fun key entry found _ => by simpa using found)
    simp only [isOpen_closeWith, Bool.and_eq_true] at opened
    exact opened.1

/-- A step that keeps teardown complete has spared dangling entries. -/
theorem spares_of_complete (state : State) (operation : Operation) (tracked : Tracked state)
    (complete : Complete (perform state operation)) : Spares state operation := by
  cases operation with
  | register session =>
    intro held dangling
    simp only [perform, held, ↓reduceIte] at complete
    exact spares_of_complete_register tracked session held complete dangling
  | active id kind => exact spares_of_complete_active tracked id kind complete
  | _ => trivial

/-- A successful teardown of a peer in a complete state severs it. -/
theorem severed_perform (state : State) (operation : Operation) (complete : Complete state)
    (peer : DeviceId) (severs : operation.severs = some peer) :
    Severed (perform state operation) peer := by
  cases operation <;> simp only [Operation.severs, Option.some.injEq, reduceCtorEq] at severs <;>
    subst severs <;> exact severed_removePeer complete _ _ _

/-- Teardown is complete in every state of a run, and severs the peer whenever `disconnect`, a
`revoke` that removed a grant, or a successful `forget` returns, exactly when no `active` and no
`register_session` of the run loses a dangling entry. -/
theorem teardown_complete_iff (operations : List Operation) :
    (Run.Throughout perform .initial Complete operations ∧
      ∀ done operation peer, done ++ [operation] <+: operations →
        operation.severs = some peer → Severed (run (done ++ [operation])) peer) ↔
      Run.Along perform .initial Spares operations := by
  have exactly : Run.Throughout perform .initial Complete operations ↔
      Run.Along perform .initial Spares operations := Run.throughout_iff_along
    (by intro key connection member; cases member) (by intro key entry found; cases found)
    tracked_perform (fun state operation _ => complete_perform state operation)
    (fun state operation tracked _ => spares_of_complete state operation tracked) operations
  constructor
  · rintro ⟨complete, -⟩
    exact exactly.mp complete
  · intro along
    have complete := exactly.mpr along
    refine ⟨complete, fun done operation peer isPrefix severs => ?_⟩
    rw [run, Run.exec_concat]
    exact severed_perform _ operation
      (complete done ((List.prefix_append _ _).trans isPrefix)) peer severs

/-- A direct control session whose handle the application drops while it keeps a raw clone, and
that is then looked up. -/
def strandedOperations : List Operation :=
  let session := Session.sample "peer" "peer" 0 .control 1 false
  [.register session, .cloneTransport session, .dropHandle session, .active ⟨"peer"⟩ .control]

/-- The lookup loses the connection, and disconnecting the peer does not close it any more. -/
theorem stranded_connection :
    ¬ Complete (run strandedOperations) ∧
      ¬ Severed (run (strandedOperations ++ [.disconnect ⟨"peer"⟩ "bye"])) ⟨"peer"⟩ := by
  constructor
  · intro complete
    have lost : (run strandedOperations).registry.sessions (⟨"peer"⟩, .control) = none := by decide
    obtain ⟨entry, found, -⟩ := complete (⟨"peer"⟩, .control) 1 (by decide) (by decide)
    rw [lost] at found
    cases found
  · intro severed
    have still : (run (strandedOperations ++
        [.disconnect ⟨"peer"⟩ "bye"])).registry.isOpen 1 = true := by decide
    have closed := severed (⟨"peer"⟩, .control) 1 (by decide) rfl
    rw [still] at closed
    cases closed

end ArcRelay.Teardown
