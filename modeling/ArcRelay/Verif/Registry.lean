import ArcRelay.Registry

/-!
# What the registry operations do

One lemma per operation and per part of the registry state, then the complete
case analysis of `register_session` (`Registration`). The results about runs of
the registry rest on these and never unfold the operations again.
-/

namespace ArcRelay.Registry

variable (registry : Registry)

/-! ## Closing a connection -/

@[simp] theorem close_eq (connection : ConnectionId) (code : Nat) (reason : String) :
    registry.close connection code reason =
      registry.closeWith connection (.locallyClosed code reason) := rfl

/-- Recording a close reason leaves the registered sessions alone. -/
@[simp] theorem closeWith_sessions (connection : ConnectionId) (reason : ConnectionError) :
    (registry.closeWith connection reason).sessions = registry.sessions := by
  unfold closeWith
  split <;> rfl

@[simp] theorem closeWith_handles (connection : ConnectionId) (reason : ConnectionError) :
    (registry.closeWith connection reason).handles = registry.handles := by
  unfold closeWith
  split <;> rfl

@[simp] theorem closeWith_raw (connection : ConnectionId) (reason : ConnectionError) :
    (registry.closeWith connection reason).raw = registry.raw := by
  unfold closeWith
  split <;> rfl

/-- After a close exactly the closed connection is gone from the open ones. -/
@[simp] theorem isOpen_closeWith (connection other : ConnectionId) (reason : ConnectionError) :
    (registry.closeWith connection reason).isOpen other =
      (registry.isOpen other && !decide (other = connection)) := by
  unfold closeWith
  by_cases same : other = connection
  · subst same
    by_cases opened : registry.isOpen other = true
    · simp only [opened, ↓reduceIte]
      simp [isOpen]
    · simp [opened]
  · split <;> simp [isOpen, same]

/-! ## Inserting and removing entries -/

@[simp] theorem put_sessions (entry : ActiveSession) (key : SessionKey) :
    (registry.put entry).sessions key =
      if key = entry.session.key then some entry else registry.sessions key := rfl

@[simp] theorem isOpen_put (entry : ActiveSession) (connection : ConnectionId) :
    (registry.put entry).isOpen connection = registry.isOpen connection := rfl

@[simp] theorem put_handles (entry : ActiveSession) :
    (registry.put entry).handles = registry.handles := rfl

@[simp] theorem put_raw (entry : ActiveSession) : (registry.put entry).raw = registry.raw := rfl

@[simp] theorem take_sessions (key other : SessionKey) :
    (registry.take key).sessions other = if other = key then none else registry.sessions other :=
  rfl

@[simp] theorem isOpen_take (key : SessionKey) (connection : ConnectionId) :
    (registry.take key).isOpen connection = registry.isOpen connection := rfl

@[simp] theorem take_handles (key : SessionKey) :
    (registry.take key).handles = registry.handles := rfl

@[simp] theorem take_raw (key : SessionKey) : (registry.take key).raw = registry.raw := rfl

/-! ## Losing an owner -/

@[simp] theorem release_sessions (session : Session) :
    (registry.release session).sessions = registry.sessions := by
  unfold release
  split <;> simp

@[simp] theorem release_handles (session : Session) :
    (registry.release session).handles = registry.handles := by
  unfold release
  split <;> simp

/-- Losing an owner closes the connection exactly when it was the last one. -/
theorem isOpen_release (session : Session) (connection : ConnectionId) :
    (registry.release session).isOpen connection =
      (registry.isOpen connection &&
        (!decide (connection = session.conn) || registry.owned session)) := by
  unfold release
  cases registry.owned session <;> simp

variable {session : Session} {connection : ConnectionId}

theorem isOpen_release_of_ne (other : connection ≠ session.conn) :
    (registry.release session).isOpen connection = registry.isOpen connection := by
  simp [isOpen_release, other]

theorem isOpen_of_release (opened : (registry.release session).isOpen connection = true) :
    registry.isOpen connection = true := by
  rw [isOpen_release] at opened
  simp only [Bool.and_eq_true] at opened
  exact opened.1

/-! ## Removal of a key -/

/-- Removal leaves nothing under its key and changes no other key. -/
@[simp] theorem remove_sessions (key other : SessionKey) :
    (registry.remove key).sessions other =
      if other = key then none else registry.sessions other := by
  unfold remove
  split
  · rename_i absent
    split
    · rename_i same
      rw [same, absent]
    · rfl
  · simp

@[simp] theorem remove_handles (key : SessionKey) :
    (registry.remove key).handles = registry.handles := by
  unfold remove
  split <;> simp

variable {key : SessionKey}

theorem isOpen_of_remove (opened : (registry.remove key).isOpen connection = true) :
    registry.isOpen connection = true := by
  unfold remove at opened
  split at opened
  · exact opened
  · simpa using isOpen_of_release _ opened

theorem isOpen_remove_of_ne
    (other : ∀ entry, registry.sessions key = some entry → connection ≠ entry.connection) :
    (registry.remove key).isOpen connection = registry.isOpen connection := by
  unfold remove
  split
  · rfl
  · rename_i entry found
    rw [isOpen_release_of_ne _ (other entry found)]
    rfl

/-- Removal with a close leaves nothing under its key and changes no other key. -/
@[simp] theorem removeAndClose_sessions (key other : SessionKey) (code : Nat) (reason : String) :
    (registry.removeAndClose key code reason).sessions other =
      if other = key then none else registry.sessions other := by
  unfold removeAndClose
  split
  · rename_i absent
    split
    · rename_i same
      rw [same, absent]
    · rfl
  · simp

theorem isOpen_removeAndClose (key : SessionKey) (code : Nat) (reason : String)
    (connection : ConnectionId) :
    (registry.removeAndClose key code reason).isOpen connection = true ↔
      registry.isOpen connection = true ∧
        ∀ entry, registry.sessions key = some entry → entry.connection ≠ connection := by
  unfold removeAndClose
  split
  · rename_i absent
    simp [absent]
  · rename_i entry found
    simp only [close_eq, isOpen_closeWith, isOpen_take, Bool.and_eq_true, Bool.not_eq_true',
      decide_eq_false_iff_not, found, Option.some.injEq, forall_eq', ne_eq,
      eq_comm (a := connection)]

/-! ## Removal of a peer -/

/-- One pass over some kinds of a peer: those keys are empty, the others unchanged. -/
theorem removeKinds_sessions (peer : DeviceId) (code : Nat) (reason : String)
    (kinds : List SessionKind) (key : SessionKey) :
    (kinds.foldl (fun registry kind => registry.removeAndClose (peer, kind) code reason)
      registry).sessions key =
      if key.1 = peer ∧ key.2 ∈ kinds then none else registry.sessions key := by
  induction kinds generalizing registry with
  | nil => simp
  | cons kind kinds ih =>
    rw [List.foldl_cons, ih, removeAndClose_sessions]
    obtain ⟨id, own⟩ := key
    by_cases here : id = peer
    · subst here
      by_cases first : own = kind
      · subst first
        simp
      · simp [first]
    · simp [here]

/-- One pass over some kinds of a peer closes exactly the connections it removes. -/
theorem isOpen_removeKinds (peer : DeviceId) (code : Nat) (reason : String)
    (kinds : List SessionKind) (distinct : kinds.Nodup) (connection : ConnectionId) :
    (kinds.foldl (fun registry kind => registry.removeAndClose (peer, kind) code reason)
      registry).isOpen connection = true ↔
      registry.isOpen connection = true ∧ ∀ kind ∈ kinds, ∀ entry,
        registry.sessions (peer, kind) = some entry → entry.connection ≠ connection := by
  induction kinds generalizing registry with
  | nil => simp
  | cons kind kinds ih =>
    obtain ⟨absent, rest⟩ := List.nodup_cons.mp distinct
    rw [List.foldl_cons, ih _ rest, isOpen_removeAndClose]
    have untouched : ∀ other ∈ kinds,
        (registry.removeAndClose (peer, kind) code reason).sessions (peer, other) =
          registry.sessions (peer, other) := by
      intro other member
      have different : other ≠ kind := fun same => absent (same ▸ member)
      simp [different]
    constructor
    · rintro ⟨⟨opened, first⟩, later⟩
      refine ⟨opened, fun other member entry found => ?_⟩
      rcases List.mem_cons.mp member with rfl | member
      · exact first entry found
      · exact later other member entry ((untouched other member).trans found)
    · rintro ⟨opened, every⟩
      refine ⟨⟨opened, every kind List.mem_cons_self⟩, fun other member entry found => ?_⟩
      exact every other (List.mem_cons_of_mem _ member) entry
        ((untouched other member).symm.trans found)

@[simp] theorem removePeer_sessions (peer : DeviceId) (code : Nat) (reason : String)
    (key : SessionKey) :
    (registry.removePeer peer code reason).sessions key =
      if key.1 = peer then none else registry.sessions key := by
  rw [removePeer, removeKinds_sessions]
  simp [SessionKind.mem_all]

/-- Removing a peer closes exactly the connections registered for it. -/
theorem isOpen_removePeer (peer : DeviceId) (code : Nat) (reason : String)
    (connection : ConnectionId) :
    (registry.removePeer peer code reason).isOpen connection = true ↔
      registry.isOpen connection = true ∧ ∀ kind entry,
        registry.sessions (peer, kind) = some entry → entry.connection ≠ connection := by
  rw [removePeer, isOpen_removeKinds registry peer code reason _ SessionKind.all_nodup]
  simp [SessionKind.mem_all]

/-! ## The cases of `register_session` -/

@[simp] theorem settleRestart_sessions (current : ActiveSession) (session : Session) :
    (registry.settleRestart current session).sessions = registry.sessions := by
  unfold settleRestart
  split <;> simp

@[simp] theorem settleRestart_handles (current : ActiveSession) (session : Session) :
    (registry.settleRestart current session).handles = registry.handles := by
  unfold settleRestart
  split <;> simp

@[simp] theorem settleRestart_raw (current : ActiveSession) (session : Session) :
    (registry.settleRestart current session).raw = registry.raw := by
  unfold settleRestart
  split <;> simp

/-- Settling a restart closes exactly the transport of a displaced process. -/
theorem isOpen_settleRestart (current : ActiveSession) (session : Session)
    (connection : ConnectionId) :
    (registry.settleRestart current session).isOpen connection =
      (registry.isOpen connection &&
        (!decide (connection = current.connection) || (displaced current session).isNone)) := by
  unfold settleRestart
  cases displaced current session <;> simp

/-- The registry just before an incoming session replaces the current entry: the transport of a
displaced process, and of a session that can still be upgraded, has been closed. -/
def cleared (current : ActiveSession) (session : Session) : Registry :=
  if registry.handles current.connection then
    (registry.settleRestart current session).close current.connection 409 "session replaced"
  else registry.settleRestart current session

@[simp] theorem cleared_sessions (current : ActiveSession) (session : Session) :
    (registry.cleared current session).sessions = registry.sessions := by
  unfold cleared
  split <;> simp

@[simp] theorem cleared_handles (current : ActiveSession) (session : Session) :
    (registry.cleared current session).handles = registry.handles := by
  unfold cleared
  split <;> simp

@[simp] theorem cleared_raw (current : ActiveSession) (session : Session) :
    (registry.cleared current session).raw = registry.raw := by
  unfold cleared
  split <;> simp

/-- Clearing the way leaves the current connection open exactly when its session handle is gone
and no process was displaced; it closes nothing else. -/
theorem isOpen_cleared (current : ActiveSession) (session : Session) (connection : ConnectionId) :
    (registry.cleared current session).isOpen connection =
      (registry.isOpen connection && (!decide (connection = current.connection) ||
        (!registry.handles current.connection && (displaced current session).isNone))) := by
  unfold cleared
  cases held : registry.handles current.connection with
  | true => by_cases here : connection = current.connection <;> simp [isOpen_settleRestart, here]
  | false => simp [isOpen_settleRestart]

/-- Every outcome of registering a session: the returned session and the registry after it. -/
inductive Registration (session : Session) : Except NetworkError Session → Registry → Prop
  | fresh (absent : registry.sessions session.key = none) :
    Registration session (.ok session) (registry.put ⟨[], session⟩)
  /-- The session belongs to a process the entry retired: it is closed, whatever is returned. -/
  | obsolete (current : ActiveSession) (found : registry.sessions session.key = some current)
    (retired : retires current session = true) (result : Except NetworkError Session)
    (returned : ∀ active, result = .ok active → active = current.session) :
    Registration session result (registry.close session.conn 409 "obsolete peer process instance")
  | same (current : ActiveSession) (found : registry.sessions session.key = some current)
    (admitted : retires current session = false)
    (held : registry.handles current.connection = true)
    (identical : current.connection = session.conn) :
    Registration session (.ok current.session) (registry.settleRestart current session)
  /-- The registered session is open and wins the arbitration; the incoming one is closed. -/
  | kept (current : ActiveSession) (found : registry.sessions session.key = some current)
    (admitted : retires current session = false)
    (held : registry.handles current.connection = true)
    (different : current.connection ≠ session.conn)
    (opened : registry.isOpen current.connection = true)
    (undisplaced : displaced current session = none)
    (preferred : keepsActive current.session session = true) :
    Registration session (.ok current.session) (registry.close session.conn 409 "duplicate session")
  | replaced (current : ActiveSession) (found : registry.sessions session.key = some current)
    (admitted : retires current session = false)
    (different : registry.handles current.connection = true →
      current.connection ≠ session.conn)
    (lost : registry.handles current.connection = true →
      registry.isOpen current.connection = true → displaced current session = none →
        keepsActive current.session session = false) :
    Registration session (.ok session)
      ((registry.cleared current session).replace current session (retiredAfter current session))

/-- Arbitration ends in one of the outcomes with a current entry. -/
theorem arbitrate_registration (current : ActiveSession) (session : Session)
    (found : registry.sessions session.key = some current)
    (admitted : retires current session = false) :
    Registration registry session (registry.arbitrate current session).1
      (registry.arbitrate current session).2 := by
  have connectionEq : current.session.conn = current.connection := rfl
  cases held : registry.handles current.connection with
  | false =>
    have outcome : Registration registry session _ _ :=
      .replaced current found admitted (by simp [held]) (by simp [held])
    simpa [arbitrate, upgrade, cleared, connectionEq, held] using outcome
  | true =>
    by_cases identical : current.connection = session.conn
    · have outcome : Registration registry session _ _ :=
        .same current found admitted held identical
      simpa [arbitrate, upgrade, held, show current.session.conn = session.conn from identical,
        show registry.handles session.conn = true from identical ▸ held] using outcome
    · cases kept : (registry.settleRestart current session).isOpen current.connection &&
        keepsActive current.session session with
      | true =>
        simp only [isOpen_settleRestart, decide_true, Bool.not_true, Bool.false_or,
          Bool.and_eq_true, Option.isNone_iff_eq_none] at kept
        obtain ⟨⟨opened, undisplaced⟩, preferred⟩ := kept
        have settled : registry.settleRestart current session = registry := by
          simp [settleRestart, undisplaced]
        have outcome : Registration registry session _ _ :=
          .kept current found admitted held identical opened undisplaced preferred
        simpa [arbitrate, upgrade, connectionEq, held, identical, settled, opened, preferred]
          using outcome
      | false =>
        have outcome : Registration registry session _ _ :=
          .replaced current found admitted (fun _ => identical) (fun _ opened undisplaced => by
            simpa [isOpen_settleRestart, opened, undisplaced] using kept)
        simpa [arbitrate, upgrade, cleared, connectionEq, held, identical, kept] using outcome

/-- `register_session` ends in exactly one of the outcomes. -/
theorem registerSession_registration (session : Session) :
    Registration registry session (registry.registerSession session).1
      (registry.registerSession session).2 := by
  unfold registerSession
  split
  · rename_i absent
    exact .fresh absent
  · rename_i current found
    split
    · rename_i retired
      dsimp only
      split
      · rename_i active upgraded
        refine .obsolete current found retired _ (fun returned same => ?_)
        cases same
        simp only [live, upgrade] at upgraded
        split at upgraded
        · simpa using (Option.filter_eq_some_iff.mp upgraded).1.symm
        · cases upgraded
      · exact .obsolete current found retired _ (fun _ same => by cases same)
    · rename_i admitted
      exact registry.arbitrate_registration current session found (by simpa using admitted)

variable {result : Except NetworkError Session} {after : Registry}

/-- A registration opens no connection. -/
theorem Registration.closing (registration : Registration registry session result after)
    (opened : after.isOpen connection = true) :
    registry.isOpen connection = true := by
  cases registration with
  | fresh absent => simpa using opened
  | obsolete current found retired result returned =>
    rw [close_eq, isOpen_closeWith] at opened
    exact (Bool.and_eq_true_iff.mp opened).1
  | same current found admitted held identical =>
    rw [isOpen_settleRestart] at opened
    exact (Bool.and_eq_true_iff.mp opened).1
  | kept current found admitted held different opens undisplaced preferred =>
    rw [close_eq, isOpen_closeWith] at opened
    exact (Bool.and_eq_true_iff.mp opened).1
  | replaced current found admitted different lost =>
    have before := isOpen_of_release _ opened
    rw [isOpen_put, isOpen_cleared] at before
    exact (Bool.and_eq_true_iff.mp before).1

/-! ## What is registered after an operation -/

/-- Sessions may be gone, but none is new. -/
def Recedes (before after : Registry) : Prop :=
  ∀ key entry, after.sessions key = some entry → before.sessions key = some entry

theorem recedes_of_sessions {before : Registry} (same : after.sessions = before.sessions) :
    before.Recedes after := by
  intro key entry found
  rwa [same] at found

theorem recedes_remove (key : SessionKey) : registry.Recedes (registry.remove key) := by
  intro other entry found
  rw [remove_sessions] at found
  split at found
  · cases found
  · exact found

theorem recedes_removeAndClose (key : SessionKey) (code : Nat) (reason : String) :
    registry.Recedes (registry.removeAndClose key code reason) := by
  intro other entry found
  rw [removeAndClose_sessions] at found
  split at found
  · cases found
  · exact found

theorem recedes_removePeer (peer : DeviceId) (code : Nat) (reason : String) :
    registry.Recedes (registry.removePeer peer code reason) := by
  intro other entry found
  rw [removePeer_sessions] at found
  split at found
  · cases found
  · exact found

theorem recedes_active (id : DeviceId) (kind : SessionKind) :
    registry.Recedes (registry.active id kind).2 := by
  unfold active
  split
  · exact recedes_of_sessions rfl
  · exact registry.recedes_remove _

theorem recedes_relayCleanup (session : Session) :
    registry.Recedes (registry.relayCleanup session) := by
  unfold relayCleanup
  split
  · exact registry.recedes_remove _
  · exact recedes_of_sessions rfl

theorem active_eq_some {id : DeviceId} {kind : SessionKind}
    (found : (registry.active id kind).1 = some session) :
    ∃ entry, registry.sessions (id, kind) = some entry ∧ entry.session = session := by
  unfold active at found
  split at found
  · rename_i active present
    cases found
    obtain ⟨entry, registered, upgraded⟩ := Option.bind_eq_some_iff.mp present
    refine ⟨entry, registered, ?_⟩
    simp only [live, upgrade] at upgraded
    split at upgraded
    · exact Option.some.inj (Option.filter_eq_some_iff.mp upgraded).1
    · cases upgraded
  · cases found

variable {registry}

/-- After a registration, what is registered was so before, or is the session itself with what it
leaves to be remembered. -/
theorem Registration.written (outcome : Registration registry session result after)
    {entry : ActiveSession} (found : after.sessions key = some entry) :
    registry.sessions key = some entry ∨ (key = session.key ∧ (entry = ⟨[], session⟩ ∨
      ∃ current, registry.sessions session.key = some current ∧
        retires current session = false ∧ entry = ⟨retiredAfter current session, session⟩)) := by
  cases outcome with
  | fresh absent =>
    rw [put_sessions] at found
    split at found
    · cases found
      exact Or.inr ⟨‹_›, Or.inl rfl⟩
    · exact Or.inl found
  | obsolete current registered retired result returned =>
    rw [close_eq, closeWith_sessions] at found
    exact Or.inl found
  | same current registered admitted held identical =>
    rw [settleRestart_sessions] at found
    exact Or.inl found
  | kept current registered admitted held different opened undisplaced preferred =>
    rw [close_eq, closeWith_sessions] at found
    exact Or.inl found
  | replaced current registered admitted different lost =>
    rw [replace, release_sessions, put_sessions, cleared_sessions] at found
    split at found
    · cases found
      exact Or.inr ⟨‹_›, Or.inr ⟨current, registered, admitted, rfl⟩⟩
    · exact Or.inl found

/-- After a registration, what is registered was so before or is the session itself. -/
theorem Registration.entries (outcome : Registration registry session result after)
    {entry : ActiveSession} (found : after.sessions key = some entry) :
    registry.sessions key = some entry ∨ (key = session.key ∧ entry.session = session) := by
  rcases outcome.written found with before | ⟨own, rfl | ⟨current, -, -, rfl⟩⟩
  · exact Or.inl before
  · exact Or.inr ⟨own, rfl⟩
  · exact Or.inr ⟨own, rfl⟩

theorem Registration.registered (outcome : Registration registry session result after) :
    ∃ entry, after.sessions session.key = some entry := by
  cases outcome with
  | fresh absent => exact ⟨_, by rw [put_sessions, if_pos rfl]⟩
  | obsolete current found retired result returned => exact ⟨current, by simp [found]⟩
  | same current found admitted held identical => exact ⟨current, by simp [found]⟩
  | kept current found admitted held different opened undisplaced preferred =>
    exact ⟨current, by simp [found]⟩
  | replaced current found admitted different lost =>
    exact ⟨_, by rw [replace, release_sessions, put_sessions, if_pos rfl]⟩

theorem Registration.others (outcome : Registration registry session result after)
    (other : key ≠ session.key) : after.sessions key = registry.sessions key := by
  cases outcome with
  | fresh absent => simp [other]
  | obsolete current registered retired result returned => simp
  | same current registered admitted held identical => simp
  | kept current registered admitted held different opened undisplaced preferred => simp
  | replaced current registered admitted different lost => simp [replace, other]

/-- A registration returns the session itself or the one registered under its key. -/
theorem Registration.returned {session returned : Session} {result : Except NetworkError Session}
    {after : Registry} (outcome : Registration registry session result after)
    (succeeded : result = .ok returned) :
    returned = session ∨
      ∃ entry, registry.sessions session.key = some entry ∧ entry.session = returned := by
  cases outcome with
  | fresh absent => exact Or.inl (Except.ok.inj succeeded).symm
  | obsolete current registered retired result known =>
    exact Or.inr ⟨current, registered, (known returned succeeded).symm⟩
  | same current registered admitted held identical =>
    exact Or.inr ⟨current, registered, Except.ok.inj succeeded⟩
  | kept current registered admitted held different opened undisplaced preferred =>
    exact Or.inr ⟨current, registered, Except.ok.inj succeeded⟩
  | replaced current registered admitted different lost =>
    exact Or.inl (Except.ok.inj succeeded).symm

end ArcRelay.Registry
