import ArcRelay.Verif.Teardown

/-!
# Superseded processes of a peer

When a session of a new process of a peer displaces that of an old one, the
registry entry remembers the old process, so that a delayed handshake of it cannot
take the session back. The memory is a part of the entry, and an operation that
removes the entry removes the memory. Runs are compared with a log that forgets
nothing: as long as no entry with a memory is removed, the entry remembers the
last displacements of the log, and no superseded process takes a session back.
-/

namespace ArcRelay.Restart

open Registry
open Teardown (Operation)

/-- The last entries of a log, as many as an entry remembers. -/
def recent (log : List ProcessInstanceId) : List ProcessInstanceId :=
  log.drop (log.length - maxRetiredPeerInstances)

/-- The registry, and for each key every process that was displaced since the peer was last
forgotten, oldest first. -/
structure State where
  registry : Registry
  superseded : SessionKey → List ProcessInstanceId

/-- A fresh runtime. -/
def State.initial : State := ⟨.empty, fun _ => []⟩

/-- The registry after an operation. -/
def registryAfter (registry : Registry) (operation : Operation) : Registry :=
  (Teardown.perform ⟨registry, []⟩ operation).registry

/-- The process that a registration displaces: the one of another session under the key, unless
the incoming session is refused as obsolete. -/
def displacedBy (registry : Registry) (session : Session) : Option ProcessInstanceId :=
  match registry.sessions session.key with
  | none => none
  | some current =>
    if retires current session || current.connection == session.conn then none
    else displaced current session

/-- The log after an operation. -/
def supersededAfter (state : State) (operation : Operation) (key : SessionKey) :
    List ProcessInstanceId :=
  match operation with
  | .register session =>
    if state.registry.handles session.conn ∧ key = session.key then
      state.superseded key ++ (displacedBy state.registry session).toList
    else state.superseded key
  | .forget peer => if key.1 = peer then [] else state.superseded key
  | _ => state.superseded key

/-- One step. -/
def perform (state : State) (operation : Operation) : State :=
  ⟨registryAfter state.registry operation, supersededAfter state operation⟩

/-- The process was displaced under the key, with fewer than so many displacements since as an
entry remembers. -/
def Superseded (state : State) (key : SessionKey) (process : ProcessInstanceId) : Prop :=
  ∃ before later, state.superseded key = before ++ process :: later ∧
    later.length < maxRetiredPeerInstances

/-- A step does not take a session back: a session of a superseded process leaves an open session
of another process registered and open. Sessions of different processes are different sessions, so
their connections differ. -/
def Yields (state : State) : Operation → Prop
  | .register session => ∀ process entry other,
    session.peerProcessInstanceId = some process → Superseded state session.key process →
      state.registry.sessions session.key = some entry →
        state.registry.isOpen entry.connection = true →
          entry.peerProcessInstanceId = some other → other ≠ process →
            entry.connection ≠ session.conn →
              (perform state (.register session)).registry.sessions session.key = some entry ∧
                (perform state (.register session)).registry.isOpen entry.connection = true
  | _ => True

/-- A step removes no entry that remembers a displaced process, unless the peer is forgotten. -/
def Remembers (state : State) (operation : Operation) : Prop :=
  ∀ key entry, state.registry.sessions key = some entry → entry.retiredPeerInstances ≠ [] →
    operation ≠ .forget key.1 →
      (perform state operation).registry.sessions key ≠ none

/-- What is remembered is the recent part of the log, and nothing is forgotten with an entry. -/
def Recalls (state : State) : Prop :=
  ∀ key, match state.registry.sessions key with
    | some entry => entry.retiredPeerInstances = recent (state.superseded key)
    | none => state.superseded key = []

/-! ## The log and its recent part -/

variable {log : List ProcessInstanceId}

theorem recent_eq_nil (empty : recent log = []) : log = [] := by
  have length : log.length - (log.length - maxRetiredPeerInstances) = 0 := by
    rw [← List.length_drop]
    exact congrArg List.length empty
  have positive : 0 < maxRetiredPeerInstances := by decide
  exact List.eq_nil_of_length_eq_zero (by omega)

theorem recent_append (log : List ProcessInstanceId) (process : ProcessInstanceId) :
    recent (recent log ++ [process]) = recent (log ++ [process]) := by
  unfold recent
  rcases Nat.le_total log.length maxRetiredPeerInstances with short | long
  · simp [Nat.sub_eq_zero_of_le short]
  · have bound : log.length - maxRetiredPeerInstances ≤ log.length := Nat.sub_le _ _
    rw [← List.drop_append_of_le_length bound, List.drop_drop]
    congr 1
    simp only [List.length_drop, List.length_append, List.length_cons, List.length_nil]
    omega

theorem mem_recent {before later : List ProcessInstanceId} {process : ProcessInstanceId}
    (split : log = before ++ process :: later) (few : later.length < maxRetiredPeerInstances) :
    process ∈ recent log := by
  subst split
  have early : (before ++ process :: later).length - maxRetiredPeerInstances ≤ before.length := by
    simp only [List.length_append, List.length_cons]
    omega
  rw [recent, List.drop_append_of_le_length early]
  exact List.mem_append_right _ List.mem_cons_self

/-! ## Steps that remove -/

/-- A step that adds no entry and leaves the log alone keeps the memory, if it removes no entry that
remembers something. -/
theorem recalls_of_recedes {state : State} {registry : Registry} (recalls : Recalls state)
    (recedes : state.registry.Recedes registry)
    (remembers : ∀ key entry, state.registry.sessions key = some entry →
      entry.retiredPeerInstances ≠ [] → registry.sessions key ≠ none) :
    Recalls ⟨registry, state.superseded⟩ := by
  intro key
  have known := recalls key
  cases after : registry.sessions key with
  | some entry =>
    rw [recedes key entry after] at known
    exact known
  | none =>
    cases before : state.registry.sessions key with
    | none =>
      rw [before] at known
      exact known
    | some entry =>
      rw [before] at known
      by_cases silent : entry.retiredPeerInstances = []
      · exact recent_eq_nil (known.symm.trans silent)
      · exact absurd after (remembers key entry before silent)

theorem recalls_forget {state : State} (recalls : Recalls state) (peer : DeviceId) :
    Recalls (perform state (.forget peer)) := by
  intro key
  have known := recalls key
  have sessions : (perform state (.forget peer)).registry.sessions key =
      if key.1 = peer then none else state.registry.sessions key :=
    removePeer_sessions _ _ _ _ _
  rw [sessions]
  by_cases own : key.1 = peer
  · simp [own, perform, supersededAfter]
  · simpa [own, perform, supersededAfter] using known

/-! ## Registrations -/

/-- What a registration leaves under its key remembers what it displaced. -/
theorem retired_of_registration {registry after : Registry} {session : Session}
    {result : Except NetworkError Session} (outcome : Registration registry session result after)
    (held : registry.handles session.conn = true)
    (known : match registry.sessions session.key with
      | some entry => entry.retiredPeerInstances = recent log
      | none => log = []) :
    ∃ entry, after.sessions session.key = some entry ∧
      entry.retiredPeerInstances = recent (log ++ (displacedBy registry session).toList) := by
  cases outcome with
  | fresh absent =>
    rw [absent] at known
    subst known
    exact ⟨⟨[], session⟩, by simp, by simp [displacedBy, absent, recent]⟩
  | obsolete current found retired result returned =>
    rw [found] at known
    exact ⟨current, by simp [found], by simpa [displacedBy, found, retired] using known⟩
  | same current found admitted alive identical =>
    rw [found] at known
    exact ⟨current, by simp [found], by simpa [displacedBy, found, identical] using known⟩
  | kept current found admitted alive different opened undisplaced preferred =>
    rw [found] at known
    exact ⟨current, by simp [found], by
      simpa [displacedBy, found, admitted, different, undisplaced] using known⟩
  | replaced current found admitted different lost =>
    rw [found] at known
    have other : current.connection ≠ session.conn := fun same => different (same ▸ held) same
    refine ⟨⟨retiredAfter current session, session⟩, by simp [Teardown.replace_sessions], ?_⟩
    have displacedBy_eq : displacedBy registry session = displaced current session := by
      simp [displacedBy, found, admitted, other]
    rw [displacedBy_eq]
    unfold retiredAfter
    cases gone : displaced current session with
    | none => simpa [recent] using known
    | some previous =>
      dsimp only at known ⊢
      rw [known]
      exact recent_append log previous

/-- A registration keeps the memory. -/
theorem recalls_register {state : State} (recalls : Recalls state) (session : Session) :
    Recalls (perform state (.register session)) := by
  cases held : state.registry.handles session.conn with
  | false =>
    have unlogged : supersededAfter state (.register session) = state.superseded := by
      funext key
      simp [supersededAfter, held]
    have same : perform state (.register session) = state := by
      rw [perform, unlogged]
      simp [registryAfter, Teardown.perform, held]
    rw [same]
    exact recalls
  | true =>
    have outcome := state.registry.registerSession_registration session
    have registered : (perform state (.register session)).registry =
        (state.registry.registerSession session).2 := by
      simp [perform, registryAfter, Teardown.perform, Teardown.register, held]
    intro key
    rw [registered]
    by_cases own : key = session.key
    · subst own
      obtain ⟨entry, found, retired⟩ := retired_of_registration outcome held (recalls session.key)
      rw [found]
      simpa [perform, supersededAfter, held] using retired
    · have others := outcome.others own
      rw [others]
      simpa [perform, supersededAfter, own] using recalls key

/-! ## Runs -/

/-- Every step that removes no memory keeps the memory. -/
theorem recalls_perform (state : State) (operation : Operation) (recalls : Recalls state)
    (remembers : Remembers state operation) : Recalls (perform state operation) := by
  by_cases registers : ∃ session, operation = .register session
  · obtain ⟨session, rfl⟩ := registers
    exact recalls_register recalls session
  by_cases forgets : ∃ peer, operation = .forget peer
  · obtain ⟨peer, rfl⟩ := forgets
    exact recalls_forget recalls peer
  -- every other step leaves the log alone and at most removes entries
  have unlogged : supersededAfter state operation = state.superseded := by
    funext key
    cases operation with
    | register session => exact absurd ⟨session, rfl⟩ registers
    | forget peer => exact absurd ⟨peer, rfl⟩ forgets
    | _ => rfl
  have recedes : state.registry.Recedes (registryAfter state.registry operation) :=
    Teardown.recedes_perform ⟨state.registry, []⟩ fun session same => registers ⟨session, same⟩
  rw [perform, unlogged]
  exact recalls_of_recedes recalls recedes fun key entry found memory =>
    remembers key entry found memory fun same => forgets ⟨key.1, same⟩

/-- With its memory, the registry refuses a session of a superseded process. -/
theorem yields_of_recalls (state : State) (operation : Operation) (recalls : Recalls state) :
    Yields state operation := by
  cases operation with
  | register session =>
    intro process entry other carries superseded found opened runs differs distinct
    obtain ⟨before, later, split, few⟩ := superseded
    have known := recalls session.key
    rw [found] at known
    have retired : retires entry session = true := by
      simp only [retires, carries, List.contains_eq_mem, decide_eq_true_eq]
      rw [show entry.retiredPeerInstances = recent (state.superseded session.key) from known]
      exact mem_recent split few
    have after : (perform state (.register session)).registry = state.registry ∨
        (perform state (.register session)).registry =
          state.registry.close session.conn 409 "obsolete peer process instance" := by
      simp only [perform, registryAfter, Teardown.perform, Teardown.register]
      split
      · right
        simp only [registerSession, found, retired, if_true]
        split <;> rfl
      · exact Or.inl rfl
    rcases after with same | closed
    · rw [same]
      exact ⟨found, opened⟩
    · rw [closed]
      exact ⟨by simpa using found, by simp [opened, distinct]⟩
  | _ => trivial

/-- In every run in which no entry that remembers a displaced process is removed, no session of a
superseded process takes an open session of another process back. -/
theorem superseded_yields {operations : List Operation}
    (remembers : Run.Along perform .initial Remembers operations) :
    Run.Along perform .initial Yields operations := by
  have recalls : Run.Throughout perform .initial Recalls operations :=
    Run.invariant (by intro key; rfl) recalls_perform remembers
  intro done operation isPrefix
  exact yields_of_recalls _ operation (recalls done ((List.prefix_append _ _).trans isPrefix))

theorem remembers_register (state : State) (session : Session) :
    Remembers state (.register session) := by
  intro key entry found _ _
  simp only [perform, registryAfter, Teardown.perform, Teardown.register]
  split
  · have outcome := state.registry.registerSession_registration session
    by_cases own : key = session.key
    · subst own
      obtain ⟨after, registered⟩ := outcome.registered
      simp [registered]
    · rw [outcome.others own, found]
      simp
  · simp [found]

/-- The session of a process of the peer on a connection. -/
def sessionOf (process : UInt8) (connection : ConnectionId) : Session :=
  { Session.sample "peer" "peer" 0 .control connection false with
    peerProcessInstanceId := some (Vector.replicate 16 process) }

/-- The peer restarts, and a handshake of its old process arrives late. -/
def lateOperations : List Operation :=
  [.register (sessionOf 1 1), .register (sessionOf 2 2), .register (sessionOf 1 3)]

/-- The late session does not take the session of the new process back. -/
theorem superseded_yields_late :
    Superseded (Run.exec perform .initial [.register (sessionOf 1 1), .register (sessionOf 2 2)])
        (⟨"peer"⟩, .control) (Vector.replicate 16 1) ∧
      Run.Along perform .initial Yields lateOperations := by
  refine ⟨⟨[], [], by decide, by decide⟩, superseded_yields ?_⟩
  simp only [lateOperations, Run.along_cons, Run.along_nil, remembers_register, and_true]

/-- The same, but the connection of the new process closes and is looked up in between, which
removes its entry with the memory. -/
def amnesicOperations : List Operation :=
  [.register (sessionOf 1 1), .register (sessionOf 2 2), .closed 2 .timedOut,
    .active ⟨"peer"⟩ .control, .register (sessionOf 2 3)]

/-- The late session of the old process closes the open session of the new one. -/
theorem superseded_takes_back :
    Superseded (Run.exec perform .initial amnesicOperations) (⟨"peer"⟩, .control)
        (Vector.replicate 16 1) ∧
      ¬ Run.Along perform .initial Yields (amnesicOperations ++ [.register (sessionOf 1 4)]) := by
  have superseded : Superseded (Run.exec perform .initial amnesicOperations)
      (⟨"peer"⟩, .control) (Vector.replicate 16 1) := ⟨[], [], by decide, by decide⟩
  refine ⟨superseded, fun yields => ?_⟩
  have stays := yields amnesicOperations (.register (sessionOf 1 4)) (List.prefix_refl _)
    (Vector.replicate 16 1) ⟨[], sessionOf 2 3⟩ (Vector.replicate 16 2) rfl superseded
    (by decide) (by decide) rfl (by decide) (by decide)
  exact absurd stays.2 (by decide)

end ArcRelay.Restart
