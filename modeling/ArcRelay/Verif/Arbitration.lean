import ArcRelay.Verif.Restart

/-!
# What arbitration decides

`register_session` settles which of two sessions of one peer and kind stays. The
decision rests on what the entry remembers: an entry never retires the process of
its own session, so a session that is registered already is never refused as
obsolete. The first part carries this through every run of the registry; the
second says what a registration returns and leaves in a state of such a run; the
third asks when a registration can cost a live session.
-/

namespace ArcRelay.Arbitration

open Registry
open Teardown (Operation perform run)

/-! ## What an entry remembers -/

/-- The memory of an entry is in order. -/
structure Orderly (entry : ActiveSession) : Prop where
  distinct : entry.retiredPeerInstances.Nodup
  /-- No more processes are remembered than the bound allows. -/
  bounded : entry.retiredPeerInstances.length ≤ maxRetiredPeerInstances
  /-- The process of the registered session is not retired. -/
  current : ∀ process, entry.peerProcessInstanceId = some process →
    process ∉ entry.retiredPeerInstances

/-- Every entry of the registry is in order. -/
def Ordered (registry : Registry) : Prop :=
  ∀ key entry, registry.sessions key = some entry → Orderly entry

theorem orderly_fresh (session : Session) : Orderly ⟨[], session⟩ :=
  ⟨List.nodup_nil, Nat.zero_le _, fun _ _ => List.not_mem_nil⟩

variable {previous : ProcessInstanceId} {entry : ActiveSession} {session : Session}

/-- What a registration displaces: the two sessions name different processes. -/
theorem displaced_eq_some (gone : displaced entry session = some previous) :
    entry.peerProcessInstanceId = some previous ∧
      ∃ incoming, session.peerProcessInstanceId = some incoming ∧ previous ≠ incoming := by
  unfold displaced at gone
  split at gone
  · rename_i named other carried came
    split at gone
    · rename_i differs
      cases gone
      exact ⟨carried, other, came, by simpa using differs⟩
    · cases gone
  · cases gone

/-- Two sessions that name different processes displace the earlier one. -/
theorem displaced_of_ne {incoming : ProcessInstanceId}
    (carried : entry.peerProcessInstanceId = some previous)
    (came : session.peerProcessInstanceId = some incoming) (differs : previous ≠ incoming) :
    displaced entry session = some previous := by
  simp [displaced, carried, came, differs]

theorem displaced_self (entry : ActiveSession) : displaced entry entry.session = none := by
  cases gone : displaced entry entry.session with
  | none => rfl
  | some previous =>
    obtain ⟨carried, incoming, came, differs⟩ := displaced_eq_some gone
    exact absurd (Option.some.inj (carried.symm.trans came)) differs

theorem Orderly.admits (orderly : Orderly entry) :
    retires entry entry.session = false := by
  unfold retires
  split
  · rename_i process carried
    simpa using orderly.current process carried
  · rfl

/-- The process of an admitted session is not among the retired ones. -/
theorem not_mem_of_admitted {process : ProcessInstanceId} (admitted : retires entry session = false)
    (carries : session.peerProcessInstanceId = some process) :
    process ∉ entry.retiredPeerInstances := by
  simpa [retires, carries] using admitted

/-- The entry of an admitted session is in order if the one it replaces is. -/
theorem orderly_retiredAfter (orderly : Orderly entry) (admitted : retires entry session = false) :
    Orderly ⟨retiredAfter entry session, session⟩ := by
  have admits : ∀ process, session.peerProcessInstanceId = some process →
      process ∉ entry.retiredPeerInstances :=
    fun process carries => not_mem_of_admitted admitted carries
  unfold retiredAfter
  split
  · rename_i previous gone
    obtain ⟨carried, incoming, came, differs⟩ := displaced_eq_some gone
    have new : previous ∉ entry.retiredPeerInstances := orderly.current previous carried
    have distinct : (entry.retiredPeerInstances ++ [previous]).Nodup := by
      rw [List.nodup_append]
      exact ⟨orderly.distinct, List.nodup_singleton previous, fun process member other last => by
        rw [List.mem_singleton] at last
        subst last
        rintro rfl
        exact new member⟩
    refine ⟨distinct.sublist (List.drop_sublist _ _), ?_, fun process carries member => ?_⟩
    · simp only [List.length_drop]
      omega
    · -- the incoming process is neither one of the retired ones nor the displaced one
      have carries : session.peerProcessInstanceId = some process := carries
      rcases List.mem_append.mp (List.mem_of_mem_drop member) with old | last
      · exact admits process carries old
      · rw [List.mem_singleton] at last
        rw [came] at carries
        exact differs (last.symm.trans (Option.some.inj carries).symm)
  · exact ⟨orderly.distinct, orderly.bounded, admits⟩

theorem mem_retiredAfter (gone : displaced entry session = some previous) :
    previous ∈ retiredAfter entry session := by
  simp only [retiredAfter, gone]
  have last : entry.retiredPeerInstances ++ [previous] =
      entry.retiredPeerInstances ++ previous :: [] := rfl
  exact Restart.mem_recent last (by decide)

/-- Every step keeps the entries in order. -/
theorem ordered_perform (state : Teardown.State) (operation : Operation)
    (ordered : Ordered state.registry) : Ordered (perform state operation).registry := by
  by_cases registers : ∃ session, operation = .register session
  · obtain ⟨session, rfl⟩ := registers
    simp only [perform, Teardown.register]
    split
    · intro key entry found
      have outcome := state.registry.registerSession_registration session
      rcases outcome.written found with before | ⟨own, rfl | ⟨current, registered, admitted, rfl⟩⟩
      · exact ordered key entry before
      · exact orderly_fresh session
      · exact orderly_retiredAfter (ordered _ current registered) admitted
    · exact ordered
  · have recedes := Teardown.recedes_perform state fun session same => registers ⟨session, same⟩
    exact fun key entry found => ordered key entry (recedes key entry found)

/-- Every entry is in order in every state of a run of a fresh runtime. -/
theorem ordered_run (operations : List Operation) : Ordered (run operations).registry :=
  (Run.invariant_always (fun _ _ found => by cases found) ordered_perform operations).last

/-! ## What a registration returns and leaves -/

/-- What `register_session` may do with a session in a registry. -/
structure Settles (registry : Registry) (session : Session) (result : Except NetworkError Session)
    (after : Registry) : Prop where
  /-- The session returned is the one now registered under the key. -/
  returned : ∀ active, result = .ok active →
    ∃ entry, after.sessions session.key = some entry ∧ entry.session = active
  /-- If another session is returned, this one is closed and the registry is as it was. -/
  refused : ∀ active, result = .ok active → active ≠ session →
    after.isOpen session.conn = false ∧ after.sessions = registry.sessions
  /-- If none is returned, the session is closed and the registry is as it was. -/
  failed : ∀ error, result = .error error →
    after.isOpen session.conn = false ∧ after.sessions = registry.sessions
  /-- A session of a process that is neither the registered one nor retired takes over, whatever
  the ranks, initiators and relays are. -/
  restarted : ∀ entry previous incoming, registry.sessions session.key = some entry →
    entry.peerProcessInstanceId = some previous →
      session.peerProcessInstanceId = some incoming → previous ≠ incoming →
        incoming ∉ entry.retiredPeerInstances →
          result = .ok session ∧ after.isOpen entry.connection = false ∧
            ∃ retired, after.sessions session.key = some ⟨retired, session⟩ ∧ previous ∈ retired
  /-- A session that is registered already stays so, and nothing is closed. -/
  repeated : ∀ entry, registry.sessions session.key = some entry → entry.session = session →
    result = .ok session ∧ after = registry

/-- The session is held by the caller, and it is the only one of its connection. -/
structure Given (registry : Registry) (session : Session) : Prop where
  held : registry.handles session.conn = true
  /-- A registered session of the connection is the session. -/
  own : ∀ entry, registry.sessions session.key = some entry →
    entry.connection = session.conn → entry.session = session

variable {registry : Registry}

theorem isOpen_replaced {current : ActiveSession} (retired : List ProcessInstanceId)
    (gone : registry.handles current.connection = true ∨
      (displaced current session).isSome = true) :
    ((registry.cleared current session).replace current session retired).isOpen
      current.connection = false := by
  cases still : ((registry.cleared current session).replace current session retired).isOpen
      current.connection with
  | false => rfl
  | true =>
    have before := isOpen_of_release _ still
    have cleared : (registry.cleared current session).isOpen current.connection = true := before
    rw [isOpen_cleared] at cleared
    rcases gone with held | displaced
    · simp [held] at cleared
    · simp [Option.isSome_iff_ne_none.mp displaced] at cleared

/-- A registration settles a session in a registry whose entries are in order. -/
theorem settles_of_ordered (ordered : Ordered registry) (given : Given registry session) :
    Settles registry session (registry.registerSession session).1
      (registry.registerSession session).2 := by
  have outcome := registry.registerSession_registration session
  generalize (registry.registerSession session).1 = result at outcome ⊢
  generalize (registry.registerSession session).2 = after at outcome ⊢
  cases outcome with
  | fresh absent =>
    refine ⟨fun active same => ?_, fun active same other => ?_, (fun _ refused => by cases refused),
      fun entry _ _ found => ?_, fun entry found => ?_⟩
    · cases same
      exact ⟨⟨[], session⟩, by simp, rfl⟩
    · cases same
      exact absurd rfl other
    · rw [absent] at found
      cases found
    · rw [absent] at found
      cases found
  | obsolete current found retired result returned =>
    have closed : (registry.close session.conn 409 "obsolete peer process instance").isOpen
        session.conn = false := by simp
    refine ⟨fun active same => ⟨current, by simpa using found, (returned active same).symm⟩,
      fun _ _ _ => ⟨closed, by simp⟩, fun _ _ => ⟨closed, by simp⟩,
      fun entry previous incoming registered _ came _ admitted => ?_,
      fun entry registered same => ?_⟩
    · rw [found] at registered
      cases registered
      simp [retires, came, admitted] at retired
    · rw [found] at registered
      cases registered
      rw [← same, (ordered _ current found).admits] at retired
      cases retired
  | same current found admitted held identical =>
    have own := given.own current found identical
    have undisplaced : displaced current session = none := own ▸ displaced_self current
    have settled : registry.settleRestart current session = registry := by
      simp [settleRestart, undisplaced]
    rw [settled, own]
    refine ⟨fun active same => ?_, fun active same other => ?_, (fun _ refused => by cases refused),
      fun entry previous incoming registered carried came differs _ => ?_,
      fun _ _ _ => ⟨rfl, rfl⟩⟩
    · cases same
      exact ⟨current, found, own⟩
    · cases same
      exact absurd rfl other
    · rw [found] at registered
      cases registered
      rw [displaced_of_ne carried came differs] at undisplaced
      cases undisplaced
  | kept current found admitted held different opened undisplaced preferred =>
    refine ⟨fun active same => ?_, fun _ _ _ => ⟨by simp, by simp⟩,
      (fun _ refused => by cases refused),
      fun entry previous incoming registered carried came differs _ => ?_,
      fun entry registered same => ?_⟩
    · cases same
      exact ⟨current, by simpa using found, rfl⟩
    · rw [found] at registered
      cases registered
      rw [displaced_of_ne carried came differs] at undisplaced
      cases undisplaced
    · rw [found] at registered
      cases registered
      exact absurd (congrArg Session.conn same) different
  | replaced current found admitted different lost =>
    have registered := Teardown.replace_sessions registry session current
      (retiredAfter current session)
    refine ⟨fun active same => ?_, fun active same other => ?_, (fun _ refused => by cases refused),
      fun entry previous incoming present carried came differs _ => ?_,
      fun entry present same => ?_⟩
    · cases same
      exact ⟨⟨retiredAfter current session, session⟩, by simp [registered], rfl⟩
    · cases same
      exact absurd rfl other
    · rw [found] at present
      cases present
      have gone := displaced_of_ne carried came differs
      exact ⟨rfl, isOpen_replaced _ (Or.inr (by simp [gone])), retiredAfter current session,
        by simp [registered], mem_retiredAfter gone⟩
    · rw [found] at present
      cases present
      have shared : current.connection = session.conn := congrArg Session.conn same
      exact absurd shared (different (shared ▸ given.held))

/-- In every state of a run of a fresh runtime the entries are in order, and a registration settles
the session it is given. -/
theorem registration_settles (operations : List Operation) :
    Ordered (run operations).registry ∧
      ∀ session, Given (run operations).registry session →
        Settles (run operations).registry session
          ((run operations).registry.registerSession session).1
          ((run operations).registry.registerSession session).2 :=
  ⟨ordered_run operations, fun _ given => settles_of_ordered (ordered_run operations) given⟩

/-- A session of a second process arrives while one of the first is registered. -/
theorem registration_settles_restart :
    Given (run [.register (Restart.sessionOf 1 1)]).registry (Restart.sessionOf 2 2) ∧
      Settles (run [.register (Restart.sessionOf 1 1)]).registry (Restart.sessionOf 2 2)
        ((run [.register (Restart.sessionOf 1 1)]).registry.registerSession
          (Restart.sessionOf 2 2)).1
        ((run [.register (Restart.sessionOf 1 1)]).registry.registerSession
          (Restart.sessionOf 2 2)).2 := by
  have given : Given (run [.register (Restart.sessionOf 1 1)]).registry
      (Restart.sessionOf 2 2) := by
    refine ⟨rfl, fun entry found shared => ?_⟩
    cases found
    exact absurd shared (by decide)
  exact ⟨given, (registration_settles _).2 _ given⟩

/-! ## What a registration costs -/

/-- The entry turns the session away: it has retired its process, or it belongs to the same process
and wins the arbitration. -/
def Refuses (entry : ActiveSession) (session : Session) : Prop :=
  retires entry session = true ∨
    (displaced entry session = none ∧ keepsActive entry.session session = true)

/-- What a registration over a live entry leaves: an open connection under the key, and the entry
itself if the incoming session was closed already. -/
def Spares (registry : Registry) (session : Session) (entry : ActiveSession) (after : Registry) :
    Prop :=
  (∃ left, after.sessions session.key = some left ∧ after.isOpen left.connection = true) ∧
    (registry.isOpen session.conn = false →
      after.sessions session.key = some entry ∧ after.isOpen entry.connection = true)

/-- A registration that leaves the entry and its connection alone spares it. -/
theorem spares_of_unchanged {after : Registry} (found : after.sessions session.key = some entry)
    (opened : after.isOpen entry.connection = true) : Spares registry session entry after :=
  ⟨⟨entry, found, opened⟩, fun _ => ⟨found, opened⟩⟩

theorem isOpen_incoming (registry : Registry) {current : ActiveSession}
    (retired : List ProcessInstanceId) (different : current.connection ≠ session.conn) :
    ((registry.cleared current session).replace current session retired).isOpen session.conn =
      registry.isOpen session.conn := by
  have distinct : session.conn ≠ current.session.conn := fun same => different same.symm
  have apart : session.conn ≠ current.connection := distinct
  simp [replace, isOpen_release, isOpen_put, isOpen_cleared, distinct, apart]

/-- A registration over a live entry in order spares it exactly when the incoming session is open
or turned away. -/
theorem spares_iff_of_ordered (ordered : Ordered registry) (given : Given registry session)
    (found : registry.sessions session.key = some entry)
    (live : registry.handles entry.connection = true)
    (opened : registry.isOpen entry.connection = true) :
    Spares registry session entry (registry.registerSession session).2 ↔
      registry.isOpen session.conn = true ∨ Refuses entry session := by
  have outcome := registry.registerSession_registration session
  generalize (registry.registerSession session).1 = result at outcome
  generalize (registry.registerSession session).2 = after at outcome ⊢
  cases outcome with
  | fresh absent =>
    rw [found] at absent
    cases absent
  | obsolete current registered retired result returned =>
    rw [found] at registered
    cases registered
    -- a session the entry retires is not the entry's own, so closing it leaves the entry open
    have different : entry.connection ≠ session.conn := fun shared => by
      rw [← given.own entry found shared, (ordered _ entry found).admits] at retired
      cases retired
    refine iff_of_true (spares_of_unchanged (by simpa using found) ?_) (Or.inr (Or.inl retired))
    simp [opened, different]
  | same current registered admitted held identical =>
    rw [found] at registered
    cases registered
    have undisplaced : displaced entry session = none :=
      given.own entry found identical ▸ displaced_self entry
    have settled : registry.settleRestart entry session = registry := by
      simp [settleRestart, undisplaced]
    rw [settled]
    exact iff_of_true (spares_of_unchanged found opened) (Or.inl (identical ▸ opened))
  | kept current registered admitted held different stays undisplaced preferred =>
    rw [found] at registered
    cases registered
    refine iff_of_true (spares_of_unchanged (by simpa using found) ?_)
      (Or.inr (Or.inr ⟨undisplaced, preferred⟩))
    simp [opened, different]
  | replaced current registered admitted different lost =>
    rw [found] at registered
    cases registered
    have turnedIn : ¬ Refuses entry session := by
      rintro (retired | ⟨undisplaced, preferred⟩)
      · rw [admitted] at retired
        cases retired
      · rw [lost live opened undisplaced] at preferred
        cases preferred
    have sessions := Teardown.replace_sessions registry session entry (retiredAfter entry session)
      session.key
    rw [if_pos rfl] at sessions
    have incoming := isOpen_incoming registry (retiredAfter entry session) (different live)
    constructor
    · rintro ⟨⟨left, leftFound, leftOpen⟩, -⟩
      rw [sessions] at leftFound
      cases leftFound
      exact Or.inl (incoming.symm.trans leftOpen)
    · rintro (isOpen | refused)
      · refine ⟨⟨_, sessions, incoming.trans isOpen⟩, fun closed => ?_⟩
        rw [isOpen] at closed
        cases closed
      · exact absurd refused turnedIn

/-- In every state of a run of a fresh runtime, a registration spares a live entry of its key
exactly when the incoming session is open or turned away. -/
theorem live_entry_spared_iff (operations : List Operation) (session : Session)
    (given : Given (run operations).registry session) (entry : ActiveSession)
    (found : (run operations).registry.sessions session.key = some entry)
    (live : (run operations).registry.handles entry.connection = true)
    (opened : (run operations).registry.isOpen entry.connection = true) :
    Spares (run operations).registry session entry
        ((run operations).registry.registerSession session).2 ↔
      (run operations).registry.isOpen session.conn = true ∨ Refuses entry session :=
  spares_iff_of_ordered (ordered_run operations) given found live opened

/-- A session of the same process is registered after its connection has closed, or before. -/
def reconnecting (closed : List Operation) : List Operation :=
  .register (Restart.sessionOf 1 1) :: closed

theorem given_reconnecting (closed : List Operation)
    (held : (run (reconnecting closed)).registry.handles 2 = true)
    (found : (run (reconnecting closed)).registry.sessions (Restart.sessionOf 1 2).key =
      some ⟨[], Restart.sessionOf 1 1⟩) :
    Given (run (reconnecting closed)).registry (Restart.sessionOf 1 2) := by
  refine ⟨held, fun entry present shared => ?_⟩
  rw [found] at present
  cases present
  exact absurd shared (by decide)

/-- An open session of the same initiator replaces the live one. -/
theorem live_entry_spared_open :
    Spares (run (reconnecting [])).registry (Restart.sessionOf 1 2) ⟨[], Restart.sessionOf 1 1⟩
      ((run (reconnecting [])).registry.registerSession (Restart.sessionOf 1 2)).2 :=
  (live_entry_spared_iff _ _ (given_reconnecting [] rfl rfl) _ rfl rfl rfl).mpr (Or.inl rfl)

/-- A session that has closed before it is registered replaces the live one: the live one is
closed, and what is registered is closed too. -/
theorem live_entry_lost :
    Given (run (reconnecting [.closed 2 .timedOut])).registry (Restart.sessionOf 1 2) ∧
      (run (reconnecting [.closed 2 .timedOut])).registry.sessions (Restart.sessionOf 1 2).key =
        some ⟨[], Restart.sessionOf 1 1⟩ ∧
      (run (reconnecting [.closed 2 .timedOut])).registry.isOpen 1 = true ∧
      (run (reconnecting [.closed 2 .timedOut])).registry.handles 1 = true ∧
      ¬ Spares (run (reconnecting [.closed 2 .timedOut])).registry (Restart.sessionOf 1 2)
        ⟨[], Restart.sessionOf 1 1⟩
        ((run (reconnecting [.closed 2 .timedOut])).registry.registerSession
          (Restart.sessionOf 1 2)).2 := by
  refine ⟨given_reconnecting _ rfl rfl, rfl, rfl, rfl, ?_⟩
  rintro ⟨⟨left, found, opened⟩, -⟩
  cases found
  exact absurd opened (by decide)

end ArcRelay.Arbitration
