import ArcRelay.Verif.Handshake
import ArcRelay.Verif.World

/-!
# Whom the accepting end admits

A session that `authenticate_inbound` returns belongs to a device that proved its
identity on this very connection, and that the repository or the visibility of
this device allowed in at the moment it was checked. Other tasks may change the
repository and the visibility between any two calls of the handshake.
-/

namespace ArcRelay

/-- The repository stores the peer as paired under its key. -/
def StoredPaired (platform : Platform) (database : Database) (peer : SessionPeer) : Prop :=
  ∃ record, database.peer platform peer.deviceId = .ok (some record) ∧
    record.trustState = .paired ∧ record.publicKey = peer.publicKey

/-- What an inbound session has passed. -/
structure Admission (runtime : Runtime) (connection : Connection) (moments : List Moment)
    (session : Session) : Prop where
  /-- The hello carried an id bound to its root key and a certificate digest signed by it, and a
  signature by that key over the transcript of this session was received. -/
  identity : ∃ own remote transcript,
    runtime.Greeted connection session.kind own remote session.peer moments ∧
      runtime.platform.sessionTranscript connection own remote = .ok transcript ∧
        Runtime.Signed runtime.platform connection moments session.peer transcript
  other : session.peer.deviceId ≠ runtime.deviceId
  /-- The peer was paired when that was checked, or the kind is open and this device was
  discoverable when that was checked. -/
  visible : (∃ moment ∈ moments, moment.call = .peer session.peer.deviceId ∧
      StoredPaired runtime.platform moment.world.database session.peer) ∨
    (session.kind.openToUnpaired = true ∧ ∃ moment ∈ moments, moment.call = .isDiscoverable ∧
      moment.world.discoverable = true)
  /-- A probe was admitted by the rate limit of its source. -/
  probe : session.kind = .discoveryProbe → ∃ moment ∈ moments,
    moment.call = .admitProbe connection.remoteAddress.ip ∧
      (moment.world.admitProbe connection.remoteAddress.ip).1 = .ok ()

namespace Runtime

variable {self : Runtime}

theorem storedPaired_of_checked {moments : List Moment} {peer : SessionPeer}
    (answered : ∀ moment ∈ moments, Program.Answered self.handle moment)
    (checked : CheckedPaired moments peer.deviceId peer.publicKey) :
    ∃ moment ∈ moments, moment.call = .peer peer.deviceId ∧
      StoredPaired self.platform moment.world.database peer := by
  obtain ⟨record, ⟨paired, world, member⟩, key⟩ := checked
  obtain ⟨proposal, after, replied⟩ := answered _ member
  have read : World.read proposal (world.database.peer self.platform peer.deviceId) =
      .ok (some record) := congrArg Prod.fst (Option.some.inj replied)
  exact ⟨_, member, rfl, record, World.read_eq_ok read, paired, key⟩

/-- `authenticate_inbound` returns a session only for a device it may admit. -/
theorem authenticateInbound_admission {connection : Connection} {moments : List Moment}
    {session : Session}
    (returns : Program.Returns (self.authenticateInbound connection).run moments (.ok session))
    (answered : ∀ moment ∈ moments, Program.Answered self.handle moment) :
    Admission self connection moments session := by
  obtain ⟨own, remote, peer, kind, authenticated, admitted⟩ :=
    (signs_authenticateInbound connection).returns returns (fun _ _ _ => trivial) session rfl
  obtain ⟨transcript, built, -, signed, -⟩ := authenticated.finished.signs
  have sameId : session.peer.deviceId = peer.deviceId := by rw [authenticated.finished.samePeer]
  have sameKey : session.peer.publicKey = peer.publicKey := by rw [authenticated.finished.samePeer]
  refine ⟨⟨own, remote, transcript, authenticated.greets, built, signed⟩, ?_, ?_, ?_⟩
  · rw [sameId]
    exact authenticated.finished.other
  · rcases admitted.visible with checked | ⟨unrestricted, world, member⟩
    · rw [← sameId, ← sameKey] at checked
      exact Or.inl (storedPaired_of_checked answered checked)
    · obtain ⟨proposal, after, replied⟩ := answered _ member
      have shown : world.discoverable = true := congrArg Prod.fst (Option.some.inj replied)
      exact Or.inr ⟨authenticated.sameKind ▸ unrestricted, _, member, rfl, shown⟩
  · intro probe
    obtain ⟨world, member⟩ := admitted.probe (authenticated.sameKind ▸ probe)
    obtain ⟨proposal, after, replied⟩ := answered _ member
    exact ⟨_, member, rfl, congrArg Prod.fst (Option.some.inj replied)⟩

/-- A platform that knows the hellos of two probing devices. -/
def probePlatform : Platform :=
  .sample [sampleHello "alice" 1 .discoveryProbe, sampleHello "bob" 2 .discoveryProbe] ⟨none, []⟩

/-- What a probing device sends: its hello, its signature and its confirmation. -/
def probeFrames : Nat → Bytes
  | 1 => [1, 0]
  | 11 => sampleAuth probePlatform "bob" (sampleHello "alice" 1 .discoveryProbe)
      (sampleHello "bob" 2 .discoveryProbe)
  | _ => [2]

/-- An unpaired device probes this one while it is discoverable, and is admitted. -/
theorem authenticateInbound_admission_probe :
    ∃ moments session, session.kind = .discoveryProbe ∧
      Admission (sample probePlatform "alice" 1) (sampleConnection none) moments session := by
  have outcome : (Program.eval (sample probePlatform "alice" 1).handle (Call.delivering probeFrames)
      0 ((sample probePlatform "alice" 1).authenticateInbound (sampleConnection none)).run
      (World.fresh .empty)).map (fun run => run.2.1.toOption.map Session.kind) =
        some (some .discoveryProbe) := by decide +kernel
  obtain ⟨⟨moments, result, after⟩, evaluated, shown⟩ := Option.map_eq_some_iff.mp outcome
  obtain ⟨returns, answered⟩ := Program.returns_of_eval evaluated
  cases result with
  | error error => cases shown
  | ok session =>
    exact ⟨moments, session, Option.some.inj shown, authenticateInbound_admission returns answered⟩

end Runtime

end ArcRelay
