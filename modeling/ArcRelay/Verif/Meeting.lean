import ArcRelay.Meeting
import ArcRelay.Verif.OwnHello
import ArcRelay.Verif.Trusting

/-!
# A handshake between working devices succeeds

Two devices whose identities check, whose releases share a minor version and neither of
which has a reason to refuse the other complete the handshake, in whatever order their
calls are made: neither end waits in vain, and both return sessions that agree.
-/

namespace ArcRelay

open Async

/-- Releases that understand each other: they differ in their minor versions at most, and share one
of them. -/
structure Compatible (first second : Platform) : Prop where
  same : first.unversioned = second.unversioned
  reaches : first.minProtocolMinor ≤ second.maxProtocolMinor
  reached : second.minProtocolMinor ≤ first.maxProtocolMinor

namespace Compatible

variable {first second : Platform} (compatible : Compatible first second)

include compatible

theorem symm : Compatible second first :=
  ⟨compatible.same.symm, compatible.reached, compatible.reaches⟩

theorem decodeHello (hello : SessionHello) :
    first.decodeHello (second.encodeHello hello) = .ok hello :=
  (congrArg (·.decodeHello (second.encodeHello hello)) compatible.same).trans
    (second.decodeHello_encodeHello hello)

theorem encodeKind (kind : SessionKind) : first.encodeKind kind = second.encodeKind kind :=
  congrArg (·.encodeKind kind) compatible.same

theorem verifySignature (key : DevicePublicKey) (context : SigningContext) (message : Bytes)
    (signature : DeviceSignature) : first.verifySignature key context message signature =
      second.verifySignature key context message signature :=
  congrArg (·.verifySignature key context message signature) compatible.same

theorem signatureFromBytes (bytes : Bytes) :
    first.signatureFromBytes bytes = second.signatureFromBytes bytes :=
  congrArg (·.signatureFromBytes bytes) compatible.same

theorem transcriptWith (exporter : Digest) (own remote : SessionHello) :
    first.transcriptWith exporter own remote = second.transcriptWith exporter own remote :=
  congrArg (·.transcriptWith exporter own remote) compatible.same

theorem verificationCode (transcript : Bytes) :
    first.verificationCode transcript = second.verificationCode transcript :=
  congrArg (·.verificationCode transcript) compatible.same

end Compatible

namespace Party

/-- A message is within the limit and survives its encoding. -/
def Arrives {α : Type} (encode : α → Bytes) (decode : Bytes → Except String α) (message : α) :
    Prop :=
  (encode message).length ≤ handshakeFrameLimit ∧ decode (encode message) = .ok message

/-- A device in working order, for a handshake of a kind. -/
structure Working (party : Party) (kind : SessionKind) : Prop where
  bound : party.runtime.platform.Bound party.runtime.deviceId party.runtime.publicKey
  signature : ∀ context message, party.runtime.platform.signatureFromBytes
    (party.runtime.sign context message).asBytes = .ok (party.runtime.sign context message)
  signs : ∀ context message, party.runtime.platform.verifySignature party.runtime.publicKey context
    message (party.runtime.sign context message) = .ok ()
  fits : (party.environment .metadata).Fits
  clock : 0 < party.environment .now
  finishes : party.environment (.finish party.connection.stableId) = .ok ()
  hello_le : (party.runtime.platform.encodeHello (party.hello kind)).length ≤ handshakeFrameLimit
  auth : ∀ transcript, Arrives party.runtime.platform.encodeAuth party.runtime.platform.decodeAuth
    (party.auth transcript)
  /-- Confirmations of the minor versions the device speaks reach the other end. -/
  accepted : ∀ minor, minor ≤ party.runtime.platform.maxProtocolMinor →
    Arrives party.runtime.platform.encodeAccepted party.runtime.platform.decodeAccepted
      (party.accepted minor)

/-- A device is stored as paired, with the key it has. -/
def Trusts (party : Party) (other : Runtime) : Prop :=
  ∃ record : PeerRecord, World.read (party.environment (.peer other.deviceId))
      (party.world.database.peer party.runtime.platform other.deviceId) = .ok (some record) ∧
    record.trustState = .paired ∧ record.publicKey = other.publicKey

/-- The permit of a selection can be had. -/
def MaySelect (party : Party) : Selection → Prop
  | .absent | .own => True
  | .race race index => party.environment (.select race index) = .ok () ∧
      (party.world.select race index).isSome

/-- Two devices that can shake hands for a kind of session. -/
structure Facing (own other : Party) (kind : SessionKind) : Prop where
  compatible : Compatible own.runtime.platform other.runtime.platform
  differ : own.runtime.deviceId ≠ other.runtime.deviceId
  exporter : own.connection.exporter = other.connection.exporter
  own : own.Working kind
  other : other.Working kind

/-- Devices that can shake hands can do so with their parts exchanged. -/
theorem Facing.symm {own other : Party} {kind : SessionKind} (facing : own.Facing other kind) :
    other.Facing own kind :=
  ⟨facing.compatible.symm, facing.differ.symm, facing.exporter.symm, facing.other, facing.own⟩

/-- The other device as a session knows it. -/
def peer (party : Party) : SessionPeer :=
  { party.runtime.asPeer (party.environment .metadata) with listenPort := party.listenPort }

/-- The session a device has at the end. -/
def session (own other : Party) (kind : SessionKind) (minor : UInt32) (transcript : Bytes)
    (rank : SessionRank) : Session where
  peerProcessInstanceId := some other.runtime.processInstanceId
  relayTunnel := none
  id := max (own.environment .randomId) 1
  kind := kind
  peer := other.peer
  verificationCode := own.runtime.platform.verificationCode transcript
  rank := rank
  connection := own.connection
  protocolMinor := minor

end Party

/-! ## What each end does -/

section Ends

variable {own other : Party} {kind : SessionKind} {world after : World}

theorem validateProcessInstanceId_toList (id : ProcessInstanceId) :
    validateProcessInstanceId id.toList = .ok (some id) := by
  have read : instanceOfBytes? id.toList = some id := by
    unfold instanceOfBytes?
    split
    · simp [Vector.toList]
    · rename_i other
      exact absurd (by simp) other
  have filled : id.toList.isEmpty = false := by
    rw [List.isEmpty_eq_false_iff, ← List.length_pos_iff]
    simp
  simp [validateProcessInstanceId, read, filled]

theorem portOrZero_toNat (port : UInt16) : Runtime.portOrZero (.ofNat port.toNat) = port := by
  have bound := port.toNat_lt
  have small : (UInt32.ofNat port.toNat).toNat = port.toNat :=
    UInt32.toNat_ofNat_of_lt' (by norm_num [UInt32.size]; omega)
  rw [Runtime.portOrZero, small, if_pos (by omega), UInt16.ofNat_toNat]

theorem plays_sendMessage {message : Bytes} (fits : message.length ≤ handshakeFrameLimit) :
    Async.Plays own.wiring (Runtime.sendMessage own.connection message) world [.sent message] ()
      world := by
  refine plays_bind (plays_send ?_) (plays_ofExcept rfl)
  exact if_pos ⟨rfl, fits⟩

theorem plays_receiveMessage {α : Type} {decode : Bytes → Except String α} {bytes : Bytes}
    {value : α} (fits : bytes.length ≤ handshakeFrameLimit) (decoded : decode bytes = .ok value) :
    Async.Plays own.wiring (Runtime.receiveMessage own.connection decode) world [.got bytes] value
      world := by
  refine plays_bind (plays_receive (if_pos rfl) bytes) ?_
  rw [if_pos fits]
  refine plays_silent (plays_ofExcept rfl) (plays_ofExcept ?_)
  rw [decoded]
  rfl

theorem plays_localHello :
    Async.Plays own.wiring (own.runtime.localHello kind) world [] (own.hello kind) world :=
  plays_silent (plays_own rfl rfl) (plays_silent (plays_own rfl rfl) (plays_pure _))

/-- The hello of a device is accepted by the other. -/
theorem Party.Facing.validateHello (facing : own.Facing other kind) :
    own.runtime.platform.validateHello (other.hello kind) (some kind) =
      .ok (other.runtime.asPeer (other.environment .metadata)) := by
  have same := facing.compatible.same
  have parse : own.runtime.platform.parseDeviceId = other.runtime.platform.parseDeviceId :=
    congrArg (·.parseDeviceId) same
  have read : own.runtime.platform.publicKeyFromBytes = other.runtime.platform.publicKeyFromBytes :=
    congrArg (·.publicKeyFromBytes) same
  have verify : own.runtime.platform.verifyKey = other.runtime.platform.verifyKey :=
    congrArg (·.verifyKey) same
  have admitted : own.runtime.platform.admissibleHello (other.hello kind) = true := by
    have range : ¬ other.runtime.platform.maxProtocolMinor <
      other.runtime.platform.minProtocolMinor :=
      UInt32.not_lt.mpr other.runtime.platform.minProtocolMinor_le
    have above : ¬ other.runtime.platform.maxProtocolMinor <
      own.runtime.platform.minProtocolMinor :=
      UInt32.not_lt.mpr facing.compatible.reaches
    have below : ¬ own.runtime.platform.maxProtocolMinor <
      other.runtime.platform.minProtocolMinor :=
      UInt32.not_lt.mpr facing.compatible.reached
    have major : other.runtime.platform.protocolMajor = own.runtime.platform.protocolMajor :=
      (congrArg (·.protocolMajor) same).symm
    obtain ⟨name, platform, model⟩ := facing.other.fits
    simp [Platform.admissibleHello, Party.hello, Runtime.helloWith, range, above, below, major,
      name,
      platform, model]
  refine Platform.validateHello_of_accepted
    { admissible := admitted
      kind := (facing.compatible.encodeKind kind).symm
      deviceId := (congrFun parse _).trans facing.other.bound.parsed
      publicKey := (congrFun read _).trans facing.other.bound.read
      bound := (congrFun (congrFun verify _) _).trans facing.other.bound.verified
      certificate := digestOfBytes?_toList _
      binding := ⟨_, (facing.compatible.signatureFromBytes _).trans (facing.other.signature _ _),
        (facing.compatible.verifySignature _ _ _ _).trans (facing.other.signs _ _)⟩
      metadata := rfl } rfl

/-- A trusted device is found to be paired. -/
theorem plays_requirePaired {runtime : Runtime} (trusted : own.Trusts runtime)
    (sameDatabase : world.database = own.world.database) :
    ∃ record, Async.Plays own.wiring
      (own.runtime.requirePaired runtime.deviceId (some runtime.publicKey)) world [] record
        world := by
  obtain ⟨record, stored, paired, key⟩ := trusted
  refine ⟨record, plays_silent (plays_own rfl rfl) ?_⟩
  have found : own.runtime.repositoryResult (World.read (own.environment (.peer runtime.deviceId))
      (world.database.peer own.runtime.platform runtime.deviceId)) = .ok (some record) := by
    rw [sameDatabase, stored]
    rfl
  refine plays_silent (plays_ofExcept found) ?_
  simp only [Option.filter_some, paired, decide_true, if_true]
  refine plays_silent (plays_refuse ?_) (plays_pure record)
  simp [key]

/-- The pairing gate lets a trusted device pass, and any device for an open kind. -/
theorem plays_requireTrust {runtime : Runtime}
    (trusted : kind.openToUnpaired = false → own.Trusts runtime)
    (sameDatabase : world.database = own.world.database) :
    Async.Plays own.wiring
      (own.runtime.requireTrust kind runtime.deviceId runtime.publicKey) world [] () world := by
  unfold Runtime.requireTrust
  cases closed : kind.openToUnpaired with
  | true => exact plays_pure ()
  | false =>
    have passes := plays_requirePaired (trusted closed) sameDatabase
    exact plays_silent passes.choose_spec (plays_pure ())

/-- Signatures over the same transcript are exchanged. -/
theorem plays_exchangeAuth (facing : own.Facing other kind) (transcript : Bytes) :
    Async.Plays own.wiring
      (own.runtime.exchangeAuth own.connection transcript
        (other.runtime.asPeer (other.environment .metadata))) world
      [.sent (own.runtime.platform.encodeAuth (own.auth transcript)),
        .got (other.runtime.platform.encodeAuth (other.auth transcript))] () world := by
  refine plays_silent (plays_own rfl rfl) ?_
  have decode : own.runtime.platform.decodeAuth = other.runtime.platform.decodeAuth :=
    congrArg (·.decodeAuth) facing.compatible.same
  obtain ⟨short, read⟩ := facing.other.auth transcript
  refine plays_bind (plays_sendMessage (facing.own.auth transcript).1) ?_
  refine plays_bind (plays_receiveMessage short ((congrFun decode _).trans read)) ?_
  refine plays_silent (plays_refuse (bne_self_eq_false _)) ?_
  have read : own.runtime.platform.signatureFromBytes (other.auth transcript).signature =
      .ok (other.runtime.sign .sessionAuthentication transcript) :=
    (facing.compatible.signatureFromBytes _).trans (facing.other.signature _ _)
  refine plays_silent (plays_ofExcept (Platform.identityResult_eq_ok.mpr read)) ?_
  exact plays_ofExcept ((facing.compatible.verifySignature _ _ _ _).trans (facing.other.signs _ _))

theorem plays_sessionAccepted (minor : UInt32) :
    Async.Plays own.wiring (own.runtime.sessionAccepted minor) world [] (own.accepted minor)
      world := by
  refine plays_silent (plays_own rfl rfl) ?_
  refine plays_silent (plays_own rfl rfl) ?_
  refine plays_silent (plays_own rfl rfl) ?_
  unfold Party.accepted Party.listenPort
  cases own.environment .localPort with
  | ok port => exact plays_pure _
  | error error => exact plays_pure _

/-- Confirmations of the same minor version are exchanged. -/
theorem plays_exchangeAccepted (facing : own.Facing other kind) {minor : UInt32}
    (spoken : minor ≤ own.runtime.platform.maxProtocolMinor)
    (understood : minor ≤ other.runtime.platform.maxProtocolMinor) :
    Async.Plays own.wiring (own.runtime.exchangeAccepted own.connection (own.accepted minor)) world
      [.sent (own.runtime.platform.encodeAccepted (own.accepted minor)),
        .got (other.runtime.platform.encodeAccepted (other.accepted minor))]
      (other.accepted minor) world := by
  have named : ((other.accepted minor).sessionId == 0) = false :=
    beq_eq_false_iff_ne.mpr (max_one_ne_zero _)
  have timed : ¬ (other.accepted minor).acceptedAtMs ≤ 0 := not_le.mpr facing.other.clock
  have decode : own.runtime.platform.decodeAccepted = other.runtime.platform.decodeAccepted :=
    congrArg (·.decodeAccepted) facing.compatible.same
  obtain ⟨short, read⟩ := facing.other.accepted minor understood
  refine plays_bind (plays_sendMessage (facing.own.accepted minor spoken).1) ?_
  refine plays_bind (plays_receiveMessage short ((congrFun decode _).trans read)) ?_
  refine plays_silent (plays_refuse (by simp [named, timed])) ?_
  exact plays_silent (plays_refuse (bne_self_eq_false _)) (plays_pure _)

/-- A selection that can be had is waited for. -/
theorem plays_awaitSelection {selection : Selection} (may : own.MaySelect selection)
    (sameRaces : world.races = own.world.races) :
    ∃ after, Async.Plays own.wiring (Runtime.awaitSelection selection) world [] () after := by
  cases selection with
  | absent => exact ⟨world, plays_pure ()⟩
  | own => exact ⟨world, plays_pure ()⟩
  | race race index =>
    obtain ⟨proposed, free⟩ := may
    have available : (world.select race index).isSome := by
      unfold World.select at free ⊢
      rw [sameRaces]
      cases found : own.world.races[race]? with
      | none =>
        rw [found] at free
        cases free
      | some entry =>
        simp only [found] at free ⊢
        split at free
        · rw [if_pos ‹_›]
          rfl
        · cases free
    obtain ⟨after, selected⟩ := Option.isSome_iff_exists.mp available
    refine ⟨after, plays_silent (plays_own rfl ?_) (plays_ofExcept rfl)⟩
    simp only [proposed, Runtime.handle, selected, Option.map_some]

/-- What the ends exchange once they have each other's hello. -/
def Party.proofs (own other : Party) (minor : UInt32) (transcript : Bytes) :
    List (Duplex.Exchange Bytes) :=
  [.sent (own.runtime.platform.encodeAuth (own.auth transcript)),
    .got (other.runtime.platform.encodeAuth (other.auth transcript)),
    .sent (own.runtime.platform.encodeAccepted (own.accepted minor)),
    .got (other.runtime.platform.encodeAccepted (other.accepted minor))]

/-- With the hellos of both devices, `finish_authentication` returns the session. -/
theorem plays_finishAuthentication (facing : own.Facing other kind) {minor : UInt32}
    {transcript : Bytes} {selection : Selection} (direction : Direction)
    (negotiated : negotiateProtocolMinor (own.hello kind) (other.hello kind) = .ok minor)
    (built : own.runtime.platform.sessionTranscript own.connection (own.hello kind)
      (other.hello kind) = .ok transcript)
    (trusted : kind.openToUnpaired = false → own.Trusts other.runtime)
    (may : own.MaySelect selection) (sameDatabase : world.database = own.world.database)
    (sameRaces : world.races = own.world.races) :
    ∃ after, Async.Plays own.wiring
      (own.runtime.finishAuthentication own.connection (own.hello kind) (other.hello kind)
        (other.runtime.asPeer (other.environment .metadata)) direction selection) world
      (own.proofs other minor transcript)
      (own.session other kind minor transcript
        (own.runtime.sessionRank direction (own.hello kind) (other.hello kind)
          (other.runtime.asPeer (other.environment .metadata)))) after := by
  obtain ⟨⟨⟨-, spoken⟩, ⟨-, understood⟩⟩, -⟩ := negotiated_isGreatest negotiated
  obtain ⟨after, selects⟩ := plays_awaitSelection may sameRaces
  have decoded : own.runtime.platform.decodeKind (other.hello kind).sessionKind = .ok kind :=
    own.runtime.platform.decodeKind_eq_ok.mpr (facing.compatible.encodeKind kind).symm
  have different : (other.runtime.deviceId == own.runtime.deviceId) = false :=
    beq_eq_false_iff_ne.mpr (Ne.symm facing.differ)
  refine ⟨after, ?_⟩
  refine plays_silent (plays_refuse different) ?_
  refine plays_silent (plays_ofExcept decoded) ?_
  refine plays_silent (plays_ofExcept negotiated) ?_
  refine plays_silent (plays_ofExcept built) ?_
  refine plays_bind (plays_exchangeAuth facing transcript) ?_
  refine plays_silent (plays_requireTrust trusted sameDatabase) ?_
  refine plays_silent selects ?_
  refine plays_silent (plays_sessionAccepted minor) ?_
  refine plays_bind (plays_exchangeAccepted facing spoken understood) ?_
  refine plays_silent (plays_ofExcept (validateProcessInstanceId_toList _)) ?_
  refine plays_silent (plays_own rfl rfl) ?_
  rw [facing.own.finishes]
  refine plays_silent (plays_ofExcept rfl) ?_
  have port : Runtime.portOrZero (other.accepted minor).listenPort = other.listenPort :=
    portOrZero_toNat _
  simp only [port]
  exact plays_pure _

/-- The end that dialled exchanges the hellos. -/
theorem plays_exchangeHello (facing : own.Facing other kind)
    (opened : own.environment (.openStream own.connection.stableId) = .ok ()) :
    Async.Plays own.wiring (own.runtime.exchangeHello own.connection kind) world
      [.sent (own.runtime.platform.encodeHello (own.hello kind)),
        .got (other.runtime.platform.encodeHello (other.hello kind))]
      (own.hello kind, other.hello kind, other.runtime.asPeer (other.environment .metadata))
      world := by
  refine plays_silent (plays_own rfl rfl) ?_
  rw [opened]
  refine plays_silent (plays_ofExcept rfl) ?_
  refine plays_silent plays_localHello ?_
  refine plays_bind (plays_sendMessage facing.own.hello_le) ?_
  refine plays_bind (plays_receiveMessage facing.other.hello_le
    (facing.compatible.decodeHello _)) ?_
  exact plays_silent (plays_ofExcept facing.validateHello) (plays_pure _)

end Ends

/-- What the dialling end expects is true of the device that was reached. -/
def Approach.Expects (approach : Approach) (device : Runtime) : Prop :=
  match approach with
  | .advertised expected _ _ => expected.deviceId = device.deviceId ∧
      expected.publicKey = device.publicKey ∧
      expected.certificateSha256 = device.certificateSha256
  | .paired expected _ _ =>
    expected.deviceId = device.deviceId ∧ expected.publicKey = device.publicKey
  | .probe => True

namespace Meeting

/-- Everything the handshake depends on is in order. -/
structure Favourable (meeting : Meeting) : Prop where
  facing : meeting.alice.Facing meeting.bob meeting.approach.kind
  exported : meeting.alice.connection.exporter.isSome
  certified : meeting.alice.runtime.platform.observedCertificateSha256 meeting.alice.connection =
    .ok meeting.bob.runtime.certificateSha256
  expects : meeting.approach.Expects meeting.bob.runtime
  opens : meeting.alice.environment (.openStream meeting.alice.connection.stableId) = .ok ()
  accepts : meeting.bob.environment (.acceptStream meeting.bob.connection.stableId) = .ok ()
  trusts : meeting.approach.kind.openToUnpaired = false →
    meeting.alice.Trusts meeting.bob.runtime ∧ meeting.bob.Trusts meeting.alice.runtime
  visible : meeting.bob.world.discoverable = true ∨ meeting.bob.Trusts meeting.alice.runtime
  admits : meeting.approach.kind = .discoveryProbe →
    (meeting.bob.world.currentRate meeting.bob.connection.remoteAddress.ip).attempts < 4 ∧
      meeting.bob.environment .acquireProbe = true
  maySelect : meeting.alice.MaySelect meeting.approach.selection

/-- The minor version both ends select. -/
def minor (meeting : Meeting) : UInt32 :=
  min meeting.alice.runtime.platform.maxProtocolMinor meeting.bob.runtime.platform.maxProtocolMinor

/-- The transcript both ends sign. -/
def transcript (meeting : Meeting) : Bytes :=
  meeting.alice.runtime.platform.transcriptWith
    (meeting.alice.connection.exporter.getD (Vector.replicate 32 0))
    (meeting.alice.hello meeting.approach.kind) (meeting.bob.hello meeting.approach.kind)

/-- The rank both ends compute. -/
def rank (meeting : Meeting) : SessionRank :=
  ⟨meeting.alice.runtime.deviceId, (meeting.alice.environment .nonce).toList⟩

/-- The session the dialling end returns. -/
def aliceSession (meeting : Meeting) : Session :=
  meeting.alice.session meeting.bob meeting.approach.kind meeting.minor meeting.transcript
    meeting.rank

/-- The session the accepting end returns. -/
def bobSession (meeting : Meeting) : Session :=
  meeting.bob.session meeting.alice meeting.approach.kind meeting.minor meeting.transcript
    meeting.rank

variable {meeting : Meeting}

/-- The dialling end negotiates the largest minor version both speak. -/
theorem Favourable.negotiated (favourable : meeting.Favourable) :
    negotiateProtocolMinor (meeting.alice.hello meeting.approach.kind)
      (meeting.bob.hello meeting.approach.kind) = .ok meeting.minor := by
  have compatible := favourable.facing.compatible
  have range := meeting.alice.runtime.platform.minProtocolMinor_le
  have other := meeting.bob.runtime.platform.minProtocolMinor_le
  have reaches := compatible.reaches
  have reached := compatible.reached
  refine if_pos ?_
  simp only [UInt32.le_iff_toNat_le, toNat_max, toNat_min, Party.hello, Runtime.helloWith] at *
  omega

theorem Favourable.builtByAlice (favourable : meeting.Favourable) :
    meeting.alice.runtime.platform.sessionTranscript meeting.alice.connection
      (meeting.alice.hello meeting.approach.kind) (meeting.bob.hello meeting.approach.kind) =
        .ok meeting.transcript := by
  obtain ⟨exporter, known⟩ := Option.isSome_iff_exists.mp favourable.exported
  simp only [Platform.sessionTranscript, transcript, known, Option.getD_some]

/-- The accepting end builds the same transcript. -/
theorem Favourable.builtByBob (favourable : meeting.Favourable) :
    meeting.bob.runtime.platform.sessionTranscript meeting.bob.connection
      (meeting.bob.hello meeting.approach.kind) (meeting.alice.hello meeting.approach.kind) =
        .ok meeting.transcript := by
  obtain ⟨exporter, known⟩ := Option.isSome_iff_exists.mp favourable.exported
  have differ : (meeting.bob.hello meeting.approach.kind).deviceId ≠
      (meeting.alice.hello meeting.approach.kind).deviceId := fun same =>
    favourable.facing.differ (DeviceId.asStr_injective same).symm
  have ordered := orderHellos_comm differ
  have same := favourable.facing.exporter
  rw [known] at same
  simp only [Platform.sessionTranscript, ← same, transcript, known, Option.getD_some]
  rw [favourable.facing.compatible.transcriptWith]
  simp only [Platform.transcriptWith, ordered]

/-- The messages of the handshake as the dialling end sends and receives them. -/
def exchangesOfAlice (meeting : Meeting) : List (Duplex.Exchange Bytes) :=
  .sent (meeting.alice.runtime.platform.encodeHello (meeting.alice.hello meeting.approach.kind)) ::
  .got (meeting.bob.runtime.platform.encodeHello (meeting.bob.hello meeting.approach.kind)) ::
  meeting.alice.proofs meeting.bob meeting.minor meeting.transcript

/-- The messages of the handshake as the accepting end sends and receives them. -/
def exchangesOfBob (meeting : Meeting) : List (Duplex.Exchange Bytes) :=
  .got (meeting.alice.runtime.platform.encodeHello (meeting.alice.hello meeting.approach.kind)) ::
  .sent (meeting.bob.runtime.platform.encodeHello (meeting.bob.hello meeting.approach.kind)) ::
  meeting.bob.proofs meeting.alice meeting.minor meeting.transcript

/-- The dialling end returns its session after these exchanges. -/
theorem Favourable.alicePlays (favourable : meeting.Favourable) :
    ∃ after, Async.Plays meeting.alice.wiring
      (meeting.approach.program meeting.alice.runtime meeting.alice.connection) meeting.alice.world
      meeting.exchangesOfAlice meeting.aliceSession after := by
  obtain ⟨after, finishes⟩ := plays_finishAuthentication favourable.facing .outbound
    favourable.negotiated favourable.builtByAlice (fun closed => (favourable.trusts closed).1)
    favourable.maySelect rfl rfl
  have greets : Async.Plays meeting.alice.wiring
      (meeting.alice.runtime.exchangeHello meeting.alice.connection meeting.approach.kind)
      meeting.alice.world _ _ meeting.alice.world :=
    plays_exchangeHello favourable.facing favourable.opens
  obtain ⟨alice, bob, approach⟩ := meeting
  refine ⟨after, ?_⟩
  cases approach with
  | advertised expected kind selection =>
    obtain ⟨id, key, certificate⟩ := favourable.expects
    refine plays_silent (plays_ofExcept favourable.certified) ?_
    refine plays_silent (plays_refuse (by simp [certificate])) ?_
    refine plays_bind greets ?_
    refine plays_silent (plays_refuse (by simp [Runtime.asPeer])) ?_
    refine plays_silent (plays_refuse ?_) finishes
    simp [Runtime.asPeer, id, key, certificate]
  | paired expected kind selection =>
    obtain ⟨id, key⟩ := favourable.expects
    refine plays_silent (plays_ofExcept favourable.certified) ?_
    refine plays_bind greets ?_
    refine plays_silent (plays_refuse ?_) finishes
    simp [Runtime.asPeer, id, key]
  | probe =>
    refine plays_silent (plays_ofExcept favourable.certified) ?_
    refine plays_bind greets ?_
    refine plays_silent (plays_refuse ?_) finishes
    simp [Runtime.asPeer]

/-- The accepting end looks up whether the other is paired, and goes on either way. -/
theorem Favourable.plays_paired (favourable : meeting.Favourable) :
    ∃ paired, Async.Plays meeting.bob.wiring
      (Async.result (meeting.bob.runtime.requirePaired meeting.alice.runtime.deviceId
        (some meeting.alice.runtime.publicKey)) : Action (Except NetworkError PeerRecord))
      meeting.bob.world [] paired meeting.bob.world ∧
      (!meeting.bob.world.discoverable && !paired.isOk && meeting.approach.kind.openToUnpaired) =
        false := by
  rcases favourable.visible with discoverable | trusted
  · let answering : Program.Contract World Call.Reply :=
      ⟨fun _ => Duplex.Answered meeting.bob.wiring meeting.bob.world, fun _ _ => True⟩
    have asks : ∀ past id, answering.guarantee past (.peer id) := fun _ _ => ⟨_, _, rfl, rfl⟩
    have ensures : Async.Ensures answering _ []
        (meeting.bob.runtime.requirePaired meeting.alice.runtime.deviceId
          (some meeting.alice.runtime.publicKey)) :=
      Runtime.ensures_requirePaired asks _ _
    obtain ⟨paired, plays⟩ := Duplex.exists_plays meeting.bob.world ensures
    exact ⟨paired, plays_result plays, by simp [discoverable]⟩
  · obtain ⟨record, plays⟩ := plays_requirePaired trusted rfl
    exact ⟨.ok record, plays_result plays, by simp [Except.isOk, Except.toBool]⟩

/-- The accepting end admits a probe within its rate. -/
theorem Favourable.plays_admitProbe (favourable : meeting.Favourable) :
    ∃ after : World, after.database = meeting.bob.world.database ∧
      after.races = meeting.bob.world.races ∧
      Async.Plays meeting.bob.wiring
        (Runtime.admitProbe meeting.approach.kind meeting.bob.connection.remoteAddress)
        meeting.bob.world [] () after := by
  unfold Runtime.admitProbe
  split
  · rename_i probing
    obtain ⟨few, permitted⟩ := favourable.admits probing
    let source := meeting.bob.connection.remoteAddress.ip
    have admitted : (meeting.bob.world.admitProbe source).1 = .ok () := by
      rw [World.admitProbe, if_neg (UInt8.not_le.mpr few)]
    have answered : meeting.bob.runtime.handle meeting.bob.world (.admitProbe source)
        (meeting.bob.environment (.admitProbe source)) =
          some (.ok (), (meeting.bob.world.admitProbe source).2) :=
      congrArg some (Prod.ext admitted rfl)
    obtain ⟨rates, frame⟩ := World.admitProbe_frame meeting.bob.world source
    refine ⟨(meeting.bob.world.admitProbe source).2, by rw [frame], by rw [frame], ?_⟩
    refine plays_silent (plays_own rfl answered) ?_
    refine plays_silent (plays_ofExcept rfl) ?_
    refine plays_silent (plays_own rfl rfl) (plays_refuse ?_)
    rw [permitted]
    rfl
  · exact ⟨_, rfl, rfl, plays_pure ()⟩

/-- The accepting end returns its session after these exchanges. -/
theorem Favourable.bobPlays (favourable : meeting.Favourable) :
    ∃ after, Async.Plays meeting.bob.wiring
      (meeting.bob.runtime.authenticateInbound meeting.bob.connection) meeting.bob.world
      meeting.exchangesOfBob meeting.bobSession after := by
  have facing := favourable.facing.symm
  obtain ⟨admitted, sameDatabase, sameRaces, admits⟩ := favourable.plays_admitProbe
  obtain ⟨after, finishes⟩ := plays_finishAuthentication facing .inbound
    ((negotiateProtocolMinor_comm _ _).trans favourable.negotiated) favourable.builtByBob
    (fun closed => (favourable.trusts closed).2) (show meeting.bob.MaySelect .absent from trivial)
    sameDatabase sameRaces
  have decoded : meeting.bob.runtime.platform.decodeKind
      (meeting.alice.hello meeting.approach.kind).sessionKind = .ok meeting.approach.kind :=
    meeting.bob.runtime.platform.decodeKind_eq_ok.mpr
      (facing.compatible.encodeKind meeting.approach.kind).symm
  refine ⟨after, plays_silent (plays_own rfl rfl) ?_⟩
  rw [favourable.accepts]
  refine plays_silent (plays_ofExcept rfl) ?_
  refine plays_bind (plays_receiveMessage facing.other.hello_le
    (facing.compatible.decodeHello _)) ?_
  refine plays_silent (plays_ofExcept decoded) ?_
  refine plays_silent (plays_ofExcept facing.validateHello) ?_
  obtain ⟨paired, looksUp, known⟩ := favourable.plays_paired
  refine plays_silent looksUp ?_
  refine plays_silent (plays_own rfl rfl) ?_
  refine plays_silent (plays_refuse known) ?_
  refine plays_silent admits ?_
  refine plays_silent plays_localHello ?_
  exact plays_bind (plays_sendMessage facing.own.hello_le) finishes

/-- The hello, the signature and the confirmation of each end reach the other. -/
theorem meshes (meeting : Meeting) :
    Duplex.Meshes meeting.exchangesOfAlice meeting.exchangesOfBob [] [] :=
  .sentLeft <| .gotRight <| .sentRight <| .gotLeft <| .sentLeft <| .sentRight <| .gotLeft <|
    .gotRight <| .sentLeft <| .sentRight <| .gotLeft <| .gotRight .nil

/-- The handshake ends with both sessions, whichever end makes its calls when. They show the same
code, and have the largest minor version that both releases speak. -/
theorem handshake_concludes (favourable : meeting.Favourable) :
    Duplex.Concludes meeting.alice.wiring meeting.bob.wiring meeting.link
      (.ok meeting.aliceSession) (.ok meeting.bobSession) ∧
    meeting.aliceSession.verificationCode = meeting.bobSession.verificationCode ∧
    IsGreatest {minor | Speaks (meeting.alice.hello meeting.approach.kind) minor ∧
      Speaks (meeting.bob.hello meeting.approach.kind) minor} meeting.minor := by
  obtain ⟨aliceAfter, alicePlays⟩ := favourable.alicePlays
  obtain ⟨bobAfter, bobPlays⟩ := favourable.bobPlays
  obtain ⟨spoken, greatest⟩ := negotiated_isGreatest favourable.negotiated
  refine ⟨(meeting.meshes.leads alicePlays bobPlays).concludes rfl rfl, ?_, spoken, ?_⟩
  · exact favourable.facing.compatible.verificationCode meeting.transcript
  · exact fun other known => greatest other known.1 known.2

/-! ## Concrete devices -/

theorem aliceRange : (0 : UInt32) ≤ 2 := by decide

theorem bobRange : (1 : UInt32) ≤ 3 := by decide

/-- The hello of the dialling device. -/
def sampleAlice : SessionHello :=
  (Runtime.sample (.release [] 0 2 aliceRange) "alice" 1).helloWith .control
    (Vector.replicate 32 0) ⟨"", "", ""⟩

/-- The hello of the accepting device, which is of a later release. -/
def sampleBob : SessionHello :=
  (Runtime.sample (.release [] 1 3 bobRange) "bob" 2).helloWith .control
    (Vector.replicate 32 0) ⟨"", "", ""⟩

/-- What a device has stored of a paired one. -/
def sampleRecord (name : String) : PeerRecord :=
  ⟨⟨name⟩, .sample name, "", "", "", .paired, true, 0, 0⟩

/-- An environment in which nothing fails, some time after the epoch. -/
def prompt : (call : Call) → call.Reply
  | .now => 1
  | call => call.smooth

/-- A device of a release that is paired with another, and races for a session with it. -/
def sampleParty (low high : UInt32) (range : low ≤ high) (name other : String)
    (certificate otherCertificate : UInt8) : Party where
  runtime := .sample (.release [sampleAlice, sampleBob] low high range) name certificate
  connection := Runtime.sampleConnection (some (List.replicate 32 otherCertificate))
  environment := prompt
  world :=
    { World.fresh .empty with
      database := Database.empty.upsertPeer (encodePeer (sampleRecord other))
      races := [.start (.paired (sampleRecord other)) .control [] false] }

/-- Two paired devices of different releases, one of which has dialled the other. -/
def sampleMeeting : Meeting where
  alice := sampleParty 0 2 aliceRange "alice" "bob" 1 2
  bob := sampleParty 1 3 bobRange "bob" "alice" 2 1
  approach := .paired (sampleRecord "bob") .control (.race 0 0)

/-- A sample device is in working order. -/
theorem working_sampleParty {low high : UInt32} (range : low ≤ high) (small : high.toNat < 256)
    {name : String} (other : String) (certificate otherCertificate : UInt8)
    (named : name.isEmpty = false) (short : (ascii name).length ≤ 1000)
    (plain : ∀ byte ∈ ascii name, (byte != 0) = true)
    (read : SessionHello.text ((ascii name).map UInt8.toNat) = name)
    (hello : (Platform.sampleEncodeHello [sampleAlice, sampleBob]
      ((sampleParty low high range name other certificate otherCertificate).hello
        .control)).length ≤
        handshakeFrameLimit) :
    (sampleParty low high range name other certificate otherCertificate).Working .control := by
  have key : (DevicePublicKey.sample name).asBytes.length = 32 := by
    simp [DevicePublicKey.sample, ascii]
  refine ⟨⟨?_, rfl, if_pos rfl⟩, fun _ _ => rfl, fun context message => ?_, ?_, Int.one_pos, rfl,
    hello, fun transcript => ⟨?_, ?_⟩, fun minor spoken => ⟨?_, ?_⟩⟩
  · exact if_neg (by simp [sampleParty, Runtime.sample, named])
  · simp [sampleParty, Platform.verifySignature, Runtime.sample, Platform.release, Platform.sample,
      key]
  · exact show (prompt .metadata).Fits by decide
  · simp [sampleParty, Platform.release, Platform.sample, Party.auth, Runtime.sample, key,
      handshakeFrameLimit]
    omega
  · simp [sampleParty, Platform.release, Platform.sample, Party.auth, Runtime.sample,
      List.takeWhile_append_of_pos plain, List.dropWhile_append_of_pos plain, read]
  · simp [sampleParty, Platform.release, Party.accepted, Runtime.sample, handshakeFrameLimit]
  · have bound : minor.toNat ≤ high.toNat := spoken
    have value : (sampleParty low high range name other certificate otherCertificate).accepted
      minor = ⟨1, 1, 0, minor, (Vector.replicate 16 certificate).toList⟩ := rfl
    rw [value]
    simp only [sampleParty, Platform.release, Runtime.sample, List.headD_cons, List.tail_cons,
      UInt8.toNat_ofNat', Nat.reducePow, Nat.mod_eq_of_lt (bound.trans_lt small),
      UInt32.ofNat_toNat]

/-- A concrete handshake between devices of different releases. -/
theorem handshake_concludes_sample :
    sampleMeeting.Favourable ∧
    Duplex.Concludes sampleMeeting.alice.wiring sampleMeeting.bob.wiring sampleMeeting.link
      (.ok sampleMeeting.aliceSession) (.ok sampleMeeting.bobSession) ∧
    sampleMeeting.minor = 2 := by
  have facing : sampleMeeting.alice.Facing sampleMeeting.bob .control :=
    { compatible := ⟨rfl, by decide, by decide⟩
      differ := by decide
      exporter := rfl
      own := working_sampleParty _ (by decide) _ _ _ (by decide) (by decide)
        (by decide +kernel) (by decide +kernel) (by decide +kernel)
      other := working_sampleParty _ (by decide) _ _ _ (by decide) (by decide)
        (by decide +kernel) (by decide +kernel) (by decide +kernel) }
  have trusts : sampleMeeting.alice.Trusts sampleMeeting.bob.runtime ∧
      sampleMeeting.bob.Trusts sampleMeeting.alice.runtime :=
    ⟨⟨sampleRecord "bob", by decide +kernel, rfl, rfl⟩,
      ⟨sampleRecord "alice", by decide +kernel, rfl, rfl⟩⟩
  have favourable : sampleMeeting.Favourable :=
    { facing := facing
      exported := rfl
      certified := by decide +kernel
      expects := ⟨rfl, rfl⟩
      opens := rfl
      accepts := rfl
      trusts := fun _ => trusts
      visible := Or.inl rfl
      admits := fun probing => by cases probing
      maySelect := ⟨rfl, by decide +kernel⟩ }
  exact ⟨favourable, (handshake_concludes favourable).1, by decide⟩

end Meeting

end ArcRelay
