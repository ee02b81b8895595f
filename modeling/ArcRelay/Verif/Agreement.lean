import ArcRelay.Verif.Admission

/-!
# Agreement of the two ends of a handshake

Two honest devices run a handshake over connections with the same TLS exporter
value, while an adversary decides every frame that arrives at either end. When
both handshakes succeed and one end has authenticated the key of the other
device, the ends agree on everything they record. The adversary may have an
identity of its own, and that is why one of the keys has to be right.
-/

namespace ArcRelay

/-- A device's hello says this about it. -/
structure Describes (hello : SessionHello) (peer : SessionPeer) : Prop where
  deviceId : peer.deviceId.asStr = hello.deviceId
  publicKey : peer.publicKey.asBytes = hello.rootPublicKey
  certificate : peer.certificateSha256.toList = hello.endpointCertificateSha256
  metadata : peer.metadata = ⟨hello.deviceName, hello.platform, hello.model⟩

theorem toList_of_digestOfBytes? {bytes : Bytes} {digest : Digest}
    (read : digestOfBytes? bytes = some digest) : digest.toList = bytes := by
  unfold digestOfBytes? at read
  split at read
  · cases read
    simp [Vector.toList]
  · cases read

theorem HelloAccepted.describes {platform : Platform} {hello : SessionHello} {kind : SessionKind}
    {peer : SessionPeer} (accepted : HelloAccepted platform hello kind peer) :
    Describes hello peer where
  deviceId := platform.asStr_parseDeviceId _ _ accepted.deviceId
  publicKey := platform.asBytes_publicKeyFromBytes _ _ accepted.publicKey
  certificate := toList_of_digestOfBytes? accepted.certificate
  metadata := accepted.metadata

namespace Runtime

/-- The functions that authenticate the dialling end of a connection. -/
inductive Dialled (self : Runtime) (connection : Connection) : Action Session → Prop
  | advertised (expected : PeerAdvertisement) (kind : SessionKind) (selection : Selection) :
    Dialled self connection (self.authenticateOutbound connection expected kind selection)
  | paired (expected : PeerRecord) (kind : SessionKind) (selection : Selection) :
    Dialled self connection (self.authenticateOutboundPaired connection expected kind selection)
  | probe : Dialled self connection (self.authenticateOutboundProbe connection)

/-- Signatures of a device cannot be forged: one that arrives in a handshake and verifies over the
transcript of that handshake was made by the device at some time of its life. -/
def Unforgeable (signer : Runtime) (life : List Moment) (connection : Connection)
    (moments : List Moment) : Prop :=
  ∀ auth signature transcript, Received moments connection signer.platform.decodeAuth auth →
    Asked moments (.sign .sessionAuthentication transcript) →
    signer.platform.signatureFromBytes auth.signature = .ok signature →
    signer.platform.verifySignature signer.publicKey .sessionAuthentication transcript signature =
      .ok () →
    Asked life (.sign .sessionAuthentication transcript)

/-- The exporter value of a connection belongs to it: in its life the device signs transcripts with
that value only in the handshake on the connection. -/
def OwnExporter (signer : Runtime) (life : List Moment) (connection : Connection)
    (moments : List Moment) : Prop :=
  ∀ exporter own remote, connection.exporter = some exporter →
    Asked life (.sign .sessionAuthentication (signer.platform.transcriptWith exporter own remote)) →
    Asked moments (.sign .sessionAuthentication
      (signer.platform.transcriptWith exporter own remote))

/-- Every transcript that was signed has a length the machine can represent. -/
def Addressable (moments : List Moment) : Prop :=
  ∀ transcript, Asked moments (.sign .sessionAuthentication transcript) →
    transcript.length < 2 ^ 64

/-- The ends of a session have recorded the same. -/
structure Agreement (alice bob : Runtime) (connectionA connectionB : Connection)
    (momentsA momentsB : List Moment) (sessionA sessionB : Session) : Prop where
  kind : sessionA.kind = sessionB.kind
  minor : sessionA.protocolMinor = sessionB.protocolMinor
  code : sessionA.verificationCode = sessionB.verificationCode
  rank : sessionA.rank = sessionB.rank
  /-- Each end knows the other as the hello describes it that the other has sent, and the minor
  version is the largest one in the ranges of both hellos. -/
  hellos : ∃ helloA helloB,
    Asked momentsA (.send connectionA.stableId (alice.platform.encodeHello helloA)
      handshakeFrameLimit) ∧
    Asked momentsB (.send connectionB.stableId (bob.platform.encodeHello helloB)
      handshakeFrameLimit) ∧
    Describes helloB sessionA.peer ∧ Describes helloA sessionB.peer ∧
    (Speaks helloA sessionA.protocolMinor ∧ Speaks helloB sessionA.protocolMinor) ∧
    ∀ minor, Speaks helloA minor → Speaks helloB minor → minor ≤ sessionA.protocolMinor

section Ends

variable {alice bob : Runtime} {connectionA connectionB : Connection}
  {kindA kindB : SessionKind} {directionA directionB : Direction}
  {ownA remoteA ownB remoteB : SessionHello} {peerA peerB : SessionPeer}
  {momentsA momentsB life : List Moment} {sessionA sessionB : Session}

/-- A dialling handshake that returned is authenticated. -/
theorem Dialled.authenticated {program : Action Session}
    (dialled : Dialled alice connectionA program)
    (returns : Program.Returns program.run momentsA (.ok sessionA)) :
    ∃ kind own remote peer, Authenticated alice connectionA kind .outbound own remote peer []
      momentsA sessionA := by
  cases dialled with
  | advertised expected kind selection =>
    obtain ⟨⟨own, remote, peer, authenticated, -⟩, -⟩ :=
      (signs_authenticateOutbound connectionA expected kind selection).returns returns
        (fun _ _ _ => trivial) sessionA rfl
    exact ⟨kind, own, remote, peer, authenticated⟩
  | paired expected kind selection =>
    obtain ⟨⟨own, remote, peer, authenticated, -⟩, -⟩ :=
      (signs_authenticateOutboundPaired connectionA expected kind selection).returns returns
        (fun _ _ _ => trivial) sessionA rfl
    exact ⟨kind, own, remote, peer, authenticated⟩
  | probe =>
    obtain ⟨own, remote, peer, authenticated⟩ :=
      (signs_authenticateOutboundProbe connectionA).returns returns (fun _ _ _ => trivial)
        sessionA rfl
    exact ⟨.discoveryProbe, own, remote, peer, authenticated⟩

/-- A transcript is made with the exporter value of its connection. -/
theorem sessionTranscript_eq_ok {platform : Platform} {connection : Connection}
    {own remote : SessionHello} {transcript : Bytes}
    (built : platform.sessionTranscript connection own remote = .ok transcript) :
    ∃ exporter, connection.exporter = some exporter ∧
      transcript = platform.transcriptWith exporter own remote := by
  unfold Platform.sessionTranscript at built
  split at built
  · cases built
  · rename_i exporter known
    cases built
    exact ⟨exporter, known, rfl⟩

/-- If one end has authenticated the key of the other device, both have the same transcript. -/
theorem transcripts_agree {transcriptA transcriptB : Bytes}
    (akin : alice.platform.unversioned = bob.platform.unversioned)
    (sameExporter : connectionA.exporter = connectionB.exporter)
    (builtA : alice.platform.sessionTranscript connectionA ownA remoteA = .ok transcriptA)
    (signedA : Signed alice.platform connectionA momentsA sessionA.peer transcriptA)
    (onlyB : SignsOnly [] momentsB transcriptB)
    (unforgeable : Unforgeable bob life connectionA momentsA)
    (ownExporter : OwnExporter bob life connectionB momentsB)
    (reached : sessionA.peer.publicKey = bob.publicKey) : transcriptA = transcriptB := by
  obtain ⟨auth, signature, received, -, parsed, verified⟩ := signedA.remote
  rw [show alice.platform.decodeAuth = bob.platform.decodeAuth from
    congrArg (·.decodeAuth) akin] at received
  rw [show alice.platform.signatureFromBytes = bob.platform.signatureFromBytes from
    congrArg (·.signatureFromBytes) akin] at parsed
  rw [show alice.platform.verifySignature = bob.platform.verifySignature from
    congrArg (·.verifySignature) akin] at verified
  rw [show alice.platform.sessionTranscript = bob.platform.sessionTranscript from
    congrArg (·.sessionTranscript) akin] at builtA
  rw [reached] at verified
  have everSigned := unforgeable auth signature transcriptA received signedA.own parsed verified
  obtain ⟨exporter, known, rfl⟩ := sessionTranscript_eq_ok builtA
  obtain ⟨moment, member, called⟩ :=
    ownExporter exporter ownA remoteA (sameExporter ▸ known) everSigned
  rcases onlyB moment member with none | only
  · cases none
  · exact only _ _ called

/-- Ends with the same transcript have received each other's hello. -/
theorem crossed_of_transcript {transcript : Bytes}
    (akin : alice.platform.unversioned = bob.platform.unversioned)
    (differ : alice.deviceId ≠ bob.deviceId)
    (greetedA : Greeted alice connectionA kindA ownA remoteA peerA momentsA)
    (greetedB : Greeted bob connectionB kindB ownB remoteB peerB momentsB)
    (builtA : alice.platform.sessionTranscript connectionA ownA remoteA = .ok transcript)
    (builtB : bob.platform.sessionTranscript connectionB ownB remoteB = .ok transcript)
    (fits : transcript.length < 2 ^ 64) : ownA = remoteB ∧ remoteA = ownB := by
  obtain ⟨exporterA, -, rfl⟩ := sessionTranscript_eq_ok builtA
  obtain ⟨exporterB, -, same⟩ := sessionTranscript_eq_ok builtB
  rw [← show alice.platform.transcriptWith = bob.platform.transcriptWith from
    congrArg (·.transcriptWith) akin] at same
  refine crossed_of_orderHellos (Platform.orderHellos_of_transcriptWith same fits) fun sameId => ?_
  obtain ⟨nonceA, metadataA, rfl⟩ := greetedA.ownHello
  obtain ⟨nonceB, metadataB, rfl⟩ := greetedB.ownHello
  exact differ (DeviceId.asStr_injective sameId)

/-- The dialling and the accepting end agree once each has the other's hello. -/
theorem agreement_of_crossed {transcript : Bytes}
    (akin : alice.platform.unversioned = bob.platform.unversioned)
    (endA : Authenticated alice connectionA kindA .outbound ownA remoteA peerA [] momentsA sessionA)
    (endB : Authenticated bob connectionB kindB .inbound ownB remoteB peerB [] momentsB sessionB)
    (codeA : sessionA.verificationCode = alice.platform.verificationCode transcript)
    (codeB : sessionB.verificationCode = bob.platform.verificationCode transcript)
    (crossed : ownA = remoteB ∧ remoteA = ownB) :
    Agreement alice bob connectionA connectionB momentsA momentsB sessionA sessionB := by
  obtain ⟨rfl, rfl⟩ := crossed
  have describesA := endA.greets.accepted.describes
  have describesB := endB.greets.accepted.describes
  have minorA := endA.finished.minor
  have minorB := endB.finished.minor
  have dialler : peerB.deviceId = alice.deviceId := by
    obtain ⟨nonce, metadata, rfl⟩ := endA.ownHello
    exact DeviceId.asStr_injective endB.accepted.describes.deviceId
  refine ⟨?_, ?_, ?_, ?_, ownA, remoteA, endA.sent, endB.sent, describesA, describesB,
    negotiated_isGreatest minorA⟩
  · obtain ⟨nonce, metadata, rfl⟩ := endB.ownHello
    have named := endA.greets.accepted.kind
    rw [show alice.platform.encodeKind = bob.platform.encodeKind from
      congrArg (·.encodeKind) akin] at named
    exact (bob.platform.kindNumber_injective (named.symm.trans (by rw [endB.sameKind]; rfl)))
  · rw [negotiateProtocolMinor_comm, minorA] at minorB
    exact Except.ok.inj minorB
  · rw [codeA, codeB]
    exact congrArg (·.verificationCode transcript) akin
  · rw [endA.finished.rank, endB.finished.rank]
    simp only [sessionRank, dialler]

/-- If both handshakes return and one end has authenticated the key of the other device, the ends
agree. Their releases may differ in the minor versions they speak. -/
theorem handshake_agreement {lifeA lifeB : List Moment} {program : Action Session}
    (akin : alice.platform.unversioned = bob.platform.unversioned)
    (differ : alice.deviceId ≠ bob.deviceId)
    (sameExporter : connectionA.exporter = connectionB.exporter)
    (dialled : Dialled alice connectionA program)
    (returnsA : Program.Returns program.run momentsA (.ok sessionA))
    (returnsB : Program.Returns (bob.authenticateInbound connectionB).run momentsB (.ok sessionB))
    (unforgeableA : Unforgeable alice lifeA connectionB momentsB)
    (unforgeableB : Unforgeable bob lifeB connectionA momentsA)
    (ownExporterA : OwnExporter alice lifeA connectionA momentsA)
    (ownExporterB : OwnExporter bob lifeB connectionB momentsB) (addressable : Addressable momentsA)
    (reached : sessionA.peer.publicKey = bob.publicKey ∨
      sessionB.peer.publicKey = alice.publicKey) :
    Agreement alice bob connectionA connectionB momentsA momentsB sessionA sessionB := by
  obtain ⟨kindA, ownA, remoteA, peerA, endA⟩ := dialled.authenticated returnsA
  obtain ⟨ownB, remoteB, peerB, kindB, endB, -⟩ :=
    (signs_authenticateInbound connectionB).returns returnsB (fun _ _ _ => trivial) sessionB rfl
  obtain ⟨transcriptA, builtA, codeA, signedA, onlyA⟩ := endA.finished.signs
  obtain ⟨transcriptB, builtB, codeB, signedB, onlyB⟩ := endB.finished.signs
  have same : transcriptA = transcriptB := by
    rcases reached with keyB | keyA
    · exact transcripts_agree akin sameExporter builtA signedA onlyB unforgeableB ownExporterB keyB
    · exact (transcripts_agree akin.symm sameExporter.symm builtB signedB onlyA
        unforgeableA ownExporterA keyA).symm
  subst same
  have crossed := crossed_of_transcript akin differ endA.toGreeted endB.toGreeted builtA
    builtB (addressable _ signedA.own)
  exact agreement_of_crossed akin endA endB codeA codeB crossed

end Ends

/-! ## Concrete handshakes -/

/-- The frames that were received. -/
def framesOf (moments : List Moment) : List Bytes :=
  moments.filterMap fun
    | ⟨_, .receive _ _, .ok bytes⟩ => some bytes
    | _ => none

/-- The transcripts that were signed. -/
def signedIn (moments : List Moment) : List Bytes :=
  moments.filterMap fun
    | ⟨_, .sign .sessionAuthentication message, _⟩ => some message
    | _ => none

variable {moments : List Moment}

theorem frame_of_received {α : Type} {connection : Connection} {decode : Bytes → Except String α}
    {message : α} (received : Received moments connection decode message) :
    ∃ bytes ∈ framesOf moments, decode bytes = .ok message := by
  obtain ⟨world, bytes, member, decoded⟩ := received
  exact ⟨bytes, List.mem_filterMap.mpr ⟨_, member, rfl⟩, decoded⟩

theorem mem_signedIn {message : Bytes} :
    message ∈ signedIn moments ↔ Asked moments (.sign .sessionAuthentication message) := by
  constructor
  · intro member
    obtain ⟨⟨world, call, reply⟩, found, matched⟩ := List.mem_filterMap.mp member
    refine ⟨_, found, ?_⟩
    split at matched
    · rename_i same
      cases same
      cases matched
      rfl
    · cases matched
  · rintro ⟨⟨world, call, reply⟩, member, called⟩
    cases called
    exact List.mem_filterMap.mpr ⟨_, member, rfl⟩

/-- None of the frames carries a signature by the key over one of the transcripts. -/
def carriesNone (platform : Platform) (key : DevicePublicKey) (moments : List Moment) : Bool :=
  (framesOf moments).all fun bytes => (signedIn moments).all fun transcript =>
    match platform.decodeAuth bytes with
    | .error _ => true
    | .ok auth => match platform.signatureFromBytes auth.signature with
      | .error _ => true
      | .ok signature =>
        !(platform.verifySignature key .sessionAuthentication transcript signature).isOk

theorem unforgeable_of_carriesNone {signer : Runtime} {life : List Moment} {connection : Connection}
    (foreign : carriesNone signer.platform signer.publicKey moments = true) :
    Unforgeable signer life connection moments := by
  intro auth signature transcript received asked parsed verified
  obtain ⟨bytes, frame, decoded⟩ := frame_of_received received
  have checked := List.all_eq_true.mp (List.all_eq_true.mp foreign bytes frame) transcript
    (mem_signedIn.mpr asked)
  simp only [decoded, parsed, verified] at checked
  cases checked

/-- What is decided of a frame's arrival and of the nonce; everything else goes smoothly. -/
def exchange (nonce : UInt8) (frames : Nat → Bytes) (time : Nat) : (call : Call) → call.Reply
  | .nonce => Vector.replicate 32 nonce
  | call => Call.delivering frames time call

/-- The hello of a named device with a nonce. -/
def freshHello (name : String) (certificate : UInt8) (kind : SessionKind) (nonce : UInt8) :
    SessionHello :=
  { sampleHello name certificate kind with nonce := List.replicate 32 nonce }

/-- One end of a handshake run by itself, and what a view shows of it if it succeeds. -/
def endOf {β : Type} (runtime : Runtime) (nonce : UInt8) (frames : Nat → Bytes)
    (program : Action Session) (view : List Moment → Session → β) : Option (Option β) :=
  (Program.eval runtime.handle (exchange nonce frames) 0 program.run (World.fresh .empty)).map
    fun run => run.2.1.toOption.map (view run.1)

theorem returns_of_endOf {β : Type} {runtime : Runtime} {nonce : UInt8} {frames : Nat → Bytes}
    {program : Action Session} {view : List Moment → Session → β} {value : β}
    (shown : endOf runtime nonce frames program view = some (some value)) :
    ∃ moments session, Program.Returns program.run moments (.ok session) ∧
      view moments session = value := by
  obtain ⟨⟨moments, result, after⟩, evaluated, seen⟩ := Option.map_eq_some_iff.mp shown
  obtain ⟨session, returned, same⟩ := Option.map_eq_some_iff.mp seen
  cases result with
  | error error => cases returned
  | ok value =>
    cases returned
    exact ⟨moments, session, (Program.returns_of_eval evaluated).1, same⟩

/-- The connection as the dialling end sees it: the digest of the certificate is Bob's. -/
def dialledConnection : Connection := sampleConnection (some (List.replicate 32 2))

/-- Alice's hello for a probe. -/
def aliceHello : SessionHello := freshHello "alice" 1 .discoveryProbe 1

/-- Bob's hello in the answer to a kind. -/
def bobHello (kind : SessionKind) : SessionHello := freshHello "bob" 2 kind 2

/-- The platform of an undisturbed probe. -/
def honestPlatform : Platform := .sample [aliceHello, bobHello .discoveryProbe] ⟨none, []⟩

/-- What Bob sends, by the time at which Alice receives it. -/
def toAlice : Nat → Bytes
  | 4 => [1, 0]
  | 7 => sampleAuth honestPlatform "bob" aliceHello (bobHello .discoveryProbe)
  | _ => [2]

/-- What Alice sends, by the time at which Bob receives it. -/
def toBob : Nat → Bytes
  | 1 => [1]
  | 11 => sampleAuth honestPlatform "alice" aliceHello (bobHello .discoveryProbe)
  | _ => [2]

/-- An undisturbed probe: both ends return, and agree. -/
theorem handshake_agreement_probe :
    ∃ momentsA momentsB sessionA sessionB, sessionA.kind = .discoveryProbe ∧
      Agreement (sample honestPlatform "alice" 1) (sample honestPlatform "bob" 2) dialledConnection
        (sampleConnection none) momentsA momentsB sessionA sessionB := by
  let transcript := honestPlatform.transcriptWith (Vector.replicate 32 5) aliceHello
    (bobHello .discoveryProbe)
  obtain ⟨momentsA, sessionA, returnsA, seenA⟩ := returns_of_endOf (show endOf
    (sample honestPlatform "alice" 1) 1 toAlice
    ((sample honestPlatform "alice" 1).authenticateOutboundProbe dialledConnection)
    (fun moments session => (signedIn moments, session.kind, session.peer.publicKey)) =
      some (some ([transcript], .discoveryProbe, .sample "bob")) by decide +kernel)
  obtain ⟨momentsB, sessionB, returnsB, seenB⟩ := returns_of_endOf (show endOf
    (sample honestPlatform "bob" 2) 2 toBob
    ((sample honestPlatform "bob" 2).authenticateInbound (sampleConnection none))
    (fun moments _ => signedIn moments) = some (some [transcript]) by decide +kernel)
  obtain ⟨signedA, kind, key⟩ : signedIn momentsA = [transcript] ∧
    sessionA.kind = .discoveryProbe ∧ sessionA.peer.publicKey = .sample "bob" := by
      simpa only [Prod.mk.injEq] using seenA
  -- Each end has signed what the other has signed, so nothing either receives is forged.
  have both : ∀ message, Asked momentsA (.sign .sessionAuthentication message) ↔
      Asked momentsB (.sign .sessionAuthentication message) := by
    intro message
    rw [← mem_signedIn, ← mem_signedIn, signedA, seenB]
  have fits : Addressable momentsA := by
    intro message asked
    obtain rfl : message = transcript := by simpa [signedA] using mem_signedIn.mpr asked
    exact lt_of_lt_of_le (show transcript.length < 1000 by decide +kernel) (by decide)
  exact ⟨momentsA, momentsB, sessionA, sessionB, kind,
    handshake_agreement rfl (by decide) rfl .probe
    returnsA returnsB (fun _ _ message _ asked _ _ => (both message).mpr asked)
    (fun _ _ message _ asked _ _ => (both message).mp asked) (fun _ _ _ _ => id)
    (fun _ _ _ _ => id) fits (Or.inl key)⟩

/-- The adversary's hello, with Bob's certificate. -/
def malloryHello (kind : SessionKind) (nonce : UInt8) : SessionHello :=
  freshHello "mallory" 2 kind nonce

/-- The platform of an attack. -/
def attackedPlatform : Platform :=
  .sample [malloryHello .discoveryProbe 3, malloryHello .fileTransfer 4, aliceHello,
    bobHello .fileTransfer] ⟨none, []⟩

/-- What the adversary delivers to Alice. -/
def malloryToAlice : Nat → Bytes
  | 4 => [1]
  | 7 => sampleAuth attackedPlatform "mallory" aliceHello (malloryHello .discoveryProbe 3)
  | _ => [2]

/-- What the adversary delivers to Bob. -/
def malloryToBob : Nat → Bytes
  | 1 => [1, 0]
  | 9 => sampleAuth attackedPlatform "mallory" (malloryHello .fileTransfer 4)
      (bobHello .fileTransfer)
  | _ => [2]

/-- An adversary with an identity of its own answers both ends: both handshakes return, no
signature of Alice or Bob is forged, and the ends do not agree. -/
theorem handshake_ends_disagree :
    ∃ momentsA momentsB sessionA sessionB,
      Dialled (sample attackedPlatform "alice" 1) dialledConnection
        ((sample attackedPlatform "alice" 1).authenticateOutboundProbe dialledConnection) ∧
      Program.Returns ((sample attackedPlatform "alice" 1).authenticateOutboundProbe
        dialledConnection).run momentsA (.ok sessionA) ∧
      Program.Returns ((sample attackedPlatform "bob" 2).authenticateInbound
        (sampleConnection none)).run momentsB (.ok sessionB) ∧
      dialledConnection.exporter = (sampleConnection none).exporter ∧
      Unforgeable (sample attackedPlatform "alice" 1) momentsA (sampleConnection none) momentsB ∧
      Unforgeable (sample attackedPlatform "bob" 2) momentsB dialledConnection momentsA ∧
      OwnExporter (sample attackedPlatform "alice" 1) momentsA dialledConnection momentsA ∧
      OwnExporter (sample attackedPlatform "bob" 2) momentsB (sampleConnection none) momentsB ∧
      Addressable momentsA ∧
      sessionA.kind ≠ sessionB.kind ∧ sessionA.rank ≠ sessionB.rank ∧
      sessionA.peer.deviceId = ⟨"mallory"⟩ ∧ sessionB.peer.deviceId = ⟨"mallory"⟩ := by
  let alice := sample attackedPlatform "alice" 1
  let bob := sample attackedPlatform "bob" 2
  obtain ⟨momentsA, sessionA, returnsA, seenA⟩ := returns_of_endOf (show endOf alice 1
    malloryToAlice (alice.authenticateOutboundProbe dialledConnection)
    (fun moments session => (carriesNone attackedPlatform (.sample "bob") moments,
      (signedIn moments).all (·.length < 1000), session.kind, session.rank.initiatorId,
      session.peer.deviceId)) =
      some (some (true, true, .discoveryProbe, ⟨"alice"⟩, ⟨"mallory"⟩)) by decide +kernel)
  obtain ⟨momentsB, sessionB, returnsB, seenB⟩ := returns_of_endOf (show endOf bob 2
    malloryToBob (bob.authenticateInbound (sampleConnection none))
    (fun moments session => (carriesNone attackedPlatform (.sample "alice") moments, session.kind,
      session.rank.initiatorId, session.peer.deviceId)) =
      some (some (true, .fileTransfer, ⟨"mallory"⟩, ⟨"mallory"⟩)) by decide +kernel)
  simp only [Prod.mk.injEq] at seenA seenB
  obtain ⟨noneA, short, kindA, rankA, idA⟩ := seenA
  obtain ⟨noneB, kindB, rankB, idB⟩ := seenB
  refine ⟨momentsA, momentsB, sessionA, sessionB, .probe, returnsA, returnsB, rfl,
    unforgeable_of_carriesNone noneB, unforgeable_of_carriesNone noneA, fun _ _ _ _ => id,
    fun _ _ _ _ => id, ?_, ?_, ?_, idA, idB⟩
  · intro message asked
    have bounded := List.all_eq_true.mp short message (mem_signedIn.mpr asked)
    exact lt_of_lt_of_le (of_decide_eq_true bounded) (by decide)
  · rw [kindA, kindB]
    decide
  · intro same
    have initiators := congrArg SessionRank.initiatorId same
    rw [rankA, rankB] at initiators
    exact absurd initiators (by decide)

end Runtime

end ArcRelay
