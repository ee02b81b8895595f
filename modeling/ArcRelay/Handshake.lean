import ArcRelay.Trusting

/-!
# Authenticating a connection

The handshake over one QUIC connection, as the dialling end and as the accepting
end run it. The frames that arrive, the moment a check of the repository is made
and everything else outside this device is decided by the replies to the calls.
-/

namespace ArcRelay

/-- The semaphore a dialling handshake waits for before it confirms. -/
inductive Selection where
  | absent
  | own
  /-- The one of a race, of which this is a candidate. -/
  | race (race index : Nat)
deriving DecidableEq, Repr

namespace Runtime

variable (self : Runtime)

/-- The hello of this device with a nonce and its metadata. -/
def helloWith (kind : SessionKind) (nonce : Digest) (metadata : DeviceMetadata) :
    SessionHello where
  protocolMajor := self.platform.protocolMajor
  sessionKind := self.platform.encodeKind kind
  deviceId := self.deviceId.asStr
  deviceName := metadata.name
  platform := metadata.platform
  model := metadata.model
  nonce := nonce.toList
  rootPublicKey := self.publicKey.asBytes
  endpointCertificateSha256 := self.certificateSha256.toList
  endpointBindingSignature := self.endpointBindingSignature.asBytes
  minProtocolMinor := self.platform.minProtocolMinor
  maxProtocolMinor := self.platform.maxProtocolMinor

/-- `NetworkRuntime::local_hello`. -/
def localHello (kind : SessionKind) : Action SessionHello := do
  let nonce ← ask .nonce
  let metadata ← ask .metadata
  return self.helloWith kind nonce metadata

/-- A failure of QUIC as an error of the runtime. -/
def quicResult {α : Type} (result : Except String α) : Except NetworkError α :=
  result.mapError .quic

/-- `send_message`. -/
def sendMessage (connection : Connection) (message : Bytes) : Action Unit := do
  let sent ← ask (.send connection.stableId message handshakeFrameLimit)
  Async.ofExcept sent

/-- `receive_message`. -/
def receiveMessage {α : Type} (connection : Connection) (decode : Bytes → Except String α) :
    Action α := do
  let frame ← ask (.receive connection.stableId handshakeFrameLimit)
  let bytes ← Async.ofExcept frame
  Async.ofExcept ((decode bytes).mapError .protocol)

/-- The pairing gate of `connect` and `finish_authentication`: some kinds are for paired devices
only. -/
def requireTrust (kind : SessionKind) (id : DeviceId) (key : DevicePublicKey) : Action Unit :=
  if kind.openToUnpaired then return
  else do
    let _ ← self.requirePaired id (some key)
    return

/-- Waiting for the right to confirm. -/
def awaitSelection : Selection → Action Unit
  | .absent | .own => return
  | .race race index => do
    let permit ← ask (.select race index)
    Async.ofExcept permit

/-- The rank of a session: who dialled, and the nonce of that device. -/
def sessionRank (direction : Direction) (own remote : SessionHello) (peer : SessionPeer) :
    SessionRank :=
  match direction with
  | .outbound => ⟨self.deviceId, own.nonce⟩
  | .inbound => ⟨peer.deviceId, remote.nonce⟩

/-- `u16::try_from(…).unwrap_or_default()`. -/
def portOrZero (port : UInt32) : UInt16 :=
  if port.toNat < 65536 then .ofNat port.toNat else 0

/-- The message that confirms a session. -/
def sessionAccepted (protocolMinor : UInt32) : Action SessionAccepted := do
  let id ← ask .randomId
  let acceptedAtMs ← ask .now
  let port ← ask .localPort
  return {
    sessionId := max id 1
    acceptedAtMs
    listenPort := .ofNat (match port with
      | .ok port => port.toNat
      | .error _ => 0)
    protocolMinor
    processInstanceId := self.processInstanceId.toList }

/-- The exchange of confirmations: the peer's has to name an id and the same minor version. -/
def exchangeAccepted (connection : Connection) (accepted : SessionAccepted) :
    Action SessionAccepted := do
  sendMessage connection (self.platform.encodeAccepted accepted)
  let remote ← receiveMessage connection self.platform.decodeAccepted
  Async.refuse (remote.sessionId == 0 || remote.acceptedAtMs ≤ 0)
    (.protocol "invalid remote session id")
  Async.refuse (remote.protocolMinor != accepted.protocolMinor)
    (.protocol "peer selected a different protocol minor version")
  return remote

/-- The exchange of signatures over the transcript. -/
def exchangeAuth (connection : Connection) (transcript : Bytes) (peer : SessionPeer) :
    Action Unit := do
  let signature ← ask (.sign .sessionAuthentication transcript)
  sendMessage connection (self.platform.encodeAuth ⟨self.deviceId.asStr, signature.asBytes⟩)
  let remote ← receiveMessage connection self.platform.decodeAuth
  Async.refuse (remote.deviceId != peer.deviceId.asStr)
    (.invalidIdentity "session auth device id mismatch")
  let signature ← Async.ofExcept
    (Platform.identityResult (self.platform.signatureFromBytes remote.signature))
  Async.ofExcept (self.platform.verifySignature peer.publicKey .sessionAuthentication transcript
    signature)

/-- `NetworkRuntime::finish_authentication`. -/
def finishAuthentication (connection : Connection) (own remote : SessionHello)
    (peer : SessionPeer) (direction : Direction) (selection : Selection) : Action Session := do
  Async.refuse (peer.deviceId == self.deviceId) .selfConnection
  let kind ← Async.ofExcept (self.platform.decodeKind remote.sessionKind)
  let protocolMinor ← Async.ofExcept (negotiateProtocolMinor own remote)
  let transcript ← Async.ofExcept (self.platform.sessionTranscript connection own remote)
  self.exchangeAuth connection transcript peer
  self.requireTrust kind peer.deviceId peer.publicKey
  awaitSelection selection
  let accepted ← self.sessionAccepted protocolMinor
  let remoteAccepted ← self.exchangeAccepted connection accepted
  let peerProcessInstanceId ←
    Async.ofExcept (validateProcessInstanceId remoteAccepted.processInstanceId)
  let finished ← ask (.finish connection.stableId)
  Async.ofExcept (quicResult finished)
  return {
    peerProcessInstanceId
    relayTunnel := none
    id := accepted.sessionId
    kind
    peer := { peer with listenPort := portOrZero remoteAccepted.listenPort }
    verificationCode := self.platform.verificationCode transcript
    rank := self.sessionRank direction own remote peer
    connection
    protocolMinor }

/-- The exchange of hellos as the dialling end does it. -/
def exchangeHello (connection : Connection) (kind : SessionKind) :
    Action (SessionHello × SessionHello × SessionPeer) := do
  let opened ← ask (.openStream connection.stableId)
  Async.ofExcept (quicResult opened)
  let own ← self.localHello kind
  sendMessage connection (self.platform.encodeHello own)
  let remote ← receiveMessage connection self.platform.decodeHello
  let peer ← Async.ofExcept (self.platform.validateHello remote (some kind))
  return (own, remote, peer)

/-- `NetworkRuntime::authenticate_outbound`. -/
def authenticateOutbound (connection : Connection) (expected : PeerAdvertisement)
    (kind : SessionKind) (selection : Selection) : Action Session := do
  let observed ← Async.ofExcept (self.platform.observedCertificateSha256 connection)
  Async.refuse (observed != expected.certificateSha256)
    (.invalidIdentity "TLS certificate differs from discovery advertisement")
  let (own, remote, peer) ← self.exchangeHello connection kind
  Async.refuse (peer.certificateSha256 != observed)
    (.invalidIdentity "TLS certificate differs from authenticated endpoint binding")
  Async.refuse (peer.deviceId != expected.deviceId || peer.publicKey != expected.publicKey
      || peer.certificateSha256 != expected.certificateSha256)
    (.invalidIdentity "authenticated identity differs from discovery advertisement")
  self.finishAuthentication connection own remote peer .outbound selection

/-- `NetworkRuntime::authenticate_outbound_paired`. -/
def authenticateOutboundPaired (connection : Connection) (expected : PeerRecord)
    (kind : SessionKind) (selection : Selection) : Action Session := do
  let observed ← Async.ofExcept (self.platform.observedCertificateSha256 connection)
  let (own, remote, peer) ← self.exchangeHello connection kind
  Async.refuse (peer.certificateSha256 != observed || peer.deviceId != expected.deviceId
      || peer.publicKey != expected.publicKey)
    (.invalidIdentity "remembered endpoint belongs to another device")
  self.finishAuthentication connection own remote peer .outbound selection

/-- `NetworkRuntime::authenticate_outbound_probe`. -/
def authenticateOutboundProbe (connection : Connection) : Action Session := do
  let observed ← Async.ofExcept (self.platform.observedCertificateSha256 connection)
  let (own, remote, peer) ← self.exchangeHello connection .discoveryProbe
  Async.refuse (peer.certificateSha256 != observed)
    (.invalidIdentity "TLS certificate differs from authenticated endpoint binding")
  self.finishAuthentication connection own remote peer .outbound .absent

/-- The probe limits of `authenticate_inbound`. -/
def admitProbe (kind : SessionKind) (remoteAddress : SocketAddr) : Action Unit :=
  if kind = .discoveryProbe then do
    let admitted ← ask (.admitProbe remoteAddress.ip)
    Async.ofExcept admitted
    let permitted ← ask .acquireProbe
    Async.refuse (!permitted) (.busy "discovery probe limit reached")
  else return

/-- `NetworkRuntime::authenticate_inbound`. -/
def authenticateInbound (connection : Connection) : Action Session := do
  let opened ← ask (.acceptStream connection.stableId)
  Async.ofExcept (quicResult opened)
  let remote ← receiveMessage connection self.platform.decodeHello
  let kind ← Async.ofExcept (self.platform.decodeKind remote.sessionKind)
  let peer ← Async.ofExcept (self.platform.validateHello remote (some kind))
  let paired ← Async.result (self.requirePaired peer.deviceId (some peer.publicKey))
  let discoverable ← ask .isDiscoverable
  Async.refuse (!discoverable && !paired.isOk && kind.openToUnpaired)
    (.unauthorized "device is not accepting new nearby connections")
  admitProbe kind connection.remoteAddress
  let own ← self.localHello kind
  sendMessage connection (self.platform.encodeHello own)
  self.finishAuthentication connection own remote peer .inbound .absent

/-! ## Concrete handshakes -/

/-- The hello of a named device in concrete runs. -/
def sampleHello (name : String) (certificate : UInt8) (kind : SessionKind) : SessionHello :=
  (sample (.sample [] ⟨none, []⟩) name certificate).helloWith kind (Vector.replicate 32 0)
    ⟨"", "", ""⟩

/-- The connection of concrete handshakes: the server's certificate as the client sees it. -/
def sampleConnection (certificate : Option Bytes) : Connection :=
  ⟨0, .v4 0 0, certificate, some (Vector.replicate 32 5)⟩

/-- The signature frame of a named device, over the transcript of two hellos. -/
def sampleAuth (platform : Platform) (name : String) (first second : SessionHello) : Bytes :=
  platform.encodeAuth ⟨name, ((sample platform name 0).sign .sessionAuthentication
    (platform.transcriptWith (Vector.replicate 32 5) first second)).asBytes⟩

end Runtime

end ArcRelay
