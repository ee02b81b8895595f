import ArcRelay.Discovery
import ArcRelay.Handshake

/-!
# Dialling

The functions of `NetworkRuntime` that return a session to a peer: the endpoint
race with its candidates, the three gated ways to start one, and the input relay,
which needs no race. The candidates are tasks of their own; they and the race
meet in the world.
-/

namespace ArcRelay

/-- A function of a race: its failures say whether another source port is worth a try. -/
abbrev DialAction (α : Type) := Async Call.Reply (NetworkError × Bool) α

/-- One call of such a function. -/
abbrev dialAsk (call : Call) : DialAction call.Reply := Async.call call

/-- One call of a task that reports its failures as values. -/
abbrev perform (call : Call) : Program Call.Reply call.Reply := Program.perform call

/-- `ExpectedPeer::id`. -/
def ExpectedPeer.id : ExpectedPeer → DeviceId
  | .advertised peer => peer.deviceId
  | .paired peer => peer.deviceId

/-- The first loop of `race_endpoints_on`: at most sixteen different endpoints. -/
def uniqueEndpoints (unique : List SocketAddr) : List SocketAddr → List SocketAddr
  | [] => unique
  | address :: later =>
    if canonicalEndpoint address ∈ unique then uniqueEndpoints unique later
    else
      let unique := unique ++ [canonicalEndpoint address]
      if unique.length = 16 then unique else uniqueEndpoints unique later

/-- What the loop of `race_endpoints_on` remembers of failed candidates. -/
structure RaceFailures where
  failures : List String
  pathTimedOut : Bool
  authenticationFailed : Bool

/-- What a race without a winner fails with. -/
def RaceFailures.error (failed : RaceFailures) : NetworkError × Bool :=
  (.connect ("; ".intercalate failed.failures), failed.pathTimedOut && !failed.authenticationFailed)

namespace Runtime

variable (self : Runtime)

/-- Part of a candidate's work: the phase it fails in is part of its result. -/
def inPhase {α : Type} (address : SocketAddr) (phase : Phase) (work : DialAction α)
    (next : α → Program Call.Reply CandidateResult) : Program Call.Reply CandidateResult := do
  match ← Program.timeout Call.expired (fun expired => expired) work.run with
  | none => return ⟨address, phase, false, .error .timeout⟩
  | some (.error (error, idleTimeout)) => return ⟨address, phase, idleTimeout, .error error⟩
  | some (.ok value) => next value

/-- A function of the runtime as part of a race. -/
def asDial {α : Type} (program : Action α) : DialAction α :=
  ExceptT.mk (program.run >>= fun result => pure (result.mapError fun error => (error, false)))

/-- The authentication a candidate of a race does. -/
def authenticateExpected (connection : Connection) (expected : ExpectedPeer) (kind : SessionKind)
    (selection : Selection) : Action Session :=
  match expected with
  | .advertised peer => self.authenticateOutbound connection peer kind selection
  | .paired peer => self.authenticateOutboundPaired connection peer kind selection

/-- The attempt of a candidate. Its connection is closed if it comes to nothing. -/
def attempt (entry : Race) (race index : Nat) (address : SocketAddr) :
    Program Call.Reply CandidateResult :=
  inPhase address .candidateCapacityWait (dialAsk .handshakePermit) fun _ =>
  inPhase address .globalCapacityWait (dialAsk .handshakePermit) fun _ =>
  inPhase address .quicHandshake (do
    let connected ← dialAsk (.connect address entry.recovery)
    Async.ofExcept connected) fun connection => do
  let result ← inPhase address .peerAuthentication
    (asDial (self.authenticateExpected connection entry.expected entry.kind (.race race index)))
    fun session => return ⟨address, .peerAuthentication, false, .ok session⟩
  if result.result.isOk then return result
  else
    perform (.close connection.stableId 0 "dial candidate cancelled")
    return result

/-- The task of a candidate. -/
def candidate (race index : Nat) : Program Call.Reply Unit := do
  let (entry, address) ← perform (.claim race index)
  let result ← self.attempt entry race index address
  perform (.report race index result)

/-- What `race_endpoints_on` does with the winner. -/
def registerWinner (race : Nat) (session : Session) (source : EndpointSource) :
    DialAction Session := do
  dialAsk (.shutdownRace race)
  dialAsk (.awaitRace race)
  let registered ← dialAsk (.register session .never)
  match registered.1 with
  | .error error =>
    dialAsk (.close session.conn 0 "dial candidate cancelled")
    throw (error, false)
  | .ok registered =>
    let _ ← asDial (self.rememberAuthenticatedSession registered source)
    return registered

/-- A failed candidate among the others. -/
def noteFailure (failed : RaceFailures) (candidate : CandidateResult) (error : NetworkError) :
    RaceFailures where
  failures := failed.failures ++ [self.platform.addressText candidate.address ++ ": " ++ error.text]
  pathTimedOut := failed.pathTimedOut ||
    (candidate.phase == .quicHandshake && (error == .timeout || candidate.idleTimeout))
  authenticationFailed := failed.authenticationFailed || candidate.phase == .peerAuthentication

/-- The second loop of `race_endpoints_on`, over at most so many results. -/
def joinCandidates (race : Nat) (expected : ExpectedPeer) (source : EndpointSource) :
    Nat → RaceFailures → DialAction Session
  | 0, failed => throw failed.error
  | remaining + 1, failed => do
    let joined ← dialAsk (.joinNext race)
    match joined with
    | none => throw failed.error
    | some candidate =>
      match candidate.result with
      | .ok session => self.registerWinner race session source
      | .error error =>
        Async.whenever (source = .history) (do
          let _ ← dialAsk (.recordFailure expected.id candidate.address)
          return)
        joinCandidates race expected source remaining (self.noteFailure failed candidate error)

/-- `NetworkRuntime::race_endpoints_on`. -/
def raceEndpointsOn (addresses : List SocketAddr) (expected : ExpectedPeer) (kind : SessionKind)
    (source : EndpointSource) (recovery : Bool) : DialAction Session := do
  let unique := uniqueEndpoints [] addresses
  Async.refuse unique.isEmpty (.connect "no dial endpoints", false)
  let race ← dialAsk (.startRace expected kind unique recovery)
  self.joinCandidates race expected source unique.length ⟨[], false, false⟩

/-- `NetworkRuntime::race_endpoints`. -/
def raceEndpoints (addresses : List SocketAddr) (expected : ExpectedPeer) (kind : SessionKind)
    (source : EndpointSource) : Action Session :=
  ExceptT.mk do
    match ← (self.raceEndpointsOn addresses expected kind source false).run with
    | .ok session => return .ok session
    | .error (error, retrySourcePort) =>
      if !retrySourcePort || kind = .discoveryProbe || kind = .pairing then return .error error
      else
        match ← perform .recoveryEndpoint with
        | .error error => return .error error
        | .ok _ =>
          let second ← (self.raceEndpointsOn addresses expected kind source true).run
          return second.mapError Prod.fst

/-- `NetworkRuntime::acquire_session_dial`, and the guard that is dropped at the end. -/
def withDialGate {α : Type} (key : SessionKey) (program : Action α) : Action α := do
  let gate ← ask (.dialGate key)
  ask (.lockGate gate)
  let result ← Async.result program
  ask (.unlockGate gate)
  Async.ofExcept result

/-- The part of `connect` and its relatives under the dial gate: a registered session is returned,
otherwise the peer is dialled. -/
def activeOr (id : DeviceId) (kind : SessionKind) (dial : Action Session) : Action Session := do
  let active ← ask (.active id kind)
  match active with
  | some session => return session
  | none => dial

/-- The addresses of an advertisement: those with an interface, or else the bare ones. -/
def dialAddresses (peer : PeerAdvertisement) : List SocketAddr :=
  if peer.connectionAddresses.isEmpty then
    peer.addresses.map fun address => .new address peer.port
  else peer.connectionAddresses

/-- `NetworkRuntime::connect`. -/
def connect (peer : PeerAdvertisement) (kind : SessionKind) : Action Session := do
  Async.refuse (peer.deviceId == self.deviceId) .selfConnection
  self.requireTrust kind peer.deviceId peer.publicKey
  withDialGate (peer.deviceId, kind)
    (activeOr peer.deviceId kind
      (self.raceEndpoints (dialAddresses peer) (.advertised peer) kind .mdns))

/-- `NetworkRuntime::connect_remembered`. -/
def connectRemembered (id : DeviceId) (kind : SessionKind) : Action Session := do
  let peer ← self.requirePaired id none
  withDialGate (id, kind) (activeOr id kind (do
    let stored ← ask (.endpoints id)
    let endpoints ← Async.ofExcept stored
    Async.refuse endpoints.isEmpty (.connect "peer has no remembered authenticated endpoint")
    self.raceEndpoints (endpoints.map RememberedEndpoint.address) (.paired peer) kind .history))

/-- `NetworkRuntime::connect_discovered`, which looks at the discovery service first. -/
def connectDiscovered (discovery : Discovery) (id : DeviceId) (kind : SessionKind) :
    Action Session :=
  match discovery.peer id with
  | some peer => self.connect peer kind
  | none => self.connectRemembered id kind

/-- An address `connect_paired_at` dials. -/
def routable (address : SocketAddr) : Bool :=
  address.port != 0 && !address.ip.isLoopback && !address.ip.isUnspecified &&
    !address.ip.isMulticast

/-- `NetworkRuntime::connect_paired_at`. -/
def connectPairedAt (id : DeviceId) (connectionAddresses : List SocketAddr) (kind : SessionKind) :
    Action Session := do
  let peer ← self.requirePaired id none
  Async.refuse (connectionAddresses.length > 16)
    (.protocol "relayed peer route exceeds endpoint limit")
  let addresses := ((connectionAddresses.filter routable).insertionSort (· ≤ ·)).destutter (· ≠ ·)
  Async.refuse addresses.isEmpty (.connect "relayed peer route has no dialable address")
  withDialGate (id, kind) (activeOr id kind (self.raceEndpoints addresses (.paired peer) kind
    .relayed))

/-! ## Input relays -/

/-- `NetworkRuntime::register_input_relay`. -/
def registerInputRelay (session : Session) (tunnel : RelayTunnel) (publish : Publish) :
    Action Session := do
  let session := { session with relayTunnel := some tunnel }
  let reply ← ask (.register session publish)
  let registered ← Async.ofExcept reply.1
  Async.whenever (registered.conn = session.conn) (ask (.spawnCleanup session))
  return registered

/-- What both ends of an input relay need first: a tunnel and a free handshake permit. -/
def relayTunnel (server : Bool) : Action RelayTunnel := do
  let made ← ask (.tunnel server)
  let tunnel ← Async.ofExcept made
  let permitted ← ask .tryHandshakePermit
  Async.refuse (!permitted) (.busy "input relay handshake limit reached")
  return tunnel

/-- `NetworkRuntime::connect_input_relay`. -/
def connectInputRelay (target : DeviceId) : Action Session := do
  let peer ← self.requirePaired target none
  activeOr target .realtimeInput (do
    let tunnel ← relayTunnel false
    let session ← withTimeout (do
      let connected ← ask (.throughTunnel tunnel false)
      let connection ← Async.ofExcept connected
      self.authenticateOutboundPaired connection peer .realtimeInput .own)
    registerInputRelay session tunnel .never)

/-- `NetworkRuntime::require`. -/
def require (session : Session) (capability : CapabilityId) : Action GrantConstraints := do
  let authorized ← ask (.authorize session.peer.deviceId capability)
  Async.ofExcept (authorized.mapError .unauthorized)

/-- The check of `accept_input_relay` that the tunnel leads to the requested source. -/
def requireRelaySource (session : Session) (expected : PeerRecord) : Action Unit :=
  if session.kind != .realtimeInput || session.peer.deviceId != expected.deviceId
      || session.peer.publicKey != expected.publicKey then do
    ask (.close session.conn 0 "input relay identity mismatch")
    throw (.invalidIdentity "input relay authenticated an unexpected source")
  else return

/-- `NetworkRuntime::accept_input_relay`. -/
def acceptInputRelay (source : DeviceId) : Action Session := do
  let expected ← self.requirePaired source none
  let tunnel ← relayTunnel true
  let session ← withTimeout (do
    let accepted ← ask (.throughTunnel tunnel true)
    let connection ← Async.ofExcept accepted
    let session ← self.authenticateInbound connection
    requireRelaySource session expected
    let _ ← require session .crossScreenInject
    return session)
  registerInputRelay session tunnel .always

/-- The clean-up task of a relayed session. -/
def cleanup (session : Session) : Action Unit := do
  ask (.awaitCleanup session)
  ask (.relayCleanup session)

/-! ## Inbound connections -/

/-- The task `start_accept_loop` spawns for an incoming connection. A probe is closed by a task of
its own after a short while; here the closing is the last call. -/
def acceptIncoming : Action Unit := do
  let permitted ← ask .tryHandshakePermit
  Async.whenever permitted (do
    let connection ← withTimeout (do
      let connected ← ask .incoming
      Async.ofExcept connected)
    let inbound ← withTimeout (self.authenticateInbound connection)
    let _ ← self.rememberAuthenticatedSession inbound .inbound
    if inbound.kind = .discoveryProbe then
      ask (.close inbound.conn 0 "discovery probe completed")
    else
      let reply ← ask (.register inbound .ifSame)
      let session ← Async.ofExcept reply.1
      Async.whenever (session.conn = inbound.conn ∧ reply.2 = false)
        (ask (.close session.conn 0 "feature service unavailable")))

end Runtime

end ArcRelay
