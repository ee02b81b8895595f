import ArcRelay.Handshake
import ArcRelay.Lib.Duplex

/-!
# Two runtimes at the ends of one connection

Both ends of one handshake, joined by the stream it runs on: what one end writes
arrives at the other, in order and after any delay. The devices may be of different
releases. Everything that neither of them decides is fixed for each device by an
environment of its own.
-/

namespace ArcRelay

/-- A device during one handshake. -/
structure Party where
  runtime : Runtime
  /-- The connection, as it is seen here. -/
  connection : Connection
  /-- What the clock, the random source and the operating system answer. -/
  environment : (call : Call) → call.Reply
  world : World

namespace Party

variable (party : Party)

/-- What the calls of a device mean: frames that are not longer than the limit go through the
stream, and everything else is answered at the device. -/
def wiring : Duplex.Wiring Call.Reply Bytes World
  | .send connection frame limit =>
    if connection = party.connection.stableId ∧ frame.length ≤ limit then .send frame (.ok ())
    else .own fun world => some (party.environment (.send connection frame limit), world)
  | .receive connection limit =>
    if connection = party.connection.stableId then
      .receive fun frame =>
        if frame.length ≤ limit then .ok frame else party.environment (.receive connection limit)
    else .own fun world => some (party.environment (.receive connection limit), world)
  | call => .own fun world => party.runtime.handle world call (party.environment call)

/-- The hello the device sends. -/
def hello (kind : SessionKind) : SessionHello :=
  party.runtime.helloWith kind (party.environment .nonce) (party.environment .metadata)

/-- The port the device says it listens on. -/
def listenPort : UInt16 :=
  match party.environment .localPort with
  | .ok port => port
  | .error _ => 0

/-- The confirmation the device sends. -/
def accepted (protocolMinor : UInt32) : SessionAccepted where
  sessionId := max (party.environment .randomId) 1
  acceptedAtMs := party.environment .now
  listenPort := .ofNat party.listenPort.toNat
  protocolMinor := protocolMinor
  processInstanceId := party.runtime.processInstanceId.toList

/-- The signature message the device sends. -/
def auth (transcript : Bytes) : SessionAuth :=
  ⟨party.runtime.deviceId.asStr, (party.runtime.sign .sessionAuthentication transcript).asBytes⟩

end Party

/-- The ways to authenticate as the end that dialled. -/
inductive Approach where
  | advertised (expected : PeerAdvertisement) (kind : SessionKind) (selection : Selection)
  | paired (expected : PeerRecord) (kind : SessionKind) (selection : Selection)
  | probe

namespace Approach

/-- The kind of session. -/
def kind : Approach → SessionKind
  | .advertised _ kind _ | .paired _ kind _ => kind
  | .probe => .discoveryProbe

/-- What is waited for before the session is confirmed. -/
def selection : Approach → Selection
  | .advertised _ _ selection | .paired _ _ selection => selection
  | .probe => .absent

/-- The function that is called. -/
def program (approach : Approach) (self : Runtime) (connection : Connection) : Action Session :=
  match approach with
  | .advertised expected kind selection =>
    self.authenticateOutbound connection expected kind selection
  | .paired expected kind selection =>
    self.authenticateOutboundPaired connection expected kind selection
  | .probe => self.authenticateOutboundProbe connection

end Approach

/-- Alice has dialled Bob. -/
structure Meeting where
  alice : Party
  bob : Party
  approach : Approach

namespace Meeting

/-- Both ends before the first call. -/
def link (meeting : Meeting) :
    Duplex.Link Call.Reply (Except NetworkError Session) Bytes World where
  left := ⟨(meeting.approach.program meeting.alice.runtime meeting.alice.connection).run,
    meeting.alice.world, []⟩
  right := ⟨(meeting.bob.runtime.authenticateInbound meeting.bob.connection).run,
    meeting.bob.world, []⟩

end Meeting

/-- A sample platform of a release with its own minor versions. Its confirmations carry the minor
version and the process instance. -/
def Platform.release (known : List SessionHello) (low high : UInt32) (range : low ≤ high) :
    Platform :=
  { sample known ⟨none, []⟩ with
    minProtocolMinor := low
    maxProtocolMinor := high
    minProtocolMinor_le := range
    encodeAccepted accepted := .ofNat accepted.protocolMinor.toNat :: accepted.processInstanceId
    decodeAccepted bytes := .ok ⟨1, 1, 0, .ofNat (bytes.headD 0).toNat, bytes.tail⟩ }

end ArcRelay
