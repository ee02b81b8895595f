import ArcRelay.Basic

/-!
# Authenticated sessions

A session is what `finish_authentication` builds out of one QUIC connection:
the peer it authenticated, the kind, the rank both ends compute alike, and the
connection itself. None of these fields changes after the session is built. The
relay tunnel is attached before the session is first registered, so a session
value here is a session as the registry sees it. A connection carries exactly
one session, hence `Arc::ptr_eq` on sessions is equality of `stable_id`.
-/

namespace ArcRelay

/-- `quinn::Connection::stable_id`. -/
abbrev ConnectionId := Nat

/-- What the runtime reads of a `quinn::Connection` besides its state. -/
structure Connection where
  stableId : ConnectionId
  remoteAddress : SocketAddr
  /-- The first certificate of `peer_identity`, if the peer presented one. -/
  peerCertificate : Option Bytes
  /-- The result of `export_keying_material` for the session label. -/
  exporter : Option Digest
deriving DecidableEq, Repr

/-- `quinn::ConnectionError` — why a connection is closed, as `close_reason` reports it. -/
inductive ConnectionError where
  /-- Closed by this process; the code and reason are sent to the peer. -/
  | locallyClosed (code : Nat) (reason : String)
  | applicationClosed (code : Nat) (reason : String)
  | timedOut
  | reset
deriving DecidableEq, Repr

/-- `runtime::SessionRank` — the arbitration order of competing dials. -/
structure SessionRank where
  initiatorId : DeviceId
  /-- The nonce of the dialling device's hello. -/
  initiatorNonce : Bytes
deriving DecidableEq, Repr

/-- The comparison key of a rank: the initiator first, then its nonce byte by byte. -/
def SessionRank.sortKey (rank : SessionRank) : Lex (String × List Nat) :=
  toLex (rank.initiatorId.asStr, rank.initiatorNonce.map UInt8.toNat)

theorem SessionRank.sortKey_injective : Function.Injective SessionRank.sortKey := by
  rintro ⟨⟨leftId⟩, leftNonce⟩ ⟨⟨rightId⟩, rightNonce⟩ same
  simp only [SessionRank.sortKey, EmbeddingLike.apply_eq_iff_eq, Prod.mk.injEq] at same
  have toNat_injective : Function.Injective UInt8.toNat := fun _ _ => UInt8.toNat_inj.mp
  rw [same.1, List.map_injective_iff.mpr toNat_injective same.2]

/-- The derived order of `SessionRank`. -/
instance : LinearOrder SessionRank :=
  LinearOrder.lift' SessionRank.sortKey SessionRank.sortKey_injective

/-- `session::SessionPeer` — the identity an authenticated session talks to. -/
structure SessionPeer where
  deviceId : DeviceId
  publicKey : DevicePublicKey
  metadata : DeviceMetadata
  /-- The endpoint certificate its root key signed. -/
  certificateSha256 : Digest
  /-- The port it listens on, zero when unknown. -/
  listenPort : UInt16
deriving DecidableEq, Repr

/-- `relay::RelayTunnel` — the private loopback bridge of a relayed session. -/
structure RelayTunnel where
  proxyAddress : SocketAddr
deriving DecidableEq, Repr

/-- `session::Session`. -/
structure Session where
  /-- The peer process that accepted, absent for a legacy peer. -/
  peerProcessInstanceId : Option ProcessInstanceId
  /-- The relay tunnel, set before the session is registered. -/
  relayTunnel : Option RelayTunnel
  id : UInt64
  kind : SessionKind
  peer : SessionPeer
  /-- The six-digit code shown on both devices. -/
  verificationCode : String
  rank : SessionRank
  connection : Connection
  protocolMinor : UInt32
deriving DecidableEq, Repr

namespace Session

/-- `Session::is_relayed`. -/
def isRelayed (session : Session) : Bool := session.relayTunnel.isSome

/-- The registry key of a session: `(session.peer.device_id, session.kind)`. -/
def key (session : Session) : SessionKey := (session.peer.deviceId, session.kind)

/-- The identity of the session's connection. -/
def conn (session : Session) : ConnectionId := session.connection.stableId

/-- A session with given arbitration inputs and nothing else of interest, for concrete runs. -/
def sample (peer initiator : String) (nonce : UInt8) (kind : SessionKind)
    (connection : ConnectionId) (relayed : Bool) : Session where
  peerProcessInstanceId := none
  relayTunnel := if relayed then some ⟨.v4 0 0⟩ else none
  id := 1
  kind := kind
  peer := ⟨⟨peer⟩, .sample peer, ⟨"", "", ""⟩, Vector.replicate 32 0, 0⟩
  verificationCode := "000000"
  rank := ⟨⟨initiator⟩, [nonce]⟩
  connection := ⟨connection, .v4 0 0, none, none⟩
  protocolMinor := 2

end Session

end ArcRelay
