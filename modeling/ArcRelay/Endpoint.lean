import ArcRelay.Basic

/-!
# Endpoints of peers

Where a peer was seen: the advertisements that discovery publishes and dialling
consumes, and the endpoints remembered from authenticated sessions.
-/

namespace ArcRelay

/-- `endpoint::EndpointSource`. -/
inductive EndpointSource where
  | mdns
  | inbound
  | history
  | scan
  | manual
  | relayed
deriving DecidableEq, Repr

/-- `endpoint::RememberedEndpoint`. -/
structure RememberedEndpoint where
  peerId : DeviceId
  address : SocketAddr
  certificateSha256 : Digest
  source : EndpointSource
  networkScope : String
  firstSeenAtMs : Int
  lastSeenAtMs : Int
  /-- Last time a session was authenticated there. -/
  lastSuccessAtMs : Int
  consecutiveFailures : UInt32
  retryAfterMs : Int
deriving DecidableEq, Repr

/-- `discovery::PeerAdvertisement`. -/
structure PeerAdvertisement where
  deviceId : DeviceId
  publicKey : DevicePublicKey
  metadata : DeviceMetadata
  addresses : List IpAddr
  /-- Addresses to dial, with port and interface. -/
  connectionAddresses : List SocketAddr
  port : UInt16
  certificateSha256 : Digest
  lastSeenAtMs : Int
deriving DecidableEq, Repr

namespace IpAddr

/-- `IpAddr::is_unspecified`. -/
def isUnspecified : IpAddr → Bool
  | .v4 address => address == 0
  | .v6 address => address == 0

/-- `IpAddr::is_loopback` — `127.0.0.0/8`, or `::1`. -/
def isLoopback : IpAddr → Bool
  | .v4 address => address.toNat / 2 ^ 24 == 127
  | .v6 address => address == 1

/-- `IpAddr::is_multicast` — `224.0.0.0/4`, or `ff00::/8`. -/
def isMulticast : IpAddr → Bool
  | .v4 address => address.toNat / 2 ^ 28 == 14
  | .v6 address => address.toNat / 2 ^ 120 == 255

end IpAddr

/-- `dial::canonical_endpoint` — an IPv4-mapped IPv6 address becomes the IPv4 address. -/
def canonicalEndpoint : SocketAddr → SocketAddr
  | .v6 ip port flowinfo scopeId =>
    if ip.toNat / 2 ^ 32 = 0xffff then .v4 (BitVec.ofNat 32 ip.toNat) port
    else .v6 ip port flowinfo scopeId
  | address => address

end ArcRelay
