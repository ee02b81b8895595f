import Mathlib

/-!
# Devices, addresses and failures

The plain data every part of the runtime shares: device identities and their
keys, socket addresses with the order of the standard library, the session
kinds, and the failures the crate reports. Identities compare as their printed
text and byte strings compare byte by byte, as the derived orders of the source
do.
-/

namespace ArcRelay

/-- A byte string, `Vec<u8>` or `bytes::Bytes`. -/
abbrev Bytes := List UInt8

/-- A 32-byte digest or exporter value, `[u8; 32]`. -/
abbrev Digest := Vector UInt8 32

/-- The random id of one run of a device's process, `[u8; 16]`. -/
abbrev ProcessInstanceId := Vector UInt8 16

/-- `arcrelay_peer::DeviceId` — a device is named by its printed id. -/
structure DeviceId where
  /-- `DeviceId::as_str`. -/
  asStr : String
deriving DecidableEq, Repr

theorem DeviceId.asStr_injective : Function.Injective DeviceId.asStr := by
  rintro ⟨left⟩ ⟨right⟩ same
  exact congrArg DeviceId.mk same

/-- The derived order of ids is the order of their text. -/
instance : LinearOrder DeviceId := LinearOrder.lift' DeviceId.asStr DeviceId.asStr_injective

/-- `arcrelay_peer::DevicePublicKey` — the Ed25519 root key of a device. -/
structure DevicePublicKey where
  /-- `DevicePublicKey::as_bytes`. -/
  asBytes : Bytes
deriving DecidableEq, Repr

/-- The bytes of an ASCII literal. -/
def ascii (text : String) : Bytes := text.toList.map fun char => .ofNat char.toNat

/-- The key of a named device in concrete runs: its name, filled up to 32 bytes. -/
def DevicePublicKey.sample (name : String) : DevicePublicKey :=
  ⟨(ascii name ++ List.replicate 32 0).take 32⟩

/-- `arcrelay_peer::DeviceSignature`. -/
structure DeviceSignature where
  /-- `DeviceSignature::as_bytes`. -/
  asBytes : Bytes
deriving DecidableEq, Repr

/-- `arcrelay_peer::SigningContext` — the contexts this crate signs and verifies in. -/
inductive SigningContext where
  | featurePayload
  | sessionAuthentication
  | endpointBinding
deriving DecidableEq, Repr

/-- `discovery::DeviceMetadata` — what a device says about itself. -/
structure DeviceMetadata where
  name : String
  platform : String
  model : String
deriving DecidableEq, Repr

/-- `std::net::IpAddr`, with the address as one big-endian number. -/
inductive IpAddr where
  | v4 (address : BitVec 32)
  | v6 (address : BitVec 128)
deriving DecidableEq, Repr

/-- The comparison key of an IP address: every IPv4 address is below every IPv6 one. -/
def IpAddr.sortKey : IpAddr → List Nat
  | .v4 address => [0, address.toNat]
  | .v6 address => [1, address.toNat]

theorem IpAddr.sortKey_injective : Function.Injective IpAddr.sortKey := by
  intro left right same
  cases left <;> cases right <;> simp_all [IpAddr.sortKey, BitVec.toNat_inj]

/-- The derived order of `std::net::IpAddr`. -/
instance : LinearOrder IpAddr := LinearOrder.lift' IpAddr.sortKey IpAddr.sortKey_injective

/-- `std::net::SocketAddr`. -/
inductive SocketAddr where
  /-- `SocketAddrV4`. -/
  | v4 (ip : BitVec 32) (port : UInt16)
  /-- `SocketAddrV6`. -/
  | v6 (ip : BitVec 128) (port : UInt16) (flowinfo : UInt32) (scopeId : UInt32)
deriving DecidableEq, Repr

namespace SocketAddr

/-- `SocketAddr::ip`. -/
def ip : SocketAddr → IpAddr
  | .v4 ip _ => .v4 ip
  | .v6 ip _ _ _ => .v6 ip

/-- `SocketAddr::port`. -/
def port : SocketAddr → UInt16
  | .v4 _ port => port
  | .v6 _ port _ _ => port

/-- `SocketAddrV6::flowinfo`, which an IPv4 address does not have. -/
def flowinfo : SocketAddr → UInt32
  | .v4 _ _ => 0
  | .v6 _ _ flowinfo _ => flowinfo

/-- The address without its flow label. -/
def withoutFlow : SocketAddr → SocketAddr
  | .v4 ip port => .v4 ip port
  | .v6 ip port _ scopeId => .v6 ip port 0 scopeId

theorem withoutFlow_eq_self {address : SocketAddr} (plain : address.flowinfo = 0) :
    address.withoutFlow = address := by
  cases address with
  | v4 ip port => rfl
  | v6 ip port flowinfo scopeId =>
    obtain rfl : flowinfo = 0 := plain
    rfl

/-- `SocketAddr::new` — an IPv6 address gets no flow label and no interface. -/
def new : IpAddr → UInt16 → SocketAddr
  | .v4 ip, port => .v4 ip port
  | .v6 ip, port => .v6 ip port 0 0

/-- The comparison key of a socket address, field by field in the order of the source. -/
def sortKey : SocketAddr → List Nat
  | .v4 ip port => [0, ip.toNat, port.toNat]
  | .v6 ip port flowinfo scopeId => [1, ip.toNat, port.toNat, flowinfo.toNat, scopeId.toNat]

theorem sortKey_injective : Function.Injective sortKey := by
  intro left right same
  cases left <;> cases right <;>
    simp_all [sortKey, BitVec.toNat_inj, UInt16.toNat_inj, UInt32.toNat_inj]

/-- The derived order of `std::net::SocketAddr`. -/
instance : LinearOrder SocketAddr := LinearOrder.lift' sortKey sortKey_injective

end SocketAddr

/-- `lib::NetworkError`. -/
inductive NetworkError where
  | io (reason : String)
  | tls (reason : String)
  | invalidIdentity (reason : String)
  | discovery (reason : String)
  | quic (reason : String)
  /-- A protocol violation by the peer or the caller. -/
  | protocol (reason : String)
  | connect (reason : String)
  | unpaired
  | unauthorized (reason : String)
  | repository (reason : String)
  | timeout
  | selfConnection
  | busy (reason : String)
  | runtimeUnavailable
  | frame (reason : String)
deriving DecidableEq, Repr

/-- The text of a failure. -/
def NetworkError.text : NetworkError → String
  | .io reason => "network I/O failed: " ++ reason
  | .tls reason => "TLS configuration failed: " ++ reason
  | .invalidIdentity reason => "invalid device identity: " ++ reason
  | .discovery reason => "discovery failed: " ++ reason
  | .quic reason => "QUIC failed: " ++ reason
  | .protocol reason => "protocol violation: " ++ reason
  | .connect reason => "connection failed: " ++ reason
  | .unpaired => "peer is not paired"
  | .unauthorized reason => "peer is not authorized: " ++ reason
  | .repository reason => "peer repository failed: " ++ reason
  | .timeout => "operation timed out"
  | .selfConnection => "cannot connect to this device"
  | .busy reason => "network runtime is busy: " ++ reason
  | .runtimeUnavailable => "an active Tokio runtime is required"
  | .frame reason => reason

/-- `runtime::SessionKind`. -/
inductive SessionKind where
  | pairing
  | control
  | realtimeInput
  /-- File transfer, also between unpaired devices. -/
  | fileTransfer
  | print
  | discoveryProbe
deriving DecidableEq, Repr

namespace SessionKind

/-- Every session kind, in the derived order of the source. -/
def all : List SessionKind :=
  [.pairing, .control, .realtimeInput, .fileTransfer, .print, .discoveryProbe]

theorem mem_all (kind : SessionKind) : kind ∈ all := by
  cases kind <;> decide

theorem all_nodup : all.Nodup := by decide

/-- The kinds an unpaired device may open:
`SessionKind::Pairing | SessionKind::FileTransfer | SessionKind::DiscoveryProbe`. -/
def openToUnpaired : SessionKind → Bool
  | .pairing | .fileTransfer | .discoveryProbe => true
  | .control | .realtimeInput | .print => false

end SessionKind

/-- `runtime::SessionKey`. -/
abbrev SessionKey := DeviceId × SessionKind

end ArcRelay
