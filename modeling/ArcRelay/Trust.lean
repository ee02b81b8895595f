import ArcRelay.Basic

/-!
# Trust records and grants

What the peer repository stores about a device: whether it is trusted, and the
capabilities it was granted in each direction. The capabilities the crate names
have constructors of their own; the others of `arcrelay_peer::CapabilityId` are
carried by their token.
-/

namespace ArcRelay

/-- `arcrelay_peer::TrustState`. -/
inductive TrustState where
  | paired
  | revoked
deriving DecidableEq, Repr

/-- `arcrelay_peer::PeerRecord`. -/
structure PeerRecord where
  deviceId : DeviceId
  publicKey : DevicePublicKey
  displayName : String
  platform : String
  model : String
  trustState : TrustState
  /-- Whether background connections may dial it. -/
  autoConnect : Bool
  pairedAtMs : Int
  updatedAtMs : Int
deriving DecidableEq, Repr

/-- `arcrelay_peer::CapabilityId`. -/
inductive CapabilityId where
  /-- `CapabilityId::CrossScreenInject`. -/
  | crossScreenInject
  /-- `CapabilityId::RemoteFilesRead`. -/
  | remoteFilesRead
  /-- `CapabilityId::RemoteFilesWrite`. -/
  | remoteFilesWrite
  | other (token : String)
deriving DecidableEq, Repr

/-- `arcrelay_peer::GrantDirection`. -/
inductive GrantDirection where
  | inbound
  | outbound
deriving DecidableEq, Repr

/-- `arcrelay_peer::GrantConstraints`. -/
inductive GrantConstraints where
  | none
  /-- Only these file shares, for reading or for writing. -/
  | remoteFileShares (shareIds : List String) (writable : Bool)
deriving DecidableEq, Repr

/-- What identifies a grant of one peer. -/
abbrev GrantKey := CapabilityId × GrantDirection

/-- `arcrelay_peer::Grant`. -/
structure Grant where
  peerId : DeviceId
  capability : CapabilityId
  direction : GrantDirection
  constraints : GrantConstraints
  grantedAtMs : Int
deriving DecidableEq, Repr

/-- The key of a grant among those of its peer. -/
def Grant.key (grant : Grant) : GrantKey := (grant.capability, grant.direction)

end ArcRelay
