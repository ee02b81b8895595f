import ArcRelay.Trust

/-!
# Wire messages

The protobuf messages of `arcrelay_wire::common` that the runtime sends or
receives, with the fields it reads or writes. Enumerations travel as numbers.
-/

namespace ArcRelay

/-- `common::SessionHello`. -/
structure SessionHello where
  protocolMajor : UInt32
  sessionKind : Int
  deviceId : String
  deviceName : String
  platform : String
  model : String
  nonce : Bytes
  rootPublicKey : Bytes
  endpointCertificateSha256 : Bytes
  /-- Signature of the root key over the digest. -/
  endpointBindingSignature : Bytes
  minProtocolMinor : UInt32
  maxProtocolMinor : UInt32
deriving DecidableEq, Repr

/-- `common::SessionAuth`. -/
structure SessionAuth where
  deviceId : String
  signature : Bytes
deriving DecidableEq, Repr

/-- `common::SessionAccepted`. -/
structure SessionAccepted where
  sessionId : UInt64
  acceptedAtMs : Int
  listenPort : UInt32
  protocolMinor : UInt32
  /-- Process instance of the sender, empty for a legacy peer. -/
  processInstanceId : Bytes
deriving DecidableEq, Repr

/-- `common::RemoteFileShareConstraints`. -/
structure RemoteFileShares where
  shareIds : List String
  writable : Bool
deriving DecidableEq, Repr

/-- `common::GrantConstraints`, whose `kind` is the only field. -/
structure WireConstraints where
  /-- The constraint, absent when the sender knows kinds this version does not. -/
  kind : Option RemoteFileShares
deriving DecidableEq, Repr

/-- `common::CapabilityGrant`. -/
structure CapabilityGrant where
  capability : String
  /-- Number of the direction, as the sender's peer sees it. -/
  direction : Int
  constraints : Option WireConstraints
  grantedAtMs : Int
deriving DecidableEq, Repr

/-- `common::FeaturePayload`, the header of a feature stream. -/
structure FeaturePayload where
  featureId : String
  body : Bytes
  featureMajor : UInt32
  minFeatureMinor : UInt32
  maxFeatureMinor : UInt32
  streamId : UInt64
  operation : String
deriving DecidableEq, Repr

/-- `common::PairingRequest`. -/
structure PairingRequest where
  requestedGrants : List CapabilityGrant
deriving DecidableEq, Repr

/-- `common::PairingResult`. -/
structure PairingResult where
  paired : Bool
  peerId : String
  error : String
deriving DecidableEq, Repr

/-- `common::PairingResponse`. -/
structure PairingResponse where
  result : Option PairingResult
  grantedGrants : List CapabilityGrant
deriving DecidableEq, Repr

end ArcRelay
