import ArcRelay.Dialing

/-!
# Asking for a pairing

`begin_pairing` dials the peer for a pairing session and sends the requested grants
in the header of a feature stream. The answer is read by `complete_pairing`.
-/

namespace ArcRelay

/-- `FEATURE_HEADER_LIMIT`. -/
def featureHeaderLimit : Nat := 64 * 1024

/-- The characters of a feature id and of an operation. -/
def featureText (value : String) : Bool :=
  value.toList.all fun char =>
    ('a' ≤ char && char ≤ 'z') || ('0' ≤ char && char ≤ '9') || char = '.' || char = '-' ||
      char = '_'

/-- `session::valid_feature_id`. -/
def validFeatureId (value : String) : Bool :=
  !value.isEmpty && decide (value.utf8ByteSize ≤ 128) && featureText value

/-- `session::valid_operation`. -/
def validOperation (value : String) : Bool :=
  decide (value.utf8ByteSize ≤ 64) && featureText value

/-- One requested grant on the wire: the direction is that of the peer. -/
def encodeRequest (platform : Platform) (entry : GrantKey × GrantConstraints) :
    CapabilityGrant where
  capability := platform.token entry.1.1
  direction := platform.directionNumber (Runtime.localDirection entry.1.2)
  constraints := encodeGrantConstraints entry.2
  grantedAtMs := 0

/-- The second loop of `begin_pairing`. The source goes through its `BTreeMap` in the order of the
keys, the table in the order of insertion. -/
def encodeRequested (platform : Platform) (requested : RequestedGrants) : List CapabilityGrant :=
  requested.rows.map (encodeRequest platform)

namespace Runtime

variable (self : Runtime)

/-- `Session::open_feature_stream_versioned`. It returns the header; the stream belongs to the
connection. -/
def openFeatureStreamVersioned (session : Session) (featureId : String)
    (featureMajor minFeatureMinor maxFeatureMinor : UInt32) (operation : String)
    (openingPayload : Bytes) : Action FeaturePayload := do
  Async.refuse (!validFeatureId featureId || featureMajor == 0
      || minFeatureMinor > maxFeatureMinor || !validOperation operation)
    (.protocol "invalid local feature stream header")
  let opened ← ask (.openStream session.conn)
  Async.ofExcept (quicResult opened)
  let streamId ← ask .randomId
  let header : FeaturePayload :=
    { featureId
      body := openingPayload
      featureMajor
      minFeatureMinor
      maxFeatureMinor
      streamId := max streamId 1
      operation }
  let sent ← ask (.send session.conn (self.platform.encodeFeaturePayload header) featureHeaderLimit)
  Async.ofExcept sent
  return header

/-- `Session::open_feature_stream`. -/
def openFeatureStream (session : Session) (featureId : String) (openingPayload : Bytes) :
    Action FeaturePayload :=
  self.openFeatureStreamVersioned session featureId 1 0 0 "" openingPayload

/-- `NetworkRuntime::begin_pairing`. -/
def beginPairing (peer : PeerAdvertisement) (requests : List PairingGrantRequest) :
    Action PendingPairing := do
  let requested ← Async.ofExcept (collectRequested requests)
  let session ← self.connect peer .pairing
  let request : PairingRequest := ⟨encodeRequested self.platform requested⟩
  let _ ← self.openFeatureStream session "arcrelay.pairing"
    (self.platform.encodePairingRequest request)
  return ⟨session, requested⟩

end Runtime

end ArcRelay
