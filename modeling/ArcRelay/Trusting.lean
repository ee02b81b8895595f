import ArcRelay.Runtime

/-!
# Establishing and withdrawing trust

The functions of `NetworkRuntime` that read and write the peer repository:
checking that a peer is paired, confirming a pairing with the grants the peer
approved, granting, revoking and forgetting.
-/

namespace ArcRelay

/-- `runtime::PairingGrantRequest`. -/
structure PairingGrantRequest where
  capability : CapabilityId
  direction : GrantDirection
  constraints : GrantConstraints
deriving DecidableEq, Repr

/-- The `BTreeMap` of requested constraints by key. -/
abbrev RequestedGrants := Table (GrantKey × GrantConstraints) GrantKey Prod.fst

/-- `runtime::PendingPairing`. Its stream belongs to the session's connection. -/
structure PendingPairing where
  session : Session
  requested : RequestedGrants
deriving DecidableEq

/-- `runtime::PairingOutcome`. -/
structure PairingOutcome where
  peer : SessionPeer
  granted : List Grant
deriving DecidableEq, Repr

/-- The shares are not listed twice: `sort`, `dedup` and a comparison of lengths. -/
def duplicateFree (shareIds : List String) : Bool := shareIds.dedup.length == shareIds.length

/-- A share id of an admissible length. -/
def validShareId (id : String) : Bool := !(id.isEmpty || id.utf8ByteSize > 256)

/-- `validate_local_grant_request`. -/
def validateLocalGrantRequest (capability : CapabilityId) (constraints : GrantConstraints) :
    Except NetworkError Unit :=
  match constraints with
  | .none => .ok ()
  | .remoteFileShares shareIds writable =>
    if !(capability == .remoteFilesRead || capability == .remoteFilesWrite)
        || (capability == .remoteFilesRead && writable)
        || (capability == .remoteFilesWrite && !writable)
        || shareIds.length > 128
        || !duplicateFree shareIds
        || shareIds.any fun id => !validShareId id then
      .error (.protocol "invalid requested grant constraints")
    else .ok ()

/-- `encode_grant_constraints`. -/
def encodeGrantConstraints : GrantConstraints → Option WireConstraints
  | .none => none
  | .remoteFileShares shareIds writable => some ⟨some ⟨shareIds, writable⟩⟩

/-- `decode_grant_constraints`. -/
def decodeGrantConstraints : Option WireConstraints → Except NetworkError GrantConstraints
  | none => .ok .none
  | some ⟨none⟩ => .error (.protocol "unknown or empty grant constraints")
  | some ⟨some ⟨shareIds, writable⟩⟩ =>
    if shareIds.length > 128 || shareIds.any fun id => !validShareId id then
      .error (.protocol "invalid remote-file grant constraints")
    else if !duplicateFree shareIds then
      .error (.protocol "duplicate remote-file share constraint")
    else .ok (.remoteFileShares shareIds writable)

/-- The first loop of `begin_pairing`: each request is valid, no key occurs twice, and there are at
most 64. -/
def collectRequested (requests : List PairingGrantRequest) :
    Except NetworkError RequestedGrants :=
  requests.foldlM (fun requested request => do
    validateLocalGrantRequest request.capability request.constraints
    let key := (request.capability, request.direction)
    if (requested.find? key).isSome then .error (.protocol "duplicate requested pairing grant")
    else
      let requested := requested.upsert (key, request.constraints)
      if requested.rows.length > 64 then .error (.protocol "too many requested pairing grants")
      else return requested) .empty

/-- The grants of both lists by key, the later one of a key. The source collects them in a
`BTreeMap`; the order of the result is not observed, since the repository orders by its columns. -/
def mergeGrants (existing new : List Grant) : List Grant :=
  ((existing ++ new).foldl Table.upsert (Table.empty : Table Grant GrantKey Grant.key)).rows

namespace Runtime

variable (self : Runtime)

/-- A repository failure as an error of the runtime. -/
def repositoryResult {α : Type} (result : Except RepositoryError α) : Except NetworkError α :=
  result.mapError fun error => .repository (self.platform.repositoryErrorText error)

/-- `tokio::time::timeout`, with an expired deadline reported as `NetworkError::Timeout`. -/
def withTimeout {α : Type} (program : Action α) : Action α :=
  ExceptT.mk do
    match ← Program.timeout Call.expired (fun expired => expired) program.run with
    | some result => return result
    | none => return .error .timeout

/-- `NetworkRuntime::require_paired`. -/
def requirePaired (id : DeviceId) (key : Option DevicePublicKey) : Action PeerRecord := do
  let reply ← ask (.peer id)
  let stored ← Async.ofExcept (self.repositoryResult reply)
  match stored.filter fun peer => peer.trustState = .paired with
  | none => throw .unpaired
  | some peer =>
    Async.refuse (key.any fun key => key != peer.publicKey)
      (.invalidIdentity "paired device key changed")
    return peer

/-- Where a session's peer can be dialled: its address, with the port it listens on if it says. -/
def dialAddress (session : Session) : SocketAddr :=
  let remote := session.connection.remoteAddress
  .new remote.ip (if session.peer.listenPort = 0 then remote.port else session.peer.listenPort)

/-- The advertisement of an authenticated session. -/
def sessionAdvertisement (session : Session) (now : Int) : PeerAdvertisement where
  deviceId := session.peer.deviceId
  publicKey := session.peer.publicKey
  metadata := session.peer.metadata
  addresses := [session.connection.remoteAddress.ip]
  connectionAddresses := [dialAddress session]
  port := (dialAddress session).port
  certificateSha256 := session.peer.certificateSha256
  lastSeenAtMs := now

/-- `NetworkRuntime::remember_authenticated_session`. -/
def rememberAuthenticatedSession (session : Session) (source : EndpointSource) :
    Action PeerAdvertisement := do
  let now ← ask .now
  let peer := sessionAdvertisement session now
  ask (.observeAuthenticated peer)
  let paired ← Async.result (self.requirePaired session.peer.deviceId (some session.peer.publicKey))
  match paired with
  | .error _ => return peer
  | .ok _ =>
    let _ ← ask (.recordAuthenticated session.peer.deviceId (dialAddress session)
      session.peer.certificateSha256 source)
    return peer

/-- The record that a confirmed pairing stores. -/
def pairingRecord (session : Session) (now : Int) : PeerRecord where
  deviceId := session.peer.deviceId
  publicKey := session.peer.publicKey
  displayName := session.peer.metadata.name
  platform := session.peer.metadata.platform
  model := session.peer.metadata.model
  trustState := .paired
  autoConnect := true
  pairedAtMs := now
  updatedAtMs := now

/-- `NetworkRuntime::confirm_pairing_with_grants`. -/
def confirmPairingWithGrants (session : Session) (grants : List Grant) : Action Unit := do
  Async.refuse (session.kind != .pairing)
    (.protocol "only a pairing session can establish device trust")
  Async.refuse (grants.any fun grant => grant.peerId != session.peer.deviceId)
    (.protocol "pairing grant belongs to another peer")
  Async.ofExcept (grants.forM fun grant =>
    validateLocalGrantRequest grant.capability grant.constraints)
  let now ← ask .now
  let reply ← ask (.grants session.peer.deviceId)
  let existing ← Async.ofExcept (self.repositoryResult reply)
  let saved ← ask (.savePairing (pairingRecord session now) (mergeGrants existing grants))
  Async.ofExcept (self.repositoryResult saved)
  let _ ← self.rememberAuthenticatedSession session .inbound
  ask .refresh

/-- `NetworkRuntime::confirm_pairing`. -/
def confirmPairing (session : Session) : Action Unit := self.confirmPairingWithGrants session []

/-- The local direction of a grant that the peer describes from its side. -/
def localDirection : GrantDirection → GrantDirection
  | .inbound => .outbound
  | .outbound => .inbound

/-- The loop of `complete_pairing` over the approved grants. -/
def approveGrants (pending : PendingPairing) (seen : List GrantKey) :
    List CapabilityGrant → Action (List Grant)
  | [] => return []
  | wire :: later => do
    let capability ← Async.ofExcept (match self.platform.parseToken wire.capability with
      | some capability => .ok capability
      | none => .error (.protocol ("unknown granted capability " ++ wire.capability)))
    let direction ← Async.ofExcept (match self.platform.decodeWireDirection wire.direction with
      | some direction => .ok (localDirection direction)
      | none => .error (.protocol "invalid pairing grant direction"))
    Async.refuse (seen.contains (capability, direction))
      (.protocol "invalid or duplicate pairing grant")
    let expected ← Async.ofExcept (match pending.requested.find? (capability, direction) with
      | some requested => .ok requested.2
      | none => .error (.protocol "peer returned an unrequested capability"))
    let constraints ← Async.ofExcept (decodeGrantConstraints wire.constraints)
    Async.refuse (constraints != expected) (.protocol "peer changed pairing grant constraints")
    let grantedAtMs ← ask .now
    let granted ← approveGrants pending ((capability, direction) :: seen) later
    return ⟨pending.session.peer.deviceId, capability, direction, constraints, grantedAtMs⟩ ::
      granted

/-- `NetworkRuntime::complete_pairing`. -/
def completePairing (pending : PendingPairing) : Action PairingOutcome := do
  let bytes ← withTimeout (do
    let frame ← ask (.receive pending.session.conn self.platform.maxControlFrameSize)
    Async.ofExcept frame)
  let response ← Async.ofExcept ((self.platform.decodePairingResponse bytes).mapError .protocol)
  let result ← Async.ofExcept (match response.result with
    | some result => .ok result
    | none => .error (.protocol "pairing result is missing"))
  if !result.paired || result.peerId != pending.session.peer.deviceId.asStr then
    ask (.close pending.session.conn 0 "pairing rejected")
    throw (.protocol (if result.error.isEmpty then "pairing rejected" else result.error))
  else
    let granted ← self.approveGrants pending [] response.grantedGrants
    self.confirmPairingWithGrants pending.session granted
    ask (.close pending.session.conn 0 "pairing completed")
    return ⟨pending.session.peer, granted⟩

/-- `NetworkRuntime::forget`. -/
def forget (id : DeviceId) : Action Bool := do
  let reply ← ask (.forgetPeer id)
  let forgotten ← Async.ofExcept (self.repositoryResult reply)
  let cleared ← ask (.forgetEndpoints id)
  Async.ofExcept cleared
  ask (.forgetAuthenticated id)
  ask (.sweep id)
  return forgotten

/-- `NetworkRuntime::set_peer_auto_connect`. -/
def setPeerAutoConnect (id : DeviceId) (enabled : Bool) : Action Bool := do
  let reply ← ask (.peer id)
  let stored ← Async.ofExcept (self.repositoryResult reply)
  match stored with
  | none => return false
  | some peer =>
    if peer.trustState ≠ .paired then return false
    else
      let now ← ask .now
      let saved ← ask (.savePeer { peer with autoConnect := enabled, updatedAtMs := now })
      Async.ofExcept (self.repositoryResult saved)
      return true

/-- `NetworkRuntime::grant`. -/
def grant (grant : Grant) : Action Unit := do
  Async.ofExcept (validateLocalGrantRequest grant.capability grant.constraints)
  let saved ← ask (.saveGrant grant)
  Async.ofExcept (self.repositoryResult saved)
  if grant.capability = .crossScreenInject then
    ask (.closeInput grant.peerId)
  else
    let _ ← ask (.disconnect grant.peerId "authorization changed")
    return

/-- `NetworkRuntime::revoke`. -/
def revoke (id : DeviceId) (capability : CapabilityId) (direction : GrantDirection) :
    Action Bool := do
  let reply ← ask (.revokeGrant id capability direction)
  let revoked ← Async.ofExcept (self.repositoryResult reply)
  if revoked then
    let _ ← ask (.disconnect id "authorization changed")
    return revoked
  else return revoked

end Runtime

end ArcRelay
