import ArcRelay.EndpointHistory
import ArcRelay.Protocol
import ArcRelay.Repository

/-!
# Peers, grants and endpoints in SQLite

`SqlitePeerRepository` with its third table: the endpoints of stored peers. A row
of `peer_endpoints` references its peer and goes with it. Integers are 64 bits
wide; a sum that does not fit becomes a real number, which a `STRICT` integer
column refuses, so the statement fails. A statement that fails changes nothing.
-/

namespace ArcRelay

/-- A row of `peer_endpoints`. -/
structure EndpointRow where
  /-- `peer_id`, which references `peers`. -/
  peerId : String
  address : String
  certificateSha256 : Bytes
  source : Int
  networkScope : String
  firstSeenAtMs : Int
  lastSeenAtMs : Int
  lastSuccessAtMs : Int
  consecutiveFailures : Int
  retryAfterMs : Int
deriving DecidableEq, Repr

/-- The primary key of `peer_endpoints`. -/
def EndpointRow.key (row : EndpointRow) : String × String := (row.peerId, row.address)

/-- `EndpointSource::encode`. -/
def EndpointSource.encode : EndpointSource → Int
  | .mdns => 1
  | .inbound => 2
  | .history => 3
  | .scan => 4
  | .manual => 5
  | .relayed => 6

/-- `EndpointSource::decode`. -/
def EndpointSource.decode (value : Int) : Except NetworkError EndpointSource :=
  if value = 1 then .ok .mdns
  else if value = 2 then .ok .inbound
  else if value = 3 then .ok .history
  else if value = 4 then .ok .scan
  else if value = 5 then .ok .manual
  else if value = 6 then .ok .relayed
  else .error (.repository "unknown remembered endpoint source")

/-- A failure of another crate as a repository error. -/
def networkBackend {α : Type} (result : Except String α) : Except NetworkError α :=
  result.mapError .repository

/-- The certificate column of `decode_endpoint`. -/
def decodeCertificate (bytes : Bytes) : Except NetworkError Digest :=
  match digestOfBytes? bytes with
  | some digest => .ok digest
  | none => .error (.repository "remembered certificate digest length")

/-- `failures.try_into().unwrap_or(u32::MAX)`. -/
def decodeFailures (value : Int) : UInt32 :=
  if 0 ≤ value ∧ value < 2 ^ 32 then .ofNat value.toNat else 0xffffffff

/-- `decode_endpoint`. -/
def decodeEndpoint (platform : Platform) (row : EndpointRow) :
    Except NetworkError RememberedEndpoint := do
  let peerId ← networkBackend (platform.parseDeviceId row.peerId)
  let address ← networkBackend (platform.parseAddress row.address)
  let certificateSha256 ← decodeCertificate row.certificateSha256
  let source ← EndpointSource.decode row.source
  return {
    peerId
    address
    certificateSha256
    source
    networkScope := row.networkScope
    firstSeenAtMs := row.firstSeenAtMs
    lastSeenAtMs := row.lastSeenAtMs
    lastSuccessAtMs := row.lastSuccessAtMs
    consecutiveFailures := decodeFailures row.consecutiveFailures
    retryAfterMs := row.retryAfterMs }

/-- A sum of two integers as a `STRICT` integer column takes it. -/
def sqlSum (column : String) (left right : Int) : Except NetworkError Int :=
  if i64Min ≤ left + right ∧ left + right ≤ i64Max then .ok (left + right)
  else .error (.repository ("cannot store REAL value in INTEGER column peer_endpoints." ++ column))

/-- The three tables, with every grant and every endpoint belonging to a stored peer. -/
structure PeerStore where
  /-- The tables `peers` and `grants`. -/
  database : Database
  /-- The table `peer_endpoints`. -/
  endpoints : Table EndpointRow (String × String) EndpointRow.key
  /-- `REFERENCES peers(device_id)`. -/
  references : ∀ endpoint ∈ endpoints.rows,
    ∃ peer ∈ database.peers.rows, peer.deviceId = endpoint.peerId

namespace PeerStore

/-- A fresh store. -/
def empty : PeerStore := ⟨.empty, .empty, by intro endpoint member; cases member⟩

/-- `ON DELETE CASCADE` of `peer_endpoints`: the endpoints of deleted peers go with them. -/
def cascade (store : PeerStore) (after : Database) : PeerStore where
  database := after
  endpoints := store.endpoints.deleteWhere fun row => (after.peers.find? row.peerId).isNone
  references := by
    intro endpoint member
    obtain ⟨-, stored⟩ := Table.mem_deleteWhere.mp member
    obtain ⟨peer, found⟩ := Option.isSome_iff_exists.mp (by simpa using stored :
      (after.peers.find? endpoint.peerId).isSome = true)
    exact ⟨peer, Table.find?_eq_some.mp found⟩

variable (platform : Platform)

/-- `PeerRepository::peer`. -/
def peer (store : PeerStore) (id : DeviceId) : Except RepositoryError (Option PeerRecord) :=
  store.database.peer platform id

/-- `ORDER BY display_name, device_id`. -/
def peerRowOrder (left right : PeerRow) : Prop :=
  left.displayName < right.displayName ∨
    (left.displayName = right.displayName ∧ left.deviceId ≤ right.deviceId)

instance : DecidableRel peerRowOrder := fun _ _ => inferInstanceAs (Decidable (_ ∨ _))

/-- `PeerRepository::peers`. -/
def peers (store : PeerStore) : Except RepositoryError (List PeerRecord) :=
  (store.database.peers.rows.insertionSort peerRowOrder).mapM (decodePeer platform)

/-- `PeerRepository::grants`. -/
def grants (store : PeerStore) (id : DeviceId) : Except RepositoryError (List Grant) :=
  store.database.grantsOf platform id

/-- `PeerRepository::save_peer`. -/
def savePeer (store : PeerStore) (peer : PeerRecord) : Except RepositoryError PeerStore := do
  let after ← store.database.savePeer platform peer
  return store.cascade after

/-- `PeerRepository::save_pairing`. -/
def savePairing (store : PeerStore) (peer : PeerRecord) (grants : List Grant) :
    Except RepositoryError PeerStore := do
  let after ← store.database.savePairing platform peer grants
  return store.cascade after

/-- `PeerRepository::forget_peer`. -/
def forgetPeer (store : PeerStore) (id : DeviceId) : Bool × PeerStore :=
  let (deleted, after) := store.database.forgetPeer id
  (deleted, store.cascade after)

/-- `PeerRepository::save_grant`. -/
def saveGrant (store : PeerStore) (grant : Grant) : Except RepositoryError PeerStore := do
  let after ← store.database.saveGrant platform grant
  return store.cascade after

/-- `PeerRepository::revoke_grant`. -/
def revokeGrant (store : PeerStore) (id : DeviceId) (capability : CapabilityId)
    (direction : GrantDirection) : Bool × PeerStore :=
  let (deleted, after) := store.database.revokeGrant platform id capability direction
  (deleted, store.cascade after)

/-- The row that `record_authenticated` inserts. -/
def authenticatedRow (peerId : DeviceId) (address : SocketAddr) (certificateSha256 : Digest)
    (source : EndpointSource) (now : Int) : EndpointRow where
  peerId := peerId.asStr
  address := platform.addressText address
  certificateSha256 := certificateSha256.toList
  source := source.encode
  networkScope := networkScope address
  firstSeenAtMs := now
  lastSeenAtMs := now
  lastSuccessAtMs := now
  consecutiveFailures := 0
  retryAfterMs := 0

/-- `ON CONFLICT(peer_id, address) DO UPDATE`: everything but the time it was first seen. -/
def conflictRow (stored : Option EndpointRow) (excluded : EndpointRow) : EndpointRow :=
  match stored with
  | none => excluded
  | some row => { excluded with firstSeenAtMs := row.firstSeenAtMs }

theorem key_conflictRow (stored : Option EndpointRow) (excluded : EndpointRow) :
    (conflictRow stored excluded).key = excluded.key := by
  cases stored <;> rfl

/-- `EndpointRepository::record_authenticated`. -/
def recordAuthenticated (store : PeerStore) (peerId : DeviceId) (address : SocketAddr)
    (certificateSha256 : Digest) (source : EndpointSource) (now : Int) :
    Except NetworkError PeerStore :=
  let excluded := authenticatedRow platform peerId address certificateSha256 source now
  if stored : ∃ peer ∈ store.database.peers.rows, peer.deviceId = peerId.asStr then
    .ok {
      database := store.database
      endpoints := store.endpoints.upsert
        (conflictRow (store.endpoints.find? excluded.key) excluded)
      references := by
        intro endpoint member
        rcases Table.mem_upsert.mp member with rfl | ⟨before, -⟩
        · have peer : (conflictRow (store.endpoints.find? excluded.key) excluded).peerId =
              peerId.asStr := congrArg Prod.fst (key_conflictRow _ excluded)
          rw [peer]
          exact stored
        · exact store.references endpoint before }
  else .error (.repository "FOREIGN KEY constraint failed")

/-- The row that `record_failure` leaves. -/
def failedRow (row : EndpointRow) (now : Int) : Except NetworkError EndpointRow := do
  let failures ← sqlSum "consecutive_failures" row.consecutiveFailures 1
  let retryAfterMs ← sqlSum "retry_after_ms" now (min 300000 (2 ^ (min failures 8).toNat * 1000))
  return { row with consecutiveFailures := failures, retryAfterMs }

theorem key_failedRow {row failed : EndpointRow} {now : Int}
    (updated : failedRow row now = .ok failed) : failed.key = row.key := by
  unfold failedRow at updated
  simp only [bind, Except.bind] at updated
  split at updated
  · cases updated
  · split at updated
    · cases updated
    · cases updated
      rfl

/-- Replace a row by one with the same key. -/
def replaceEndpoint (store : PeerStore) (row : EndpointRow)
    (known : ∃ stored ∈ store.endpoints.rows, stored.key = row.key) : PeerStore where
  database := store.database
  endpoints := store.endpoints.upsert row
  references := by
    intro endpoint member
    rcases Table.mem_upsert.mp member with rfl | ⟨before, -⟩
    · obtain ⟨stored, present, same⟩ := known
      have peer : stored.peerId = endpoint.peerId := congrArg Prod.fst same
      rw [← peer]
      exact store.references stored present
    · exact store.references endpoint before

/-- `EndpointRepository::record_failure`. -/
def recordFailure (store : PeerStore) (peerId : DeviceId) (address : SocketAddr) (now : Int) :
    Except NetworkError PeerStore :=
  match found : store.endpoints.find? (peerId.asStr, platform.addressText address) with
  | none => .ok store
  | some row =>
    match updated : failedRow row now with
    | .error error => .error error
    | .ok failed => .ok (store.replaceEndpoint failed
        ⟨row, (Table.find?_eq_some.mp found).1, (key_failedRow updated).symm⟩)

/-- `EndpointRepository::forget`. -/
def forgetEndpoints (store : PeerStore) (peerId : DeviceId) : PeerStore where
  database := store.database
  endpoints := store.endpoints.deleteWhere fun row => row.peerId = peerId.asStr
  references := fun endpoint member =>
    store.references endpoint (Table.mem_deleteWhere.mp member).1

/-- `MAX_AGE_MS`. -/
def maxAgeMs : Int := 90 * 24 * 60 * 60 * 1000

/-- `ORDER BY last_success_at_ms DESC, last_seen_at_ms DESC`. -/
def endpointOrder (left right : EndpointRow) : Prop :=
  right.lastSuccessAtMs < left.lastSuccessAtMs ∨
    (right.lastSuccessAtMs = left.lastSuccessAtMs ∧ right.lastSeenAtMs ≤ left.lastSeenAtMs)

instance : DecidableRel endpointOrder := fun _ _ => inferInstanceAs (Decidable (_ ∨ _))

/-- `EndpointRepository::endpoints`. -/
def endpointsOf (store : PeerStore) (peerId : DeviceId) (now : Int) :
    Except NetworkError (List RememberedEndpoint) :=
  (((store.endpoints.select fun row => row.peerId = peerId.asStr && row.retryAfterMs ≤ now &&
      saturate (now - maxAgeMs) ≤ row.lastSuccessAtMs).insertionSort endpointOrder).take 16).mapM
    (decodeEndpoint platform)

/-- One call on the repository in SQLite. -/
def record (store : PeerStore) (timed : Timed) : Except NetworkError PeerStore :=
  match timed.call with
  | .recordAuthenticated peerId address certificateSha256 source =>
    store.recordAuthenticated platform peerId address certificateSha256 source timed.time
  | .recordFailure peerId address => store.recordFailure platform peerId address timed.time
  | .forget peerId => .ok (store.forgetEndpoints peerId)

/-- The store after a call, which a failed call leaves as it was. -/
def perform (store : PeerStore) (timed : Timed) : PeerStore :=
  match store.record platform timed with
  | .ok after => after
  | .error _ => store

end PeerStore

/-- The calls that change the store. -/
inductive StoreCall where
  | savePeer (peer : PeerRecord)
  | savePairing (peer : PeerRecord) (grants : List Grant)
  | saveGrant (grant : Grant)
  | revokeGrant (id : DeviceId) (capability : CapabilityId) (direction : GrantDirection)
  | forgetPeer (id : DeviceId)
  /-- A call on the endpoints, at the time it reads. -/
  | endpoint (timed : Timed)

/-- What a call returns when it succeeds. -/
inductive StoreReply where
  /-- `()`. -/
  | done
  | deleted (existed : Bool)
deriving DecidableEq, Repr

namespace PeerStore

variable (platform : Platform)

/-- A call on the store. -/
def invoke (store : PeerStore) :
    StoreCall → Except (RepositoryError ⊕ NetworkError) (StoreReply × PeerStore)
  | .savePeer peer => ((store.savePeer platform peer).mapError .inl).map (.done, ·)
  | .savePairing peer grants =>
    ((store.savePairing platform peer grants).mapError .inl).map (.done, ·)
  | .saveGrant grant => ((store.saveGrant platform grant).mapError .inl).map (.done, ·)
  | .revokeGrant id capability direction =>
    let (existed, after) := store.revokeGrant platform id capability direction
    .ok (.deleted existed, after)
  | .forgetPeer id =>
    let (existed, after) := store.forgetPeer id
    .ok (.deleted existed, after)
  | .endpoint timed => ((store.record platform timed).mapError .inr).map (.done, ·)

/-- The store after a call, which a failed call leaves as it was. -/
def next (store : PeerStore) (call : StoreCall) : PeerStore :=
  match store.invoke platform call with
  | .ok (_, after) => after
  | .error _ => store

end PeerStore

end ArcRelay
