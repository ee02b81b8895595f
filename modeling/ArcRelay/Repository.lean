import ArcRelay.Lib.Table
import ArcRelay.Platform

/-!
# The SQLite peer repository

`SqlitePeerRepository` as a store of peers and grants. The tables hold the raw
column values; every read decodes them and can fail on values this version does
not know. The tables are `STRICT`, so a column has its declared type. Foreign
keys are enforced: a grant belongs to a stored peer, and deleting the peer deletes
its grants. A transaction that fails leaves the database as it was.
-/

namespace ArcRelay

/-- A row of `peers`. -/
structure PeerRow where
  /-- `device_id`, the primary key. -/
  deviceId : String
  publicKey : Bytes
  displayName : String
  platform : String
  model : String
  trustState : Int
  autoConnect : Int
  pairedAtMs : Int
  updatedAtMs : Int
deriving DecidableEq, Repr

/-- A row of `grants`. -/
structure GrantRow where
  /-- `peer_id`, which references `peers`. -/
  peerId : String
  capability : String
  direction : Int
  constraintsJson : String
  grantedAtMs : Int
deriving DecidableEq, Repr

/-- The primary key of `grants`. -/
def GrantRow.key (row : GrantRow) : String × String × Int :=
  (row.peerId, row.capability, row.direction)

/-- The two tables, with every grant belonging to a stored peer. -/
structure Database where
  /-- The table `peers`. -/
  peers : Table PeerRow String PeerRow.deviceId
  /-- The table `grants`. -/
  grants : Table GrantRow (String × String × Int) GrantRow.key
  /-- `REFERENCES peers(device_id)`. -/
  references : ∀ grant ∈ grants.rows, ∃ peer ∈ peers.rows, peer.deviceId = grant.peerId

/-- `encode_trust`. -/
def encodeTrust : TrustState → Int
  | .paired => 1
  | .revoked => 2

/-- `decode_trust`. -/
def decodeTrust (value : Int) : Except RepositoryError TrustState :=
  if value = 1 then .ok .paired
  else if value = 2 then .ok .revoked
  else .error (.backend "unknown trust state")

/-- `encode_direction`. -/
def encodeDirection : GrantDirection → Int
  | .inbound => 1
  | .outbound => 2

/-- `decode_direction`. -/
def decodeDirection (value : Int) : Except RepositoryError GrantDirection :=
  if value = 1 then .ok .inbound
  else if value = 2 then .ok .outbound
  else .error (.backend "unknown grant direction")

/-- The `backend` conversion of a failure of another crate. -/
def backend {α : Type} (result : Except String α) : Except RepositoryError α :=
  result.mapError .backend

section Codec

variable (platform : Platform)

/-- The columns a peer record is written to. -/
def encodePeer (peer : PeerRecord) : PeerRow where
  deviceId := peer.deviceId.asStr
  publicKey := peer.publicKey.asBytes
  displayName := peer.displayName
  platform := peer.platform
  model := peer.model
  trustState := encodeTrust peer.trustState
  autoConnect := if peer.autoConnect then 1 else 0
  pairedAtMs := peer.pairedAtMs
  updatedAtMs := peer.updatedAtMs

/-- `decode_peer`. -/
def decodePeer (row : PeerRow) : Except RepositoryError PeerRecord := do
  let deviceId ← backend (platform.parseDeviceId row.deviceId)
  let publicKey ← backend (platform.publicKeyFromBytes row.publicKey)
  backend (platform.verifyKey deviceId publicKey)
  let trustState ← decodeTrust row.trustState
  return {
    deviceId
    publicKey
    displayName := row.displayName
    platform := row.platform
    model := row.model
    trustState
    autoConnect := row.autoConnect != 0
    pairedAtMs := row.pairedAtMs
    updatedAtMs := row.updatedAtMs }

/-- The columns a grant is written to. -/
def encodeGrant (grant : Grant) : Except RepositoryError GrantRow := do
  let constraintsJson ← backend (platform.constraintsToJson grant.constraints)
  return {
    peerId := grant.peerId.asStr
    capability := platform.token grant.capability
    direction := encodeDirection grant.direction
    constraintsJson
    grantedAtMs := grant.grantedAtMs }

/-- The capability column of `decode_grant`. -/
def decodeCapability (value : String) : Except RepositoryError CapabilityId :=
  match platform.parseToken value with
  | some capability => .ok capability
  | none => .error (.backend ("unknown capability " ++ value))

/-- `decode_grant`. -/
def decodeGrant (row : GrantRow) : Except RepositoryError Grant := do
  let capability ← decodeCapability platform row.capability
  let peerId ← backend (platform.parseDeviceId row.peerId)
  let direction ← decodeDirection row.direction
  let constraints ← backend (platform.constraintsFromJson row.constraintsJson)
  return { peerId, capability, direction, constraints, grantedAtMs := row.grantedAtMs }

end Codec

namespace Database

/-- A fresh database. -/
def empty : Database := ⟨.empty, .empty, by intro grant member; cases member⟩

/-- `INSERT INTO peers … ON CONFLICT(device_id) DO UPDATE`, every column replaced. -/
def upsertPeer (database : Database) (row : PeerRow) : Database where
  peers := database.peers.upsert row
  grants := database.grants
  references := by
    intro grant member
    obtain ⟨peer, stored, same⟩ := database.references grant member
    by_cases here : peer.deviceId = row.deviceId
    · exact ⟨row, by simp, here.symm.trans same⟩
    · exact ⟨peer, by simp [stored, here], same⟩

/-- `DELETE FROM grants` under a condition. -/
def deleteGrants (database : Database) (condition : GrantRow → Bool) : Database where
  peers := database.peers
  grants := database.grants.deleteWhere condition
  references := fun grant member => database.references grant (Table.mem_deleteWhere.mp member).1

/-- `DELETE FROM peers WHERE device_id = ?`, cascading to the grants. -/
def deletePeer (database : Database) (id : String) : Database where
  peers := database.peers.deleteWhere fun row => row.deviceId = id
  grants := database.grants.deleteWhere fun row => row.peerId = id
  references := by
    intro grant member
    obtain ⟨stored, other⟩ := Table.mem_deleteWhere.mp member
    obtain ⟨peer, present, same⟩ := database.references grant stored
    refine ⟨peer, Table.mem_deleteWhere.mpr ⟨present, ?_⟩, same⟩
    simpa [same] using other

/-- `INSERT INTO grants … ON CONFLICT DO UPDATE`, every column but the key replaced. -/
def upsertGrant (database : Database) (row : GrantRow) : Except RepositoryError Database :=
  if stored : ∃ peer ∈ database.peers.rows, peer.deviceId = row.peerId then
    .ok {
      peers := database.peers
      grants := database.grants.upsert row
      references := by
        intro grant member
        rcases Table.mem_upsert.mp member with rfl | ⟨before, -⟩
        · exact stored
        · exact database.references grant before }
  else .error (.backend "FOREIGN KEY constraint failed")

/-- `INSERT INTO grants`, refused when the key is taken. -/
def insertGrant (database : Database) (row : GrantRow) : Except RepositoryError Database :=
  if (database.grants.find? row.key).isSome then .error (.backend "UNIQUE constraint failed")
  else database.upsertGrant row

variable (platform : Platform)

/-- `PeerRepository::peer`. -/
def peer (database : Database) (id : DeviceId) : Except RepositoryError (Option PeerRecord) :=
  match database.peers.find? id.asStr with
  | none => .ok none
  | some row => some <$> decodePeer platform row

/-- `PeerRepository::save_peer`. -/
def savePeer (database : Database) (peer : PeerRecord) : Except RepositoryError Database := do
  backend (platform.verifyKey peer.deviceId peer.publicKey)
  return database.upsertPeer (encodePeer peer)

/-- `PeerRepository::save_pairing` — one transaction that stores the peer as paired and replaces
its grants. -/
def savePairing (database : Database) (peer : PeerRecord) (grants : List Grant) :
    Except RepositoryError Database := do
  backend (platform.verifyKey peer.deviceId peer.publicKey)
  if grants.any fun grant => grant.peerId != peer.deviceId then
    .error (.backend "pairing grant belongs to another peer")
  else
    let stored := database.upsertPeer (encodePeer { peer with trustState := .paired })
    let cleared := stored.deleteGrants fun row => row.peerId = peer.deviceId.asStr
    grants.foldlM (fun database grant => do
      let row ← encodeGrant platform grant
      database.insertGrant row) cleared

/-- `PeerRepository::forget_peer` — whether a row was deleted, and the database without it. -/
def forgetPeer (database : Database) (id : DeviceId) : Bool × Database :=
  ((database.peers.find? id.asStr).isSome, database.deletePeer id.asStr)

/-- The order of `ORDER BY capability, direction`. -/
def grantOrder (left right : GrantRow) : Bool :=
  left.capability < right.capability ||
    (left.capability == right.capability && left.direction ≤ right.direction)

/-- `PeerRepository::grants`. -/
def grantsOf (database : Database) (id : DeviceId) : Except RepositoryError (List Grant) :=
  ((database.grants.select fun row => row.peerId = id.asStr).insertionSort
    (fun left right => grantOrder left right = true)).mapM (decodeGrant platform)

/-- `PeerRepository::save_grant`. -/
def saveGrant (database : Database) (grant : Grant) : Except RepositoryError Database := do
  let row ← encodeGrant platform grant
  database.upsertGrant row

/-- `PeerRepository::revoke_grant` — whether a row was deleted, and the database without it. -/
def revokeGrant (database : Database) (id : DeviceId) (capability : CapabilityId)
    (direction : GrantDirection) : Bool × Database :=
  ((database.grants.find?
      (id.asStr, platform.token capability, encodeDirection direction)).isSome,
    database.deleteGrants fun row =>
      row.key = (id.asStr, platform.token capability, encodeDirection direction))

end Database

end ArcRelay
