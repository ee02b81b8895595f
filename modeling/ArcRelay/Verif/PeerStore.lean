import ArcRelay.Lib.Mapping
import ArcRelay.Lib.Run
import ArcRelay.PeerStore
import ArcRelay.Verif.Repository

/-!
# The SQLite repository refines its contents

What the repository is for, without tables and columns: a map of peers, a map of
grants and a map of endpoints, and for every call when it succeeds, what it
returns and what it changes. The tables store these maps, every call on the
tables is the call on the maps, and the readers return what the maps contain.
-/

namespace ArcRelay

/-! ## Contents -/

/-- An endpoint as the repository knows it. -/
structure StoredEndpoint where
  peerId : DeviceId
  address : String
  certificateSha256 : Digest
  source : EndpointSource
  networkScope : String
  firstSeenAtMs : Int
  lastSeenAtMs : Int
  lastSuccessAtMs : Int
  consecutiveFailures : Int
  retryAfterMs : Int

/-- The contents of the repository. -/
structure Contents where
  peers : DeviceId → Option PeerRecord
  grants : DeviceId × GrantKey → Option Grant
  endpoints : DeviceId × String → Option StoredEndpoint

/-- The endpoint after a failure, unless a number gets too large for its column. -/
def StoredEndpoint.failed? (endpoint : StoredEndpoint) (now : Int) : Option StoredEndpoint :=
  let failures := endpoint.consecutiveFailures + 1
  let retryAfterMs := now + min 300000 (2 ^ (min failures 8).toNat * 1000)
  if (i64Min ≤ failures ∧ failures ≤ i64Max) ∧ (i64Min ≤ retryAfterMs ∧ retryAfterMs ≤ i64Max) then
    some { endpoint with consecutiveFailures := failures, retryAfterMs }
  else none

namespace Contents

/-- Nothing. -/
def empty : Contents := ⟨fun _ => none, fun _ => none, fun _ => none⟩

variable (platform : Platform)

/-- A peer may be saved when its id is bound to its key. -/
def Savable (peer : PeerRecord) : Prop :=
  platform.verifyKey peer.deviceId peer.publicKey = .ok ()

instance (peer : PeerRecord) : Decidable (Savable platform peer) :=
  inferInstanceAs (Decidable (_ = _))

/-- The constraints of a grant have a JSON text. -/
def Serializable (grant : Grant) : Prop :=
  (platform.constraintsToJson grant.constraints).isOk = true

instance (grant : Grant) : Decidable (Serializable platform grant) :=
  inferInstanceAs (Decidable (_ = _))

/-- Grants may be saved with a peer when they are that peer's, one for each key, and can be
written. -/
def Complete (peer : PeerRecord) (grants : List Grant) : Prop :=
  (∀ grant ∈ grants, grant.peerId = peer.deviceId) ∧ (grants.map Grant.key).Nodup ∧
    ∀ grant ∈ grants, Serializable platform grant

instance (peer : PeerRecord) (grants : List Grant) : Decidable (Complete platform peer grants) :=
  inferInstanceAs (Decidable (_ ∧ _ ∧ _))

/-- A peer replaces the one with its id. -/
def withPeer (contents : Contents) (peer : PeerRecord) : Contents :=
  { contents with peers := Function.update contents.peers peer.deviceId (some peer) }

/-- A list of grants replaces the ones of a peer. -/
def withGrants (contents : Contents) (id : DeviceId) (grants : List Grant) : Contents :=
  { contents with
    grants := fun name =>
      if name.1 = id then grants.find? fun grant => grant.key = name.2 else contents.grants name }

/-- A peer is removed with its grants and its endpoints. -/
def without (contents : Contents) (id : DeviceId) : Contents where
  peers := Function.update contents.peers id none
  grants := fun name => if name.1 = id then none else contents.grants name
  endpoints := fun name => if name.1 = id then none else contents.endpoints name

/-- An endpoint replaces the one with its peer and address. -/
def withEndpoint (contents : Contents) (endpoint : StoredEndpoint) : Contents :=
  { contents with
    endpoints := Function.update contents.endpoints (endpoint.peerId, endpoint.address)
      (some endpoint) }

/-- The endpoint that an authenticated session leaves: the time it was first seen stays. -/
def authenticated (contents : Contents) (peerId : DeviceId) (address : SocketAddr)
    (certificateSha256 : Digest) (source : EndpointSource) (now : Int) : StoredEndpoint where
  peerId
  address := platform.addressText address
  certificateSha256
  source
  networkScope := networkScope address
  firstSeenAtMs := match contents.endpoints (peerId, platform.addressText address) with
    | some endpoint => endpoint.firstSeenAtMs
    | none => now
  lastSeenAtMs := now
  lastSuccessAtMs := now
  consecutiveFailures := 0
  retryAfterMs := 0

/-- A call on the endpoints, if it succeeds. -/
def record (contents : Contents) (timed : Timed) : Option Contents :=
  match timed.call with
  | .recordAuthenticated peerId address certificateSha256 source =>
    if (contents.peers peerId).isSome then
      some (contents.withEndpoint
        (contents.authenticated platform peerId address certificateSha256 source timed.time))
    else none
  | .recordFailure peerId address =>
    match contents.endpoints (peerId, platform.addressText address) with
    | none => some contents
    | some endpoint => (endpoint.failed? timed.time).map contents.withEndpoint
  | .forget peerId => some { contents with
      endpoints := fun name => if name.1 = peerId then none else contents.endpoints name }

/-- Saving a peer, if it succeeds. -/
def savePeer (contents : Contents) (peer : PeerRecord) : Option Contents :=
  if Savable platform peer then some (contents.withPeer peer) else none

/-- Saving a paired peer with its grants, if it succeeds. -/
def savePairing (contents : Contents) (peer : PeerRecord) (grants : List Grant) :
    Option Contents :=
  if Savable platform peer ∧ Complete platform peer grants then
    some ((contents.withPeer { peer with trustState := .paired }).withGrants peer.deviceId grants)
  else none

/-- Saving a grant, if it succeeds. -/
def saveGrant (contents : Contents) (grant : Grant) : Option Contents :=
  if (contents.peers grant.peerId).isSome ∧ Serializable platform grant then
    some { contents with
      grants := Function.update contents.grants (grant.peerId, grant.key) (some grant) }
  else none

/-- A call, if it succeeds: what it returns and the contents it leaves. -/
def invoke (contents : Contents) : StoreCall → Option (StoreReply × Contents)
  | .savePeer peer => (contents.savePeer platform peer).map (.done, ·)
  | .savePairing peer grants => (contents.savePairing platform peer grants).map (.done, ·)
  | .saveGrant grant => (contents.saveGrant platform grant).map (.done, ·)
  | .revokeGrant id capability direction =>
    some (.deleted (contents.grants (id, capability, direction)).isSome, { contents with
      grants := Function.update contents.grants (id, capability, direction) none })
  | .forgetPeer id => some (.deleted (contents.peers id).isSome, contents.without id)
  | .endpoint timed => (contents.record platform timed).map (.done, ·)

/-- The contents after a call, which a failed call leaves as they were. -/
def next (contents : Contents) (call : StoreCall) : Contents :=
  match contents.invoke platform call with
  | some (_, after) => after
  | none => contents

end Contents

/-! ## How the tables store the contents -/

/-- The row of an endpoint. -/
def StoredEndpoint.row (endpoint : StoredEndpoint) : EndpointRow where
  peerId := endpoint.peerId.asStr
  address := endpoint.address
  certificateSha256 := endpoint.certificateSha256.toList
  source := endpoint.source.encode
  networkScope := endpoint.networkScope
  firstSeenAtMs := endpoint.firstSeenAtMs
  lastSeenAtMs := endpoint.lastSeenAtMs
  lastSuccessAtMs := endpoint.lastSuccessAtMs
  consecutiveFailures := endpoint.consecutiveFailures
  retryAfterMs := endpoint.retryAfterMs

/-- The id and the key of a record survive being stored. -/
structure PeerRecord.Readable (platform : Platform) (peer : PeerRecord) : Prop where
  parsed : platform.parseDeviceId peer.deviceId.asStr = .ok peer.deviceId
  key : platform.publicKeyFromBytes peer.publicKey.asBytes = .ok peer.publicKey

theorem encodeDirection_injective : Function.Injective encodeDirection := by
  intro first second same
  have decoded := decodeDirection_encode first
  rw [same, decodeDirection_encode] at decoded
  exact (Except.ok.inj decoded).symm

theorem Platform.token_injective (platform : Platform) : Function.Injective platform.token := by
  intro first second same
  have parsed := platform.parseToken_token first
  rw [same, platform.parseToken_token] at parsed
  exact (Option.some.inj parsed).symm

section Codings

variable (platform : Platform)

/-- Peers are written under their ids, bound to their keys. -/
def peerCoding : Table.Coding PeerRow.deviceId PeerRecord DeviceId where
  name := PeerRecord.deviceId
  written peer row := row = encodePeer peer ∧ peer.Readable platform ∧
    Contents.Savable platform peer
  columns := DeviceId.asStr
  columns_injective := DeviceId.asStr_injective
  key_of_written := by
    rintro peer row ⟨rfl, -⟩
    rfl

/-- Grants are written under their peer and key. -/
def grantCoding : Table.Coding GrantRow.key Grant (DeviceId × GrantKey) where
  name grant := (grant.peerId, grant.key)
  written grant row := encodeGrant platform grant = .ok row ∧
    platform.parseDeviceId grant.peerId.asStr = .ok grant.peerId
  columns name := (name.1.asStr, platform.token name.2.1, encodeDirection name.2.2)
  columns_injective := by
    rintro ⟨peer, capability, direction⟩ ⟨peer', capability', direction'⟩ same
    obtain ⟨peers, keys⟩ := Prod.mk.inj same
    obtain ⟨tokens, directions⟩ := Prod.mk.inj keys
    exact Prod.ext (DeviceId.asStr_injective peers) (Prod.ext (platform.token_injective tokens)
      (encodeDirection_injective directions))
  key_of_written := fun _ _ written => key_encodeGrant written.1

/-- Endpoints are written under their peer and address. -/
def endpointCoding : Table.Coding EndpointRow.key StoredEndpoint (DeviceId × String) where
  name endpoint := (endpoint.peerId, endpoint.address)
  written endpoint row := row = endpoint.row
  columns name := (name.1.asStr, name.2)
  columns_injective := by
    rintro ⟨peer, address⟩ ⟨peer', address'⟩ same
    obtain ⟨peers, addresses⟩ := Prod.mk.inj same
    exact Prod.ext (DeviceId.asStr_injective peers) addresses
  key_of_written := by
    rintro endpoint row rfl
    rfl

/-- The tables store the contents. -/
structure Represents (store : PeerStore) (contents : Contents) : Prop where
  peers : (store.database.peers).Stores (peerCoding platform) contents.peers
  grants : (store.database.grants).Stores (grantCoding platform) contents.grants
  endpoints : (store.endpoints).Stores endpointCoding contents.endpoints

/-- A call on the tables, with a reply or without, went as a call on the contents. -/
inductive Simulates {Failure Reply : Type} : Except Failure (Reply × PeerStore) →
    Option (Reply × Contents) → Prop where
  | refused (error : Failure) : Simulates (.error error) none
  /-- Both succeed, return the same and leave the tables in line with the contents. -/
  | done (reply : Reply) {after : PeerStore} {contents : Contents}
    (represents : Represents platform after contents) :
    Simulates (.ok (reply, after)) (some (reply, contents))

/-- The arguments of a call are ones that can be read back. -/
def StoreCall.Readable : StoreCall → Prop
  | .savePeer peer => peer.Readable platform
  | .savePairing peer _ => peer.Readable platform
  | .saveGrant grant => platform.parseDeviceId grant.peerId.asStr = .ok grant.peerId
  | .revokeGrant _ _ _ | .forgetPeer _ | .endpoint _ => True

end Codings

section Steps

variable {platform : Platform} {store : PeerStore} {contents : Contents}

theorem Represents.exists_peer (represents : Represents platform store contents) (id : DeviceId) :
    (∃ row ∈ store.database.peers.rows, row.deviceId = id.asStr) ↔
      (contents.peers id).isSome = true := by
  have found : (store.database.peers.find? id.asStr).isSome = (contents.peers id).isSome :=
    represents.peers.isSome_find? id
  rw [← found, Option.isSome_iff_exists]
  simp only [Table.find?_eq_some]

theorem endpoints_cascade {after : Database}
    (kept : ∀ row ∈ store.database.peers.rows, ∃ other ∈ after.peers.rows,
      other.deviceId = row.deviceId) :
    (store.cascade after).endpoints = store.endpoints := by
  refine Table.deleteWhere_eq_self fun row member => ?_
  obtain ⟨peer, stored, same⟩ := store.references row member
  obtain ⟨other, present, same'⟩ := kept peer stored
  have found := Table.find?_eq_some.mpr ⟨present, same'.trans same⟩
  simp [found]

variable {database : Database}

theorem kept_upsert (row : PeerRow) :
    ∀ stored ∈ database.peers.rows, ∃ other ∈ (database.peers.upsert row).rows,
      other.deviceId = stored.deviceId := by
  intro stored member
  by_cases same : stored.deviceId = row.deviceId
  · exact ⟨row, Table.mem_upsert.mpr (Or.inl rfl), same.symm⟩
  · exact ⟨stored, Table.mem_upsert.mpr (Or.inr ⟨member, same⟩), rfl⟩

/-- What a write leaves. -/
def Writes (platform : Platform) {Failure : Type} (result : Except Failure PeerStore)
    (contents : Option Contents) : Prop :=
  match contents with
  | none => ∃ error, result = .error error
  | some contents => ∃ after, result = .ok after ∧ Represents platform after contents

theorem Writes.simulates {Failure Failure' : Type} {result : Except Failure PeerStore}
    {spec : Option Contents} (writes : Writes platform result spec) (rename : Failure → Failure') :
    Simulates platform ((result.mapError rename).map (StoreReply.done, ·))
      (spec.map (StoreReply.done, ·)) := by
  cases spec with
  | none =>
    obtain ⟨error, rfl⟩ := writes
    exact .refused _
  | some contents =>
    obtain ⟨after, rfl, represents⟩ := writes
    exact .done _ represents

variable {peer : PeerRecord}

/-- `save_peer`. -/
theorem Represents.savePeer (represents : Represents platform store contents)
    (readable : peer.Readable platform) :
    Writes platform (store.savePeer platform peer) (contents.savePeer platform peer) := by
  unfold Contents.savePeer
  split
  · rename_i savable
    refine ⟨store.cascade (store.database.upsertPeer (encodePeer peer)), ?_, ?_, represents.grants,
      ?_⟩
    · have bound : platform.verifyKey peer.deviceId peer.publicKey = .ok () := savable
      simp only [PeerStore.savePeer, Database.savePeer, backend, bound]
      rfl
    · exact represents.peers.upsert ⟨rfl, readable, savable⟩
    · rw [endpoints_cascade (kept_upsert _)]
      exact represents.endpoints
  · rename_i unbound
    cases checked : platform.verifyKey peer.deviceId peer.publicKey with
    | ok value => exact absurd checked unbound
    | error reason =>
      refine ⟨.backend reason, ?_⟩
      simp only [PeerStore.savePeer, Database.savePeer, backend, checked]
      rfl

variable {grant : Grant}

/-- A grant can be written exactly when its constraints have a text. -/
theorem serializable_iff :
    Contents.Serializable platform grant ↔ ∃ row, encodeGrant platform grant = .ok row := by
  unfold Contents.Serializable encodeGrant backend
  cases platform.constraintsToJson grant.constraints with
  | error reason => simp [Except.isOk, Except.toBool, Except.mapError, bind, Except.bind]
  | ok text => simp [Except.isOk, Except.toBool, Except.mapError, bind, Except.bind, pure,
      Except.pure]

theorem encodeGrant_error (unwritable : ¬ Contents.Serializable platform grant) :
    ∃ error, encodeGrant platform grant = .error error := by
  cases encoded : encodeGrant platform grant with
  | error error => exact ⟨error, rfl⟩
  | ok row => exact absurd (serializable_iff.mpr ⟨row, encoded⟩) unwritable

theorem upsertGrant_stored {row : GrantRow}
    (stored : ∃ peer ∈ database.peers.rows, peer.deviceId = row.peerId) :
    ∃ after, database.upsertGrant row = .ok after ∧ after.peers = database.peers ∧
      after.grants = database.grants.upsert row := by
  rw [Database.upsertGrant, dif_pos stored]
  exact ⟨_, rfl, rfl, rfl⟩

/-- `save_grant`. -/
theorem Represents.saveGrant (represents : Represents platform store contents)
    (parsed : platform.parseDeviceId grant.peerId.asStr = .ok grant.peerId) :
    Writes platform (store.saveGrant platform grant) (contents.saveGrant platform grant) := by
  unfold Contents.saveGrant
  by_cases written : Contents.Serializable platform grant
  · obtain ⟨row, encoded⟩ := serializable_iff.mp written
    have peer : row.peerId = grant.peerId.asStr := congrArg Prod.fst (key_encodeGrant encoded)
    have stored := represents.exists_peer grant.peerId
    rw [← peer] at stored
    split
    · rename_i condition
      obtain ⟨after, upserted, peers, grants⟩ := upsertGrant_stored (stored.mpr condition.1)
      refine ⟨store.cascade after, ?_, ?_, ?_, ?_⟩
      · simp only [PeerStore.saveGrant, Database.saveGrant, encoded, bind, Except.bind, upserted,
          pure, Except.pure]
      · exact peers ▸ represents.peers
      · have upsert := represents.grants.upsert ⟨encoded, parsed⟩
        exact grants ▸ upsert
      · rw [endpoints_cascade fun row member => ⟨row, by rwa [peers], rfl⟩]
        exact represents.endpoints
    · rename_i condition
      have missing : ¬ ∃ peer ∈ store.database.peers.rows, peer.deviceId = row.peerId :=
        fun found => condition ⟨stored.mp found, written⟩
      refine ⟨.backend "FOREIGN KEY constraint failed", ?_⟩
      simp only [PeerStore.saveGrant, Database.saveGrant, encoded, bind, Except.bind,
        Database.upsertGrant, dif_neg missing]
  · rw [if_neg fun condition => written condition.2]
    obtain ⟨error, refused⟩ := encodeGrant_error written
    refine ⟨error, ?_⟩
    simp only [PeerStore.saveGrant, Database.saveGrant, refused, bind, Except.bind]

/-- Grants can be inserted one after the other: each has a text and a free key. -/
def Insertable (platform : Platform) (map : DeviceId × GrantKey → Option Grant)
    (grants : List Grant) : Prop :=
  (∀ grant ∈ grants, Contents.Serializable platform grant) ∧
    (grants.map (grantCoding platform).name).Nodup ∧
    ∀ grant ∈ grants, map ((grantCoding platform).name grant) = none

/-- The map after the insertions. -/
def inserted (platform : Platform) (map : DeviceId × GrantKey → Option Grant)
    (grants : List Grant) : DeviceId × GrantKey → Option Grant := fun name =>
  (grants.find? fun grant => (grantCoding platform).name grant = name).or (map name)

variable {grants : List Grant} {map : DeviceId × GrantKey → Option Grant}

/-- The first grant is inserted, then the others. -/
theorem insertable_cons : Insertable platform map (grant :: grants) ↔
      Contents.Serializable platform grant ∧ map ((grantCoding platform).name grant) = none ∧
        Insertable platform
          (Function.update map ((grantCoding platform).name grant) (some grant)) grants := by
  have free : ∀ other, Function.update map ((grantCoding platform).name grant) (some grant)
      ((grantCoding platform).name other) = none ↔
        (grantCoding platform).name other ≠ (grantCoding platform).name grant ∧
          map ((grantCoding platform).name other) = none := by
    intro other
    by_cases same : (grantCoding platform).name other = (grantCoding platform).name grant
    · simp [same]
    · simp [same]
  simp only [Insertable, List.forall_mem_cons, List.map_cons, List.nodup_cons, List.mem_map,
    not_exists, not_and, free]
  constructor
  · rintro ⟨⟨written, others⟩, ⟨fresh, distinct⟩, here, later⟩
    exact ⟨written, here, others, distinct, fun other member => ⟨fresh other member,
      later other member⟩⟩
  · rintro ⟨written, here, others, distinct, later⟩
    exact ⟨⟨written, others⟩, ⟨fun other member => (later other member).1, distinct⟩, here,
      fun other member => (later other member).2⟩

/-- The map after all insertions is the one after the first and then the others. -/
theorem inserted_cons (insertable : Insertable platform map (grant :: grants)) :
    inserted platform map (grant :: grants) = inserted platform
      (Function.update map ((grantCoding platform).name grant) (some grant)) grants := by
  funext name
  by_cases here : (grantCoding platform).name grant = name
  · subst here
    have fresh : (grants.find? fun other =>
        (grantCoding platform).name other = (grantCoding platform).name grant) = none := by
      refine List.find?_eq_none.mpr fun other member same => ?_
      have distinct := (List.nodup_cons.mp insertable.2.1).1
      exact distinct (List.mem_map.mpr ⟨other, member, by simpa using same⟩)
    simp [inserted, fresh]
  · simp [inserted, here, Function.update_of_ne (Ne.symm here)]

/-- The insertions of `save_pairing`. -/
theorem insertGrants_stored (stores : database.grants.Stores (grantCoding platform) map)
    (owned : ∀ grant ∈ grants, (∃ peer ∈ database.peers.rows,
      peer.deviceId = grant.peerId.asStr) ∧
        platform.parseDeviceId grant.peerId.asStr = .ok grant.peerId) :
    (Insertable platform map grants → ∃ after, grants.foldlM (fun database grant => do
        let row ← encodeGrant platform grant
        database.insertGrant row) database = .ok after ∧ after.peers = database.peers ∧
      after.grants.Stores (grantCoding platform) (inserted platform map grants)) ∧
    (¬ Insertable platform map grants → ∃ error, grants.foldlM (fun database grant => do
        let row ← encodeGrant platform grant
        database.insertGrant row) database = .error error) := by
  induction grants generalizing database map with
  | nil =>
    refine ⟨fun _ => ⟨database, rfl, rfl, ?_⟩, fun refused => absurd ?_ refused⟩
    · have nothing : inserted platform map [] = map := funext fun name => by simp [inserted]
      rwa [nothing]
    · simp [Insertable]
  | cons grant grants ih =>
    obtain ⟨⟨stored, parsed⟩, others⟩ := List.forall_mem_cons.mp owned
    rw [List.foldlM_cons]
    by_cases written : Contents.Serializable platform grant
    · obtain ⟨row, encoded⟩ := serializable_iff.mp written
      have key : row.key = (grantCoding platform).columns ((grantCoding platform).name grant) :=
        key_encodeGrant encoded
      have peer : row.peerId = grant.peerId.asStr := congrArg Prod.fst key
      have taken := stores.isSome_find? ((grantCoding platform).name grant)
      rw [← key] at taken
      cases free : map ((grantCoding platform).name grant) with
      | some other =>
        -- the key is taken
        rw [free] at taken
        constructor
        · intro insertable
          rw [(insertable_cons.mp insertable).2.1] at free
          cases free
        · intro _
          refine ⟨.backend "UNIQUE constraint failed", ?_⟩
          simp only [encoded, bind, Except.bind, Database.insertGrant, taken, Option.isSome_some,
            ↓reduceIte]
      | none =>
        rw [free] at taken
        obtain ⟨between, upserted, peers, upsert⟩ := upsertGrant_stored (peer ▸ stored)
        have first : (do
            let row ← encodeGrant platform grant
            database.insertGrant row) = .ok between := by
          simp only [encoded, bind, Except.bind, Database.insertGrant, taken, Option.isSome_none,
            Bool.false_eq_true, ↓reduceIte, upserted]
        have stores' := stores.upsert ⟨encoded, parsed⟩
        rw [← upsert] at stores'
        obtain ⟨succeeds, fails⟩ := ih stores' (by rw [peers]; exact others)
        rw [first]
        constructor
        · intro insertable
          obtain ⟨after, folded, peers', grants'⟩ := succeeds (insertable_cons.mp insertable).2.2
          exact ⟨after, folded, peers'.trans peers, inserted_cons insertable ▸ grants'⟩
        · intro refused
          exact fails fun insertable => refused (insertable_cons.mpr ⟨written, free, insertable⟩)
    · obtain ⟨error, refused⟩ := encodeGrant_error written
      constructor
      · intro insertable
        exact absurd (insertable_cons.mp insertable).1 written
      · intro _
        refine ⟨error, ?_⟩
        simp only [refused, bind, Except.bind]

/-- Grants of one peer can be inserted after its grants were deleted exactly when they are
complete. -/
theorem insertable_iff (own : ∀ grant ∈ grants, grant.peerId = peer.deviceId) :
    Insertable platform (fun name => if name.1 = peer.deviceId then none else map name) grants ↔
      Contents.Complete platform peer grants := by
  have names : grants.map (grantCoding platform).name =
      (grants.map Grant.key).map fun key => (peer.deviceId, key) := by
    rw [List.map_map]
    exact List.map_congr_left fun grant member => Prod.ext (own grant member) rfl
  have free : ∀ grant ∈ grants, (if ((grantCoding platform).name grant).1 = peer.deviceId then none
      else map ((grantCoding platform).name grant)) = none := fun grant member =>
    if_pos (own grant member)
  have distinct : ((grants.map Grant.key).map fun key => (peer.deviceId, key)).Nodup ↔
      (grants.map Grant.key).Nodup :=
    List.nodup_map_iff fun _ _ same => (Prod.mk.inj same).2
  unfold Insertable Contents.Complete
  rw [names, distinct]
  exact ⟨fun insertable => ⟨own, insertable.2.1, insertable.1⟩,
    fun complete => ⟨complete.2.2, complete.2.1, free⟩⟩

/-- The grants of a peer after they were deleted and inserted again. -/
theorem inserted_eq_withGrants (own : ∀ grant ∈ grants, grant.peerId = peer.deviceId) :
    inserted platform (fun name => if name.1 = peer.deviceId then none else contents.grants name)
      grants = (contents.withGrants peer.deviceId grants).grants := by
  funext name
  unfold inserted Contents.withGrants
  dsimp only
  split
  · rename_i here
    rw [Option.or_none]
    refine List.find?_congr fun grant member => ?_
    simp [grantCoding, Prod.ext_iff, own grant member, here]
  · rename_i elsewhere
    have foreign : (grants.find? fun grant => (grantCoding platform).name grant = name) = none := by
      refine List.find?_eq_none.mpr fun grant member same => elsewhere ?_
      have named : (grantCoding platform).name grant = name := by simpa using same
      rw [← named]
      exact own grant member
    rw [foreign, Option.none_or]

/-- The tables of `save_pairing` before the grants are inserted. -/
def clearedFor (database : Database) (peer : PeerRecord) : Database :=
  (database.upsertPeer (encodePeer { peer with trustState := .paired })).deleteGrants
    fun row => row.peerId = peer.deviceId.asStr

/-- For a bound peer and its own grants, `save_pairing` inserts the grants. -/
theorem savePairing_eq_insertions (savable : Contents.Savable platform peer)
    (own : ∀ grant ∈ grants, grant.peerId = peer.deviceId) :
    database.savePairing platform peer grants = grants.foldlM (fun database grant => do
      let row ← encodeGrant platform grant
      database.insertGrant row) (clearedFor database peer) := by
  have bound : backend (platform.verifyKey peer.deviceId peer.publicKey) = .ok () :=
    backend_eq_ok.mpr savable
  have single : (grants.any fun grant => grant.peerId != peer.deviceId) = false := by
    simpa using own
  rw [Database.savePairing, bound, single]
  rfl

/-- Without one of these `save_pairing` fails. -/
theorem savePairing_error
    (refused : ¬ (Contents.Savable platform peer ∧
      ∀ grant ∈ grants, grant.peerId = peer.deviceId)) :
    ∃ error, database.savePairing platform peer grants = .error error := by
  cases saved : database.savePairing platform peer grants with
  | error error => exact ⟨error, rfl⟩
  | ok after =>
    obtain ⟨bound, own, -⟩ := Database.savePairing_eq_ok saved
    exact absurd ⟨bound, own⟩ refused

/-- `save_pairing`. -/
theorem Represents.savePairing (represents : Represents platform store contents)
    (grants : List Grant) (readable : peer.Readable platform) :
    Writes platform (store.savePairing platform peer grants)
      (contents.savePairing platform peer grants) := by
  unfold Contents.savePairing
  by_cases proper : Contents.Savable platform peer ∧ ∀ grant ∈ grants, grant.peerId = peer.deviceId
  · obtain ⟨savable, own⟩ := proper
    have cleared : (clearedFor store.database peer).grants.Stores (grantCoding platform)
        fun name => if name.1 = peer.deviceId then none else contents.grants name := by
      refine represents.grants.deleteWhere fun grant row _ written => ?_
      have owner : row.peerId = grant.peerId.asStr := congrArg Prod.fst (key_encodeGrant written.1)
      rw [decide_eq_true_eq, owner]
      exact DeviceId.asStr_injective.eq_iff
    have owned : ∀ grant ∈ grants, (∃ row ∈ (clearedFor store.database peer).peers.rows,
        row.deviceId = grant.peerId.asStr) ∧
          platform.parseDeviceId grant.peerId.asStr = .ok grant.peerId := by
      intro grant member
      rw [own grant member]
      exact ⟨⟨_, Table.mem_upsert.mpr (Or.inl rfl), rfl⟩, readable.parsed⟩
    obtain ⟨succeeds, fails⟩ := insertGrants_stored cleared owned
    rw [insertable_iff own, ← savePairing_eq_insertions savable own] at succeeds fails
    split
    · rename_i condition
      obtain ⟨after, saved, peers, stored⟩ := succeeds condition.2
      refine ⟨store.cascade after, ?_, ?_, ?_, ?_⟩
      · rw [PeerStore.savePairing, saved]
        rfl
      · have paired : (peerCoding platform).written { peer with trustState := .paired }
            (encodePeer { peer with trustState := .paired }) :=
          ⟨rfl, ⟨readable.parsed, readable.key⟩, savable⟩
        have upsert := represents.peers.upsert paired
        exact peers ▸ upsert
      · rw [inserted_eq_withGrants own] at stored
        exact stored
      · rw [endpoints_cascade (peers ▸ kept_upsert _)]
        exact represents.endpoints
    · rename_i condition
      obtain ⟨error, refused⟩ := fails fun complete => condition ⟨savable, complete⟩
      refine ⟨error, ?_⟩
      rw [PeerStore.savePairing, refused]
      rfl
  · rw [if_neg fun condition => proper ⟨condition.1, condition.2.1⟩]
    obtain ⟨error, refused⟩ := savePairing_error proper
    refine ⟨error, ?_⟩
    rw [PeerStore.savePairing, refused]
    rfl

theorem update_none {Name Value : Type} [DecidableEq Name] (map : Name → Option Value)
    (dropped : Name) :
    Function.update map dropped none = fun name => if name = dropped then none else map name := by
  funext name
  by_cases here : name = dropped
  · simp [here]
  · simp [here]

/-- `revoke_grant`. -/
theorem Represents.revokeGrant (represents : Represents platform store contents) (id : DeviceId)
    (capability : CapabilityId) (direction : GrantDirection) :
    Simulates platform (store.invoke platform (.revokeGrant id capability direction))
      (contents.invoke platform (.revokeGrant id capability direction)) := by
  have existed : (store.database.grants.find? (id.asStr, platform.token capability,
      encodeDirection direction)).isSome = (contents.grants (id, capability, direction)).isSome :=
    represents.grants.isSome_find? (id, capability, direction)
  simp only [PeerStore.invoke, PeerStore.revokeGrant, Database.revokeGrant, Contents.invoke,
    existed]
  refine .done _ ⟨represents.peers, ?_, ?_⟩
  · rw [update_none]
    refine represents.grants.deleteWhere fun grant row _ written => ?_
    rw [decide_eq_true_eq, (grantCoding platform).key_of_written grant row written]
    exact (grantCoding platform).columns_injective.eq_iff (b := (id, capability, direction))
  · rw [endpoints_cascade]
    · exact represents.endpoints
    · exact fun row member => ⟨row, member, rfl⟩

/-- `forget_peer`. -/
theorem Represents.forgetPeer (represents : Represents platform store contents) (id : DeviceId) :
    Simulates platform (store.invoke platform (.forgetPeer id))
      (contents.invoke platform (.forgetPeer id)) := by
  have existed : (store.database.peers.find? id.asStr).isSome = (contents.peers id).isSome :=
    represents.peers.isSome_find? id
  simp only [PeerStore.invoke, PeerStore.forgetPeer, Database.forgetPeer, Contents.invoke,
    Contents.without, existed]
  refine .done _ ⟨?_, ?_, ?_⟩
  · rw [update_none]
    refine represents.peers.deleteWhere fun peer row _ written => ?_
    rw [decide_eq_true_eq, written.1]
    exact DeviceId.asStr_injective.eq_iff
  · refine represents.grants.deleteWhere fun grant row _ written => ?_
    have owner : row.peerId = grant.peerId.asStr := congrArg Prod.fst (key_encodeGrant written.1)
    rw [decide_eq_true_eq, owner]
    exact DeviceId.asStr_injective.eq_iff
  · -- every endpoint has its peer, so those left without one are the peer's
    refine represents.endpoints.deleteWhere fun endpoint row member written => ?_
    have owner : row.peerId = endpoint.peerId.asStr := by rw [written]; rfl
    have found : ((store.database.deletePeer id.asStr).peers.find? row.peerId).isNone = true ↔
        row.peerId = id.asStr := by
      obtain ⟨peer, stored, same⟩ := store.references row member
      rw [Option.isNone_iff_eq_none, Database.deletePeer, Table.find?_deleteKey]
      constructor
      · intro missing
        split at missing
        · assumption
        · exact absurd same (Table.find?_eq_none.mp missing peer stored)
      · exact fun here => if_pos here
    rw [found, owner]
    exact DeviceId.asStr_injective.eq_iff

/-- The row of an endpoint after a failure, unless a number gets too large. -/
theorem failedRow_row (endpoint : StoredEndpoint) (now : Int) :
    match endpoint.failed? now with
    | some failed => PeerStore.failedRow endpoint.row now = .ok failed.row
    | none => ∃ error, PeerStore.failedRow endpoint.row now = .error error := by
  unfold StoredEndpoint.failed? PeerStore.failedRow sqlSum
  simp only [StoredEndpoint.row]
  by_cases counted : i64Min ≤ endpoint.consecutiveFailures + 1 ∧
      endpoint.consecutiveFailures + 1 ≤ i64Max
  · by_cases waits : i64Min ≤ now + min 300000
        (2 ^ (min (endpoint.consecutiveFailures + 1) 8).toNat * 1000) ∧ now + min 300000
          (2 ^ (min (endpoint.consecutiveFailures + 1) 8).toNat * 1000) ≤ i64Max
    · simp only [counted, waits, and_self, ↓reduceIte, bind, Except.bind, pure, Except.pure]
    · simp only [counted, waits, and_false, and_self, ↓reduceIte, bind, Except.bind]
      exact ⟨_, rfl⟩
  · simp only [counted, false_and, ↓reduceIte, bind, Except.bind]
    exact ⟨_, rfl⟩

theorem Represents.replaceEndpoint (represents : Represents platform store contents)
    {after : PeerStore} (endpoint : StoredEndpoint) (kept : after.database = store.database)
    (rows : after.endpoints = store.endpoints.upsert endpoint.row) :
    Represents platform after (contents.withEndpoint endpoint) := by
  refine ⟨kept ▸ represents.peers, kept ▸ represents.grants, ?_⟩
  have written : endpointCoding.written endpoint endpoint.row := rfl
  have upsert := represents.endpoints.upsert written
  exact rows ▸ upsert

theorem Represents.find?_endpoint (represents : Represents platform store contents)
    (peerId : DeviceId) (address : String) :
    store.endpoints.find? (peerId.asStr, address) =
      (contents.endpoints (peerId, address)).map StoredEndpoint.row := by
  cases found : store.endpoints.find? (peerId.asStr, address) with
  | none =>
    have missing : contents.endpoints (peerId, address) = none :=
      represents.endpoints.find?_eq_none.mp found
    rw [missing]
    rfl
  | some row =>
    obtain ⟨endpoint, known, written⟩ := represents.endpoints.find?_eq_some (peerId, address) found
    rw [known, Option.map_some]
    exact congrArg some written

/-- `record_authenticated`. -/
theorem Represents.recordAuthenticated (represents : Represents platform store contents)
    (peerId : DeviceId) (address : SocketAddr) (certificateSha256 : Digest)
    (source : EndpointSource) (now : Int) :
    Writes platform
      (store.recordAuthenticated platform peerId address certificateSha256 source now)
      (if (contents.peers peerId).isSome then some (contents.withEndpoint
        (contents.authenticated platform peerId address certificateSha256 source now))
      else none) := by
  have row : PeerStore.conflictRow
      (store.endpoints.find? (PeerStore.authenticatedRow platform peerId address certificateSha256
        source now).key)
      (PeerStore.authenticatedRow platform peerId address certificateSha256 source now) =
        (contents.authenticated platform peerId address certificateSha256 source now).row := by
    have found := represents.find?_endpoint peerId (platform.addressText address)
    have key : (PeerStore.authenticatedRow platform peerId address certificateSha256 source
        now).key = (peerId.asStr, platform.addressText address) := rfl
    rw [key, found]
    unfold Contents.authenticated
    cases contents.endpoints (peerId, platform.addressText address) with
    | none => rfl
    | some endpoint => rfl
  split
  · rename_i stored
    have present := (represents.exists_peer peerId).mpr stored
    have recorded : ∃ after, store.recordAuthenticated platform peerId address certificateSha256
        source now = .ok after ∧ after.database = store.database ∧
          after.endpoints = store.endpoints.upsert
            (contents.authenticated platform peerId address certificateSha256 source now).row := by
      rw [PeerStore.recordAuthenticated, dif_pos present]
      exact ⟨_, rfl, rfl, congrArg store.endpoints.upsert row⟩
    obtain ⟨after, recorded, kept, rows⟩ := recorded
    exact ⟨after, recorded, represents.replaceEndpoint _ kept rows⟩
  · rename_i missing
    have absent := mt (represents.exists_peer peerId).mp missing
    exact ⟨_, by rw [PeerStore.recordAuthenticated, dif_neg absent]⟩

variable {address : SocketAddr}

theorem recordFailure_unknown {peerId : DeviceId} {now : Int}
    (unknown : store.endpoints.find? (peerId.asStr, platform.addressText address) = none) :
    store.recordFailure platform peerId address now = .ok store := by
  unfold PeerStore.recordFailure
  split
  · rfl
  · rename_i known
    cases unknown.symm.trans known

theorem recordFailure_known {peerId : DeviceId} {now : Int} {row failed : EndpointRow}
    (known : store.endpoints.find? (peerId.asStr, platform.addressText address) = some row)
    (updated : PeerStore.failedRow row now = .ok failed) :
    ∃ after, store.recordFailure platform peerId address now = .ok after ∧
      after.database = store.database ∧ after.endpoints = store.endpoints.upsert failed := by
  unfold PeerStore.recordFailure
  split
  · rename_i unknown
    cases known.symm.trans unknown
  · rename_i stored found
    cases known.symm.trans found
    split
    · rename_i error refused
      cases updated.symm.trans refused
    · rename_i replacement done
      cases updated.symm.trans done
      exact ⟨_, rfl, rfl, rfl⟩

theorem recordFailure_refused {peerId : DeviceId} {now : Int} {row : EndpointRow}
    {error : NetworkError}
    (known : store.endpoints.find? (peerId.asStr, platform.addressText address) = some row)
    (refused : PeerStore.failedRow row now = .error error) :
    store.recordFailure platform peerId address now = .error error := by
  unfold PeerStore.recordFailure
  split
  · rename_i unknown
    cases known.symm.trans unknown
  · rename_i stored found
    cases known.symm.trans found
    split
    · rename_i other refused'
      cases refused.symm.trans refused'
      rfl
    · rename_i replacement done
      cases refused.symm.trans done

/-- `record_failure`. -/
theorem Represents.recordFailure (represents : Represents platform store contents)
    (peerId : DeviceId) (address : SocketAddr) (now : Int) :
    Writes platform (store.recordFailure platform peerId address now)
      (match contents.endpoints (peerId, platform.addressText address) with
      | none => some contents
      | some endpoint => (endpoint.failed? now).map contents.withEndpoint) := by
  have found := represents.find?_endpoint peerId (platform.addressText address)
  cases known : contents.endpoints (peerId, platform.addressText address) with
  | none =>
    rw [known] at found
    exact ⟨store, recordFailure_unknown found, represents⟩
  | some endpoint =>
    rw [known] at found
    have updated := failedRow_row endpoint now
    cases failed : endpoint.failed? now with
    | none =>
      rw [failed] at updated
      obtain ⟨error, refused⟩ := updated
      simp only [failed, Option.map_none]
      exact ⟨error, recordFailure_refused found refused⟩
    | some after =>
      rw [failed] at updated
      obtain ⟨store', recorded, kept, rows⟩ := recordFailure_known found updated
      simp only [failed, Option.map_some]
      exact ⟨store', recorded, represents.replaceEndpoint after kept rows⟩

/-- A call on the endpoints. -/
theorem Represents.record (represents : Represents platform store contents) (timed : Timed) :
    Writes platform (store.record platform timed) (contents.record platform timed) := by
  unfold PeerStore.record Contents.record
  cases timed.call with
  | recordAuthenticated peerId address certificateSha256 source =>
    exact represents.recordAuthenticated peerId address certificateSha256 source timed.time
  | recordFailure peerId address => exact represents.recordFailure peerId address timed.time
  | forget peerId =>
    refine ⟨_, rfl, represents.peers, represents.grants, ?_⟩
    refine represents.endpoints.deleteWhere fun endpoint row _ written => ?_
    have owner : row.peerId = endpoint.peerId.asStr := by rw [written]; rfl
    rw [decide_eq_true_eq, owner]
    exact DeviceId.asStr_injective.eq_iff

theorem Represents.invoke (represents : Represents platform store contents) {call : StoreCall}
    (readable : call.Readable platform) :
    Simulates platform (store.invoke platform call) (contents.invoke platform call) := by
  cases call with
  | savePeer peer => exact (represents.savePeer readable).simulates _
  | savePairing peer grants => exact (represents.savePairing grants readable).simulates _
  | saveGrant grant => exact (represents.saveGrant readable).simulates _
  | revokeGrant id capability direction => exact represents.revokeGrant id capability direction
  | forgetPeer id => exact represents.forgetPeer id
  | endpoint timed => exact (represents.record timed).simulates _

/-- One call keeps the tables in line with the contents, whether it succeeds or fails. -/
theorem Represents.next (represents : Represents platform store contents) {call : StoreCall}
    (readable : call.Readable platform) :
    Represents platform (store.next platform call) (contents.next platform call) := by
  have simulates := represents.invoke readable
  unfold PeerStore.next Contents.next
  generalize store.invoke platform call = result at simulates ⊢
  generalize contents.invoke platform call = spec at simulates ⊢
  cases simulates with
  | refused error => exact represents
  | done reply after => exact after

end Steps

/-! ## Reading -/

/-- `ORDER BY display_name, device_id`, on records. -/
def recordOrder (left right : PeerRecord) : Prop :=
  left.displayName < right.displayName ∨
    (left.displayName = right.displayName ∧ left.deviceId.asStr ≤ right.deviceId.asStr)

/-- `ORDER BY capability, direction`, on grants. -/
def grantListOrder (platform : Platform) (left right : Grant) : Prop :=
  platform.token left.capability < platform.token right.capability ∨
    (left.capability = right.capability ∧
      encodeDirection left.direction ≤ encodeDirection right.direction)

instance : Std.Total PeerStore.peerRowOrder where
  total left right := lex_total left.displayName right.displayName left.deviceId right.deviceId

instance : IsTrans PeerRow PeerStore.peerRowOrder where
  trans _ _ _ before after := lex_trans before after

theorem grantOrder_iff {left right : GrantRow} : Database.grantOrder left right = true ↔
    left.capability < right.capability ∨
      (left.capability = right.capability ∧ left.direction ≤ right.direction) := by
  simp [Database.grantOrder]

instance : Std.Total fun left right => Database.grantOrder left right = true where
  total left right := by
    rw [grantOrder_iff, grantOrder_iff]
    exact lex_total left.capability right.capability left.direction right.direction

instance : IsTrans GrantRow fun left right => Database.grantOrder left right = true where
  trans first second third := by
    rw [grantOrder_iff, grantOrder_iff, grantOrder_iff]
    exact lex_trans

section Reading

variable {platform : Platform} {store : PeerStore} {contents : Contents}

theorem decodePeer_written (peer : PeerRecord) (row : PeerRow)
    (written : (peerCoding platform).written peer row) : decodePeer platform row = .ok peer := by
  obtain ⟨rfl, readable, savable⟩ := written
  exact decodePeer_encodePeer readable.parsed readable.key savable

theorem decodeGrant_written (grant : Grant) (row : GrantRow)
    (written : (grantCoding platform).written grant row) :
    decodeGrant platform row = .ok grant :=
  decodeGrant_encodeGrant written.1 written.2

/-- `peer` reads the record of the peer. -/
theorem Represents.peer (represents : Represents platform store contents) (id : DeviceId) :
    store.peer platform id = .ok (contents.peers id) := by
  have read : (store.database.peers.find? id.asStr).map (decodePeer platform) =
      (contents.peers id).map .ok := represents.peers.find?_decoded decodePeer_written id
  unfold PeerStore.peer Database.peer
  cases found : store.database.peers.find? id.asStr with
  | none =>
    rw [found] at read
    have missing : contents.peers id = none := by simpa using read.symm
    rw [missing]
  | some row =>
    rw [found, Option.map_some] at read
    obtain ⟨record, known, decoded⟩ := Option.map_eq_some_iff.mp read.symm
    simp only [known, ← decoded]
    rfl

/-- `peers` reads every record once, in the order of names and ids. -/
theorem Represents.readPeers (represents : Represents platform store contents) :
    ∃ records, store.peers platform = .ok records ∧ records.Pairwise recordOrder ∧
      records.Nodup ∧ ∀ record, record ∈ records ↔
        contents.peers record.deviceId = some record := by
  have all : store.database.peers.select (fun _ => true) = store.database.peers.rows := by
    simp [Table.select]
  have read := represents.peers.read decodePeer_written (fun _ => true) (fun _ => True)
    (fun _ _ _ => by simp) PeerStore.peerRowOrder recordOrder (by
      rintro peer other row row' ⟨rfl, -⟩ ⟨rfl, -⟩ order
      exact order)
  rw [all] at read
  simp only [and_true] at read
  exact read

/-- `grants` reads every grant of the peer once, in the order of tokens and directions. -/
theorem Represents.readGrants (represents : Represents platform store contents) (id : DeviceId) :
    ∃ grants, store.grants platform id = .ok grants ∧
      grants.Pairwise (grantListOrder platform) ∧ grants.Nodup ∧ ∀ grant, grant ∈ grants ↔
        contents.grants (grant.peerId, grant.key) = some grant ∧ grant.peerId = id := by
  refine represents.grants.read decodeGrant_written _ (fun name => name.1 = id) ?_
    (fun left right => Database.grantOrder left right = true) (grantListOrder platform) ?_
  · intro grant row written
    have owner : row.peerId = grant.peerId.asStr := congrArg Prod.fst (key_encodeGrant written.1)
    rw [decide_eq_true_eq, owner]
    exact DeviceId.asStr_injective.eq_iff
  · intro grant other row row' written written' order
    have key := congrArg Prod.snd (key_encodeGrant written.1)
    have key' := congrArg Prod.snd (key_encodeGrant written'.1)
    obtain ⟨token, direction⟩ := Prod.mk.inj key
    obtain ⟨token', direction'⟩ := Prod.mk.inj key'
    rw [grantOrder_iff, token, token', direction, direction'] at order
    exact order.imp_right fun last => ⟨platform.token_injective last.1, last.2⟩

theorem key_eq_of_grantListOrder {left right : Grant} (le : grantListOrder platform left right)
    (ge : grantListOrder platform right left) : left.key = right.key := by
  rcases le with less | ⟨same, le⟩
  · rcases ge with more | ⟨same, -⟩
    · exact absurd more less.asymm
    · rw [same] at less
      exact absurd less (lt_irrefl _)
  · rcases ge with more | ⟨-, ge⟩
    · rw [same] at more
      exact absurd more (lt_irrefl _)
    · exact Prod.ext same (encodeDirection_injective (le_antisymm le ge))

/-- What is read of a peer's grants is determined by the contents. -/
theorem Represents.grants_eq {other : PeerStore} {contents' : Contents}
    (represents : Represents platform store contents)
    (represents' : Represents platform other contents') {id : DeviceId}
    (same : ∀ key, contents.grants (id, key) = contents'.grants (id, key)) :
    store.grants platform id = other.grants platform id := by
  obtain ⟨grants, read, sorted, distinct, members⟩ := represents.readGrants id
  obtain ⟨grants', read', sorted', distinct', members'⟩ := represents'.readGrants id
  have perm : grants.Perm grants' := by
    refine (List.perm_ext_iff_of_nodup distinct distinct').mpr fun grant => ?_
    rw [members, members']
    refine and_congr_left fun peer => ?_
    rw [peer, same]
  have equal : grants = grants' := by
    refine perm.eq_of_pairwise (fun left right one two le ge => ?_) sorted sorted'
    obtain ⟨found, peer⟩ := (members left).mp one
    obtain ⟨found', peer'⟩ := (members right).mp (perm.mem_iff.mpr two)
    rw [peer, key_eq_of_grantListOrder le ge, ← peer', found'] at found
    exact (Option.some.inj found).symm
  rw [read, read', equal]

/-- The owner of a grant or an endpoint is stored, with an id bound to its key. -/
theorem Represents.owner (represents : Represents platform store contents) {text : String}
    (stored : ∃ row ∈ store.database.peers.rows, row.deviceId = text) :
    ∃ peer, contents.peers peer.deviceId = some peer ∧ peer.deviceId.asStr = text ∧
      platform.verifyKey peer.deviceId peer.publicKey = .ok () := by
  obtain ⟨row, member, same⟩ := stored
  obtain ⟨peer, known, encoded, -, bound⟩ := represents.peers.known row member
  refine ⟨peer, known, ?_, bound⟩
  rw [← same, encoded]
  rfl

end Reading

/-! ## Whole runs -/

variable (platform : Platform)

/-- Callers of the repository see the contents. -/
structure Refines (store : PeerStore) (contents : Contents) : Prop where
  peer : ∀ id, store.peer platform id = .ok (contents.peers id)
  peers : ∃ records, store.peers platform = .ok records ∧ records.Pairwise recordOrder ∧
    records.Nodup ∧ ∀ record, record ∈ records ↔ contents.peers record.deviceId = some record
  /-- `grants` returns every grant of the peer once, in order. -/
  grants : ∀ id, ∃ grants, store.grants platform id = .ok grants ∧
    grants.Pairwise (grantListOrder platform) ∧ grants.Nodup ∧ ∀ grant, grant ∈ grants ↔
      contents.grants (grant.peerId, grant.key) = some grant ∧ grant.peerId = id
  endpoints : ∀ id address, store.endpoints.find? (id.asStr, address) =
    (contents.endpoints (id, address)).map StoredEndpoint.row
  /-- The peer of every grant and every endpoint is stored, and its id is bound to its key. -/
  owned : ∀ owner ∈ store.database.grants.rows.map GrantRow.peerId ++
      store.endpoints.rows.map EndpointRow.peerId,
    ∃ peer, contents.peers peer.deviceId = some peer ∧ peer.deviceId.asStr = owner ∧
      platform.verifyKey peer.deviceId peer.publicKey = .ok ()

/-- What a successful call leaves of the rest. -/
def Preserves (before after : PeerStore) : StoreCall → Prop
  | .savePeer _ => after.database.grants = before.database.grants ∧
      after.endpoints = before.endpoints
  | .savePairing peer grants =>
    (∃ stored, after.grants platform peer.deviceId = .ok stored ∧ stored.Perm grants) ∧
      after.endpoints = before.endpoints ∧
      ∀ id ≠ peer.deviceId, after.peer platform id = before.peer platform id ∧
        after.grants platform id = before.grants platform id
  | .forgetPeer id => after.peer platform id = .ok none ∧ after.grants platform id = .ok [] ∧
      ∀ address, after.endpoints.find? (id.asStr, address) = none
  | _ => True

section Runs

variable {platform} {store : PeerStore} {contents : Contents}

theorem Represents.refines (represents : Represents platform store contents) :
    Refines platform store contents where
  peer := represents.peer
  peers := represents.readPeers
  grants := represents.readGrants
  endpoints := represents.find?_endpoint
  owned := by
    intro owner member
    rcases List.mem_append.mp member with grant | endpoint
    · obtain ⟨row, inside, rfl⟩ := List.mem_map.mp grant
      exact represents.owner (store.database.references row inside)
    · obtain ⟨row, inside, rfl⟩ := List.mem_map.mp endpoint
      exact represents.owner (store.references row inside)

theorem represents_empty : Represents platform PeerStore.empty Contents.empty :=
  ⟨Table.stores_empty, Table.stores_empty, Table.stores_empty⟩

theorem represents_run {calls : List StoreCall}
    (readable : ∀ call ∈ calls, call.Readable platform) :
    Represents platform (Run.exec (PeerStore.next platform) .empty calls)
      (Run.exec (Contents.next platform) .empty calls) := by
  induction calls using List.reverseRecOn with
  | nil => exact represents_empty
  | append_singleton calls call ih =>
    rw [Run.exec_concat, Run.exec_concat]
    have earlier := ih fun other member => readable other (List.mem_append_left _ member)
    exact earlier.next (readable call (by simp))

variable {after : PeerStore}

theorem write_eq_ok {Failure Failure' : Type} {result : Except Failure PeerStore}
    {rename : Failure → Failure'} {reply : StoreReply}
    (written : (result.mapError rename).map (StoreReply.done, ·) = .ok (reply, after)) :
    result = .ok after := by
  obtain ⟨stored, renamed, same⟩ := Except.map_eq_ok.mp written
  cases same
  exact Except.mapError_eq_ok.mp renamed

theorem preserves_savePeer {peer : PeerRecord} (saved : store.savePeer platform peer = .ok after) :
    Preserves platform store after (.savePeer peer) := by
  obtain ⟨database, written, same⟩ := Except.bind_eq_ok.mp saved
  cases Except.pure_eq_ok.mp same
  obtain ⟨-, rfl⟩ := Database.savePeer_eq_ok written
  exact ⟨rfl, endpoints_cascade (kept_upsert _)⟩

theorem find?_key_eq_some {grants : List Grant} (distinct : (grants.map Grant.key).Nodup)
    {key : GrantKey} {grant : Grant} :
    (grants.find? fun other => other.key = key) = some grant ↔
      grant ∈ grants ∧ grant.key = key := by
  constructor
  · intro found
    exact ⟨List.mem_of_find?_eq_some found, by simpa using List.find?_some found⟩
  · rintro ⟨member, rfl⟩
    obtain ⟨other, found⟩ := Option.isSome_iff_exists.mp (List.find?_isSome.mpr
      ⟨grant, member, by simp⟩ : (grants.find? fun other => other.key = grant.key).isSome = true)
    have same : other.key = grant.key := by simpa using List.find?_some found
    rw [found, List.inj_on_of_nodup_map distinct (List.mem_of_find?_eq_some found) member same]

/-- A saved pairing replaces the grants of its peer and leaves the other peers. -/
theorem Represents.preserves_savePairing (represents : Represents platform store contents)
    {peer : PeerRecord} {grants : List Grant} (readable : peer.Readable platform)
    (saved : store.savePairing platform peer grants = .ok after) :
    Preserves platform store after (.savePairing peer grants) := by
  have writes := represents.savePairing grants readable
  unfold Contents.savePairing at writes
  split at writes
  · rename_i condition
    obtain ⟨after', saved', represents'⟩ := writes
    cases saved.symm.trans saved'
    obtain ⟨own, distinct, -⟩ := condition.2
    refine ⟨?_, ?_, fun id other => ⟨?_, ?_⟩⟩
    · obtain ⟨stored, read, -, nodup, members⟩ := represents'.readGrants peer.deviceId
      refine ⟨stored, read, (List.perm_ext_iff_of_nodup nodup
        (List.Nodup.of_map _ distinct)).mpr fun grant => ?_⟩
      rw [members]
      constructor
      · rintro ⟨found, here⟩
        simp only [Contents.withGrants, here, ↓reduceIte] at found
        exact ((find?_key_eq_some distinct).mp found).1
      · intro member
        refine ⟨?_, own grant member⟩
        simp only [Contents.withGrants, own grant member, ↓reduceIte]
        exact (find?_key_eq_some distinct).mpr ⟨member, rfl⟩
    · obtain ⟨database, written, same⟩ := Except.bind_eq_ok.mp saved
      cases Except.pure_eq_ok.mp same
      obtain ⟨-, -, peers, -⟩ := Database.savePairing_eq_ok written
      exact endpoints_cascade (peers ▸ kept_upsert _)
    · rw [represents'.peer, represents.peer]
      exact congrArg _ (Function.update_of_ne other _ _)
    · exact represents'.grants_eq represents fun key => if_neg other
  · obtain ⟨error, refused⟩ := writes
    cases saved.symm.trans refused

theorem Represents.preserves_forgetPeer (id : DeviceId)
    (represents : Represents platform after (contents.without id)) :
    Preserves platform store after (.forgetPeer id) := by
  refine ⟨?_, ?_, fun address => ?_⟩
  · rw [represents.peer]
    exact congrArg _ (Function.update_self ..)
  · obtain ⟨grants, read, -, -, members⟩ := represents.readGrants id
    have ungranted : grants = [] := by
      refine List.eq_nil_iff_forall_not_mem.mpr fun grant member => ?_
      obtain ⟨found, here⟩ := (members grant).mp member
      simp [Contents.without, here] at found
    rw [read, ungranted]
  · rw [represents.find?_endpoint]
    simp [Contents.without]

theorem Represents.preserves (represents : Represents platform store contents) {call : StoreCall}
    (readable : call.Readable platform) (reply : StoreReply) (after : PeerStore)
    (invoked : store.invoke platform call = .ok (reply, after)) :
    Preserves platform store after call := by
  cases call with
  | savePeer peer => exact preserves_savePeer (write_eq_ok invoked)
  | savePairing peer grants =>
    exact represents.preserves_savePairing readable (write_eq_ok invoked)
  | forgetPeer id =>
    have simulates := represents.forgetPeer id
    rw [invoked] at simulates
    cases simulates with
    | done _ represents' => exact represents'.preserves_forgetPeer id
  | saveGrant _ => trivial
  | revokeGrant _ _ _ => trivial
  | endpoint _ => trivial

/-- After every run of calls, callers see the contents that the same calls leave in the abstract
store, and every further call succeeds exactly when it does there and returns the same. A failed
call changes nothing. -/
theorem repository_refines {calls : List StoreCall}
    (readable : ∀ call ∈ calls, call.Readable platform) :
    Refines platform (Run.exec (PeerStore.next platform) .empty calls)
      (Run.exec (Contents.next platform) .empty calls) ∧
    ∀ call, call.Readable platform →
      match (Run.exec (PeerStore.next platform) .empty calls).invoke platform call with
      | .ok (reply, after) =>
        ((Run.exec (Contents.next platform) .empty calls).invoke platform call).map Prod.fst =
          some reply ∧
        Run.exec (PeerStore.next platform) .empty (calls ++ [call]) = after ∧
        Preserves platform (Run.exec (PeerStore.next platform) .empty calls) after call
      | .error _ =>
        (Run.exec (Contents.next platform) .empty calls).invoke platform call = none ∧
        Run.exec (PeerStore.next platform) .empty (calls ++ [call]) =
          Run.exec (PeerStore.next platform) .empty calls := by
  have represents := represents_run readable
  refine ⟨represents.refines, fun call readable' => ?_⟩
  have simulates := represents.invoke readable'
  rw [Run.exec_concat]
  generalize Run.exec (PeerStore.next platform) .empty calls = store at represents simulates ⊢
  generalize Run.exec (Contents.next platform) .empty calls = contents at represents simulates ⊢
  have preserves := represents.preserves readable'
  unfold PeerStore.next
  generalize store.invoke platform call = result at simulates preserves ⊢
  generalize contents.invoke platform call = spec at simulates ⊢
  cases simulates with
  | refused error => exact ⟨rfl, rfl⟩
  | done reply represents' => exact ⟨rfl, rfl, preserves _ _ rfl⟩

end Runs

/-- A peer is saved and granted a capability, its pairing is saved with another grant, and a session
with it is authenticated. -/
def sampleStoreCalls : List StoreCall :=
  let peer : PeerRecord :=
    ⟨⟨"peer"⟩, .sample "peer", "name", "linux", "model", .revoked, true, 1, 1⟩
  [.savePeer peer, .saveGrant ⟨⟨"peer"⟩, .remoteFilesRead, .inbound, .none, 2⟩,
    .savePairing peer [⟨⟨"peer"⟩, .crossScreenInject, .outbound, .none, 3⟩],
    .endpoint ⟨4, .recordAuthenticated ⟨"peer"⟩ (.v4 1 1) (Vector.replicate 32 0) .mdns⟩]

/-- After the sample calls the contents show the peer as paired, with the second grant alone. -/
theorem repository_refines_paired :
    Refines (.sample [] ⟨none, []⟩)
      (Run.exec (PeerStore.next (.sample [] ⟨none, []⟩)) .empty sampleStoreCalls)
      (Run.exec (Contents.next (.sample [] ⟨none, []⟩)) .empty sampleStoreCalls) ∧
    ((Run.exec (Contents.next (.sample [] ⟨none, []⟩)) .empty sampleStoreCalls).peers
      ⟨"peer"⟩).map PeerRecord.trustState = some .paired ∧
    (Run.exec (Contents.next (.sample [] ⟨none, []⟩)) .empty sampleStoreCalls).grants
      (⟨"peer"⟩, .remoteFilesRead, .inbound) = none := by
  refine ⟨(repository_refines fun call member => ?_).1, by decide +kernel, by decide +kernel⟩
  simp only [sampleStoreCalls, List.mem_cons, List.not_mem_nil, or_false] at member
  rcases member with rfl | rfl | rfl | rfl
  · exact ⟨rfl, rfl⟩
  · exact rfl
  · exact ⟨rfl, rfl⟩
  · trivial

end ArcRelay
