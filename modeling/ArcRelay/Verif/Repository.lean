import ArcRelay.Lib.Fallible
import ArcRelay.Repository

/-!
# What the repository stores

Grants and peers survive being written and read back, a grant row determines the
key of its grant, and each operation is described by the rows it leaves. A peer
other than the one an operation is about keeps its rows.
-/

namespace ArcRelay

variable {platform : Platform}

/-! ## Columns -/

theorem backend_eq_ok {α : Type} {result : Except String α} {value : α} :
    backend result = .ok value ↔ result = .ok value :=
  Except.mapError_eq_ok

theorem decodeDirection_encode (direction : GrantDirection) :
    decodeDirection (encodeDirection direction) = .ok direction := by
  cases direction <;> rfl

theorem encodeDirection_decode {value : Int} {direction : GrantDirection}
    (decoded : decodeDirection value = .ok direction) : encodeDirection direction = value := by
  unfold decodeDirection at decoded
  split at decoded
  · cases decoded
    simp_all [encodeDirection]
  · split at decoded
    · cases decoded
      simp_all [encodeDirection]
    · cases decoded

theorem decodeTrust_encode (trust : TrustState) : decodeTrust (encodeTrust trust) = .ok trust := by
  cases trust <;> rfl

theorem decodeGrant_encodeGrant {grant : Grant} {row : GrantRow}
    (encoded : encodeGrant platform grant = .ok row)
    (parsed : platform.parseDeviceId grant.peerId.asStr = .ok grant.peerId) :
    decodeGrant platform row = .ok grant := by
  obtain ⟨json, written, same⟩ := Except.bind_eq_ok.mp encoded
  cases Except.pure_eq_ok.mp same
  simp [decodeGrant, decodeCapability, platform.parseToken_token, decodeDirection_encode, parsed,
    backend,
    platform.constraintsFromJson_toJson _ _ (backend_eq_ok.mp written), bind, Except.bind,
    Except.mapError, pure, Except.pure]

/-- The key columns of a grant. -/
def grantColumns (platform : Platform) (grant : Grant) : String × String × Int :=
  (grant.peerId.asStr, platform.token grant.capability, encodeDirection grant.direction)

theorem key_encodeGrant {grant : Grant} {row : GrantRow}
    (encoded : encodeGrant platform grant = .ok row) : row.key = grantColumns platform grant := by
  obtain ⟨json, written, same⟩ := Except.bind_eq_ok.mp encoded
  cases Except.pure_eq_ok.mp same
  rfl

/-- A grant is read from its key columns. -/
theorem key_decodeGrant {grant : Grant} {row : GrantRow}
    (decoded : decodeGrant platform row = .ok grant) : row.key = grantColumns platform grant := by
  unfold decodeGrant at decoded
  obtain ⟨capability, token, decoded⟩ := Except.bind_eq_ok.mp decoded
  obtain ⟨peerId, parsed, decoded⟩ := Except.bind_eq_ok.mp decoded
  obtain ⟨direction, directed, decoded⟩ := Except.bind_eq_ok.mp decoded
  obtain ⟨constraints, json, decoded⟩ := Except.bind_eq_ok.mp decoded
  cases Except.pure_eq_ok.mp decoded
  have known : platform.parseToken row.capability = some capability := by
    unfold decodeCapability at token
    split at token
    · rename_i found
      cases token
      exact found
    · cases token
  simp only [GrantRow.key, grantColumns, encodeDirection_decode directed,
    platform.asStr_parseDeviceId _ _ (backend_eq_ok.mp parsed),
    platform.token_parseToken _ _ known]

/-- Key columns determine the peer and the key of a grant. -/
theorem grantColumns_inj {first second : Grant} :
    grantColumns platform first = grantColumns platform second ↔
      first.peerId = second.peerId ∧ first.key = second.key := by
  have token_inj : platform.token first.capability = platform.token second.capability ↔
      first.capability = second.capability := by
    constructor
    · intro same
      have parsed := platform.parseToken_token first.capability
      rw [same, platform.parseToken_token] at parsed
      exact (Option.some.inj parsed).symm
    · exact congrArg _
  have direction_inj : encodeDirection first.direction = encodeDirection second.direction ↔
      first.direction = second.direction := by
    cases first.direction <;> cases second.direction <;> simp [encodeDirection]
  have peer_inj : first.peerId.asStr = second.peerId.asStr ↔ first.peerId = second.peerId :=
    ⟨fun same => DeviceId.asStr_injective same, congrArg _⟩
  simp [grantColumns, Grant.key, token_inj, direction_inj, peer_inj]

theorem decodePeer_encodePeer {peer : PeerRecord}
    (parsed : platform.parseDeviceId peer.deviceId.asStr = .ok peer.deviceId)
    (key : platform.publicKeyFromBytes peer.publicKey.asBytes = .ok peer.publicKey)
    (bound : platform.verifyKey peer.deviceId peer.publicKey = .ok ()) :
    decodePeer platform (encodePeer peer) = .ok peer := by
  obtain ⟨deviceId, publicKey, displayName, name, model, trust, auto, pairedAt, updatedAt⟩ := peer
  cases auto <;>
    simp_all [decodePeer, encodePeer, decodeTrust_encode, backend, bind, Except.bind,
      Except.mapError, pure, Except.pure]

/-- A peer that was read has the id of its row, and a key that is bound to it. -/
theorem decodePeer_bound {row : PeerRow} {peer : PeerRecord}
    (decoded : decodePeer platform row = .ok peer) :
    peer.deviceId.asStr = row.deviceId ∧
      platform.verifyKey peer.deviceId peer.publicKey = .ok () := by
  unfold decodePeer at decoded
  obtain ⟨id, parsed, decoded⟩ := Except.bind_eq_ok.mp decoded
  obtain ⟨key, -, decoded⟩ := Except.bind_eq_ok.mp decoded
  obtain ⟨⟨⟩, bound, decoded⟩ := Except.bind_eq_ok.mp decoded
  obtain ⟨trust, -, same⟩ := Except.bind_eq_ok.mp decoded
  cases same
  exact ⟨platform.asStr_parseDeviceId _ _ (backend_eq_ok.mp parsed), backend_eq_ok.mp bound⟩

namespace Database

variable {id : DeviceId}

/-- The record of a peer is the one of its id, with a key that is bound to it. -/
theorem bound_of_peer {database : Database} {record : PeerRecord}
    (found : database.peer platform id = .ok (some record)) :
    record.deviceId = id ∧ platform.verifyKey id record.publicKey = .ok () := by
  unfold peer at found
  split at found
  · cases found
  · rename_i row stored
    cases decoded : decodePeer platform row with
    | error error =>
      rw [decoded] at found
      cases found
    | ok peer =>
      rw [decoded] at found
      cases found
      obtain ⟨text, bound⟩ := decodePeer_bound decoded
      have same : record.deviceId = id :=
        DeviceId.asStr_injective (text.trans (Table.find?_eq_some.mp stored).2)
      exact ⟨same, same ▸ bound⟩

variable {database after : Database}

/-! ## Reading -/

variable {grants : List Grant}

theorem mem_grantsOf (read : database.grantsOf platform id = .ok grants) {grant : Grant} :
    grant ∈ grants ↔ ∃ row ∈ database.grants.rows,
      row.peerId = id.asStr ∧ decodeGrant platform row = .ok grant := by
  rw [Except.mem_of_mapM read]
  simp [and_assoc]

theorem grantsOf_isOk
    (each : ∀ row ∈ database.grants.rows, row.peerId = id.asStr →
      ∃ grant, decodeGrant platform row = .ok grant) :
    ∃ grants, database.grantsOf platform id = .ok grants := by
  refine Except.mapM_isOk fun row member => ?_
  simp only [List.mem_insertionSort, Table.mem_select, decide_eq_true_eq] at member
  exact each row member.1 member.2

theorem peerId_of_mem_grantsOf (read : database.grantsOf platform id = .ok grants) {grant : Grant}
    (member : grant ∈ grants) :
    grant.peerId = id := by
  obtain ⟨row, -, peer, decoded⟩ := (mem_grantsOf read).mp member
  have columns := congrArg Prod.fst (key_decodeGrant decoded)
  exact DeviceId.asStr_injective (columns.symm.trans peer)

theorem eq_of_key_eq_of_mem_grantsOf (read : database.grantsOf platform id = .ok grants)
    {first second : Grant} (one : first ∈ grants) (other : second ∈ grants)
    (same : first.key = second.key) :
    first = second := by
  have peers : first.peerId = second.peerId :=
    (peerId_of_mem_grantsOf read one).trans (peerId_of_mem_grantsOf read other).symm
  obtain ⟨row, stored, -, decoded⟩ := (mem_grantsOf read).mp one
  obtain ⟨row', stored', -, decoded'⟩ := (mem_grantsOf read).mp other
  have keys : row.key = row'.key := by
    rw [key_decodeGrant decoded, key_decodeGrant decoded', grantColumns_inj]
    exact ⟨peers, same⟩
  rw [database.grants.eq_of_key_eq stored stored' keys, decoded'] at decoded
  exact (Except.ok.inj decoded).symm

/-- No key is read twice. -/
theorem nodup_grantsOf (read : database.grantsOf platform id = .ok grants) :
    (grants.map Grant.key).Nodup := by
  have sorted : ((database.grants.select fun row => row.peerId = id.asStr).insertionSort
      (fun left right => grantOrder left right = true)).Nodup := by
    rw [(List.perm_insertionSort _ _).nodup_iff]
    exact (List.Nodup.of_map _ database.grants.distinct).filter _
  have related := Except.mapM_eq_ok.mp read
  have distinct : grants.Nodup := by
    have injective : ∀ row row' grant, decodeGrant platform row = .ok grant →
        decodeGrant platform row' = .ok grant →
        row ∈ database.grants.rows → row' ∈ database.grants.rows → row = row' := by
      intro row row' grant decoded decoded' stored stored'
      refine database.grants.eq_of_key_eq stored stored' ?_
      rw [key_decodeGrant decoded, key_decodeGrant decoded']
    have stored : ∀ row ∈ (database.grants.select fun row => row.peerId = id.asStr).insertionSort
        (fun left right => grantOrder left right = true), row ∈ database.grants.rows := by
      intro row member
      simp only [List.mem_insertionSort, Table.mem_select] at member
      exact member.1
    generalize (database.grants.select fun row => row.peerId = id.asStr).insertionSort
      (fun left right => grantOrder left right = true) = rows at sorted related stored
    clear read
    induction related with
    | nil => exact List.nodup_nil
    | @cons row grant rows grants decoded rest ih =>
      obtain ⟨fresh, distinct⟩ := List.nodup_cons.mp sorted
      refine List.nodup_cons.mpr ⟨fun again => fresh ?_, ih distinct fun other member =>
        stored other (List.mem_cons_of_mem _ member)⟩
      obtain ⟨row', member, decoded'⟩ := (Except.mem_of_mapM (Except.mapM_eq_ok.mpr rest)).mp again
      rwa [injective row row' grant decoded decoded' (stored row (by simp))
        (stored row' (List.mem_cons_of_mem _ member))]
  exact distinct.map_on fun first one second other same =>
    eq_of_key_eq_of_mem_grantsOf read one other same

/-! ## Writing -/

/-- An upserted grant belongs to a stored peer and replaces the row with its key. -/
theorem upsertGrant_eq_ok {row : GrantRow} :
    database.upsertGrant row = .ok after ↔
      (∃ peer ∈ database.peers.rows, peer.deviceId = row.peerId) ∧
        after.peers = database.peers ∧ after.grants = database.grants.upsert row := by
  unfold upsertGrant
  split
  · rename_i stored
    constructor
    · intro same
      cases same
      exact ⟨stored, rfl, rfl⟩
    · rintro ⟨-, peers, grants⟩
      obtain ⟨afterPeers, afterGrants, references⟩ := after
      cases peers
      cases grants
      rfl
  · rename_i missing
    constructor
    · intro same
      cases same
    · rintro ⟨stored, -⟩
      exact absurd stored missing

theorem insertGrant_eq_ok {row : GrantRow} (inserted : database.insertGrant row = .ok after) :
    after.peers = database.peers ∧
      ∀ other, other ∈ after.grants.rows ↔ other = row ∨ other ∈ database.grants.rows := by
  unfold insertGrant at inserted
  split at inserted
  · cases inserted
  · rename_i free
    obtain ⟨-, peers, grants⟩ := upsertGrant_eq_ok.mp inserted
    refine ⟨peers, fun other => ?_⟩
    have absent := Table.find?_eq_none.mp (by simpa using free)
    rw [grants, Table.mem_upsert]
    exact or_congr_right ⟨fun kept => kept.1, fun stored => ⟨stored, absent other stored⟩⟩

/-- The insertions of `save_pairing` add the rows of the grants. -/
theorem insertGrants_eq_ok
    (inserted : grants.foldlM (fun database grant => do
      let row ← encodeGrant platform grant
      database.insertGrant row) database = .ok after) :
    after.peers = database.peers ∧
      (∀ grant ∈ grants, ∃ row, encodeGrant platform grant = .ok row) ∧
      ∀ row, row ∈ after.grants.rows ↔
        row ∈ database.grants.rows ∨ ∃ grant ∈ grants, encodeGrant platform grant = .ok row := by
  induction grants generalizing database with
  | nil =>
    cases inserted
    simp
  | cons grant grants ih =>
    rw [List.foldlM_cons, Except.bind_eq_ok] at inserted
    obtain ⟨between, first, rest⟩ := inserted
    obtain ⟨row, encoded, stored⟩ := Except.bind_eq_ok.mp first
    obtain ⟨peers, rows⟩ := insertGrant_eq_ok stored
    obtain ⟨peers', written, rows'⟩ := ih rest
    refine ⟨peers'.trans peers, fun other member => ?_, fun other => ?_⟩
    · rcases List.mem_cons.mp member with rfl | later
      · exact ⟨row, encoded⟩
      · exact written other later
    · rw [rows', rows]
      simp only [List.mem_cons, exists_eq_or_imp, encoded, Except.ok.injEq, eq_comm (a := row)]
      tauto

variable {peer : PeerRecord}

/-- A saved pairing has stored the peer as paired and replaced its grants. -/
theorem savePairing_eq_ok (saved : database.savePairing platform peer grants = .ok after) :
    platform.verifyKey peer.deviceId peer.publicKey = .ok () ∧
      (∀ grant ∈ grants, grant.peerId = peer.deviceId) ∧
      after.peers = database.peers.upsert (encodePeer { peer with trustState := .paired }) ∧
      (∀ grant ∈ grants, ∃ row, encodeGrant platform grant = .ok row) ∧
      ∀ row, row ∈ after.grants.rows ↔
        (row ∈ database.grants.rows ∧ row.peerId ≠ peer.deviceId.asStr) ∨
          ∃ grant ∈ grants, encodeGrant platform grant = .ok row := by
  obtain ⟨_, verified, saved⟩ := Except.bind_eq_ok.mp saved
  split at saved
  · cases saved
  · rename_i own
    obtain ⟨peers, written, rows⟩ := insertGrants_eq_ok saved
    refine ⟨backend_eq_ok.mp verified, ?_, peers, written, fun row => ?_⟩
    · simpa using own
    · rw [rows]
      simp [deleteGrants, upsertPeer]

/-- After a saved pairing the peer's grants read back as the ones that were saved. -/
theorem grantsOf_savePairing (saved : database.savePairing platform peer grants = .ok after)
    (parsed : platform.parseDeviceId peer.deviceId.asStr = .ok peer.deviceId) :
    ∃ current, after.grantsOf platform peer.deviceId = .ok current ∧
      ∀ grant, grant ∈ current ↔ grant ∈ grants := by
  obtain ⟨-, own, -, written, rows⟩ := savePairing_eq_ok saved
  have reads : ∀ row ∈ after.grants.rows, row.peerId = peer.deviceId.asStr →
      ∃ grant ∈ grants, encodeGrant platform grant = .ok row ∧
        decodeGrant platform row = .ok grant := by
    intro row stored here
    rcases (rows row).mp stored with ⟨-, elsewhere⟩ | ⟨grant, member, encoded⟩
    · exact absurd here elsewhere
    · exact ⟨grant, member, encoded,
        decodeGrant_encodeGrant encoded (by rw [own grant member]; exact parsed)⟩
  obtain ⟨current, read⟩ := grantsOf_isOk fun row stored here => by
    obtain ⟨grant, -, -, decoded⟩ := reads row stored here
    exact ⟨grant, decoded⟩
  refine ⟨current, read, fun grant => ?_⟩
  rw [mem_grantsOf read]
  constructor
  · rintro ⟨row, stored, here, decoded⟩
    obtain ⟨other, member, -, decoded'⟩ := reads row stored here
    rw [decoded] at decoded'
    exact Except.ok.inj decoded' ▸ member
  · intro member
    obtain ⟨row, encoded⟩ := written grant member
    have here : row.peerId = peer.deviceId.asStr := by
      rw [← own grant member]
      exact congrArg Prod.fst (key_encodeGrant encoded)
    exact ⟨row, (rows row).mpr (Or.inr ⟨grant, member, encoded⟩), here,
      decodeGrant_encodeGrant encoded (by rw [own grant member]; exact parsed)⟩

/-- After a saved pairing the peer reads back as paired. -/
theorem peer_savePairing (saved : database.savePairing platform peer grants = .ok after)
    (parsed : platform.parseDeviceId peer.deviceId.asStr = .ok peer.deviceId)
    (key : platform.publicKeyFromBytes peer.publicKey.asBytes = .ok peer.publicKey) :
    after.peer platform peer.deviceId = .ok (some { peer with trustState := .paired }) := by
  obtain ⟨verified, -, peers, -⟩ := savePairing_eq_ok saved
  have found : after.peers.find? peer.deviceId.asStr =
      some (encodePeer { peer with trustState := .paired }) := by
    rw [peers, Table.find?_eq_some]
    exact ⟨by simp, rfl⟩
  have decoded : decodePeer platform (encodePeer { peer with trustState := .paired }) =
      .ok { peer with trustState := .paired } :=
    decodePeer_encodePeer parsed key verified
  simp [Database.peer, found, decoded, Functor.map, Except.map]

theorem saveGrant_eq_ok {grant : Grant} (saved : database.saveGrant platform grant = .ok after) :
    ∃ row, encodeGrant platform grant = .ok row ∧ after.peers = database.peers ∧
      after.grants = database.grants.upsert row := by
  obtain ⟨row, encoded, stored⟩ := Except.bind_eq_ok.mp saved
  exact ⟨row, encoded, (upsertGrant_eq_ok.mp stored).2⟩

theorem savePeer_eq_ok (saved : database.savePeer platform peer = .ok after) :
    platform.verifyKey peer.deviceId peer.publicKey = .ok () ∧
      after = database.upsertPeer (encodePeer peer) := by
  obtain ⟨_, verified, same⟩ := Except.bind_eq_ok.mp saved
  exact ⟨backend_eq_ok.mp verified, (Except.pure_eq_ok.mp same).symm⟩

end Database

end ArcRelay
