import ArcRelay.Lib.Fallible
import ArcRelay.Verif.EndpointHistory
import ArcRelay.Verif.PeerStore
import ArcRelay.Verif.Protocol

/-!
# The two endpoint repositories agree

The repository in memory and the one in SQLite, driven by the same calls with the
same clock. A row holds an endpoint if it decodes to it; the two repositories
agree on a peer if the rows of the peer hold the endpoints in memory. Every call
keeps the agreement as long as nothing is cut off on either side: at most sixteen
addresses between two calls of `forget`, no endpoint older than ninety days, and
a clock whose sums fit into 64 bits.
-/

namespace ArcRelay

/-! ## Rows and endpoints -/

theorem EndpointSource.decode_encode (source : EndpointSource) :
    EndpointSource.decode source.encode = .ok source := by
  cases source <;> rfl

theorem toNat_decodeFailures {value : Int} (natural : 0 ≤ value) :
    (decodeFailures value).toNat = min value.toNat (2 ^ 32 - 1) := by
  unfold decodeFailures
  split
  · rw [UInt32.toNat_ofNat']
    omega
  · have top : (0xffffffff : UInt32).toNat = 2 ^ 32 - 1 := rfl
    rw [top]
    omega

theorem decodeFailures_succ {value : Int} (natural : 0 ≤ value) :
    decodeFailures (value + 1) = saturatingSucc (decodeFailures value) := by
  rw [← UInt32.toNat_inj, toNat_saturatingSucc, toNat_decodeFailures natural,
    toNat_decodeFailures (by omega)]
  omega

variable (platform : Platform)

/-- A row holds an endpoint. -/
structure Holds (row : EndpointRow) (endpoint : RememberedEndpoint) : Prop where
  key : row.key = (endpoint.peerId.asStr, platform.addressText endpoint.address)
  parsed : platform.parseDeviceId endpoint.peerId.asStr = .ok endpoint.peerId
  plain : endpoint.address.flowinfo = 0
  certificate : row.certificateSha256 = endpoint.certificateSha256.toList
  source : row.source = endpoint.source.encode
  scope : row.networkScope = endpoint.networkScope
  first : row.firstSeenAtMs = endpoint.firstSeenAtMs
  seen : row.lastSeenAtMs = endpoint.lastSeenAtMs
  success : row.lastSuccessAtMs = endpoint.lastSuccessAtMs
  natural : 0 ≤ row.consecutiveFailures
  failures : decodeFailures row.consecutiveFailures = endpoint.consecutiveFailures
  retry : row.retryAfterMs = endpoint.retryAfterMs

variable {platform} {row : EndpointRow} {endpoint : RememberedEndpoint}

theorem Holds.decoded (holds : Holds platform row endpoint) :
    decodeEndpoint platform row = .ok endpoint := by
  have peer : row.peerId = endpoint.peerId.asStr := congrArg Prod.fst holds.key
  have address : row.address = platform.addressText endpoint.address := congrArg Prod.snd holds.key
  obtain ⟨peerId, _, certificate, source, _, _, _, _, _, _⟩ := endpoint
  simp only [decodeEndpoint, peer, address, holds.parsed,
    platform.parseAddress_addressText _ holds.plain, holds.certificate, decodeCertificate,
    digestOfBytes?_toList, holds.source, EndpointSource.decode_encode, holds.scope, holds.first,
    holds.seen, holds.success, holds.failures, holds.retry, networkBackend, Except.mapError, bind,
    Except.bind, pure, Except.pure]

theorem addressText_inj {first second : SocketAddr} (plain : first.flowinfo = 0)
    (plain' : second.flowinfo = 0) :
    platform.addressText first = platform.addressText second ↔ first = second := by
  constructor
  · intro same
    have parsed := platform.parseAddress_addressText first plain
    rw [same, platform.parseAddress_addressText second plain'] at parsed
    exact (Except.ok.inj parsed).symm
  · exact congrArg _

variable (platform)

/-- The rows of a peer hold its endpoints in memory. -/
structure Agrees (store : PeerStore) (peerId : DeviceId) (endpoints : List RememberedEndpoint) :
    Prop where
  stored : ∀ endpoint ∈ endpoints, ∃ row ∈ store.endpoints.rows, Holds platform row endpoint
  known : ∀ row ∈ store.endpoints.rows, row.peerId = peerId.asStr →
    ∃ endpoint ∈ endpoints, Holds platform row endpoint

section Agreement

variable {platform} {store : PeerStore} {peerId : DeviceId} {endpoints : List RememberedEndpoint}

instance : Std.Total PeerStore.endpointOrder where
  total left right := by
    unfold PeerStore.endpointOrder
    omega

instance : IsTrans EndpointRow PeerStore.endpointOrder where
  trans first second third := by
    unfold PeerStore.endpointOrder
    omega

/-- What the store answers when its rows hold the endpoints. -/
theorem Agrees.endpointsOf (agrees : Agrees platform store peerId endpoints)
    (own : ∀ endpoint ∈ endpoints, endpoint.peerId = peerId)
    (decreasing : endpoints.Pairwise fun left right => right.lastSuccessAtMs < left.lastSuccessAtMs)
    (few : endpoints.length ≤ 16) {now : Int}
    (young : ∀ endpoint ∈ endpoints,
      saturate (now - PeerStore.maxAgeMs) ≤ endpoint.lastSuccessAtMs) :
    store.endpointsOf platform peerId now =
      .ok (endpoints.filter fun endpoint => endpoint.retryAfterMs ≤ now) := by
  have each : ∀ endpoint ∈ endpoints.filter fun endpoint => endpoint.retryAfterMs ≤ now,
      ∃ row, row ∈ store.endpoints.rows ∧ Holds platform row endpoint := fun endpoint member =>
    agrees.stored endpoint (List.mem_of_mem_filter member)
  obtain ⟨rows, pairs⟩ := List.exists_forall₂ each
  -- the rows in the order of the endpoints are the selected ones
  have ordered : rows.Pairwise fun left right => right.lastSuccessAtMs < left.lastSuccessAtMs := by
    have times : rows.map EndpointRow.lastSuccessAtMs =
        (endpoints.filter fun endpoint => endpoint.retryAfterMs ≤ now).map
          RememberedEndpoint.lastSuccessAtMs := pairs.map_eq fun _ _ held => held.2.success
    have sorted : (rows.map EndpointRow.lastSuccessAtMs).Pairwise fun left right =>
        right < left := by
      rw [times]
      exact List.pairwise_map.mpr (decreasing.sublist List.filter_sublist)
    exact List.pairwise_map.mp sorted
  have selected : (store.endpoints.select fun row => row.peerId = peerId.asStr &&
      row.retryAfterMs ≤ now && saturate (now - PeerStore.maxAgeMs) ≤ row.lastSuccessAtMs).Perm
        rows := by
    refine (List.perm_ext_iff_of_nodup ((List.Nodup.of_map _ store.endpoints.distinct).filter _)
      (ordered.imp fun less => by rintro rfl; exact lt_irrefl _ less)).mpr fun row => ?_
    simp only [List.mem_filter, Bool.and_eq_true, decide_eq_true_eq]
    constructor
    · rintro ⟨member, ⟨peer, waited⟩, -⟩
      obtain ⟨endpoint, inside, held⟩ := agrees.known row member peer
      have kept : endpoint ∈ endpoints.filter fun endpoint => endpoint.retryAfterMs ≤ now :=
        List.mem_filter.mpr ⟨inside, by simpa [← held.retry] using waited⟩
      obtain ⟨other, found, present, held'⟩ := pairs.exists_left kept
      rwa [store.endpoints.eq_of_key_eq member present (held.key.trans held'.key.symm)]
    · intro found
      obtain ⟨endpoint, kept, present, held⟩ := pairs.exists_right found
      obtain ⟨inside, waited⟩ := List.mem_filter.mp kept
      refine ⟨present, ⟨?_, ?_⟩, ?_⟩
      · rw [← own endpoint inside]
        exact congrArg Prod.fst held.key
      · rw [held.retry]
        simpa using waited
      · rw [held.success]
        exact young endpoint inside
  have sorted : (store.endpoints.select fun row => row.peerId = peerId.asStr &&
      row.retryAfterMs ≤ now && saturate (now - PeerStore.maxAgeMs) ≤
        row.lastSuccessAtMs).insertionSort PeerStore.endpointOrder = rows := by
    refine List.insertionSort_eq_of_perm selected ordered (fun left right order => ?_)
      fun left right less => Or.inl less
    rcases order with less | ⟨same, -⟩
    · exact less.le
    · exact same.le
  have length : rows.length ≤ 16 := by
    rw [pairs.length_eq]
    exact (List.length_filter_le _ _).trans few
  rw [PeerStore.endpointsOf, sorted, List.take_of_length_le length, Except.mapM_eq_ok]
  exact pairs.imp fun _ _ held => held.2.decoded

theorem Agrees.unrelated {after : PeerStore} (agrees : Agrees platform store peerId endpoints)
    (own : ∀ endpoint ∈ endpoints, endpoint.peerId = peerId)
    (same : ∀ row, row.peerId = peerId.asStr →
      (row ∈ after.endpoints.rows ↔ row ∈ store.endpoints.rows)) :
    Agrees platform after peerId endpoints := by
  constructor
  · intro endpoint member
    obtain ⟨row, present, held⟩ := agrees.stored endpoint member
    have peer : row.peerId = peerId.asStr := by
      rw [← own endpoint member]
      exact congrArg Prod.fst held.key
    exact ⟨row, (same row peer).mpr present, held⟩
  · intro row present peer
    exact agrees.known row ((same row peer).mp present) peer

/-- The row of an address of the peer. -/
theorem Agrees.find? (agrees : Agrees platform store peerId endpoints)
    (own : ∀ endpoint ∈ endpoints, endpoint.peerId = peerId) {address : SocketAddr}
    (plain : address.flowinfo = 0) :
    match endpoints.find? fun endpoint => endpoint.address = address with
    | some endpoint => ∃ row, store.endpoints.find? (peerId.asStr, platform.addressText address) =
        some row ∧ Holds platform row endpoint
    | none => store.endpoints.find? (peerId.asStr, platform.addressText address) = none := by
  split
  · rename_i endpoint found
    have inside := List.mem_of_find?_eq_some found
    have here : endpoint.address = address := by simpa using List.find?_some found
    obtain ⟨row, present, held⟩ := agrees.stored endpoint inside
    refine ⟨row, Table.find?_eq_some.mpr ⟨present, ?_⟩, held⟩
    rw [held.key, own endpoint inside, here]
  · rename_i missing
    refine Table.find?_eq_none.mpr fun row present same => ?_
    obtain ⟨endpoint, inside, held⟩ := agrees.known row present (congrArg Prod.fst same)
    have text : platform.addressText endpoint.address = platform.addressText address :=
      congrArg Prod.snd (held.key.symm.trans same)
    have here := (addressText_inj held.plain plain).mp text
    simpa [here] using List.find?_eq_none.mp missing endpoint inside

theorem Holds.key_eq_iff {row other : EndpointRow} {endpoint endpoint' : RememberedEndpoint}
    (held : Holds platform row endpoint) (held' : Holds platform other endpoint')
    (peer : endpoint.peerId = endpoint'.peerId) :
    row.key = other.key ↔ endpoint.address = endpoint'.address := by
  rw [held.key, held'.key, peer, Prod.mk.injEq, addressText_inj held.plain held'.plain]
  simp

/-- Replacing the row of one endpoint and keeping the others. -/
theorem Agrees.replace {after : PeerStore} {row : EndpointRow} {endpoint : RememberedEndpoint}
    (agrees : Agrees platform store peerId endpoints)
    (own : ∀ endpoint ∈ endpoints, endpoint.peerId = peerId) (held : Holds platform row endpoint)
    (peer : endpoint.peerId = peerId) (rows : after.endpoints = store.endpoints.upsert row) :
    Agrees platform after peerId
      (endpoint :: endpoints.filter fun other => other.address ≠ endpoint.address) := by
  constructor
  · intro other member
    rcases List.mem_cons.mp member with rfl | kept
    · exact ⟨row, by rw [rows]; exact Table.mem_upsert.mpr (Or.inl rfl), held⟩
    · obtain ⟨inside, different⟩ := List.mem_filter.mp kept
      obtain ⟨stored, present, held'⟩ := agrees.stored other inside
      refine ⟨stored, ?_, held'⟩
      rw [rows]
      refine Table.mem_upsert.mpr (Or.inr ⟨present, fun same => ?_⟩)
      have addresses := (held'.key_eq_iff held ((own other inside).trans peer.symm)).mp same
      simp [addresses] at different
  · intro stored present here
    rw [rows] at present
    rcases Table.mem_upsert.mp present with rfl | ⟨before, different⟩
    · exact ⟨endpoint, List.mem_cons_self, held⟩
    · obtain ⟨other, inside, held'⟩ := agrees.known stored before here
      refine ⟨other, List.mem_cons_of_mem _ (List.mem_filter.mpr ⟨inside, ?_⟩), held'⟩
      have addresses : other.address ≠ endpoint.address := fun same =>
        different ((held'.key_eq_iff held ((own other inside).trans peer.symm)).mpr same)
      simpa using addresses

theorem Agrees.congr {others : List RememberedEndpoint}
    (agrees : Agrees platform store peerId endpoints)
    (same : ∀ endpoint, endpoint ∈ others ↔ endpoint ∈ endpoints) :
    Agrees platform store peerId others := by
  constructor
  · exact fun endpoint member => agrees.stored endpoint ((same endpoint).mp member)
  · intro row present peer
    obtain ⟨endpoint, inside, held⟩ := agrees.known row present peer
    exact ⟨endpoint, (same endpoint).mpr inside, held⟩

/-- The row that an authentication leaves holds the endpoint it leaves in memory. -/
theorem Agrees.authenticated (agrees : Agrees platform store peerId endpoints)
    (own : ∀ endpoint ∈ endpoints, endpoint.peerId = peerId)
    (parsed : platform.parseDeviceId peerId.asStr = .ok peerId) {address : SocketAddr}
    (plain : address.flowinfo = 0) (certificateSha256 : Digest) (source : EndpointSource)
    (now : Int) :
    Holds platform
      (PeerStore.conflictRow
        (store.endpoints.find? (peerId.asStr, platform.addressText address))
        (PeerStore.authenticatedRow platform peerId address certificateSha256 source now))
      (EndpointMemory.notedEndpoint address certificateSha256 source now endpoints peerId) := by
  have found := agrees.find? own plain
  unfold EndpointMemory.notedEndpoint
  cases known : endpoints.find? fun endpoint => endpoint.address = address with
  | some endpoint =>
    simp only [known] at found
    obtain ⟨row, stored, held⟩ := found
    have inside := List.mem_of_find?_eq_some known
    have here : endpoint.address = address := by simpa using List.find?_some known
    have peer := own endpoint inside
    rw [stored]
    exact {
      key := by
        simp [EndpointRow.key, PeerStore.conflictRow, PeerStore.authenticatedRow,
          EndpointMemory.renew, peer, here]
      parsed := by simpa [EndpointMemory.renew, peer] using parsed
      plain := held.plain
      certificate := rfl
      source := rfl
      scope := rfl
      first := held.first
      seen := rfl
      success := rfl
      natural := le_refl _
      failures := rfl
      retry := rfl }
  | none =>
    simp only [known] at found
    rw [found]
    exact {
      key := rfl
      parsed := parsed
      plain := plain
      certificate := rfl
      source := rfl
      scope := rfl
      first := rfl
      seen := rfl
      success := rfl
      natural := le_refl _
      failures := rfl
      retry := rfl }

theorem wait_le (count : Nat) :
    (0 : Int) ≤ 2 ^ min count 8 * 1000 ∧ (2 : Int) ^ min count 8 * 1000 ≤ 256000 := by
  have bound : (2 : Int) ^ min count 8 ≤ 2 ^ 8 :=
    pow_le_pow_right₀ (by decide) (Nat.min_le_right _ _)
  have positive : (0 : Int) ≤ 2 ^ min count 8 := by positivity
  omega

/-- The row that a failure leaves holds the endpoint it leaves in memory, as long as the time to
wait for fits into 64 bits. -/
theorem Holds.failed {row : EndpointRow} {endpoint : RememberedEndpoint}
    (held : Holds platform row endpoint) {now : Int} (clock : i64Min ≤ now)
    (early : now + 2 ^ min (saturatingSucc endpoint.consecutiveFailures).toNat 8 * 1000 ≤ i64Max)
    (counted : row.consecutiveFailures < i64Max) :
    ∃ failed, PeerStore.failedRow row now = .ok failed ∧
      Holds platform failed (EndpointMemory.backOff endpoint now) ∧
      failed.consecutiveFailures = row.consecutiveFailures + 1 := by
  have natural := held.natural
  have exponent : (min (row.consecutiveFailures + 1) 8).toNat =
      min (saturatingSucc endpoint.consecutiveFailures).toNat 8 := by
    rw [← held.failures, ← decodeFailures_succ natural, toNat_decodeFailures (by omega)]
    omega
  obtain ⟨positive, short⟩ := wait_le (saturatingSucc endpoint.consecutiveFailures).toNat
  have least : i64Min ≤ 0 := by decide
  have capped : min 300000 ((2 : Int) ^ min (saturatingSucc endpoint.consecutiveFailures).toNat 8 *
      1000) = 2 ^ min (saturatingSucc endpoint.consecutiveFailures).toNat 8 * 1000 := by omega
  refine ⟨{ row with
    consecutiveFailures := row.consecutiveFailures + 1
    retryAfterMs := now + 2 ^ min (saturatingSucc endpoint.consecutiveFailures).toNat 8 * 1000 },
    ?_, ?_, rfl⟩
  · rw [PeerStore.failedRow, sqlSum, if_pos (by omega)]
    simp only [bind, Except.bind]
    rw [exponent, capped, sqlSum, if_pos (by omega)]
    rfl
  · exact { held with
      natural := by simp only; omega
      failures := by
        simp only [decodeFailures_succ natural, held.failures, EndpointMemory.backOff]
      retry := by
        simp only [EndpointMemory.backOff, saturatingAdd, saturate]
        omega }

theorem Agrees.foreign {after : PeerStore} {row : EndpointRow}
    (agrees : Agrees platform store peerId endpoints)
    (own : ∀ endpoint ∈ endpoints, endpoint.peerId = peerId)
    (rows : after.endpoints = store.endpoints.upsert row) (other : row.peerId ≠ peerId.asStr) :
    Agrees platform after peerId endpoints := by
  refine agrees.unrelated own fun stored peer => ?_
  rw [rows, Table.mem_upsert]
  constructor
  · rintro (rfl | ⟨before, -⟩)
    · exact absurd peer other
    · exact before
  · intro before
    refine Or.inr ⟨before, fun same => other ?_⟩
    rw [← peer]
    exact (congrArg Prod.fst same).symm

end Agreement

/-! ## One call on both sides -/

/-- What a run keeps: the peers are as they were, the two repositories agree on every peer, and no
counter has gone further than the calls. -/
structure Alike (database : Database) (trace : List Timed) (store : PeerStore)
    (memory : EndpointMemory) : Prop where
  database : store.database = database
  agrees : ∀ peerId, Agrees platform store peerId (memory peerId)
  counted : ∀ row ∈ store.endpoints.rows, row.consecutiveFailures ≤ trace.length

/-- The peer of a call. -/
def EndpointCall.peerId : EndpointCall → DeviceId
  | .recordAuthenticated peerId _ _ _ => peerId
  | .recordFailure peerId _ => peerId
  | .forget peerId => peerId

/-- The address of a call. -/
def EndpointCall.address? : EndpointCall → Option SocketAddr
  | .recordAuthenticated _ address _ _ => some address
  | .recordFailure _ address => some address
  | .forget _ => none

/-- A call that both repositories take alike: its peer is stored and its address survives its
text. -/
structure Fits (database : Database) (timed : Timed) : Prop where
  stored : ∃ row ∈ database.peers.rows, row.deviceId = timed.call.peerId.asStr
  parsed : platform.parseDeviceId timed.call.peerId.asStr = .ok timed.call.peerId
  plain : ∀ address ∈ timed.call.address?, address.flowinfo = 0
  clock : i64Min ≤ timed.time

/-- The time to wait for after a failure of a remembered endpoint fits into 64 bits. -/
def WaitFits (memory : EndpointMemory) (timed : Timed) : Prop :=
  ∀ peerId address, timed.call = .recordFailure peerId address →
    ∀ endpoint ∈ memory peerId, endpoint.address = address →
      timed.time + 2 ^ min (saturatingSucc endpoint.consecutiveFailures).toNat 8 * 1000 ≤ i64Max

/-- The addresses of a peer that were authenticated since it was last forgotten. -/
def authenticatedAddresses (peerId : DeviceId) (trace : List Timed) : Finset SocketAddr :=
  (((sinceForgotten peerId trace).filterMap (Timed.authentication? peerId)).map
    Authentication.address).toFinset

section Step

variable {platform} {database : Database} {trace : List Timed} {timed : Timed}
  {store : PeerStore} {memory : EndpointMemory}

/-- While no more than sixteen addresses are authenticated, the others are kept. -/
theorem length_others_le {peerId : DeviceId} {address : SocketAddr} {certificateSha256 : Digest}
    {source : EndpointSource} (mirrors : Mirrors trace memory)
    (call : timed.call = .recordAuthenticated peerId address certificateSha256 source)
    (few : (authenticatedAddresses peerId (trace ++ [timed])).card ≤ 16) :
    ((memory peerId).filter fun other => other.address ≠ address).length ≤ 15 := by
  have stored := mirrors peerId
  have addresses : (remembered peerId trace).map Authentication.address =
      (memory peerId).map RememberedEndpoint.address :=
    stored.map_eq fun _ _ recalls => recalls.address.symm
  have distinct : (address :: ((memory peerId).filter fun other =>
      other.address ≠ address).map RememberedEndpoint.address).Nodup := by
    refine List.nodup_cons.mpr ⟨by simp, ?_⟩
    have all : ((memory peerId).map RememberedEndpoint.address).Nodup :=
      addresses ▸ nodup_remembered
    exact all.sublist (List.filter_sublist.map _)
  have inside : (address :: ((memory peerId).filter fun other =>
      other.address ≠ address).map RememberedEndpoint.address).toFinset ⊆
        authenticatedAddresses peerId (trace ++ [timed]) := by
    have recent : authenticatedAddresses peerId (trace ++ [timed]) =
        insert address (authenticatedAddresses peerId trace) := by
      simp [authenticatedAddresses, sinceForgotten_concat (show timed.call ≠ .forget peerId by
        simp [call]), Timed.authentication?, call]
    rw [recent, List.toFinset_cons]
    refine Finset.insert_subset_insert _ fun other member => ?_
    obtain ⟨endpoint, kept, rfl⟩ := List.mem_map.mp (List.mem_toFinset.mp member)
    obtain ⟨authentication, known, recalls⟩ := stored.exists_left (List.mem_of_mem_filter kept)
    rw [recalls.address]
    have found := ((List.take_sublist _ _).trans (List.firstByKey_sublist _ _)).subset known
    exact List.mem_toFinset.mpr (List.mem_map_of_mem found)
  have card := (Finset.card_le_card inside).trans few
  rw [List.toFinset_card_of_nodup distinct, List.length_cons, List.length_map] at card
  omega

theorem Alike.longer (alike : Alike platform database trace store memory) :
    Alike platform database (trace ++ [timed]) store memory where
  database := alike.database
  agrees := alike.agrees
  counted := by
    intro row present
    have bound := alike.counted row present
    rw [List.length_append]
    omega

/-- A replaced row on one side and a replaced endpoint on the other leave the repositories alike. -/
theorem Alike.upsert (alike : Alike platform database trace store memory)
    (increasing : trace.Pairwise fun left right => left.time < right.time)
    (mirrors : Mirrors trace memory) {peerId : DeviceId} {after : PeerStore} {row : EndpointRow}
    {endpoint : RememberedEndpoint} {endpoints : List RememberedEndpoint}
    (kept : after.database = store.database) (rows : after.endpoints = store.endpoints.upsert row)
    (held : Holds platform row endpoint) (peer : endpoint.peerId = peerId)
    (listed : ∀ other, other ∈ endpoints ↔ other ∈ endpoint ::
      (memory peerId).filter fun other => other.address ≠ endpoint.address)
    (count : row.consecutiveFailures ≤ trace.length + 1) :
    Alike platform database (trace ++ [timed]) after
      (Function.update memory peerId endpoints) := by
  constructor
  · rw [kept, alike.database]
  · intro other
    obtain ⟨own, -, -, -⟩ := EndpointMemory.stored_facts increasing (mirrors other)
    by_cases here : other = peerId
    · subst here
      rw [Function.update_self]
      exact ((alike.agrees other).replace own held peer rows).congr listed
    · rw [Function.update_of_ne here]
      refine (alike.agrees other).foreign own rows fun same => here ?_
      have text : row.peerId = peerId.asStr := by
        rw [← peer]
        exact congrArg Prod.fst held.key
      exact DeviceId.asStr_injective (same.symm.trans text)
  · intro stored present
    rw [rows] at present
    rw [List.length_append]
    rcases Table.mem_upsert.mp present with rfl | ⟨old, -⟩
    · exact count
    · have bound := alike.counted stored old
      omega

/-- A recorded authentication leaves the repositories alike. -/
theorem Alike.authenticated (alike : Alike platform database trace store memory)
    (increasing : (trace ++ [timed]).Pairwise fun left right => left.time < right.time)
    (mirrors : Mirrors trace memory) (fits : Fits platform database timed) {peerId : DeviceId}
    {address : SocketAddr} {certificateSha256 : Digest} {source : EndpointSource}
    (call : timed.call = .recordAuthenticated peerId address certificateSha256 source)
    (few : (authenticatedAddresses peerId (trace ++ [timed])).card ≤ 16) :
    Alike platform database (trace ++ [timed]) (store.perform platform timed)
      (memory.perform timed) := by
  obtain ⟨before, -, earlier⟩ := List.pairwise_append.mp increasing
  obtain ⟨own, distinct, decreasing, recorded⟩ :=
    EndpointMemory.stored_facts before (mirrors peerId)
  have stored : ∃ row ∈ store.database.peers.rows, row.deviceId = peerId.asStr := by
    rw [alike.database]
    simpa [EndpointCall.peerId, call] using fits.stored
  have parsed : platform.parseDeviceId peerId.asStr = .ok peerId := by
    simpa [EndpointCall.peerId, call] using fits.parsed
  have plain : address.flowinfo = 0 := fits.plain address (by simp [EndpointCall.address?, call])
  have renewed := EndpointMemory.renewed_notedEndpoint address certificateSha256 source timed.time
    own
  -- nothing is cut off, so the list in memory is the new endpoint and the others
  have sorted := EndpointMemory.sorted_noted address certificateSha256 source timed.time own
    distinct decreasing fun endpoint member => by
      obtain ⟨other, inside, same⟩ := recorded endpoint member
      exact same ▸ earlier other inside timed List.mem_cons_self
  rw [List.take_of_length_le (length_others_le mirrors call few)] at sorted
  simp only [PeerStore.perform, PeerStore.record, call, PeerStore.recordAuthenticated,
    dif_pos stored, EndpointMemory.perform, EndpointMemory.recordAuthenticated]
  refine alike.upsert before mirrors rfl rfl
    ((alike.agrees peerId).authenticated own parsed plain certificateSha256 source timed.time)
    renewed.peer (fun other => ?_) ?_
  · rw [sorted, renewed.address]
  · have fresh : ∀ known, (PeerStore.conflictRow known (PeerStore.authenticatedRow platform peerId
        address certificateSha256 source timed.time)).consecutiveFailures = 0 := by
      intro known
      cases known <;> rfl
    rw [fresh]
    omega

/-- A recorded failure leaves the repositories alike. -/
theorem Alike.failed (alike : Alike platform database trace store memory)
    (increasing : trace.Pairwise fun left right => left.time < right.time)
    (mirrors : Mirrors trace memory) (fits : Fits platform database timed)
    (waitFits : WaitFits memory timed) (short : trace.length < i64Max) {peerId : DeviceId}
    {address : SocketAddr} (call : timed.call = .recordFailure peerId address) :
    Alike platform database (trace ++ [timed]) (store.perform platform timed)
      (memory.perform timed) := by
  obtain ⟨own, distinct, -, -⟩ := EndpointMemory.stored_facts increasing (mirrors peerId)
  have plain : address.flowinfo = 0 := fits.plain address (by simp [EndpointCall.address?, call])
  have found := (alike.agrees peerId).find? own plain
  have moved : memory.perform timed = Function.update memory peerId ((memory peerId).map
      fun endpoint => if endpoint.address = address then
        EndpointMemory.backOff endpoint timed.time else endpoint) := by
    simp only [EndpointMemory.perform, call, EndpointMemory.recordFailure,
      List.modifyFirst_eq_map distinct]
  rw [moved]
  split at found
  · rename_i endpoint known
    obtain ⟨row, stored, held⟩ := found
    have member := List.mem_of_find?_eq_some known
    obtain rfl : endpoint.address = address := by simpa using List.find?_some known
    have bound := alike.counted row (Table.find?_eq_some.mp stored).1
    obtain ⟨failed, updated, held', count⟩ :=
      held.failed fits.clock (waitFits _ _ call endpoint member rfl) (by omega)
    obtain ⟨after, recorded, kept, rows⟩ := recordFailure_known stored updated
    simp only [PeerStore.perform, PeerStore.record, call, recorded]
    refine alike.upsert increasing mirrors kept rows held' (own endpoint member)
      (fun other => (List.perm_map_change distinct _ member).mem_iff) ?_
    omega
  · rename_i unknown
    have others : ((memory peerId).map fun endpoint => if endpoint.address = address then
        EndpointMemory.backOff endpoint timed.time else endpoint) = memory peerId := by
      conv_rhs => rw [← List.map_id (memory peerId)]
      refine List.map_congr_left fun endpoint member => if_neg ?_
      simpa using List.find?_eq_none.mp unknown endpoint member
    rw [others, Function.update_eq_self]
    simp only [PeerStore.perform, PeerStore.record, call, recordFailure_unknown found]
    exact alike.longer

/-- A forgotten peer leaves the repositories alike. -/
theorem Alike.forgotten (alike : Alike platform database trace store memory)
    (increasing : trace.Pairwise fun left right => left.time < right.time)
    (mirrors : Mirrors trace memory) {peerId : DeviceId} (call : timed.call = .forget peerId) :
    Alike platform database (trace ++ [timed]) (store.perform platform timed)
      (memory.perform timed) := by
  simp only [PeerStore.perform, PeerStore.record, call, EndpointMemory.perform,
    EndpointMemory.forget]
  constructor
  · exact alike.database
  · intro other
    by_cases here : other = peerId
    · subst here
      rw [Function.update_self]
      constructor
      · intro endpoint member
        cases member
      · intro row present peer
        have kept := (Table.mem_deleteWhere.mp present).2
        simp [peer] at kept
    · obtain ⟨own, -, -, -⟩ := EndpointMemory.stored_facts increasing (mirrors other)
      rw [Function.update_of_ne here]
      refine (alike.agrees other).unrelated own fun row peer => ?_
      have foreign : row.peerId ≠ peerId.asStr := fun same =>
        here (DeviceId.asStr_injective (peer.symm.trans same))
      simp [PeerStore.forgetEndpoints, foreign]
  · exact fun row present => alike.longer.counted row (Table.mem_deleteWhere.mp present).1

/-- One call leaves the repositories alike. -/
theorem alike_perform (alike : Alike platform database trace store memory)
    (increasing : (trace ++ [timed]).Pairwise fun left right => left.time < right.time)
    (mirrors : Mirrors trace memory) (fits : Fits platform database timed)
    (waitFits : WaitFits memory timed) (short : trace.length < i64Max)
    (few : (authenticatedAddresses timed.call.peerId (trace ++ [timed])).card ≤ 16) :
    Alike platform database (trace ++ [timed]) (store.perform platform timed)
      (memory.perform timed) := by
  obtain ⟨before, -, -⟩ := List.pairwise_append.mp increasing
  cases call : timed.call with
  | recordAuthenticated peerId address certificateSha256 source =>
    exact alike.authenticated increasing mirrors fits call (by rwa [call] at few)
  | recordFailure peerId address => exact alike.failed before mirrors fits waitFits short call
  | forget peerId => exact alike.forgotten before mirrors call

end Step

/-! ## Whole runs -/

/-- A call on an endpoint repository. -/
inductive RepositoryCall where
  | change (timed : Timed)
  | endpoints (peerId : DeviceId) (now : Int)

namespace RepositoryCall

/-- The time a call reads. -/
def time : RepositoryCall → Int
  | .change timed => timed.time
  | .endpoints _ now => now

/-- The change a call makes. -/
def change? : RepositoryCall → Option Timed
  | .change timed => some timed
  | .endpoints _ _ => none

end RepositoryCall

/-- The answers of a repository to the queries of a run. -/
def answers {Repository : Type} (perform : Repository → Timed → Repository)
    (query : Repository → DeviceId → Int → Except NetworkError (List RememberedEndpoint)) :
    Repository → List RepositoryCall → List (Except NetworkError (List RememberedEndpoint))
  | _, [] => []
  | repository, .change timed :: rest => answers perform query (perform repository timed) rest
  | repository, .endpoints peerId now :: rest =>
    query repository peerId now :: answers perform query repository rest

/-- The answers of `InMemoryEndpointRepository`. -/
def memoryAnswers : List RepositoryCall → List (Except NetworkError (List RememberedEndpoint)) :=
  answers EndpointMemory.perform (fun memory peerId now => .ok (memory.endpoints peerId now))
    EndpointMemory.empty

/-- The answers of `SqlitePeerRepository`. -/
def storeAnswers (store : PeerStore) :
    List RepositoryCall → List (Except NetworkError (List RememberedEndpoint)) :=
  answers (PeerStore.perform platform) (PeerStore.endpointsOf platform) store

/-- Runs in which nothing is cut off on either side. -/
structure Comparable (store : PeerStore) (calls : List RepositoryCall) : Prop where
  fresh : store.endpoints.rows = []
  increasing : calls.Pairwise fun left right => left.time < right.time
  span : ∀ first ∈ calls, ∀ last ∈ calls, last.time - first.time < PeerStore.maxAgeMs
  fits : ∀ timed, .change timed ∈ calls → Fits platform store.database timed
  waitFits : ∀ done timed, done ++ [.change timed] <+: calls →
    WaitFits (Run.exec EndpointMemory.perform EndpointMemory.empty
      (done.filterMap RepositoryCall.change?)) timed
  /-- At most sixteen addresses are authenticated between two calls of `forget`. -/
  few : ∀ done, done <+: calls → ∀ peerId,
    (authenticatedAddresses peerId (done.filterMap RepositoryCall.change?)).card ≤ 16

section Runs

variable {platform} {calls : List RepositoryCall} {store : PeerStore}

/-- A clock that counts milliseconds and increases shows no more times than there are. -/
theorem length_le_of_increasing (low high : Int)
    (increasing : calls.Pairwise fun left right => left.time < right.time)
    (within : ∀ call ∈ calls, low ≤ call.time ∧ call.time < high) :
    calls.length ≤ (high - low).toNat := by
  have distinct : (calls.map RepositoryCall.time).Nodup :=
    List.pairwise_map.mpr (increasing.imp fun less => less.ne)
  have inside : (calls.map RepositoryCall.time).toFinset ⊆ Finset.Ico low high := by
    intro time member
    obtain ⟨call, here, rfl⟩ := List.mem_map.mp (List.mem_toFinset.mp member)
    exact Finset.mem_Ico.mpr (within call here)
  have card := Finset.card_le_card inside
  rwa [List.toFinset_card_of_nodup distinct, List.length_map, Int.card_Ico] at card

theorem Comparable.short (comparable : Comparable platform store calls) :
    (calls.length : Int) < i64Max := by
  cases calls with
  | nil => decide
  | cons first rest =>
    have length := length_le_of_increasing first.time (first.time + PeerStore.maxAgeMs)
      comparable.increasing fun call member => by
        have recent := comparable.span first List.mem_cons_self call member
        refine ⟨?_, by omega⟩
        rcases List.mem_cons.mp member with rfl | later
        · exact le_refl _
        · exact (List.rel_of_pairwise_cons comparable.increasing later).le
    have age : 0 < PeerStore.maxAgeMs ∧ PeerStore.maxAgeMs < i64Max := by decide
    omega

/-- A query of repositories that are alike. -/
theorem Alike.query {database : Database} {trace : List Timed} {memory : EndpointMemory}
    (alike : Alike platform database trace store memory) (mirrors : Mirrors trace memory)
    (increasing : trace.Pairwise fun left right => left.time < right.time) {peerId : DeviceId}
    {now : Int}
    (young : ∀ timed ∈ trace, i64Min ≤ timed.time ∧ now - timed.time < PeerStore.maxAgeMs) :
    store.endpointsOf platform peerId now = .ok (memory.endpoints peerId now) := by
  have stored := mirrors peerId
  obtain ⟨own, -, decreasing, recorded⟩ := EndpointMemory.stored_facts increasing stored
  have few : (memory peerId).length ≤ 16 := stored.length_eq ▸ List.length_take_le _ _
  rw [EndpointMemory.endpoints_eq_filter decreasing few]
  refine (alike.agrees peerId).endpointsOf own decreasing few fun endpoint member => ?_
  obtain ⟨timed, inside, same⟩ := recorded endpoint member
  have recent := young timed inside
  unfold saturate
  omega

/-- From repositories that are alike after the first part of a run, the rest of the run gets the
same answers. -/
theorem Comparable.answers_eq (comparable : Comparable platform store calls)
    {done rest : List RepositoryCall} (split : done ++ rest = calls) {current : PeerStore}
    {memory : EndpointMemory} (performed : Run.exec EndpointMemory.perform EndpointMemory.empty
      (done.filterMap RepositoryCall.change?) = memory)
    (mirrors : Mirrors (done.filterMap RepositoryCall.change?) memory)
    (alike : Alike platform store.database (done.filterMap RepositoryCall.change?) current memory) :
    answers EndpointMemory.perform (fun memory peerId now => .ok (memory.endpoints peerId now))
        memory rest =
      answers (PeerStore.perform platform) (PeerStore.endpointsOf platform) current rest := by
  induction rest generalizing done current memory with
  | nil => rfl
  | cons call rest ih =>
    have next : done ++ [call] ++ rest = calls := by simpa using split
    have reached : done ++ [call] <+: calls := ⟨rest, next⟩
    have ordered := comparable.increasing.sublist reached.sublist
    have changes : ((done ++ [call]).filterMap RepositoryCall.change?).Pairwise
        fun left right => left.time < right.time := by
      refine List.Pairwise.filterMap _ (fun left right less first one second other => ?_) ordered
      cases left <;> cases right <;> cases one <;> cases other
      exact less
    have member : call ∈ calls := reached.subset (by simp)
    cases call with
    | change timed =>
      have trace : (done ++ [RepositoryCall.change timed]).filterMap RepositoryCall.change? =
          done.filterMap RepositoryCall.change? ++ [timed] := by
        simp [RepositoryCall.change?]
      have length : ((done.filterMap RepositoryCall.change?).length : Int) ≤ calls.length := by
        have whole := congrArg List.length split
        have part := List.length_filterMap_le RepositoryCall.change? done
        rw [List.length_append] at whole
        omega
      have few := comparable.few _ reached timed.call.peerId
      have short := comparable.short
      rw [trace] at changes few
      have mirrors' := EndpointMemory.mirrors_perform changes mirrors
      have alike' := alike_perform alike changes mirrors (comparable.fits timed member)
        (performed ▸ comparable.waitFits done timed reached) (by omega) few
      have performed' : Run.exec EndpointMemory.perform EndpointMemory.empty
          (done.filterMap RepositoryCall.change? ++ [timed]) = memory.perform timed := by
        rw [Run.exec_concat, performed]
      rw [← trace] at mirrors' alike' performed'
      exact ih next performed' mirrors' alike'
    | endpoints peerId time =>
      have trace : (done ++ [RepositoryCall.endpoints peerId time]).filterMap
          RepositoryCall.change? = done.filterMap RepositoryCall.change? := by
        simp [RepositoryCall.change?]
      rw [trace] at changes
      have same : current.endpointsOf platform peerId time =
        .ok (memory.endpoints peerId time) := by
        refine alike.query mirrors changes fun timed inside => ?_
        obtain ⟨earlier, here, found⟩ := List.mem_filterMap.mp inside
        obtain rfl : earlier = .change timed := by
          cases earlier with
          | change other => rw [Option.some.inj found]
          | endpoints _ _ => cases found
        have known : .change timed ∈ calls := reached.subset (by simp [here])
        exact ⟨(comparable.fits timed known).clock, comparable.span _ known _ member⟩
      simp only [answers]
      rw [same, ih next (trace ▸ performed) (trace ▸ mirrors) (trace ▸ alike)]

/-- Whatever the calls, as long as nothing is cut off, both repositories give the same answers to
every query. -/
theorem repositories_agree (comparable : Comparable platform store calls) :
    memoryAnswers calls = storeAnswers platform store calls := by
  have split : [] ++ calls = calls := rfl
  refine comparable.answers_eq split rfl (fun _ => .nil) ⟨rfl, fun peerId => ⟨?_, ?_⟩, ?_⟩
  · intro endpoint member
    cases member
  · intro row present
    rw [comparable.fresh] at present
    cases present
  · intro row present
    rw [comparable.fresh] at present
    cases present

end Runs

/-- A store with one peer and no endpoints. -/
def sampleStore : PeerStore :=
  PeerStore.empty.cascade (Database.empty.upsertPeer ⟨"peer", [], "", "", "", 1, 0, 0, 0⟩)

/-- The sample trace and a query. -/
def sampleCalls (start now : Int) : List RepositoryCall :=
  (EndpointMemory.sampleTrace start).map .change ++ [.endpoints ⟨"peer"⟩ now]

theorem card_authenticatedAddresses_le (peerId : DeviceId) (trace : List Timed) :
    (authenticatedAddresses peerId trace).card ≤ trace.length :=
  calc (authenticatedAddresses peerId trace).card
      ≤ ((sinceForgotten peerId trace).filterMap (Timed.authentication? peerId)).length := by
        rw [authenticatedAddresses, ← List.length_map Authentication.address]
        exact List.toFinset_card_le _
    _ ≤ (sinceForgotten peerId trace).length := List.length_filterMap_le _ _
    _ ≤ trace.reverse.length := (List.takeWhile_sublist _).length_le
    _ = trace.length := List.length_reverse

/-- After two seconds both repositories list both addresses. -/
theorem repositories_agree_waited :
    memoryAnswers (sampleCalls 1 2002) =
      storeAnswers (.sample [] ⟨none, []⟩) sampleStore (sampleCalls 1 2002) ∧
    (memoryAnswers (sampleCalls 1 2002)).map (fun answer => answer.toOption.map List.length) =
      [some 2] := by
  refine ⟨repositories_agree ⟨rfl, by decide, by decide, fun timed member => ?_,
    fun done timed reached peerId address call endpoint _ _ => ?_, fun done reached peerId => ?_⟩,
    by decide⟩
  · have known : timed ∈ EndpointMemory.sampleTrace 1 := by
      simpa [sampleCalls] using member
    have taken : ∀ timed ∈ EndpointMemory.sampleTrace 1, timed.call.peerId = ⟨"peer"⟩ ∧
        (∀ address ∈ timed.call.address?, address.flowinfo = 0) ∧ i64Min ≤ timed.time := by decide
    obtain ⟨peer, plain, clock⟩ := taken timed known
    exact ⟨by rw [peer]; decide, by rw [peer]; rfl, plain, clock⟩
  · have early : ∀ call ∈ sampleCalls 1 2002, call.time ≤ i64Max - 256000 := by decide
    have now := early _ (reached.subset List.mem_concat_self)
    have wait := (wait_le (saturatingSucc endpoint.consecutiveFailures).toNat).2
    simp only [RepositoryCall.time] at now
    omega
  · refine (card_authenticatedAddresses_le _ _).trans ?_
    have short := reached.sublist.length_le
    have few := List.length_filterMap_le RepositoryCall.change? done
    have length : (sampleCalls 1 2002).length = 4 := rfl
    omega

/-- Where the time to wait for does not fit into 64 bits, the statement of `record_failure` fails
and the row keeps its counter, while the endpoint in memory counts the failure. -/
theorem repositories_differ_at_end_of_time :
    memoryAnswers (sampleCalls (i64Max - 3) i64Max) ≠
      storeAnswers (.sample [] ⟨none, []⟩) sampleStore (sampleCalls (i64Max - 3) i64Max) := by
  decide +kernel

end ArcRelay
