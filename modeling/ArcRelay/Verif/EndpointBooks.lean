import ArcRelay.EndpointRepository
import ArcRelay.Verif.EndpointAgreement

/-!
# The books of an endpoint repository

Both endpoint repositories keep, for every peer, a list of endpoints in which a failure
is entered at the very address. What they have in common is described by `Books`: a list
of endpoints that every call leaves in order, of which only those are returned whose time
has come.
-/

namespace ArcRelay

/-- An IPv4 address in IPv6 form. -/
def SocketAddr.isMapped : SocketAddr → Bool
  | .v4 _ _ => false
  | .v6 ip _ _ _ => ip.toNat / 2 ^ 32 = 0xffff

/-- An IPv4 address in IPv6 form is dialled as an IPv4 address, and every other one as it is. -/
theorem canonicalEndpoint_cases (address : SocketAddr) :
    (address.isMapped = true ∧ ∃ ip port, canonicalEndpoint address = .v4 ip port) ∨
      (address.isMapped = false ∧ canonicalEndpoint address = address) := by
  cases address with
  | v4 ip port => exact Or.inr ⟨rfl, rfl⟩
  | v6 ip port flowinfo scopeId =>
    by_cases mapped : ip.toNat / 2 ^ 32 = 0xffff
    · exact Or.inl ⟨decide_eq_true mapped, _, _, if_pos mapped⟩
    · exact Or.inr ⟨decide_eq_false mapped, if_neg mapped⟩

theorem isMapped_canonicalEndpoint (address : SocketAddr) :
    (canonicalEndpoint address).isMapped = false := by
  rcases canonicalEndpoint_cases address with ⟨-, ip, port, same⟩ | ⟨plain, same⟩
  · rw [same]
    rfl
  · rw [same, plain]

theorem flowinfo_canonicalEndpoint {address : SocketAddr} (plain : address.flowinfo = 0) :
    (canonicalEndpoint address).flowinfo = 0 := by
  rcases canonicalEndpoint_cases address with ⟨-, ip, port, same⟩ | ⟨-, same⟩
  · rw [same]
    rfl
  · rw [same, plain]

theorem flowinfo_withoutFlow (address : SocketAddr) : address.withoutFlow.flowinfo = 0 := by
  cases address <;> rfl

/-- The endpoints of a peer as a repository has them after so many calls. -/
structure Orderly (peerId : DeviceId) (count : Nat) (ledger : List RememberedEndpoint) : Prop where
  own : ∀ endpoint ∈ ledger, endpoint.peerId = peerId
  distinct : (ledger.map RememberedEndpoint.address).Nodup
  counted : ∀ endpoint ∈ ledger, endpoint.consecutiveFailures.toNat ≤ count

/-- The endpoints after a failure at an address. -/
def enterFailure (address : SocketAddr) (time : Int) (ledger : List RememberedEndpoint) :
    List RememberedEndpoint :=
  ledger.map fun endpoint =>
    if endpoint.address = address then EndpointMemory.backOff endpoint time else endpoint

/-- A time at which the longest wait ends before the end of time. -/
structure InTime (time : Int) : Prop where
  clock : i64Min ≤ time
  early : time ≤ i64Max - 256000

/-- How a repository keeps the endpoints of a peer. -/
structure Books (repository : EndpointRepository) (peerId : DeviceId) where
  /-- The state has these endpoints of the peer, after so many calls. -/
  keeps : Nat → repository.State → List RememberedEndpoint → Prop
  /-- Endpoints are returned only when it is time to dial them. -/
  listed : ∀ {count state ledger now endpoints}, keeps count state ledger →
    repository.endpoints state peerId now = .ok endpoints →
      ∀ endpoint ∈ endpoints, endpoint ∈ ledger ∧ endpoint.retryAfterMs ≤ now
  stored : ∀ {count state ledger}, keeps count state ledger → Orderly peerId count ledger →
    ∀ endpoint, repository.Stores state peerId endpoint ↔ endpoint ∈ ledger
  /-- A failure at an address that is dialled for a stored one is entered. -/
  failed : ∀ {count state ledger time endpoint}, keeps count state ledger →
    Orderly peerId count ledger → InTime time → count < i64Max → endpoint ∈ ledger →
      ∃ after, repository.record state
          ⟨time, .recordFailure peerId (canonicalEndpoint endpoint.address)⟩ = .ok after ∧
        keeps (count + 1) after (enterFailure (canonicalEndpoint endpoint.address) time ledger)
  step : ∀ {count state ledger timed}, keeps count state ledger → Orderly peerId count ledger →
    InTime timed.time → count < i64Max → ∃ later,
      keeps (count + 1) (repository.perform state timed) later ∧ Orderly peerId (count + 1) later

/-! ## Entered failures -/

section Ledgers

variable {peerId : DeviceId} {count : Nat} {ledger : List RememberedEndpoint}

theorem address_enterFailure (address : SocketAddr) (time : Int) :
    (enterFailure address time ledger).map RememberedEndpoint.address =
      ledger.map RememberedEndpoint.address := by
  rw [enterFailure, List.map_map]
  refine List.map_congr_left fun endpoint _ => ?_
  rw [Function.comp]
  split <;> rfl

theorem toNat_saturatingSucc_le (value : UInt32) :
    (saturatingSucc value).toNat ≤ value.toNat + 1 := by
  rw [toNat_saturatingSucc]
  omega

theorem Orderly.enterFailure (orderly : Orderly peerId count ledger) (address : SocketAddr)
    (time : Int) : Orderly peerId (count + 1) (enterFailure address time ledger) := by
  refine ⟨fun endpoint member => ?_, ?_, fun endpoint member => ?_⟩
  · obtain ⟨before, listed, rfl⟩ := List.mem_map.mp member
    split <;> exact orderly.own before listed
  · rw [address_enterFailure]
    exact orderly.distinct
  · obtain ⟨before, listed, rfl⟩ := List.mem_map.mp member
    have bound := orderly.counted before listed
    split
    · have more := toNat_saturatingSucc_le before.consecutiveFailures
      simp only [EndpointMemory.backOff]
      omega
    · omega

theorem Orderly.longer (orderly : Orderly peerId count ledger) :
    Orderly peerId (count + 1) ledger :=
  { orderly with counted := fun endpoint member =>
      Nat.le_succ_of_le (orderly.counted endpoint member) }

theorem orderly_nil : Orderly peerId count [] :=
  ⟨fun _ absent => absurd absent List.not_mem_nil, List.nodup_nil,
    fun _ absent => absurd absent List.not_mem_nil⟩

theorem Orderly.sublist {fewer : List RememberedEndpoint} (orderly : Orderly peerId count ledger)
    (part : fewer.Sublist ledger) : Orderly peerId count fewer :=
  ⟨fun endpoint member => orderly.own endpoint (part.subset member),
    orderly.distinct.sublist (part.map _),
    fun endpoint member => orderly.counted endpoint (part.subset member)⟩

theorem Orderly.perm {others : List RememberedEndpoint} (orderly : Orderly peerId count ledger)
    (perm : others.Perm ledger) : Orderly peerId count others :=
  ⟨fun endpoint member => orderly.own endpoint (perm.mem_iff.mp member),
    (perm.map _).nodup_iff.mpr orderly.distinct,
    fun endpoint member => orderly.counted endpoint (perm.mem_iff.mp member)⟩

/-- An authentication leaves the endpoints in order. -/
theorem Orderly.authenticated (orderly : Orderly peerId count ledger) (address : SocketAddr)
    (certificateSha256 : Digest) (source : EndpointSource) (now : Int) :
    Orderly peerId (count + 1)
      (EndpointMemory.notedEndpoint address certificateSha256 source now ledger peerId ::
        ledger.filter fun other => other.address ≠ address) := by
  have renewed := EndpointMemory.renewed_notedEndpoint address certificateSha256 source now
    orderly.own
  have others := (orderly.sublist List.filter_sublist :
    Orderly peerId count (ledger.filter fun other => other.address ≠ address)).longer
  refine ⟨fun endpoint member => ?_, ?_, fun endpoint member => ?_⟩
  · rcases List.mem_cons.mp member with rfl | kept
    · exact renewed.peer
    · exact others.own endpoint kept
  · refine List.nodup_cons.mpr ⟨?_, others.distinct⟩
    rw [renewed.address]
    simp
  · rcases List.mem_cons.mp member with rfl | kept
    · rw [renewed.failures]
      exact Nat.zero_le _
    · exact others.counted endpoint kept

end Ledgers

/-! ## The repository in memory -/

namespace EndpointMemory

variable {memory : EndpointMemory} {peerId : DeviceId} {timed : Timed} {count : Nat}

theorem perform_of_ne (other : timed.call.peerId ≠ peerId) :
    memory.perform timed peerId = memory peerId := by
  obtain ⟨time, call⟩ := timed
  cases call <;> exact Function.update_of_ne (Ne.symm other) _ _

theorem recordFailure_eq (orderly : Orderly peerId count (memory peerId)) (address : SocketAddr)
    (time : Int) :
    memory.recordFailure peerId address time peerId =
      enterFailure address time (memory peerId) := by
  rw [recordFailure, Function.update_self]
  exact List.modifyFirst_eq_map orderly.distinct _ _

/-- Every call leaves the endpoints in order. -/
theorem orderly_perform (orderly : Orderly peerId count (memory peerId)) (timed : Timed) :
    Orderly peerId (count + 1) (memory.perform timed peerId) := by
  by_cases own : timed.call.peerId = peerId
  · obtain ⟨time, call⟩ := timed
    cases call with
    | recordAuthenticated peer address certificateSha256 source =>
      obtain rfl : peer = peerId := own
      have sorted : Orderly peer (count + 1) ((noted (memory peer) peer address
          certificateSha256 source time).insertionSort storeOrder) :=
        (orderly.authenticated address certificateSha256 source time).perm
          ((List.perm_insertionSort _ _).trans
            (perm_noted address certificateSha256 source time orderly.distinct))
      show Orderly peer (count + 1)
        (memory.recordAuthenticated peer address certificateSha256 source time peer)
      rw [recordAuthenticated, Function.update_self]
      exact sorted.sublist (List.take_sublist _ _)
    | recordFailure peer address =>
      obtain rfl : peer = peerId := own
      show Orderly peer (count + 1) (memory.recordFailure peer address time peer)
      rw [recordFailure_eq orderly]
      exact orderly.enterFailure address time
    | forget peer =>
      obtain rfl : peer = peerId := own
      show Orderly peer (count + 1) (memory.forget peer peer)
      rw [forget, Function.update_self]
      exact orderly_nil
  · rw [perform_of_ne own]
    exact orderly.longer

end EndpointMemory

/-- How the repository in memory keeps the endpoints of a peer. -/
def memoryBooks (peerId : DeviceId) : Books .memory peerId where
  keeps _ memory ledger := memory peerId = ledger
  listed := by
    rintro count memory ledger now endpoints rfl returned endpoint member
    cases returned
    have kept := List.mem_of_mem_take member
    rw [List.mem_insertionSort, List.mem_filter] at kept
    exact ⟨kept.1, by simpa using kept.2⟩
  stored := by
    rintro count memory ledger rfl - endpoint
    exact Iff.rfl
  failed := by
    rintro count memory ledger time endpoint rfl orderly - - -
    exact ⟨_, rfl, EndpointMemory.recordFailure_eq orderly _ _⟩
  step := by
    rintro count memory ledger timed rfl orderly - -
    exact ⟨_, rfl, EndpointMemory.orderly_perform orderly timed⟩

/-! ## The repository in SQLite -/

section Store

variable {platform : Platform} {store : PeerStore} {peerId : DeviceId} {count : Nat}
  {ledger : List RememberedEndpoint}

/-- The rows of a peer hold its endpoints, and no counter has gone further than the calls. -/
structure StoreKeeps (platform : Platform) (peerId : DeviceId) (count : Nat) (store : PeerStore)
    (ledger : List RememberedEndpoint) : Prop where
  agrees : Agrees platform store peerId ledger
  counted : ∀ row ∈ store.endpoints.rows, row.consecutiveFailures ≤ count

theorem StoreKeeps.longer (keeps : StoreKeeps platform peerId count store ledger) :
    StoreKeeps platform peerId (count + 1) store ledger :=
  ⟨keeps.agrees, fun row present => by
    have bound := keeps.counted row present
    omega⟩

/-- Replacing a row by one with an admissible counter keeps all counters admissible. -/
theorem counted_upsert (keeps : StoreKeeps platform peerId count store ledger)
    {after : PeerStore} {row : EndpointRow} (rows : after.endpoints = store.endpoints.upsert row)
    (bound : row.consecutiveFailures ≤ (count + 1 : Nat)) :
    ∀ stored ∈ after.endpoints.rows, stored.consecutiveFailures ≤ (count + 1 : Nat) := by
  intro stored present
  rw [rows] at present
  rcases Table.mem_upsert.mp present with rfl | ⟨old, -⟩
  · exact bound
  · have earlier := keeps.counted stored old
    omega

/-- Endpoints are returned only when it is time to dial them. -/
theorem StoreKeeps.listed (keeps : StoreKeeps platform peerId count store ledger) {now : Int}
    {endpoints : List RememberedEndpoint}
    (returned : store.endpointsOf platform peerId now = .ok endpoints) :
    ∀ endpoint ∈ endpoints, endpoint ∈ ledger ∧ endpoint.retryAfterMs ≤ now := by
  intro endpoint member
  obtain ⟨row, taken, decoded⟩ := (Except.mem_of_mapM returned).mp member
  have selected := List.mem_of_mem_take taken
  rw [List.mem_insertionSort] at selected
  obtain ⟨present, chosen⟩ := List.mem_filter.mp selected
  simp only [Bool.and_eq_true, decide_eq_true_eq] at chosen
  obtain ⟨known, listed, held⟩ := keeps.agrees.known row present chosen.1.1
  obtain rfl : known = endpoint := Except.ok.inj (held.decoded.symm.trans decoded)
  exact ⟨listed, held.retry ▸ chosen.1.2⟩

theorem StoreKeeps.stored (keeps : StoreKeeps platform peerId count store ledger)
    (orderly : Orderly peerId count ledger) (endpoint : RememberedEndpoint) :
    (EndpointRepository.sqlite platform).Stores store peerId endpoint ↔ endpoint ∈ ledger := by
  constructor
  · rintro ⟨row, present, peer, decoded⟩
    obtain ⟨known, listed, held⟩ := keeps.agrees.known row present peer
    exact Except.ok.inj (held.decoded.symm.trans decoded) ▸ listed
  · intro member
    obtain ⟨row, present, held⟩ := keeps.agrees.stored endpoint member
    have peer : row.peerId = endpoint.peerId.asStr := congrArg Prod.fst held.key
    exact ⟨row, present, by rw [peer, orderly.own endpoint member], held.decoded⟩

/-- A failure is entered, at an address that is stored or at one that is not. Its flow label makes
no difference. -/
theorem StoreKeeps.failed (keeps : StoreKeeps platform peerId count store ledger)
    (orderly : Orderly peerId count ledger) {time : Int} (inTime : InTime time)
    (few : count < i64Max) (address : SocketAddr) :
    ∃ after, store.recordFailure platform peerId address time = .ok after ∧
      StoreKeeps platform peerId (count + 1) after
        (enterFailure address.withoutFlow time ledger) := by
  by_cases known : ∃ endpoint ∈ ledger, endpoint.address = address.withoutFlow
  · obtain ⟨endpoint, member, here⟩ := known
    obtain ⟨row, present, held⟩ := keeps.agrees.stored endpoint member
    have found : store.endpoints.find? (peerId.asStr, platform.addressText address) = some row := by
      refine Table.find?_eq_some.mpr ⟨present, ?_⟩
      rw [held.key, orderly.own endpoint member, here, platform.addressText_withoutFlow]
    rw [← here]
    have bound := keeps.counted row present
    have wait := (wait_le (saturatingSucc endpoint.consecutiveFailures).toNat).2
    have early := inTime.early
    obtain ⟨failed, updated, held', counts⟩ := held.failed inTime.clock (by omega) (by omega)
    obtain ⟨after, recorded, -, rows⟩ := recordFailure_known found updated
    refine ⟨after, recorded, ?_, counted_upsert keeps rows (by omega)⟩
    have replaced : Agrees platform after peerId _ :=
      keeps.agrees.replace orderly.own held' (orderly.own endpoint member) rows
    exact replaced.congr fun other =>
      (List.perm_map_change orderly.distinct _ member).mem_iff
  · -- The failure changes nothing, in the rows as in the list.
    have missing : ∀ endpoint ∈ ledger, endpoint.address ≠ address.withoutFlow :=
      fun endpoint member same => known ⟨endpoint, member, same⟩
    have found := keeps.agrees.find? orderly.own (flowinfo_withoutFlow address)
    have absent : (ledger.find? fun endpoint => endpoint.address = address.withoutFlow) = none :=
      List.find?_eq_none.mpr fun endpoint member => by simpa using missing endpoint member
    rw [absent, platform.addressText_withoutFlow] at found
    have same : enterFailure address.withoutFlow time ledger = ledger :=
      (List.map_congr_left fun endpoint member => if_neg (missing endpoint member)).trans
        (List.map_id _)
    rw [same]
    exact ⟨store, recordFailure_unknown found, keeps.longer⟩

theorem consecutiveFailures_failedRow {row failed : EndpointRow} {now : Int}
    (updated : PeerStore.failedRow row now = .ok failed) :
    failed.consecutiveFailures = row.consecutiveFailures + 1 := by
  unfold PeerStore.failedRow at updated
  obtain ⟨failures, counted, rest⟩ := Except.bind_eq_ok.mp updated
  obtain ⟨retry, -, same⟩ := Except.bind_eq_ok.mp rest
  cases same
  unfold sqlSum at counted
  split at counted
  · exact (Except.ok.inj counted).symm
  · cases counted

/-- A call about another peer leaves the endpoints of the peer. -/
theorem StoreKeeps.foreign (keeps : StoreKeeps platform peerId count store ledger)
    (orderly : Orderly peerId count ledger) {timed : Timed} (other : timed.call.peerId ≠ peerId) :
    StoreKeeps platform peerId (count + 1) (store.perform platform timed) ledger := by
  obtain ⟨time, call⟩ := timed
  have text : call.peerId.asStr ≠ peerId.asStr := fun same =>
    other (DeviceId.asStr_injective same)
  cases call with
  | recordAuthenticated peer address certificateSha256 source =>
    by_cases stored : ∃ row ∈ store.database.peers.rows, row.deviceId = peer.asStr
    · simp only [PeerStore.perform, PeerStore.record, PeerStore.recordAuthenticated, dif_pos stored]
      refine ⟨keeps.agrees.foreign orderly.own rfl ?_, counted_upsert keeps rfl ?_⟩
      · exact fun same => text ((congrArg Prod.fst (PeerStore.key_conflictRow _ _)).symm.trans same)
      · have fresh : ∀ known, (PeerStore.conflictRow known (PeerStore.authenticatedRow platform
            peer address certificateSha256 source time)).consecutiveFailures = 0 := by
          intro known
          cases known <;> rfl
        rw [fresh]
        omega
    · simp only [PeerStore.perform, PeerStore.record, PeerStore.recordAuthenticated, dif_neg stored]
      exact keeps.longer
  | recordFailure peer address =>
    simp only [PeerStore.perform, PeerStore.record]
    cases found : store.endpoints.find? (peer.asStr, platform.addressText address) with
    | none =>
      rw [recordFailure_unknown found]
      exact keeps.longer
    | some row =>
      obtain ⟨present, key⟩ := Table.find?_eq_some.mp found
      cases updated : PeerStore.failedRow row time with
      | error error =>
        rw [recordFailure_refused found updated]
        exact keeps.longer
      | ok failed =>
        obtain ⟨after, recorded, -, rows⟩ := recordFailure_known found updated
        rw [recorded]
        have bound := keeps.counted row present
        have counts := consecutiveFailures_failedRow updated
        refine ⟨keeps.agrees.foreign orderly.own rows fun same => text ?_,
          counted_upsert keeps rows (by omega)⟩
        have named : failed.peerId = peer.asStr :=
          congrArg Prod.fst ((PeerStore.key_failedRow updated).trans key)
        exact named.symm.trans same
  | forget peer =>
    simp only [PeerStore.perform, PeerStore.record]
    refine ⟨keeps.agrees.unrelated orderly.own fun row own => ?_, fun row present =>
      keeps.longer.counted row (Table.mem_deleteWhere.mp present).1⟩
    have foreign : row.peerId ≠ peer.asStr := fun same => text (same.symm.trans own)
    simp [PeerStore.forgetEndpoints, foreign]

/-- An authentication leaves the endpoints in order. -/
theorem StoreKeeps.authenticated (keeps : StoreKeeps platform peerId count store ledger)
    (orderly : Orderly peerId count ledger)
    (parsed : platform.parseDeviceId peerId.asStr = .ok peerId) {address : SocketAddr}
    (plain : address.flowinfo = 0) (certificateSha256 : Digest) (source : EndpointSource)
    (time : Int)
    (stored : ∃ row ∈ store.database.peers.rows, row.deviceId = peerId.asStr) :
    ∃ after, store.recordAuthenticated platform peerId address certificateSha256 source time =
      .ok after ∧ StoreKeeps platform peerId (count + 1) after
        (EndpointMemory.notedEndpoint address certificateSha256 source time ledger peerId ::
          ledger.filter fun other => other.address ≠ address) := by
  have renewed := EndpointMemory.renewed_notedEndpoint address certificateSha256 source time
    orderly.own
  have held := keeps.agrees.authenticated orderly.own parsed plain certificateSha256 source time
  obtain ⟨after, recorded, rows⟩ : ∃ after, store.recordAuthenticated platform peerId address
      certificateSha256 source time = .ok after ∧ after.endpoints = store.endpoints.upsert
        (PeerStore.conflictRow (store.endpoints.find? (peerId.asStr, platform.addressText address))
          (PeerStore.authenticatedRow platform peerId address certificateSha256 source time)) :=
    ⟨_, by rw [PeerStore.recordAuthenticated, dif_pos stored], rfl⟩
  refine ⟨after, recorded, ?_, counted_upsert keeps rows ?_⟩
  · have replaced := keeps.agrees.replace orderly.own held renewed.peer rows
    rw [renewed.address] at replaced
    exact replaced
  · have fresh : ∀ known, (PeerStore.conflictRow known (PeerStore.authenticatedRow platform
        peerId address certificateSha256 source time)).consecutiveFailures = 0 := by
      intro known
      cases known <;> rfl
    rw [fresh]
    omega

theorem recordAuthenticated_withoutFlow (store : PeerStore) (address : SocketAddr)
    (certificateSha256 : Digest) (source : EndpointSource) (time : Int) :
    store.recordAuthenticated platform peerId address.withoutFlow certificateSha256 source time =
      store.recordAuthenticated platform peerId address certificateSha256 source time := by
  have scope : networkScope address.withoutFlow = networkScope address := by cases address <;> rfl
  have same : PeerStore.authenticatedRow platform peerId address.withoutFlow certificateSha256
      source time =
      PeerStore.authenticatedRow platform peerId address certificateSha256 source time := by
    rw [PeerStore.authenticatedRow, platform.addressText_withoutFlow, scope]
    rfl
  simp only [PeerStore.recordAuthenticated, same]

/-- Every call leaves the endpoints in order. -/
theorem StoreKeeps.step (keeps : StoreKeeps platform peerId count store ledger)
    (orderly : Orderly peerId count ledger)
    (parsed : platform.parseDeviceId peerId.asStr = .ok peerId) {timed : Timed}
    (inTime : InTime timed.time) (few : count < i64Max) : ∃ later,
      StoreKeeps platform peerId (count + 1) (store.perform platform timed) later ∧
        Orderly peerId (count + 1) later := by
  by_cases own : timed.call.peerId = peerId
  swap
  · exact ⟨ledger, keeps.foreign orderly own, orderly.longer⟩
  obtain ⟨time, call⟩ := timed
  cases call with
  | recordAuthenticated peer address certificateSha256 source =>
    obtain rfl : peer = peerId := own
    by_cases stored : ∃ row ∈ store.database.peers.rows, row.deviceId = peer.asStr
    · obtain ⟨after, recorded, kept⟩ := keeps.authenticated orderly parsed
        (flowinfo_withoutFlow address) certificateSha256 source time stored
      rw [recordAuthenticated_withoutFlow] at recorded
      simp only [PeerStore.perform, PeerStore.record, recorded]
      exact ⟨_, kept, orderly.authenticated address.withoutFlow certificateSha256 source time⟩
    · simp only [PeerStore.perform, PeerStore.record, PeerStore.recordAuthenticated, dif_neg stored]
      exact ⟨ledger, keeps.longer, orderly.longer⟩
  | recordFailure peer address =>
    obtain rfl : peer = peerId := own
    obtain ⟨after, recorded, kept⟩ := keeps.failed orderly inTime few address
    simp only [PeerStore.perform, PeerStore.record, recorded]
    exact ⟨_, kept, orderly.enterFailure address.withoutFlow time⟩
  | forget peer =>
    obtain rfl : peer = peerId := own
    simp only [PeerStore.perform, PeerStore.record]
    refine ⟨[], ⟨⟨fun _ absent => absurd absent List.not_mem_nil, fun row present named => ?_⟩,
      fun row present => keeps.longer.counted row (Table.mem_deleteWhere.mp present).1⟩,
        orderly_nil⟩
    have kept := (Table.mem_deleteWhere.mp present).2
    simp [named] at kept

end Store

/-- How the repository in SQLite keeps the endpoints of a peer. -/
def storeBooks (platform : Platform) {peerId : DeviceId}
    (parsed : platform.parseDeviceId peerId.asStr = .ok peerId) :
    Books (.sqlite platform) peerId where
  keeps := StoreKeeps platform peerId
  listed keeps returned := keeps.listed returned
  stored keeps orderly := keeps.stored orderly
  failed {count state ledger time endpoint} keeps orderly inTime few member := by
    obtain ⟨row, -, held⟩ := keeps.agrees.stored endpoint member
    have entered := keeps.failed orderly inTime few (canonicalEndpoint endpoint.address)
    rw [SocketAddr.withoutFlow_eq_self (flowinfo_canonicalEndpoint held.plain)] at entered
    exact entered
  step {count state ledger timed} keeps orderly inTime few := by
    have same : (EndpointRepository.sqlite platform).perform state timed =
        PeerStore.perform platform state timed := by
      have recorded : (EndpointRepository.sqlite platform).record state timed =
          PeerStore.record platform state timed := rfl
      unfold EndpointRepository.perform PeerStore.perform
      rw [recorded]
      cases PeerStore.record platform state timed <;> rfl
    rw [same]
    exact keeps.step orderly parsed inTime few

/-- The books are in order after any calls. -/
theorem Books.run {repository : EndpointRepository} {peerId : DeviceId}
    (books : Books repository peerId) {state : repository.State} (empty : books.keeps 0 state [])
    {trace : List Timed} (inTime : ∀ timed ∈ trace, InTime timed.time)
    (few : trace.length < i64Max) :
    ∃ ledger, books.keeps trace.length (Run.exec repository.perform state trace) ledger ∧
      Orderly peerId trace.length ledger := by
  induction trace using List.reverseRecOn with
  | nil => exact ⟨[], empty, orderly_nil⟩
  | append_singleton trace timed ih =>
    rw [List.length_append, List.length_singleton] at few
    obtain ⟨ledger, keeps, orderly⟩ := ih
      (fun other member => inTime other (List.mem_append_left _ member)) (by omega)
    rw [Run.exec_concat, List.length_append, List.length_singleton]
    exact books.step keeps orderly (inTime timed (by simp)) (by omega)

end ArcRelay
