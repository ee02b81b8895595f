import ArcRelay.Routes
import ArcRelay.Verif.Advertising
import ArcRelay.Verif.Candidates

/-!
# The interfaces of link-local routes

A link-local address can be dialled only with the interface it was seen on.
`decode_service` keeps the interface of an address, and merging and storing keep
addresses as they are. `remember_authenticated_session` makes the address to dial
from the bare IP address of its peer and loses the interface, so all link-local
routes have one exactly as long as no link-local session is remembered.
-/

namespace ArcRelay

/-- An IPv6 address in `fe80::/10`. -/
def IpAddr.isLinkLocal : IpAddr → Bool
  | .v4 _ => false
  | .v6 address => address.toNat / 2 ^ 118 == 0x3fa

/-- `SocketAddrV6::scope_id`, which an IPv4 address does not have. -/
def SocketAddr.scopeId : SocketAddr → UInt32
  | .v4 _ _ => 0
  | .v6 _ _ _ scopeId => scopeId

/-- A link-local address names its interface. -/
def SocketAddr.Scoped (address : SocketAddr) : Prop :=
  address.ip.isLinkLocal = true → address.scopeId ≠ 0

instance (address : SocketAddr) : Decidable address.Scoped :=
  inferInstanceAs (Decidable (_ → _))

/-- An event brings link-local addresses with their interfaces only, and remembers no session with
the device itself. -/
def RouteEvent.Delivered (localId : DeviceId) : RouteEvent → Prop
  | .resolve service _ => ∀ address ∈ service.addresses, ∀ port, (address.endpoint port).Scoped
  | .remember session _ _ =>
    session.connection.remoteAddress.Scoped ∧ session.peer.deviceId ≠ localId
  | .discoverAt _ (some (session, _)) =>
    session.connection.remoteAddress.Scoped ∧ session.peer.deviceId ≠ localId
  | _ => True

/-- The addresses that are learnt name their interface if they are link-local, and have no flow
label. -/
def EndpointCall.Scoped : EndpointCall → Prop
  | .recordAuthenticated _ address _ _ => address.Scoped ∧ address.flowinfo = 0
  | _ => True

/-- All link-local endpoints that are stored name their interface. -/
def EndpointRepository.AllScoped (repository : EndpointRepository) (state : repository.State) :
    Prop :=
  ∀ id endpoint, repository.Stores state id endpoint → endpoint.address.Scoped

/-- The repository in memory keeps addresses as they are. -/
theorem EndpointMemory.allScoped_perform {memory : EndpointMemory} {timed : Timed}
    (stored : EndpointRepository.memory.AllScoped memory) (brings : timed.call.Scoped) :
    EndpointRepository.memory.AllScoped (memory.perform timed) := by
  have updated : ∀ {peerId : DeviceId} {endpoints : List RememberedEndpoint},
      (∀ endpoint ∈ endpoints, endpoint.address.Scoped) →
        EndpointRepository.memory.AllScoped (Function.update memory peerId endpoints) := by
    intro peerId endpoints new id endpoint member
    replace member : endpoint ∈ Function.update memory peerId endpoints id := member
    rw [Function.update_apply] at member
    split at member
    · exact new endpoint member
    · exact stored id endpoint member
  obtain ⟨time, call⟩ := timed
  cases call with
  | recordAuthenticated peerId address certificateSha256 source =>
    refine updated fun endpoint member => ?_
    have listed := (List.mem_insertionSort _).mp (List.mem_of_mem_take member)
    unfold noted at listed
    split at listed
    · refine List.forall_modifyFirst ?_ (stored peerId) endpoint listed
      exact fun _ known => known
    · rcases List.mem_concat_iff.mp listed with earlier | rfl
      · exact stored peerId endpoint earlier
      · exact brings.1
  | recordFailure peerId address =>
    refine updated (List.forall_modifyFirst ?_ (stored peerId))
    exact fun _ known => known
  | forget peerId => exact updated (by simp)

/-- The address of an endpoint is what its column says. -/
theorem address_decodeEndpoint {platform : Platform} {row : EndpointRow}
    {endpoint : RememberedEndpoint} (decoded : decodeEndpoint platform row = .ok endpoint) :
    platform.parseAddress row.address = .ok endpoint.address := by
  obtain ⟨_, -, decoded⟩ := Except.bind_eq_ok.mp decoded
  obtain ⟨address, parsed, decoded⟩ := Except.bind_eq_ok.mp decoded
  obtain ⟨_, -, decoded⟩ := Except.bind_eq_ok.mp decoded
  obtain ⟨_, -, decoded⟩ := Except.bind_eq_ok.mp decoded
  cases Except.pure_eq_ok.mp decoded
  exact Except.mapError_eq_ok.mp parsed

/-- A failed row decodes if it did before, to the same address. -/
theorem decodeEndpoint_failedRow {platform : Platform} {row failed : EndpointRow} {now : Int}
    {endpoint : RememberedEndpoint} (updated : PeerStore.failedRow row now = .ok failed)
    (decoded : decodeEndpoint platform failed = .ok endpoint) :
    ∃ before, decodeEndpoint platform row = .ok before ∧ before.address = endpoint.address := by
  obtain ⟨_, -, updated⟩ := Except.bind_eq_ok.mp updated
  obtain ⟨_, -, updated⟩ := Except.bind_eq_ok.mp updated
  cases Except.pure_eq_ok.mp updated
  obtain ⟨_, peer, decoded⟩ := Except.bind_eq_ok.mp decoded
  obtain ⟨_, address, decoded⟩ := Except.bind_eq_ok.mp decoded
  obtain ⟨_, certificate, decoded⟩ := Except.bind_eq_ok.mp decoded
  obtain ⟨_, source, decoded⟩ := Except.bind_eq_ok.mp decoded
  cases Except.pure_eq_ok.mp decoded
  exact ⟨_, Except.bind_eq_ok.mpr ⟨_, peer, Except.bind_eq_ok.mpr ⟨_, address,
    Except.bind_eq_ok.mpr ⟨_, certificate, Except.bind_eq_ok.mpr ⟨_, source, rfl⟩⟩⟩⟩, rfl⟩

/-- The repository in SQLite keeps addresses as they are. -/
theorem PeerStore.allScoped_record {platform : Platform} {store after : PeerStore} {timed : Timed}
    (stored : (EndpointRepository.sqlite platform).AllScoped store) (brings : timed.call.Scoped)
    (recorded : store.record platform timed = .ok after) :
    (EndpointRepository.sqlite platform).AllScoped after := by
  obtain ⟨time, call⟩ := timed
  cases call with
  | recordAuthenticated peerId address certificateSha256 source =>
    simp only [record, recordAuthenticated] at recorded
    split at recorded
    · cases recorded
      rintro id endpoint ⟨row, member, own, decoded⟩
      rcases Table.mem_upsert.mp member with rfl | ⟨before, -⟩
      · have parsed := address_decodeEndpoint decoded
        rw [show (conflictRow _ _).address = _ from congrArg Prod.snd (key_conflictRow _ _)]
          at parsed
        obtain ⟨named, plain⟩ := brings
        cases (platform.parseAddress_addressText address plain).symm.trans parsed
        exact named
      · exact stored id endpoint ⟨row, before, own, decoded⟩
    · cases recorded
  | recordFailure peerId address =>
    simp only [record, recordFailure] at recorded
    split at recorded
    · cases recorded
      exact stored
    · rename_i row found
      split at recorded
      · cases recorded
      · rename_i failed updated
        cases recorded
        rintro id endpoint ⟨row, member, own, decoded⟩
        rcases Table.mem_upsert.mp member with rfl | ⟨before, -⟩
        · obtain ⟨before, decodedBefore, same⟩ := decodeEndpoint_failedRow updated decoded
          rw [← same]
          exact stored id before ⟨_, (Table.find?_eq_some.mp found).1,
            (congrArg Prod.fst (key_failedRow updated)).symm.trans own, decodedBefore⟩
        · exact stored id endpoint ⟨row, before, own, decoded⟩
  | forget peerId =>
    cases recorded
    rintro id endpoint ⟨row, member, rest⟩
    exact stored id endpoint ⟨row, (Table.mem_deleteWhere.mp member).1, rest⟩

/-- Both repositories keep addresses as they are. -/
theorem allScoped_perform {repository : EndpointRepository} {platform : Platform}
    (known : repository = .memory ∨ repository = .sqlite platform) {state : repository.State}
    {timed : Timed} (stored : repository.AllScoped state) (brings : timed.call.Scoped) :
    repository.AllScoped (repository.perform state timed) := by
  rcases known with rfl | rfl
  · exact EndpointMemory.allScoped_perform stored brings
  · unfold EndpointRepository.perform
    split
    · exact PeerStore.allScoped_record stored brings ‹_›
    · exact stored

namespace Routes

variable {repository : EndpointRepository}

/-- Every link-local address that the discovery service and the repository have names its
interface. -/
structure Scoped (routes : Routes repository) : Prop where
  mdns : ∀ peer ∈ routes.discovery.mdnsPeers.rows,
    ∀ address ∈ peer.connectionAddresses, address.Scoped
  authenticated : ∀ peer ∈ routes.discovery.authenticatedPeers.rows,
    ∀ address ∈ peer.connectionAddresses, address.Scoped
  shown : ∀ peer ∈ routes.discovery.snapshot,
    ∀ address ∈ peer.connectionAddresses, address.Scoped
  stored : repository.AllScoped routes.endpoints

/-- The same, device by device. -/
structure Sourced (routes : Routes repository) : Prop where
  discovery : ∀ id, Discovery.Sourced id SocketAddr.Scoped routes.discovery
  stored : repository.AllScoped routes.endpoints

variable {self : Runtime} {multicast : Multicast} {routes : Routes repository}

theorem Sourced.toScoped (sourced : routes.Sourced) : routes.Scoped where
  mdns peer member := (sourced.discovery peer.deviceId).mdns peer
    (Table.find?_eq_some.mpr ⟨member, rfl⟩)
  authenticated peer member := ((sourced.discovery peer.deviceId).authenticated peer
    (Table.find?_eq_some.mpr ⟨member, rfl⟩)).1
  shown peer member := ((sourced.discovery peer.deviceId).shown peer member rfl).1
  stored := sourced.stored

theorem Sourced.discover (sourced : routes.Sourced) {operation : Discovery.Operation}
    (remembers : operation.Remembers)
    (brings : ∀ id, ∀ address ∈ operation.routesTo id, address.Scoped) :
    (routes.discover self operation).Sourced :=
  ⟨fun id => Discovery.sourced_perform _ (sourced.discovery id) remembers (brings id),
    sourced.stored⟩

theorem Sourced.record (known : repository = .memory ∨ repository = .sqlite self.platform)
    (sourced : routes.Sourced) (now : Int) {call : EndpointCall} (brings : call.Scoped) :
    (routes.record now call).Sourced :=
  ⟨sourced.discovery, allScoped_perform known sourced.stored brings⟩

/-- The address that is dialled for a session is its IP address without an interface. -/
theorem dialAddress_bare (session : Session) :
    (Runtime.dialAddress session).ip = session.connection.remoteAddress.ip ∧
      (Runtime.dialAddress session).scopeId = 0 ∧ (Runtime.dialAddress session).flowinfo = 0 := by
  unfold Runtime.dialAddress
  dsimp only
  cases session.connection.remoteAddress.ip <;> exact ⟨rfl, rfl, rfl⟩

/-- The session that an event remembers does not have a link-local remote address. -/
def Global (routes : Routes repository) (event : RouteEvent) : Prop :=
  ∀ remembered ∈ routes.remembers event,
    remembered.1.connection.remoteAddress.ip.isLinkLocal = false

/-- A session that is not link-local leaves all routes scoped. -/
theorem Sourced.remember (known : repository = .memory ∨ repository = .sqlite self.platform)
    (sourced : routes.Sourced) {session : Session} (source : EndpointSource) (reading : Reading)
    (global : session.connection.remoteAddress.ip.isLinkLocal = false) :
    (routes.remember self session source reading).Sourced := by
  have dialled : (Runtime.dialAddress session).Scoped ∧
      (Runtime.dialAddress session).flowinfo = 0 := by
    obtain ⟨same, bare⟩ := dialAddress_bare session
    exact ⟨fun linkLocal => absurd (same ▸ linkLocal) (by simp [global]), bare.2⟩
  have observed : (routes.discover self (.observeAuthenticated
      (Runtime.sessionAdvertisement session reading.now))).Sourced := by
    refine sourced.discover ⟨session, reading.now, rfl⟩ fun id address member => ?_
    simp only [Discovery.Operation.routesTo] at member
    split at member
    · rw [List.mem_singleton.mp member]
      exact dialled.1
    · cases member
  unfold Routes.remember
  dsimp only
  split
  · exact observed.record known _ dialled
  · exact observed

/-- An event that remembers no link-local session leaves all routes scoped. -/
theorem Sourced.handle (known : repository = .memory ∨ repository = .sqlite self.platform)
    (sourced : routes.Sourced) {event : RouteEvent} (delivered : event.Delivered self.deviceId)
    (global : routes.Global event) : (routes.handle self multicast event).Sourced := by
  have remembered : (routes.rememberIf self (routes.remembers event)).Sourced := by
    cases found : routes.remembers event with
    | none => exact sourced
    | some remembered => exact sourced.remember known _ _ (global remembered found)
  cases event with
  | resolve service now =>
    refine sourced.discover trivial fun id address member => ?_
    cases decoded : decodeService self.platform multicast service now with
    | none =>
      rw [decoded] at member
      cases member
    | some peer =>
      simp only [decoded, Discovery.Operation.routesTo] at member
      split at member
      · obtain ⟨ip, listed, rfl⟩ := (decodeService_sound _ _ decoded).2.2 address member
        exact delivered ip listed _
      · cases member
  | remove fullname => exact sourced.discover trivial (by simp [Discovery.Operation.routesTo])
  | refresh => exact sourced.discover trivial (by simp [Discovery.Operation.routesTo])
  | recordFailure id address now => exact sourced.record known now trivial
  | forget id now =>
    refine Sourced.record known (sourced.discover ?_ ?_) now trivial
    · trivial
    · simp [Discovery.Operation.routesTo]
  | remember session source reading => exact remembered
  | discoverAt endpoints probed => exact remembered

/-- A session that is remembered has its address among the authenticated routes. -/
theorem exists_remembered {session : Session} (foreign : session.peer.deviceId ≠ self.deviceId)
    (source : EndpointSource) (reading : Reading) :
    ∃ peer ∈ (routes.remember self session source reading).discovery.authenticatedPeers.rows,
      Runtime.dialAddress session ∈ peer.connectionAddresses := by
  let observes : Discovery.Operation :=
    .observeAuthenticated (Runtime.sessionAdvertisement session reading.now)
  have same : (routes.remember self session source reading).discovery.authenticatedPeers =
      (Discovery.update self.deviceId routes.discovery observes).2.authenticatedPeers := by
    unfold Routes.remember
    rcases Discovery.perform_cases self.deviceId routes.discovery observes with after | ⟨-, after⟩
    all_goals
      dsimp only
      split <;> exact (congrArg Discovery.authenticatedPeers after).trans rfl
  obtain ⟨record, found, covers⟩ := @Discovery.records_update self.deviceId
    ⟨routes.discovery, []⟩ nofun observes _ (List.mem_singleton_self _) foreign
  rw [same]
  exact ⟨record, (Table.find?_eq_some.mp found).1, covers.connections (List.mem_singleton_self _)⟩

/-- A link-local session that is remembered leaves a route without an interface. -/
theorem global_of_scoped {event : RouteEvent} (delivered : event.Delivered self.deviceId)
    (named : (routes.handle self multicast event).Scoped) : routes.Global event := by
  rintro ⟨session, source, reading⟩ found
  obtain ⟨foreign, after⟩ : session.peer.deviceId ≠ self.deviceId ∧
      routes.handle self multicast event = routes.remember self session source reading := by
    cases event with
    | remember other _ _ =>
      cases found
      exact ⟨delivered.2, rfl⟩
    | discoverAt endpoints probed =>
      have after := congrArg (routes.rememberIf self) found
      simp only [remembers] at found
      split at found
      · cases found
      · obtain ⟨⟨other, _⟩, rfl, same⟩ := Option.map_eq_some_iff.mp found
        cases same
        exact ⟨delivered.2, after⟩
    | _ => cases found
  rw [after] at named
  obtain ⟨peer, member, dialled⟩ := exists_remembered foreign source reading
  obtain ⟨same, bare, -⟩ := dialAddress_bare session
  have unnamed := named.authenticated peer member _ dialled
  rw [SocketAddr.Scoped, same, bare] at unnamed
  simpa using unnamed

/-- All link-local routes name their interface, throughout every run in which no link-local session
is remembered and in no other. -/
theorem link_local_routes_scoped_iff (self : Runtime) (multicast : Multicast)
    (known : repository = .memory ∨ repository = .sqlite self.platform)
    {start : repository.State} (unstored : ∀ id endpoint, ¬repository.Stores start id endpoint)
    {events : List RouteEvent} (delivered : ∀ event ∈ events, event.Delivered self.deviceId) :
    Run.Throughout (handle self multicast) ⟨.empty, start⟩ Scoped events ↔
      Run.Along (handle self multicast) ⟨.empty, start⟩ Global events := by
  have inside : ∀ {done event}, done ++ [event] <+: events → event.Delivered self.deviceId :=
    fun isPrefix => delivered _ (isPrefix.subset (by simp))
  constructor
  · intro every done event isPrefix
    have named := every _ isPrefix
    rw [Run.exec_concat] at named
    exact global_of_scoped (inside isPrefix) named
  · intro along
    have fresh : Sourced (⟨.empty, start⟩ : Routes repository) :=
      ⟨fun id => ⟨nofun, nofun, nofun⟩, fun id endpoint stored =>
        absurd stored (unstored id endpoint)⟩
    have admissible : Run.Along (handle self multicast) ⟨.empty, start⟩ (fun routes event =>
        event.Delivered self.deviceId ∧ routes.Global event) events :=
      fun done event isPrefix => ⟨inside isPrefix, along done event isPrefix⟩
    exact fun done isPrefix => (Run.invariant fresh (fun routes event sourced both =>
      sourced.handle known both.1 both.2) admissible done isPrefix).toScoped

/-- A session with Bob at an address on the fifth interface. -/
def seenAt (address : BitVec 128) : Session :=
  { Session.sample "bob" "bob" 1 .pairing 7 false with
    connection := ⟨7, .v6 address 9 0 5, none, none⟩ }

/-- The routes after a session was remembered, with the repository in memory. -/
def rememberedAt (address : BitVec 128) : Routes .memory :=
  Run.exec (handle (.sample (.sample [] ⟨none, []⟩) "alice" 1) .sample) ⟨.empty, .empty⟩
    [.remember (seenAt address) .inbound ⟨0, true, 0⟩]

/-- A session at `2001:db8::1` leaves all routes scoped. -/
theorem link_local_routes_scoped_iff_global : (rememberedAt (0x20010db8 <<< 96 ||| 1)).Scoped := by
  have delivered : ∀ event ∈ [RouteEvent.remember (seenAt (0x20010db8 <<< 96 ||| 1)) .inbound
      ⟨0, true, 0⟩], event.Delivered ⟨"alice"⟩ := by
    simpa [RouteEvent.Delivered] using ⟨by decide, by decide⟩
  refine ((link_local_routes_scoped_iff _ .sample (.inl rfl) (fun id endpoint => List.not_mem_nil)
    delivered).mpr ?_).last
  refine (Run.along_cons _ _).mpr ⟨?_, Run.along_nil⟩
  rintro _ ⟨⟩
  decide

/-- A session at `fe80::1` is stored and shown without its interface. -/
theorem link_local_session_unscoped :
    ((rememberedAt (0xfe80 <<< 112 ||| 1)).discovery.snapshot.any fun peer =>
      peer.connectionAddresses.any fun address => ¬address.Scoped) = true ∧
    (((rememberedAt (0xfe80 <<< 112 ||| 1)).endpoints ⟨"bob"⟩).any fun endpoint =>
      ¬endpoint.address.Scoped) = true := by
  decide +kernel

end Routes

end ArcRelay
