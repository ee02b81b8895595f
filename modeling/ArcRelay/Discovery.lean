import ArcRelay.Endpoint
import ArcRelay.Lib.Pool
import ArcRelay.Lib.Table

/-!
# Discovery

`DiscoveryService`: the peers announced by multicast, the peers seen in
authenticated sessions, and the snapshot of both that is published to the
features. Each function takes the locks one after the other, so it is a program
whose calls are the sections under one lock. Decoding the properties of a
service is not part of this model: a resolved service arrives with the
advertisement it decodes to, if it decodes.
-/

namespace ArcRelay

/-- A `HashMap<DeviceId, PeerAdvertisement>`, in which every peer is stored under its own id. -/
abbrev PeerTable := Table PeerAdvertisement DeviceId PeerAdvertisement.deviceId

/-- `sort` followed by `dedup`. -/
def sortDedup {α : Type} [LinearOrder α] (values : List α) : List α :=
  (values.insertionSort (· ≤ ·)).destutter (· ≠ ·)

/-- The one of two advertisements that is as new as the other or newer. -/
def decisive (target newer : PeerAdvertisement) : PeerAdvertisement :=
  if newer.lastSeenAtMs ≥ target.lastSeenAtMs then newer else target

/-- `merge_advertisement`: the newer one decides, and the addresses of both are kept. -/
def mergeAdvertisement (target newer : PeerAdvertisement) : PeerAdvertisement where
  deviceId := target.deviceId
  publicKey := (decisive target newer).publicKey
  metadata := (decisive target newer).metadata
  addresses := sortDedup (target.addresses ++ newer.addresses)
  connectionAddresses := sortDedup (target.connectionAddresses ++ newer.connectionAddresses)
  port := (decisive target newer).port
  certificateSha256 := (decisive target newer).certificateSha256
  lastSeenAtMs := (decisive target newer).lastSeenAtMs

/-- `same_discovery_route`: everything but the time is the same. -/
def sameDiscoveryRoute (left right : PeerAdvertisement) : Bool :=
  left.deviceId == right.deviceId
    && left.publicKey == right.publicKey
    && left.metadata == right.metadata
    && left.addresses == right.addresses
    && left.connectionAddresses == right.connectionAddresses
    && left.port == right.port
    && left.certificateSha256 == right.certificateSha256

/-- `merge_observed_peer`: whether the route changed, and the peers with the observed one. -/
def mergeObservedPeer (peers : PeerTable) (peer : PeerAdvertisement) : Bool × PeerTable :=
  match peers.find? peer.deviceId with
  | none => (true, peers.upsert peer)
  | some observed =>
    let merged := mergeAdvertisement observed peer
    (!sameDiscoveryRoute observed merged, peers.upsert merged)

/-- The loop of `emit` over the announced peers. -/
def mergedPeers (authenticated mdns : PeerTable) : PeerTable :=
  authenticated.merge mergeAdvertisement mdns

/-- The order of the snapshot: by name, then by id. -/
def peerOrder (left right : PeerAdvertisement) : Prop :=
  left.metadata.name < right.metadata.name ∨
    (left.metadata.name = right.metadata.name ∧ left.deviceId ≤ right.deviceId)

instance : DecidableRel peerOrder := fun _ _ => inferInstanceAs (Decidable (_ ∨ _))

/-- The list that `emit` publishes for the two maps. -/
def emitted (authenticated mdns : PeerTable) : List PeerAdvertisement :=
  (mergedPeers authenticated mdns).rows.insertionSort peerOrder

/-- The state behind the locks of `DiscoveryService`. -/
structure Discovery where
  mdnsPeers : PeerTable
  authenticatedPeers : PeerTable
  serviceIds : Table (String × DeviceId) String Prod.fst
  snapshot : List PeerAdvertisement

namespace Discovery

/-- A service that has just been started. -/
def empty : Discovery := ⟨.empty, .empty, .empty, []⟩

/-- The sections under one lock. -/
inductive Section where
  /-- `authenticated_peers.write()` around `merge_observed_peer`. -/
  | mergeAuthenticated (peer : PeerAdvertisement)
  /-- `authenticated_peers.write().remove`. -/
  | removeAuthenticated (id : DeviceId)
  /-- `mdns_peers.write()` around `merge_observed_peer`. -/
  | mergeMdns (peer : PeerAdvertisement)
  /-- `mdns_peers.write().remove`. -/
  | removeMdns (id : DeviceId)
  /-- `service_ids.lock().insert`. -/
  | insertService (fullname : String) (id : DeviceId)
  /-- `service_ids.lock().remove`. -/
  | removeService (fullname : String)
  /-- `authenticated_peers.read().clone()`. -/
  | readAuthenticated
  /-- `mdns_peers.read()`, held over the loop of `emit`. -/
  | readMdns
  /-- `snapshot.send_replace`. -/
  | publish (peers : List PeerAdvertisement)

/-- What a section returns. -/
abbrev Section.Reply : Section → Type
  | .mergeAuthenticated _ | .removeAuthenticated _ | .mergeMdns _ | .removeMdns _ => Bool
  | .insertService _ _ | .publish _ => Unit
  | .removeService _ => Option DeviceId
  | .readAuthenticated | .readMdns => PeerTable

/-- A section under its lock. -/
def answer (state : Discovery) : (request : Section) → request.Reply × Discovery
  | .mergeAuthenticated peer =>
    let (changed, peers) := mergeObservedPeer state.authenticatedPeers peer
    (changed, { state with authenticatedPeers := peers })
  | .removeAuthenticated id =>
    ((state.authenticatedPeers.find? id).isSome, { state with
      authenticatedPeers := state.authenticatedPeers.deleteWhere fun peer => peer.deviceId = id })
  | .mergeMdns peer =>
    let (changed, peers) := mergeObservedPeer state.mdnsPeers peer
    (changed, { state with mdnsPeers := peers })
  | .removeMdns id =>
    ((state.mdnsPeers.find? id).isSome, { state with
      mdnsPeers := state.mdnsPeers.deleteWhere fun peer => peer.deviceId = id })
  | .insertService fullname id =>
    ((), { state with serviceIds := state.serviceIds.upsert (fullname, id) })
  | .removeService fullname =>
    ((state.serviceIds.find? fullname).map Prod.snd, { state with
      serviceIds := state.serviceIds.deleteWhere fun service => service.1 = fullname })
  | .readAuthenticated => (state.authenticatedPeers, state)
  | .readMdns => (state.mdnsPeers, state)
  | .publish peers => ((), { state with snapshot := peers })

/-- A function of the service. -/
abbrev Task := Program Section.Reply Unit

/-- One section. -/
abbrev locked (request : Section) : Program Section.Reply request.Reply := Program.perform request

/-- `DiscoveryService::emit`. -/
def emit : Task := do
  let authenticated ← locked .readAuthenticated
  let mdns ← locked .readMdns
  locked (.publish (emitted authenticated mdns))

/-- `emit` after a section that reports a change. -/
def emitIf (changed : Bool) : Task :=
  if changed then emit else return

/-- The calls of the service's functions. -/
inductive Operation where
  /-- `resolve`, with the advertisement the service decodes to. -/
  | resolve (fullname : String) (decoded : Option PeerAdvertisement)
  | remove (fullname : String)
  | observeAuthenticated (peer : PeerAdvertisement)
  | forgetAuthenticated (id : DeviceId)
  | refresh

variable (localId : DeviceId)

/-- `DiscoveryService::resolve`. -/
def resolve (fullname : String) (decoded : Option PeerAdvertisement) : Task :=
  match decoded with
  | none => return
  | some peer =>
    if peer.deviceId = localId then return
    else do
      locked (.insertService fullname peer.deviceId)
      let changed ← locked (.mergeMdns peer)
      emitIf changed

/-- `DiscoveryService::remove`. -/
def remove (fullname : String) : Task := do
  let service ← locked (.removeService fullname)
  match service with
  | none => return
  | some id =>
    let removed ← locked (.removeMdns id)
    emitIf removed

/-- `DiscoveryService::observe_authenticated`. -/
def observeAuthenticated (peer : PeerAdvertisement) : Task :=
  if peer.deviceId = localId then return
  else do
    let changed ← locked (.mergeAuthenticated peer)
    emitIf changed

/-- `DiscoveryService::forget_authenticated`. -/
def forgetAuthenticated (id : DeviceId) : Task := do
  let removed ← locked (.removeAuthenticated id)
  emitIf removed

/-- `DiscoveryService::refresh`. -/
def refresh : Task := emit

/-- The task of a call. -/
def task : Operation → Task
  | .resolve fullname decoded => resolve localId fullname decoded
  | .remove fullname => remove fullname
  | .observeAuthenticated peer => observeAuthenticated localId peer
  | .forgetAuthenticated id => forgetAuthenticated id
  | .refresh => refresh

/-- `DiscoveryService::peer`. -/
def peer (state : Discovery) (id : DeviceId) : Option PeerAdvertisement :=
  state.snapshot.find? fun peer => peer.deviceId = id

/-- A call that runs to its end by itself. -/
def perform (state : Discovery) (operation : Operation) : Discovery :=
  ((task localId operation).complete answer state).2

/-- Calls that run at the same time, one section after the other in any order. -/
def system : System Section.Reply Unit Discovery Operation Empty where
  program := task localId
  handle state request _ := some (answer state request)
  disturb _ event := nomatch event

end Discovery

end ArcRelay
