import ArcRelay.Advertising
import ArcRelay.EndpointRepository

/-!
# Routes to peers

What the runtime knows of the addresses of its peers: the discovery service and the
endpoint repository, and everything that brings addresses to them. Addresses come
from services that are resolved and from sessions that are remembered; a peer that
is selected by hand is taken from the snapshot or found by a probe.
-/

namespace ArcRelay

/-- The discovery service and the endpoint repository. -/
structure Routes (repository : EndpointRepository) where
  discovery : Discovery
  endpoints : repository.State

/-- What is read while a session is remembered. -/
structure Reading where
  /-- `now_ms`. -/
  now : Int
  /-- Whether `require_paired` succeeds. -/
  paired : Bool
  /-- The time that `record_authenticated` reads. -/
  recorded : Int

/-- What happens to the routes. -/
inductive RouteEvent where
  /-- `resolve`, at a time. -/
  | resolve (service : ResolvedService) (now : Int)
  | remove (fullname : String)
  | refresh
  /-- `remember_authenticated_session`. -/
  | remember (session : Session) (source : EndpointSource) (reading : Reading)
  /-- `discover_at` with the endpoints of its host, and the session of the probe that succeeds. -/
  | discoverAt (endpoints : List SocketAddr) (probed : Option (Session × Reading))
  | recordFailure (id : DeviceId) (address : SocketAddr) (now : Int)
  /-- `forget_authenticated`, and `forget` of the repository at a time. -/
  | forget (id : DeviceId) (now : Int)

namespace Routes

variable {repository : EndpointRepository} (self : Runtime) (multicast : Multicast)

/-- A call of the discovery service. -/
def discover (routes : Routes repository) (operation : Discovery.Operation) : Routes repository :=
  { routes with discovery := routes.discovery.perform self.deviceId operation }

/-- A call of the repository. -/
def record (routes : Routes repository) (now : Int) (call : EndpointCall) : Routes repository :=
  { routes with endpoints := repository.perform routes.endpoints ⟨now, call⟩ }

/-- `NetworkRuntime::remember_authenticated_session`. -/
def remember (routes : Routes repository) (session : Session) (source : EndpointSource)
    (reading : Reading) : Routes repository :=
  let observed := routes.discover self
    (.observeAuthenticated (Runtime.sessionAdvertisement session reading.now))
  if reading.paired then
    observed.record reading.recorded (.recordAuthenticated session.peer.deviceId
      (Runtime.dialAddress session) session.peer.certificateSha256 source)
  else observed

/-- The peer that `discover_at` takes from the snapshot: the one that is shown at the first endpoint
at which one is, with this endpoint only. -/
def selected (snapshot : List PeerAdvertisement) (endpoints : List SocketAddr) :
    Option PeerAdvertisement :=
  endpoints.findSome? fun endpoint =>
    (snapshot.find? fun peer => peer.connectionAddresses.contains endpoint ||
      (peer.port == endpoint.port && peer.addresses.contains endpoint.ip)).map fun peer =>
        { peer with
          addresses := [endpoint.ip]
          connectionAddresses := [endpoint]
          port := endpoint.port }

/-- The session that an event remembers, if it does. -/
def remembers (routes : Routes repository) :
    RouteEvent → Option (Session × EndpointSource × Reading)
  | .remember session source reading => some (session, source, reading)
  | .discoverAt endpoints probed =>
    match selected routes.discovery.snapshot endpoints with
    | some _ => none
    | none => probed.map fun found => (found.1, .manual, found.2)
  | _ => none

/-- The routes after the session is remembered, if there is one. -/
def rememberIf (routes : Routes repository) :
    Option (Session × EndpointSource × Reading) → Routes repository
  | some (session, source, reading) => routes.remember self session source reading
  | none => routes

/-- The routes after an event. -/
def handle (routes : Routes repository) (event : RouteEvent) : Routes repository :=
  match event with
  | .resolve service now => routes.discover self (.resolve service.fullname
      (decodeService self.platform multicast service now))
  | .remove fullname => routes.discover self (.remove fullname)
  | .refresh => routes.discover self .refresh
  | .recordFailure id address now => routes.record now (.recordFailure id address)
  | .forget id now => (routes.discover self (.forgetAuthenticated id)).record now (.forget id)
  | .remember _ _ _ | .discoverAt _ _ => routes.rememberIf self (routes.remembers event)

end Routes

end ArcRelay
