import ArcRelay.Endpoint
import ArcRelay.Lib.Program
import ArcRelay.Registry
import ArcRelay.Repository

/-!
# Calls and the world that answers them

Everything a function of the runtime awaits or shares is a call. What the remote
device, the clock, the random source or the operating system decides is taken
from a proposal of the environment. The repository, the session registry, the
gates and the dial races are part of the world and answer for themselves; a
repository call can also fail, and then changes nothing.

Locks are held within one call. A call that has to wait for a gate is answered
only once the gate is free.
-/

namespace ArcRelay

/-- What is done with a session in the segment that registers it: the accept loop publishes it if it
is the one returned, `accept_input_relay` publishes whatever is returned. -/
inductive Publish where
  | never
  /-- Published if `register_session` returned the very session. -/
  | ifSame
  /-- Published whichever session was returned. -/
  | always
deriving DecidableEq, Repr

/-- `dial::ExpectedPeer`. -/
inductive ExpectedPeer where
  /-- A peer as advertised, with the certificate it announced. -/
  | advertised (peer : PeerAdvertisement)
  /-- A peer as stored, whatever certificate its key vouches for. -/
  | paired (peer : PeerRecord)
deriving DecidableEq, Repr

/-- How far a dial candidate came. -/
inductive Phase where
  /-- `"candidate_capacity_wait"`. -/
  | candidateCapacityWait
  /-- `"global_capacity_wait"`. -/
  | globalCapacityWait
  /-- `"quic_handshake"`. -/
  | quicHandshake
  /-- `"peer_authentication"`. -/
  | peerAuthentication
deriving DecidableEq, Repr

/-- What a dial candidate of a race ends with. -/
structure CandidateResult where
  address : SocketAddr
  phase : Phase
  /-- Whether QUIC gave up waiting for an answer. -/
  idleTimeout : Bool
  /-- The session, or why there is none. -/
  result : Except NetworkError Session

/-- One run of `race_endpoints_on`. -/
structure Race where
  expected : ExpectedPeer
  kind : SessionKind
  /-- The addresses, one for each candidate. -/
  candidates : List SocketAddr
  /-- Whether the candidates dial from a fresh source port. -/
  recovery : Bool
  /-- The candidates that have started to run. -/
  claimed : List Nat
  /-- The candidate that holds the selection permit. -/
  selected : Option Nat
  /-- Results that have not been joined yet. -/
  finished : List CandidateResult
  ended : List Nat
  /-- The number of results that have been joined. -/
  joined : Nat
  /-- Whether the race has been decided. -/
  decided : Bool

/-- A race whose candidates have just been spawned. -/
def Race.start (expected : ExpectedPeer) (kind : SessionKind) (candidates : List SocketAddr)
    (recovery : Bool) : Race where
  expected := expected
  kind := kind
  candidates := candidates
  recovery := recovery
  claimed := []
  selected := none
  finished := []
  ended := []
  joined := 0
  decided := false

/-- `runtime::ProbeRate`. -/
structure ProbeRate where
  /-- Start of the window, in nanoseconds. -/
  windowStarted : Nat
  attempts : UInt8
deriving DecidableEq, Repr

/-- The calls of the runtime's functions. -/
inductive Call where
  /-- `now_ms`. -/
  | now
  /-- The clock of `tokio::time::timeout`. -/
  | expired
  | nonce
  /-- `OsRng::next_u64`. -/
  | randomId
  /-- `NetworkRuntime::metadata`. -/
  | metadata
  /-- `NetworkRuntime::local_port`. -/
  | localPort
  /-- `Connection::open_bi`. -/
  | openStream (connection : ConnectionId)
  /-- `Connection::accept_bi`. -/
  | acceptStream (connection : ConnectionId)
  /-- `write_frame`. -/
  | send (connection : ConnectionId) (frame : Bytes) (limit : Nat)
  /-- `read_frame`. -/
  | receive (connection : ConnectionId) (limit : Nat)
  /-- `SendStream::finish`. -/
  | finish (connection : ConnectionId)
  /-- `Connection::close`. -/
  | close (connection : ConnectionId) (code : Nat) (reason : String)
  /-- `DeviceIdentity::sign`. -/
  | sign (context : SigningContext) (message : Bytes)
  /-- `PeerRepository::peer`. -/
  | peer (id : DeviceId)
  /-- `PeerRepository::grants`. -/
  | grants (id : DeviceId)
  /-- `PeerRepository::save_peer`. -/
  | savePeer (peer : PeerRecord)
  /-- `PeerRepository::save_pairing`. -/
  | savePairing (peer : PeerRecord) (grants : List Grant)
  /-- `PeerService::forget`, which deletes through `PeerRepository::forget_peer`. -/
  | forgetPeer (id : DeviceId)
  /-- `PeerService::grant`, which stores through `PeerRepository::save_grant`. -/
  | saveGrant (grant : Grant)
  /-- `PeerRepository::revoke_grant`. -/
  | revokeGrant (id : DeviceId) (capability : CapabilityId) (direction : GrantDirection)
  /-- `AuthorizationService::require`. -/
  | authorize (id : DeviceId) (capability : CapabilityId)
  /-- `EndpointRepository::endpoints`. -/
  | endpoints (id : DeviceId)
  /-- `EndpointRepository::record_authenticated`. -/
  | recordAuthenticated (id : DeviceId) (address : SocketAddr) (certificate : Digest)
    (source : EndpointSource)
  /-- `EndpointRepository::record_failure`. -/
  | recordFailure (id : DeviceId) (address : SocketAddr)
  /-- `EndpointRepository::forget`. -/
  | forgetEndpoints (id : DeviceId)
  /-- `NetworkRuntime::is_discoverable`. -/
  | isDiscoverable
  /-- `DiscoveryService::observe_authenticated`. -/
  | observeAuthenticated (peer : PeerAdvertisement)
  /-- `DiscoveryService::forget_authenticated`. -/
  | forgetAuthenticated (id : DeviceId)
  /-- `DiscoveryService::refresh`. -/
  | refresh
  /-- `NetworkRuntime::admit_discovery_probe`. -/
  | admitProbe (source : IpAddr)
  /-- `probe_gate.try_acquire_owned`. Which permits are taken depends on the handshakes that are
  still alive, and is left to the environment. -/
  | acquireProbe
  /-- `NetworkRuntime::active`. -/
  | active (id : DeviceId) (kind : SessionKind)
  /-- `NetworkRuntime::register_session`, with what follows in the same segment. -/
  | register (session : Session) (publish : Publish)
  /-- `NetworkRuntime::disconnect`. -/
  | disconnect (id : DeviceId) (reason : String)
  /-- The registry part of `NetworkRuntime::grant` for a cross-screen grant. -/
  | closeInput (id : DeviceId)
  /-- The registry part of `NetworkRuntime::forget`. -/
  | sweep (id : DeviceId)
  /-- The clean-up task of a relayed session is spawned. -/
  | spawnCleanup (session : Session)
  /-- The spawned task waits in `Connection::closed`. -/
  | awaitCleanup (session : Session)
  /-- The registry part of the clean-up task. -/
  | relayCleanup (session : Session)
  /-- The first part of `NetworkRuntime::acquire_session_dial`: the gate of a key, which is made if
  there is none. -/
  | dialGate (key : SessionKey)
  /-- `Mutex::lock_owned` of a dial gate. -/
  | lockGate (gate : Nat)
  | unlockGate (gate : Nat)
  /-- The candidates of a race are spawned. -/
  | startRace (expected : ExpectedPeer) (kind : SessionKind) (candidates : List SocketAddr)
    (recovery : Bool)
  /-- A spawned candidate starts to run. -/
  | claim (race index : Nat)
  /-- A permit of the race's or the process's handshake limit. -/
  | handshakePermit
  /-- `handshake_gate.try_acquire_owned`. -/
  | tryHandshakePermit
  /-- The QUIC handshake of an incoming connection. -/
  | incoming
  /-- `Endpoint::connect`, from the listener's socket or a recovery socket. -/
  | connect (address : SocketAddr) (recovery : Bool)
  /-- `selection.acquire_owned`. A candidate that is given up while it waits gets a failure. -/
  | select (race index : Nat)
  | report (race index : Nat) (result : CandidateResult)
  /-- `JoinSet::join_next`. -/
  | joinNext (race : Nat)
  /-- `JoinSet::shutdown` aborts the remaining candidates. -/
  | shutdownRace (race : Nat)
  /-- `JoinSet::shutdown` waits until all candidates are gone. -/
  | awaitRace (race : Nat)
  /-- `NetworkRuntime::new_recovery_endpoint`. -/
  | recoveryEndpoint
  /-- `NetworkRuntime::new_input_relay_tunnel`. -/
  | tunnel (server : Bool)
  /-- The QUIC handshake through a tunnel, as client or as server. -/
  | throughTunnel (tunnel : RelayTunnel) (server : Bool)

namespace Call

/-- The reply of each call. -/
abbrev Reply : Call → Type
  | .now => Int
  | .expired => Bool
  | .nonce => Digest
  | .randomId => UInt64
  | .metadata => DeviceMetadata
  | .localPort => Except NetworkError UInt16
  | .openStream _ | .acceptStream _ | .finish _ => Except String Unit
  | .send _ _ _ => Except NetworkError Unit
  | .receive _ _ => Except NetworkError Bytes
  | .close _ _ _ => Unit
  | .sign _ _ => DeviceSignature
  | .peer _ => Except RepositoryError (Option PeerRecord)
  | .grants _ => Except RepositoryError (List Grant)
  | .savePeer _ | .savePairing _ _ | .saveGrant _ => Except RepositoryError Unit
  | .forgetPeer _ | .revokeGrant _ _ _ => Except RepositoryError Bool
  | .authorize _ _ => Except String GrantConstraints
  | .endpoints _ => Except NetworkError (List RememberedEndpoint)
  | .recordAuthenticated _ _ _ _ | .recordFailure _ _ | .forgetEndpoints _ =>
    Except NetworkError Unit
  | .isDiscoverable => Bool
  | .observeAuthenticated _ | .forgetAuthenticated _ | .refresh => Unit
  | .admitProbe _ => Except NetworkError Unit
  | .acquireProbe => Bool
  | .active _ _ => Option Session
  | .register _ _ => Except NetworkError Session × Bool
  | .disconnect _ _ => Nat
  | .closeInput _ | .sweep _ | .spawnCleanup _ | .awaitCleanup _ | .relayCleanup _ => Unit
  | .lockGate _ | .unlockGate _ => Unit
  | .startRace _ _ _ _ | .dialGate _ => Nat
  | .claim _ _ => Race × SocketAddr
  | .handshakePermit => Unit
  | .tryHandshakePermit => Bool
  | .incoming => Except NetworkError Connection
  | .connect _ _ => Except (NetworkError × Bool) Connection
  | .select _ _ => Except NetworkError Unit
  | .report _ _ _ | .shutdownRace _ | .awaitRace _ => Unit
  | .joinNext _ => Option CandidateResult
  | .recoveryEndpoint => Except NetworkError Unit
  | .tunnel _ => Except NetworkError RelayTunnel
  | .throughTunnel _ _ => Except NetworkError Connection

/-- An environment in which nothing fails, for concrete runs. -/
def smooth : (call : Call) → call.Reply
  | .now | .startRace _ _ _ _ | .dialGate _ | .disconnect _ _ => 0
  | .expired => false
  | .nonce => Vector.replicate 32 0
  | .randomId => 1
  | .metadata => ⟨"", "", ""⟩
  | .localPort => .ok 0
  | .openStream _ | .acceptStream _ | .finish _ => .ok ()
  | .send _ _ _ => .ok ()
  | .receive _ _ => .ok []
  | .close _ _ _ => ()
  | .sign _ _ => ⟨[]⟩
  | .peer _ => .ok none
  | .grants _ => .ok []
  | .savePeer _ | .savePairing _ _ | .saveGrant _ => .ok ()
  | .forgetPeer _ | .revokeGrant _ _ _ => .ok true
  | .authorize _ _ => .ok .none
  | .endpoints _ => .ok []
  | .recordAuthenticated _ _ _ _ | .recordFailure _ _ | .forgetEndpoints _ => .ok ()
  | .isDiscoverable | .acquireProbe | .tryHandshakePermit => true
  | .observeAuthenticated _ | .forgetAuthenticated _ | .refresh => ()
  | .admitProbe _ => .ok ()
  | .active _ _ => none
  | .register session _ => (.ok session, true)
  | .closeInput _ | .sweep _ | .spawnCleanup _ | .awaitCleanup _ | .relayCleanup _ => ()
  | .lockGate _ | .unlockGate _ => ()
  | .claim _ _ => (.start (.paired ⟨⟨""⟩, ⟨[]⟩, "", "", "", .paired, true, 0, 0⟩) .pairing [] false,
      .v4 0 0)
  | .handshakePermit => ()
  | .incoming => .ok ⟨0, .v4 0 0, none, none⟩
  | .connect address _ => .ok ⟨0, address, none, none⟩
  | .select _ _ => .ok ()
  | .report _ _ _ | .shutdownRace _ | .awaitRace _ => ()
  | .joinNext _ => none
  | .recoveryEndpoint => .ok ()
  | .tunnel _ => .ok ⟨.v4 0 0⟩
  | .throughTunnel bridge _ => .ok ⟨0, bridge.proxyAddress, none, none⟩

/-- The same, with given frames arriving at given calls. -/
def delivering (frames : Nat → Bytes) (time : Nat) : (call : Call) → call.Reply
  | .receive _ _ => .ok (frames time)
  | call => smooth call

end Call

/-- The state the calls of one runtime share. -/
structure World where
  database : Database
  registry : Registry
  discoverable : Bool
  /-- The monotonic clock, in nanoseconds. -/
  instant : Nat
  probeRates : Table (IpAddr × ProbeRate) IpAddr Prod.fst
  /-- `session_dials`: the gate of each key. -/
  sessionDials : SessionKey → Option Nat
  /-- The dial gates in the order they were made, and whether they are held. -/
  gates : List Bool
  races : List Race
  /-- The relayed sessions a clean-up task was spawned for. -/
  cleanups : List Session

/-- What changes the world from outside. -/
inductive Event where
  | closed (connection : ConnectionId) (reason : ConnectionError)
  /-- The last `Arc<Session>` is dropped. -/
  | dropHandle (session : Session)
  /-- A raw clone of a connection is made. -/
  | cloneTransport (session : Session)
  | dropTransport (session : Session)
  | tick (nanoseconds : Nat)
  | setDiscoverable (discoverable : Bool)

namespace World

/-- A runtime that has just been bound, on a repository. -/
def fresh (database : Database) : World where
  database := database
  registry := .empty
  discoverable := true
  instant := 0
  probeRates := .empty
  sessionDials _ := none
  gates := []
  races := []
  cleanups := []

/-- The rates `admit_discovery_probe` goes on with: beyond 512 entries those of the last minute. -/
def retainedRates (world : World) : Table (IpAddr × ProbeRate) IpAddr Prod.fst :=
  if world.probeRates.rows.length > 512 then
    world.probeRates.deleteWhere fun rate => !(world.instant - rate.2.windowStarted < 60000000000)
  else world.probeRates

/-- The rate of a source, in a new window if there is none or ten seconds have passed. -/
def currentRate (world : World) (source : IpAddr) : ProbeRate :=
  match world.retainedRates.find? source with
  | none => ⟨world.instant, 0⟩
  | some entry =>
    if world.instant - entry.2.windowStarted ≥ 10000000000 then ⟨world.instant, 0⟩ else entry.2

/-- `NetworkRuntime::admit_discovery_probe` — at most four probes of one source in a window. -/
def admitProbe (world : World) (source : IpAddr) : Except NetworkError Unit × World :=
  let rate := world.currentRate source
  if rate.attempts ≥ 4 then
    (.error (.busy "discovery probe source is rate limited"),
      { world with probeRates := world.retainedRates.upsert (source, rate) })
  else
    (.ok (), { world with
      probeRates := world.retainedRates.upsert
        (source, { rate with attempts := rate.attempts + 1 }) })

/-- Change one race. -/
def setRace (world : World) (index : Nat) (race : Race) : World :=
  { world with races := world.races.set index race }

/-- The gate of a key, which is made if there is none. -/
def dialGate (world : World) (key : SessionKey) : Nat × World :=
  match world.sessionDials key with
  | some gate => (gate, world)
  | none => (world.gates.length, { world with
      sessionDials := Function.update world.sessionDials key (some world.gates.length)
      gates := world.gates ++ [false] })

/-- Hold or free a dial gate. -/
def setGate (world : World) (gate : Nat) (held : Bool) : World :=
  { world with gates := world.gates.set gate held }

/-- A spawned candidate of an undecided race starts to run, once. -/
def claim (world : World) (race index : Nat) : Option ((Race × SocketAddr) × World) :=
  match world.races[race]? with
  | none => none
  | some entry =>
    match entry.candidates[index]? with
    | none => none
    | some address =>
      if entry.decided ∨ index ∈ entry.claimed then none
      else some ((entry, address),
        world.setRace race { entry with claimed := index :: entry.claimed })

/-- A candidate takes the selection permit, if no other candidate has it. -/
def select (world : World) (race index : Nat) : Option World :=
  match world.races[race]? with
  | none => none
  | some entry =>
    if entry.selected = none ∨ entry.selected = some index then
      some (world.setRace race { entry with selected := some index })
    else none

/-- A candidate ends. A failed one gives the selection permit back. Once the race is decided its
result is dropped. -/
def report (world : World) (race index : Nat) (result : CandidateResult) : World :=
  match world.races[race]? with
  | none => world
  | some entry => world.setRace race { entry with
      ended := index :: entry.ended
      finished := if entry.decided then entry.finished else entry.finished ++ [result]
      selected :=
        if result.result.isOk = false ∧ entry.selected = some index then none
        else entry.selected }

/-- The next result of a race, or none once all candidates have been joined. -/
def joinNext (world : World) (race : Nat) : Option (Option CandidateResult × World) :=
  match world.races[race]? with
  | none => some (none, world)
  | some entry =>
    match entry.finished with
    | result :: later =>
      some (some result,
        world.setRace race { entry with finished := later, joined := entry.joined + 1 })
    | [] => if entry.joined = entry.candidates.length then some (none, world) else none

/-- The remaining candidates of a race are aborted. -/
def shutdownRace (world : World) (race : Nat) : World :=
  match world.races[race]? with
  | none => world
  | some entry => world.setRace race { entry with decided := true, finished := [] }

/-- Every candidate that has started has ended. -/
def raceEnded (world : World) (race : Nat) : Bool :=
  match world.races[race]? with
  | none => true
  | some entry => entry.claimed.all fun index => index ∈ entry.ended

/-- What happens outside of the runtime's functions. -/
def disturb (world : World) : Event → World
  | .closed connection reason =>
    { world with registry := world.registry.closeWith connection reason }
  | .dropHandle session => { world with registry := world.registry.dropHandle session }
  | .cloneTransport session => { world with registry := world.registry.cloneTransport session }
  | .dropTransport session => { world with registry := world.registry.dropTransport session }
  | .tick nanoseconds => { world with instant := world.instant + nanoseconds }
  | .setDiscoverable discoverable => { world with discoverable }

/-- A repository call that changes the database: it fails as the environment proposes, or for
reasons of its own. -/
def write {α : Type} (world : World) (proposal : Except RepositoryError α)
    (result : Except RepositoryError (α × Database)) : Except RepositoryError α × World :=
  match proposal with
  | .error error => (.error error, world)
  | .ok _ =>
    match result with
    | .error error => (.error error, world)
    | .ok (value, database) => (.ok value, { world with database })

/-- A repository call that reads the database. -/
def read {α : Type} (proposal result : Except RepositoryError α) : Except RepositoryError α :=
  match proposal with
  | .error error => .error error
  | .ok _ => result

/-- `register_session`, and the publication that follows in the same segment, which reaches
subscribers only if there are any. -/
def register (world : World) (session : Session) (publish : Publish) (subscribed : Bool) :
    (Except NetworkError Session × Bool) × World :=
  let (result, registry) := world.registry.registerSession session
  let publishes := match publish, result with
    | .always, .ok _ => subscribed
    | .ifSame, .ok returned => returned.conn == session.conn && subscribed
    | _, _ => false
  ((result, publishes), { world with registry })

end World

end ArcRelay
