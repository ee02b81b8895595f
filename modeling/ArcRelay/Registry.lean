import ArcRelay.Session
import ArcRelay.Trust

/-!
# The live-session registry

`NetworkRuntime::sessions` and the operations that read and write it. Every
operation takes the registry lock once and does not await while it holds it, so
each is one function on the registry. The state beside the map is what the
operations read of the transport: why a connection is closed, whether an
`Arc<Session>` of it is still held, and whether a raw `transport_handle` clone
is. QUIC closes a connection when its last handle is dropped; `Registry.release`
is that rule. A relay tunnel that nobody owns any more only asks its endpoint to
close, and the clean-up task of the relay holds the connection until then, so a
relayed connection stays open until it is closed by an event of its own.
-/

namespace ArcRelay

/-- `MAX_RETIRED_PEER_INSTANCES`. -/
def maxRetiredPeerInstances : Nat := 32

/-- `runtime::ActiveSession`. The weak session handle is modelled by the session it refers to;
whether it can still be upgraded is a matter of the registry state. The source copies the
process instance, the rank and the connection out of that session, which never changes them. -/
structure ActiveSession where
  /-- Processes of the peer that a later process has displaced, oldest first. -/
  retiredPeerInstances : List ProcessInstanceId
  session : Session
deriving DecidableEq, Repr

namespace ActiveSession

/-- The peer process of the registered session. -/
def peerProcessInstanceId (entry : ActiveSession) : Option ProcessInstanceId :=
  entry.session.peerProcessInstanceId

/-- The connection the entry keeps alive. -/
def connection (entry : ActiveSession) : ConnectionId := entry.session.conn

end ActiveSession

/-- The session registry with the transport state its operations read. -/
structure Registry where
  /-- `NetworkRuntime::sessions`. -/
  sessions : SessionKey → Option ActiveSession
  /-- A session is registered under its own key only. -/
  keyed : ∀ key entry, sessions key = some entry → entry.session.key = key
  /-- `Connection::close_reason`. -/
  closeReason : ConnectionId → Option ConnectionError
  /-- Whether an `Arc<Session>` of the connection is still held. -/
  handles : ConnectionId → Bool
  /-- Whether a `Session::transport_handle` clone of the connection is still held. -/
  raw : ConnectionId → Bool

namespace Registry

/-- The registry of a fresh runtime: no session is registered, no connection is closed, and no
handle has been dropped. -/
def empty : Registry where
  sessions _ := none
  keyed := by intro key entry found; cases found
  closeReason _ := none
  handles _ := true
  raw _ := false

/-- `close_reason().is_none()`. -/
def isOpen (registry : Registry) (connection : ConnectionId) : Bool :=
  (registry.closeReason connection).isNone

/-- Record why a connection closed; the first reason stays. -/
def closeWith (registry : Registry) (connection : ConnectionId) (reason : ConnectionError) :
    Registry :=
  if registry.isOpen connection then
    { registry with
      closeReason := fun other =>
        if other = connection then some reason else registry.closeReason other }
  else registry

/-- `Connection::close` — a local close shows in `close_reason` at once. -/
def close (registry : Registry) (connection : ConnectionId) (code : Nat) (reason : String) :
    Registry :=
  registry.closeWith connection (.locallyClosed code reason)

/-- `Weak::upgrade` on the session of an entry. -/
def upgrade (registry : Registry) (session : Session) : Option Session :=
  if registry.handles session.conn then some session else none

/-- The upgraded session of an entry, if its connection is open. -/
def live (registry : Registry) (entry : ActiveSession) : Option Session :=
  (registry.upgrade entry.session).filter fun active => registry.isOpen active.conn

/-- Whether the registry holds this very connection under the session's key. -/
def holds (registry : Registry) (session : Session) : Bool :=
  match registry.sessions session.key with
  | some entry => entry.connection == session.conn
  | none => false

/-- The connection of a session is still owned: by a session handle, by the registry entry, by a raw
clone, or, if it is relayed, by the clean-up task that `register_input_relay` spawns. -/
def owned (registry : Registry) (session : Session) : Bool :=
  registry.handles session.conn || registry.holds session || session.isRelayed ||
    registry.raw session.conn

/-- One owner of the session's connection is gone. QUIC closes the connection with the last one.
`RelayTunnel::drop` closes nothing by itself: the endpoint closes its connections later. -/
def release (registry : Registry) (session : Session) : Registry :=
  if registry.owned session then registry else registry.close session.conn 0 ""

/-- `BTreeMap::insert`, under the key of the entry's session. -/
def put (registry : Registry) (entry : ActiveSession) : Registry :=
  { registry with
    sessions := fun key => if key = entry.session.key then some entry else registry.sessions key
    keyed := by
      intro key found present
      split at present
      · rename_i same
        cases present
        exact same.symm
      · exact registry.keyed key found present }

/-- `BTreeMap::remove`, without dropping the removed entry. -/
def take (registry : Registry) (key : SessionKey) : Registry :=
  { registry with
    sessions := fun other => if other = key then none else registry.sessions other
    keyed := by
      intro other found present
      split at present
      · cases present
      · exact registry.keyed other found present }

/-- `BTreeMap::remove` with the removed entry dropped at once. -/
def remove (registry : Registry) (key : SessionKey) : Registry :=
  match registry.sessions key with
  | none => registry
  | some entry => (registry.take key).release entry.session

/-- `BTreeMap::remove` followed by closing the removed connection. -/
def removeAndClose (registry : Registry) (key : SessionKey) (code : Nat) (reason : String) :
    Registry :=
  match registry.sessions key with
  | none => registry
  | some entry => (registry.take key).close entry.connection code reason

/-- The loop of `disconnect` and `forget` over every key of one peer. -/
def removePeer (registry : Registry) (peer : DeviceId) (code : Nat) (reason : String) : Registry :=
  SessionKind.all.foldl (fun registry kind => registry.removeAndClose (peer, kind) code reason)
    registry

/-- The session carries a process instance the entry has retired. -/
def retires (entry : ActiveSession) (session : Session) : Bool :=
  match session.peerProcessInstanceId with
  | some incoming => entry.retiredPeerInstances.contains incoming
  | none => false

/-- The instance an incoming session displaces: both ends name one, and they differ. -/
def displaced (entry : ActiveSession) (session : Session) : Option ProcessInstanceId :=
  match entry.peerProcessInstanceId, session.peerProcessInstanceId with
  | some previous, some incoming => if previous != incoming then some previous else none
  | _, _ => none

/-- The retired instances after a registration: the displaced one is appended and the oldest
ones go while there are more than `MAX_RETIRED_PEER_INSTANCES`. -/
def retiredAfter (entry : ActiveSession) (session : Session) : List ProcessInstanceId :=
  match displaced entry session with
  | some previous =>
    let retired := entry.retiredPeerInstances ++ [previous]
    retired.drop (retired.length - maxRetiredPeerInstances)
  | none => entry.retiredPeerInstances

/-- The existing session is kept over the incoming one: `keep_direct`, or the deterministic rank
of competing dial directions. -/
def keepsActive (active session : Session) : Bool :=
  let sameInitiator := active.rank.initiatorId == session.rank.initiatorId
  let keepDirect := !sameInitiator && !active.isRelayed && session.isRelayed
  let preferDirect := active.isRelayed && !session.isRelayed
  keepDirect || (!preferDirect && !sameInitiator && decide (active.rank ≤ session.rank))

/-- The final `sessions.insert`, which drops the entry it overwrites. -/
def replace (registry : Registry) (current : ActiveSession) (session : Session)
    (retired : List ProcessInstanceId) : Registry :=
  (registry.put ⟨retired, session⟩).release current.session

/-- A session of a newer peer process closes the transport of the process it displaces. -/
def settleRestart (registry : Registry) (current : ActiveSession) (session : Session) : Registry :=
  if (displaced current session).isSome then
    registry.close current.connection 409 "peer process restarted"
  else registry

/-- `NetworkRuntime::register_session` once the entry is known not to retire the session: the
displaced process loses its transport, then the two sessions are arbitrated. Closing the replaced
connection has no effect when it is closed already. -/
def arbitrate (registry : Registry) (current : ActiveSession) (session : Session) :
    Except NetworkError Session × Registry :=
  let retired := retiredAfter current session
  let registry := registry.settleRestart current session
  match registry.upgrade current.session with
  | some active =>
    if active.conn = session.conn then (.ok active, registry)
    else if registry.isOpen active.conn && keepsActive active session then
      (.ok active, registry.close session.conn 409 "duplicate session")
    else
      (.ok session,
        (registry.close current.connection 409 "session replaced").replace current session retired)
  | none => (.ok session, registry.replace current session retired)

/-- `NetworkRuntime::register_session`. -/
def registerSession (registry : Registry) (session : Session) :
    Except NetworkError Session × Registry :=
  match registry.sessions session.key with
  | none => (.ok session, registry.put ⟨[], session⟩)
  | some current =>
    if retires current session then
      let registry := registry.close session.conn 409 "obsolete peer process instance"
      match registry.live current with
      | some active => (.ok active, registry)
      | none => (.error (.connect "obsolete peer process instance"), registry)
    else registry.arbitrate current session

/-- `NetworkRuntime::active` — the open session under a key; anything else under it is removed. -/
def active (registry : Registry) (id : DeviceId) (kind : SessionKind) :
    Option Session × Registry :=
  match (registry.sessions (id, kind)).bind registry.live with
  | some session => (some session, registry)
  | none => (none, registry.remove (id, kind))

/-- `NetworkRuntime::disconnect` — the number of removed keys and the registry without them. -/
def disconnect (registry : Registry) (peer : DeviceId) (reason : String) : Nat × Registry :=
  (SessionKind.all.countP fun kind => (registry.sessions (peer, kind)).isSome,
    registry.removePeer peer 0 reason)

/-- Whether `NetworkRuntime::connected_peers` lists a peer. -/
def connectedPeer (registry : Registry) (id : DeviceId) : Bool :=
  SessionKind.all.any fun kind =>
    (registry.sessions (id, kind)).any fun active => registry.isOpen active.connection

/-- The registry part of `NetworkRuntime::forget`. -/
def forget (registry : Registry) (peer : DeviceId) : Registry :=
  registry.removePeer peer 403 "peer forgotten"

/-- The registry part of `NetworkRuntime::grant`: a cross-screen grant ends the input session
only, every other grant ends all sessions of the peer. -/
def grant (registry : Registry) (peer : DeviceId) (capability : CapabilityId) : Registry :=
  if capability = .crossScreenInject then
    registry.removeAndClose (peer, .realtimeInput) 0 "authorization changed"
  else (registry.disconnect peer "authorization changed").2

/-- The registry part of a `NetworkRuntime::revoke` that removed a grant. -/
def revoke (registry : Registry) (peer : DeviceId) : Registry :=
  (registry.disconnect peer "authorization changed").2

/-- The last `Arc<Session>` is dropped. -/
def dropHandle (registry : Registry) (session : Session) : Registry :=
  { registry with
    handles := fun other => if other = session.conn then false else registry.handles other
      }.release session

/-- `Session::transport_handle`, called on a held session. -/
def cloneTransport (registry : Registry) (session : Session) : Registry :=
  if registry.handles session.conn then
    { registry with
      raw := fun other => if other = session.conn then true else registry.raw other }
  else registry

/-- The last raw clone is dropped. -/
def dropTransport (registry : Registry) (session : Session) : Registry :=
  { registry with
    raw := fun other => if other = session.conn then false else registry.raw other }.release session

/-- The clean-up task of `register_input_relay`, once the relayed connection has closed: the entry
is removed if it still is the one the task was spawned for. -/
def relayCleanup (registry : Registry) (session : Session) : Registry :=
  if registry.holds session then registry.remove session.key else registry

end Registry

end ArcRelay
