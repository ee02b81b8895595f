import ArcRelay.Advertising

/-!
# Whether a device is advertised

`set_discoverable` and `update_metadata` with what they share: the flag the
inbound handshake looks at, the flag of the discovery service, the metadata, and
the registration at the multicast daemon. No lock spans two of these, so every
load, store and daemon call is a call of its own.
-/

namespace ArcRelay.Visibility

/-- The steps the two operations are made of. -/
inductive Call where
  /-- `discoverable.store`. -/
  | storeDiscoverable (discoverable : Bool)
  /-- `NetworkRuntime::metadata`. -/
  | readMetadata
  /-- `metadata.write`. -/
  | writeMetadata (metadata : DeviceMetadata)
  /-- `NetworkRuntime::local_port`. -/
  | localPort
  /-- `local_published.load`. -/
  | loadPublished
  /-- `local_published.store`. -/
  | storePublished (published : Bool)
  /-- `ServiceDaemon::register`. -/
  | register (info : ServiceInfo)
  /-- `ServiceDaemon::unregister`. -/
  | unregister

/-- What a step returns. -/
abbrev Call.Reply : Call → Type
  | .storeDiscoverable _ | .writeMetadata _ | .storePublished _ => Unit
  | .readMetadata => DeviceMetadata
  | .localPort => Except NetworkError UInt16
  | .loadPublished => Bool
  | .register _ | .unregister => Except NetworkError Unit

/-- What the steps read and write. -/
structure World where
  /-- `NetworkRuntime::discoverable`. -/
  discoverable : Bool
  /-- `DiscoveryService::local_published`. -/
  localPublished : Bool
  /-- The local service as the daemon has it registered. -/
  registered : Option ServiceInfo
  /-- `NetworkRuntime::metadata`. -/
  metadata : DeviceMetadata

/-- A runtime that has just been bound: the service is registered and both flags are set. -/
def World.bound (info : ServiceInfo) (metadata : DeviceMetadata) : World :=
  ⟨true, true, some info, metadata⟩

/-- How the steps are answered. The endpoint and the daemon answer as the environment says; a
registration replaces an earlier one, since the full name of the service never changes. -/
def handle : Program.Handler World Call.Reply
  | world, .storeDiscoverable discoverable, _ => some ((), { world with discoverable })
  | world, .readMetadata, _ => some (world.metadata, world)
  | world, .writeMetadata metadata, _ => some ((), { world with metadata })
  | world, .localPort, reply => some (reply, world)
  | world, .loadPublished, _ => some (world.localPublished, world)
  | world, .storePublished localPublished, _ => some ((), { world with localPublished })
  | world, .register info, .ok () => some (.ok (), { world with registered := some info })
  | world, .register _, .error error => some (.error error, world)
  | world, .unregister, .ok () => some (.ok (), { world with registered := none })
  | world, .unregister, .error error => some (.error error, world)

/-- A function of the runtime that may fail. -/
abbrev Action := Async Call.Reply NetworkError

/-- One step. -/
abbrev step (request : Call) : Action request.Reply := Async.call request

variable (platform : Platform) (multicast : Multicast) (identity : LocalIdentity)

/-- `daemon.register(service_info(..)?)`. -/
def announce (metadata : DeviceMetadata) (port : UInt16) : Action Unit := do
  let info ← Async.ofExcept (serviceInfo platform multicast identity metadata port)
  Async.ofExcept (← step (.register info))

/-- `daemon.unregister`. -/
def withdraw : Action Unit := do
  Async.ofExcept (← step .unregister)

/-- `DiscoveryService::update_local_metadata`. -/
def updateLocalMetadata (metadata : DeviceMetadata) (port : UInt16) : Action Unit := do
  let published ← step .loadPublished
  Async.whenever (published = true) (announce platform multicast identity metadata port)

/-- The daemon call of `set_local_published`. -/
def register (metadata : DeviceMetadata) (port : UInt16) (published : Bool) : Action Unit :=
  if published then announce platform multicast identity metadata port else withdraw

/-- `DiscoveryService::set_local_published`. -/
def setLocalPublished (metadata : DeviceMetadata) (port : UInt16) (published : Bool) :
    Action Unit := do
  let previous ← step .loadPublished
  Async.whenever (previous ≠ published) do
    register platform multicast identity metadata port published
    step (.storePublished published)

/-- `NetworkRuntime::update_metadata`. -/
def updateMetadata (metadata : DeviceMetadata) : Action Unit := do
  let port ← Async.ofExcept (← step .localPort)
  updateLocalMetadata platform multicast identity metadata port
  step (.writeMetadata metadata)

/-- `NetworkRuntime::set_discoverable`, which only logs a failure. -/
def setDiscoverable (discoverable : Bool) : Action Unit := do
  step (.storeDiscoverable discoverable)
  let metadata ← step .readMetadata
  let port ← step .localPort
  let _ ← Async.result
    (setLocalPublished platform multicast identity metadata (port.toOption.getD 0) discoverable)
  return

/-- The calls of the runtime. -/
inductive Operation where
  | updateMetadata (metadata : DeviceMetadata)
  | setDiscoverable (discoverable : Bool)
deriving DecidableEq

/-- The program of a call. -/
def action : Operation → Action Unit
  | .updateMetadata metadata => updateMetadata platform multicast identity metadata
  | .setDiscoverable discoverable => setDiscoverable platform multicast identity discoverable

/-- Calls that run at the same time, one step after the other in any order. -/
def system : System Call.Reply (Except NetworkError Unit) World Operation Empty where
  program operation := (action platform multicast identity operation).run
  handle := handle
  disturb _ event := nomatch event

end ArcRelay.Visibility
