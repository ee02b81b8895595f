import ArcRelay.Basic
import ArcRelay.Lib.Pool

/-!
# Shutting a runtime down

`shutdown` beside the functions that create endpoints: `new_recovery_endpoint` and
`new_input_relay_tunnel`. Endpoints are registered by weak reference under a lock
that `shutdown` only takes for reading, after it has set a flag that the others look
at under the lock. Every load, store, lock, push and close is a step of its own;
whether a socket can be bound is up to the environment.
-/

namespace ArcRelay.Shutdown

/-- The endpoints in the order they were created. -/
abbrev EndpointId := Nat

/-- The steps the functions are made of. -/
inductive Call where
  /-- `stopped.store(true)`. -/
  | storeStopped
  /-- `stopped.load`. -/
  | loadStopped
  /-- `self.endpoint.close`. -/
  | closeMain
  /-- `recovery_endpoints.read`. -/
  | acquireRead
  | releaseRead
  /-- `recovery_endpoints.write`. -/
  | acquireWrite
  | releaseWrite
  /-- The iterator over the weak references, under the read guard. -/
  | registered
  /-- `Weak::upgrade`. -/
  | upgrade (endpoint : EndpointId)
  /-- `Endpoint::close`. -/
  | close (endpoint : EndpointId)
  /-- `Handle::try_current`. -/
  | tryCurrent
  /-- `relay_capacity.try_acquire_owned`. -/
  | acquireCapacity
  /-- Binding the sockets and `Endpoint::new`. -/
  | create
  /-- `client_config` and, for a relay, `local_addr`. -/
  | configure
  /-- The endpoint is dropped on an early return. -/
  | discard (endpoint : EndpointId)
  /-- `endpoints.retain`. -/
  | retain
  /-- `endpoints.push`. -/
  | push (endpoint : EndpointId)

/-- What a step returns. -/
abbrev Call.Reply : Call → Type
  | .storeStopped | .closeMain | .acquireRead | .releaseRead | .acquireWrite | .releaseWrite
  | .close _ | .discard _ | .retain | .push _ => Unit
  | .loadStopped | .upgrade _ => Bool
  | .registered => List EndpointId
  | .tryCurrent | .acquireCapacity | .configure => Except NetworkError Unit
  | .create => Except NetworkError EndpointId

/-- What the steps read and write. -/
structure World where
  /-- `NetworkRuntime::stopped`. -/
  stopped : Bool
  mainClosed : Bool
  /-- Someone holds the write guard of `recovery_endpoints`. -/
  writing : Bool
  readers : Nat
  /-- The weak references in `recovery_endpoints`. -/
  recoveryEndpoints : List EndpointId
  created : Nat
  /-- Whether an `Arc` of the endpoint is held. -/
  alive : EndpointId → Bool
  closed : EndpointId → Bool

/-- A runtime that has just been bound. -/
def World.bound : World := ⟨false, false, false, 0, [], 0, fun _ => false, fun _ => false⟩

/-- What happens to endpoints from outside. -/
inductive Event where
  /-- The last `Arc` of an endpoint is dropped. -/
  | dropped (endpoint : EndpointId)
  /-- The bridge of a relay closes its endpoint. -/
  | closed (endpoint : EndpointId)

/-- An event changes an endpoint. -/
def disturb (world : World) : Event → World
  | .dropped endpoint => { world with alive := Function.update world.alive endpoint false }
  | .closed endpoint => { world with closed := Function.update world.closed endpoint true }

/-- A lock that is not free makes its caller wait. -/
def waits (world : World) : Call → Bool
  | .acquireRead => world.writing
  | .acquireWrite => world.writing || world.readers != 0
  | _ => false

/-- What a step returns and changes. -/
def answer (world : World) : (call : Call) → call.Reply → call.Reply × World
  | .storeStopped, _ => ((), { world with stopped := true })
  | .loadStopped, _ => (world.stopped, world)
  | .closeMain, _ => ((), { world with mainClosed := true })
  | .acquireRead, _ => ((), { world with readers := world.readers + 1 })
  | .releaseRead, _ => ((), { world with readers := world.readers - 1 })
  | .acquireWrite, _ => ((), { world with writing := true })
  | .releaseWrite, _ => ((), { world with writing := false })
  | .registered, _ => (world.recoveryEndpoints, world)
  | .upgrade endpoint, _ => (world.alive endpoint, world)
  | .close endpoint, _ =>
    ((), { world with closed := Function.update world.closed endpoint true })
  | .tryCurrent, reply => (reply, world)
  | .acquireCapacity, reply => (reply, world)
  | .create, .error error => (.error error, world)
  | .create, .ok _ => (.ok world.created, { world with
      created := world.created + 1
      alive := Function.update world.alive world.created true })
  | .configure, reply => (reply, world)
  | .discard endpoint, _ =>
    ((), { world with alive := Function.update world.alive endpoint false })
  | .retain, _ => ((), { world with
      recoveryEndpoints := world.recoveryEndpoints.filter fun endpoint => world.alive endpoint })
  | .push endpoint, _ =>
    ((), { world with recoveryEndpoints := world.recoveryEndpoints ++ [endpoint] })

/-- How the steps are answered. -/
def handle : Program.Handler World Call.Reply := fun world call proposal =>
  if waits world call then none else some (answer world call proposal)

/-- A function of the runtime that may fail. -/
abbrev Action := Async Call.Reply NetworkError

/-- One step. -/
abbrev step (request : Call) : Action request.Reply := Async.call request

/-- Run under the write guard of `recovery_endpoints`. -/
def withWriteGuard {α : Type} (body : Action α) : Action α := do
  step .acquireWrite
  let result ← Async.result body
  step .releaseWrite
  Async.ofExcept result

/-- Drop the endpoint if it could not be configured. -/
def configured (endpoint : EndpointId) : Action Unit := do
  let result ← step .configure
  Async.whenever (result.isOk = false) (step (.discard endpoint))
  Async.ofExcept result

/-- What both functions do under the write guard. -/
def register : Action EndpointId := do
  let stopped ← step .loadStopped
  Async.refuse stopped (.connect "network runtime is shut down")
  let endpoint ← Async.ofExcept (← step .create)
  configured endpoint
  step .retain
  step (.push endpoint)
  return endpoint

/-- `NetworkRuntime::new_recovery_endpoint`. -/
def newRecoveryEndpoint : Action EndpointId := do
  Async.ofExcept (← step .tryCurrent)
  withWriteGuard register

/-- `NetworkRuntime::new_input_relay_tunnel`. -/
def newInputRelayTunnel : Action EndpointId := do
  Async.ofExcept (← step .tryCurrent)
  Async.ofExcept (← step .acquireCapacity)
  withWriteGuard register

/-- Close one endpoint that is still alive. -/
def closeUpgraded (endpoint : EndpointId) : Action Unit := do
  let upgraded ← step (.upgrade endpoint)
  Async.whenever (upgraded = true) (step (.close endpoint))

/-- The loop of `shutdown`. -/
def closeAll : List EndpointId → Action Unit
  | [] => return
  | endpoint :: rest => do
    closeUpgraded endpoint
    closeAll rest

/-- `NetworkRuntime::shutdown`. -/
def shutdown : Action Unit := do
  step .storeStopped
  step .closeMain
  step .acquireRead
  let endpoints ← step .registered
  closeAll endpoints
  step .releaseRead

/-- The calls of the runtime. -/
inductive Operation where
  | shutdown
  | newRecoveryEndpoint
  | newInputRelayTunnel
deriving DecidableEq

/-- The call creates an endpoint. -/
def Operation.creates : Operation → Bool
  | .shutdown => false
  | .newRecoveryEndpoint | .newInputRelayTunnel => true

/-- The program of a call, which returns the endpoint it has created. -/
def action : Operation → Action (Option EndpointId)
  | .shutdown => (fun _ => none) <$> shutdown
  | .newRecoveryEndpoint => some <$> newRecoveryEndpoint
  | .newInputRelayTunnel => some <$> newInputRelayTunnel

/-- Calls that run at the same time, one step after the other in any order. -/
def system : System Call.Reply (Except NetworkError (Option EndpointId)) World Operation Event where
  program operation := (action operation).run
  handle := handle
  disturb := disturb

end ArcRelay.Shutdown
