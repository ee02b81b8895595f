import ArcRelay.Protocol
import ArcRelay.World

/-!
# The runtime and how its calls are answered

The parts of `NetworkRuntime` that never change, and the handler that says for
each call what it replies and how it changes the world.
-/

namespace ArcRelay

/-- What a runtime is for its whole life: its identity and its process. -/
structure Runtime where
  platform : Platform
  deviceId : DeviceId
  publicKey : DevicePublicKey
  certificateSha256 : Digest
  /-- `DeviceIdentity::sign`. -/
  sign : SigningContext → Bytes → DeviceSignature
  processInstanceId : ProcessInstanceId

/-- An asynchronous function of the runtime. -/
abbrev Action (α : Type) := Async Call.Reply NetworkError α

/-- One call. -/
abbrev ask (call : Call) : Action (Call.Reply call) := Async.call call

namespace Runtime

variable (self : Runtime)

/-- `DeviceIdentity::endpoint_binding_signature`. -/
def endpointBindingSignature : DeviceSignature :=
  self.sign .endpointBinding self.certificateSha256.toList

/-- How the world answers the calls of the runtime. What is not answered by the identity, the
repository, the registry, the gates or the races is decided by the environment. -/
def handle : Program.Handler World Call.Reply := fun world call proposal =>
  match call, proposal with
  | .sign context message, _ => some (self.sign context message, world)
  | .peer id, proposal =>
    some (World.read proposal (world.database.peer self.platform id), world)
  | .grants id, proposal =>
    some (World.read proposal (world.database.grantsOf self.platform id), world)
  | .savePeer peer, proposal =>
    some (world.write proposal ((world.database.savePeer self.platform peer).map ((), ·)))
  | .savePairing peer grants, proposal =>
    some (world.write proposal ((world.database.savePairing self.platform peer grants).map ((), ·)))
  | .forgetPeer id, proposal => some (world.write proposal (.ok (world.database.forgetPeer id)))
  | .saveGrant grant, proposal =>
    some (world.write proposal ((world.database.saveGrant self.platform grant).map ((), ·)))
  | .revokeGrant id capability direction, proposal =>
    some (world.write proposal
      (.ok (world.database.revokeGrant self.platform id capability direction)))
  | .close connection code reason, _ =>
    some ((), { world with registry := world.registry.close connection code reason })
  | .active id kind, _ =>
    some ((world.registry.active id kind).1,
      { world with registry := (world.registry.active id kind).2 })
  | .register session publish, proposal => some (world.register session publish proposal.2)
  | .disconnect id reason, _ =>
    some ((world.registry.disconnect id reason).1,
      { world with registry := (world.registry.disconnect id reason).2 })
  | .closeInput id, _ =>
    some ((), { world with
      registry := world.registry.removeAndClose (id, .realtimeInput) 0 "authorization changed" })
  | .sweep id, _ => some ((), { world with registry := world.registry.forget id })
  | .spawnCleanup session, _ => some ((), { world with cleanups := session :: world.cleanups })
  | .awaitCleanup session, _ =>
    if session ∈ world.cleanups ∧ world.registry.isOpen session.conn = false then some ((), world)
    else none
  | .relayCleanup session, _ =>
    some ((), { world with registry := world.registry.relayCleanup session })
  | .isDiscoverable, _ => some (world.discoverable, world)
  | .admitProbe source, _ => some (world.admitProbe source)
  | .dialGate key, _ => some (world.dialGate key)
  | .lockGate gate, _ =>
    if world.gates[gate]? = some false then some ((), world.setGate gate true) else none
  | .unlockGate gate, _ => some ((), world.setGate gate false)
  | .startRace expected kind candidates recovery, _ =>
    some (world.races.length, { world with
      races := world.races ++ [.start expected kind candidates recovery] })
  | .claim race index, _ => world.claim race index
  | .select _ _, .error _ => some (.error .timeout, world)
  | .select race index, .ok _ => (world.select race index).map (.ok (), ·)
  | .report race index result, _ => some ((), world.report race index result)
  | .joinNext race, _ => world.joinNext race
  | .shutdownRace race, _ => some ((), world.shutdownRace race)
  | .awaitRace race, _ => if world.raceEnded race then some ((), world) else none
  | _, proposal => some (proposal, world)

/-- A named runtime on a sample platform, for concrete runs. -/
def sample (platform : Platform) (name : String) (certificate : UInt8) : Runtime where
  platform := platform
  deviceId := ⟨name⟩
  publicKey := .sample name
  certificateSha256 := Vector.replicate 32 certificate
  sign context message := ⟨(DevicePublicKey.sample name).asBytes ++
    (platform.sha256 (platform.signingTranscript context message)).toList⟩
  processInstanceId := Vector.replicate 16 certificate

end Runtime

end ArcRelay
