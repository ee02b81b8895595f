import ArcRelay.Dialing
import ArcRelay.PeerStore

/-!
# The endpoint repository behind a dial

The trait `EndpointRepository` with its two implementations, and the surroundings of a
dial in which every candidate of every race fails: the repository answers for itself,
with its own clock, a race hands out the failures of its candidates one after the other,
and everything else is decided by the environment.
-/

namespace ArcRelay

/-- The trait `EndpointRepository`. -/
structure EndpointRepository where
  State : Type
  /-- `endpoints`, at the time it reads. -/
  endpoints : State → DeviceId → Int → Except NetworkError (List RememberedEndpoint)
  /-- `record_authenticated`, `record_failure` and `forget`. -/
  record : State → Timed → Except NetworkError State
  Stores : State → DeviceId → RememberedEndpoint → Prop

namespace EndpointRepository

/-- `InMemoryEndpointRepository`. -/
def memory : EndpointRepository where
  State := EndpointMemory
  endpoints memory peerId now := .ok (memory.endpoints peerId now)
  record memory timed := .ok (memory.perform timed)
  Stores memory peerId endpoint := endpoint ∈ memory peerId

/-- `SqlitePeerRepository`. -/
def sqlite (platform : Platform) : EndpointRepository where
  State := PeerStore
  endpoints := PeerStore.endpointsOf platform
  record := PeerStore.record platform
  Stores store peerId endpoint := ∃ row ∈ store.endpoints.rows, row.peerId = peerId.asStr ∧
    decodeEndpoint platform row = .ok endpoint

/-- The state after a call, which a failed call leaves as it was. -/
def perform (repository : EndpointRepository) (state : repository.State) (timed : Timed) :
    repository.State :=
  match repository.record state timed with
  | .ok after => after
  | .error _ => state

end EndpointRepository

/-- The repositories, and the races of a dial, all of whose candidates fail. -/
structure Outage (repository : EndpointRepository) where
  database : Database
  state : repository.State
  reads : Nat
  /-- The results of every race that were not joined yet. -/
  pending : List (List CandidateResult)
  /-- What `endpoints` has returned. -/
  returned : List RememberedEndpoint
  dialled : List SocketAddr

namespace Outage

variable {repository : EndpointRepository} (platform : Platform) (clock : Nat → Int)
  (results : Nat → List SocketAddr → List CandidateResult)

/-- A call that changes the repository. -/
def change (outage : Outage repository) (call : EndpointCall) :
    Except NetworkError Unit × Outage repository :=
  match repository.record outage.state ⟨clock outage.reads, call⟩ with
  | .ok after => (.ok (), { outage with state := after, reads := outage.reads + 1 })
  | .error error => (.error error, { outage with reads := outage.reads + 1 })

/-- How the surroundings answer the calls of a dial. -/
def handle : Program.Handler (Outage repository) Call.Reply := fun outage call proposal =>
  match call, proposal with
  | .peer id, proposal => some (World.read proposal (outage.database.peer platform id), outage)
  | .endpoints peerId, _ =>
    let reply := repository.endpoints outage.state peerId (clock outage.reads)
    some (reply, { outage with
      reads := outage.reads + 1
      returned := outage.returned ++ reply.toOption.getD [] })
  | .recordAuthenticated peerId address certificate source, _ =>
    some (outage.change clock (.recordAuthenticated peerId address certificate source))
  | .recordFailure peerId address, _ => some (outage.change clock (.recordFailure peerId address))
  | .forgetEndpoints peerId, _ => some (outage.change clock (.forget peerId))
  | .startRace _ _ candidates _, _ =>
    some (outage.pending.length, { outage with
      pending := outage.pending ++ [results outage.pending.length candidates]
      dialled := outage.dialled ++ candidates })
  | .joinNext race, _ =>
    match outage.pending[race]? with
    | some (result :: later) =>
      some (some result, { outage with pending := outage.pending.set race later })
    | _ => some (none, outage)
  | _, proposal => some (proposal, outage)

/-- Every candidate fails, in any order. -/
def AllFail : Prop :=
  ∀ race candidates, ((results race candidates).map CandidateResult.address).Perm candidates ∧
    ∀ result ∈ results race candidates, result.result.isOk = false

end Outage

end ArcRelay
