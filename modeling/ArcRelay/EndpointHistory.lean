import ArcRelay.Endpoint
import ArcRelay.Lib.Recency

/-!
# The endpoint history in memory

`InMemoryEndpointRepository`: for every peer the endpoints at which a session was
authenticated, most recent first and at most sixteen of them. A failed dial makes
an endpoint wait before it is dialled again, longer after every failure. Each call
reads the clock once; the time it reads is an argument here.
-/

namespace ArcRelay

/-- `i64::MAX`. -/
def i64Max : Int := 2 ^ 63 - 1

/-- `i64::MIN`. -/
def i64Min : Int := -2 ^ 63

/-- The nearest `i64`. -/
def saturate (value : Int) : Int := max i64Min (min i64Max value)

/-- `i64::saturating_add`. -/
def saturatingAdd (left right : Int) : Int := saturate (left + right)

/-- `u32::saturating_add(1)`. -/
def saturatingSucc (value : UInt32) : UInt32 :=
  if value = 0xffffffff then value else value + 1

/-- `endpoint::network_scope`. -/
def networkScope : SocketAddr → String
  | .v4 ip _ =>
    toString (ip.toNat / 2 ^ 24) ++ "." ++ toString (ip.toNat / 2 ^ 16 % 256) ++ "." ++
      toString (ip.toNat / 2 ^ 8 % 256) ++ ".0/24"
  | .v6 _ _ _ scopeId => "ipv6-if-" ++ toString scopeId.toNat

/-- The endpoints of every peer; a peer without an entry has none. -/
abbrev EndpointMemory := DeviceId → List RememberedEndpoint

namespace EndpointMemory

/-- `InMemoryEndpointRepository::default`. -/
def empty : EndpointMemory := fun _ => []

/-- `right.last_success_at_ms.cmp(&left.last_success_at_ms)`, then the time it was seen. -/
def queryOrder (left right : RememberedEndpoint) : Prop :=
  right.lastSuccessAtMs < left.lastSuccessAtMs ∨
    (right.lastSuccessAtMs = left.lastSuccessAtMs ∧ right.lastSeenAtMs ≤ left.lastSeenAtMs)

instance : DecidableRel queryOrder := fun _ _ => inferInstanceAs (Decidable (_ ∨ _))

/-- `Reverse(endpoint.last_success_at_ms)`. -/
def storeOrder (left right : RememberedEndpoint) : Prop :=
  right.lastSuccessAtMs ≤ left.lastSuccessAtMs

instance : DecidableRel storeOrder := fun _ _ => inferInstanceAs (Decidable (_ ≤ _))

/-- `InMemoryEndpointRepository::endpoints`. -/
def endpoints (memory : EndpointMemory) (peerId : DeviceId) (now : Int) :
    List RememberedEndpoint :=
  (((memory peerId).filter fun endpoint => endpoint.retryAfterMs ≤ now).insertionSort
    queryOrder).take 16

/-- A known endpoint after a session was authenticated there. -/
def renew (endpoint : RememberedEndpoint) (address : SocketAddr) (certificateSha256 : Digest)
    (source : EndpointSource) (now : Int) : RememberedEndpoint :=
  { endpoint with
    certificateSha256
    source
    networkScope := ArcRelay.networkScope address
    lastSeenAtMs := now
    lastSuccessAtMs := now
    consecutiveFailures := 0
    retryAfterMs := 0 }

/-- A new endpoint. -/
def discover (peerId : DeviceId) (address : SocketAddr) (certificateSha256 : Digest)
    (source : EndpointSource) (now : Int) : RememberedEndpoint where
  peerId
  address
  certificateSha256
  source
  networkScope := ArcRelay.networkScope address
  firstSeenAtMs := now
  lastSeenAtMs := now
  lastSuccessAtMs := now
  consecutiveFailures := 0
  retryAfterMs := 0

/-- The endpoints of a peer before they are sorted again. -/
def noted (endpoints : List RememberedEndpoint) (peerId : DeviceId) (address : SocketAddr)
    (certificateSha256 : Digest) (source : EndpointSource) (now : Int) :
    List RememberedEndpoint :=
  if endpoints.any fun endpoint => endpoint.address = address then
    endpoints.modifyFirst (fun endpoint => endpoint.address = address)
      fun endpoint => renew endpoint address certificateSha256 source now
  else endpoints ++ [discover peerId address certificateSha256 source now]

/-- `InMemoryEndpointRepository::record_authenticated`. -/
def recordAuthenticated (memory : EndpointMemory) (peerId : DeviceId) (address : SocketAddr)
    (certificateSha256 : Digest) (source : EndpointSource) (now : Int) : EndpointMemory :=
  Function.update memory peerId
    (((noted (memory peerId) peerId address certificateSha256 source now).insertionSort
      storeOrder).take 16)

/-- An endpoint after a failed dial. -/
def backOff (endpoint : RememberedEndpoint) (now : Int) : RememberedEndpoint :=
  let failures := saturatingSucc endpoint.consecutiveFailures
  { endpoint with
    consecutiveFailures := failures
    retryAfterMs := saturatingAdd now (2 ^ min failures.toNat 8 * 1000) }

/-- `InMemoryEndpointRepository::record_failure`. -/
def recordFailure (memory : EndpointMemory) (peerId : DeviceId) (address : SocketAddr)
    (now : Int) : EndpointMemory :=
  Function.update memory peerId
    ((memory peerId).modifyFirst (fun endpoint => endpoint.address = address)
      fun endpoint => backOff endpoint now)

/-- `InMemoryEndpointRepository::forget`. -/
def forget (memory : EndpointMemory) (peerId : DeviceId) : EndpointMemory :=
  Function.update memory peerId []

end EndpointMemory

/-- The calls that change an endpoint repository. -/
inductive EndpointCall where
  | recordAuthenticated (peerId : DeviceId) (address : SocketAddr) (certificateSha256 : Digest)
    (source : EndpointSource)
  | recordFailure (peerId : DeviceId) (address : SocketAddr)
  | forget (peerId : DeviceId)
deriving DecidableEq, Repr

/-- A call and the time it reads. -/
structure Timed where
  time : Int
  call : EndpointCall
deriving DecidableEq, Repr

/-- One call on the repository in memory. -/
def EndpointMemory.perform (memory : EndpointMemory) (timed : Timed) : EndpointMemory :=
  match timed.call with
  | .recordAuthenticated peerId address certificateSha256 source =>
    memory.recordAuthenticated peerId address certificateSha256 source timed.time
  | .recordFailure peerId address => memory.recordFailure peerId address timed.time
  | .forget peerId => memory.forget peerId

end ArcRelay
