import ArcRelay.Discovery
import ArcRelay.Lib.Program

/-!
# Scanning the local network

`scan_local_ipv4`: the networks of the device's own interfaces are searched for other
devices, host by host. Which hosts these are is computed from the list of interfaces;
the scan then probes one after the other, a few at a time, until it is cancelled.
-/

namespace ArcRelay.Scan

/-- `SCAN_PORT`. -/
def scanPort : UInt16 := 8765

/-- `SCAN_CONCURRENCY`. -/
def scanConcurrency : Nat := 32

/-- `SCAN_LAUNCH_INTERVAL` in milliseconds. -/
def scanLaunchInterval : Nat := 20

/-- `SCAN_ENDPOINT_TIMEOUT` in milliseconds. -/
def scanEndpointTimeout : Nat := 900

/-- `SCAN_COOLDOWN` in milliseconds. -/
def scanCooldown : Nat := 60000

/-- `MAX_SUBNETS`. -/
def maxSubnets : Nat := 2

/-! ## Addresses -/

/-- One of the four octets of an address, counted from the last one. -/
def octet (address : BitVec 32) (place : Nat) : UInt8 := .ofNat (address.toNat / 256 ^ place)

/-- `Ipv4Addr::new`. -/
def ipv4 (first second third last : UInt8) : BitVec 32 :=
  .ofNat 32 (first.toNat * 256 ^ 3 + second.toNat * 256 ^ 2 + third.toNat * 256 + last.toNat)

/-- `Ipv4Addr::is_private` — `10.0.0.0/8`, `172.16.0.0/12` or `192.168.0.0/16`. -/
def isPrivate (address : BitVec 32) : Bool :=
  octet address 3 == 10
    || (octet address 3 == 172 && (octet address 2).toNat / 16 == 1)
    || (octet address 3 == 192 && octet address 2 == 168)

/-- The first three octets of an address. -/
structure SubnetPrefix where
  first : UInt8
  second : UInt8
  third : UInt8
deriving DecidableEq, Repr

namespace SubnetPrefix

/-- The comparison key of a prefix: octet by octet, as arrays are compared. -/
def sortKey (subnet : SubnetPrefix) : List Nat :=
  [subnet.first.toNat, subnet.second.toNat, subnet.third.toNat]

theorem sortKey_injective : Function.Injective sortKey := by
  intro left right same
  cases left
  cases right
  simp_all [sortKey, UInt8.toNat_inj]

/-- The order of `[u8; 3]`. -/
instance : LinearOrder SubnetPrefix := LinearOrder.lift' sortKey sortKey_injective

end SubnetPrefix

/-- `scan::subnet_prefix`. -/
def subnetPrefix (address : BitVec 32) : SubnetPrefix :=
  ⟨octet address 3, octet address 2, octet address 1⟩

/-- `scan::subnet_hosts`. -/
def subnetHosts (subnet : SubnetPrefix) : List (BitVec 32) :=
  (List.range' 1 254).map fun host => ipv4 subnet.first subnet.second subnet.third (.ofNat host)

/-! ## Interfaces -/

/-- `if_addrs::Interface`. -/
structure Interface where
  name : String
  ip : IpAddr
deriving DecidableEq, Repr

/-- `str::starts_with`. -/
def startsWith (name pattern : String) : Bool := pattern.toList.isPrefixOf name.toList

/-- `str::contains`. -/
def contains (name pattern : String) : Bool :=
  name.toList.tails.any fun rest => pattern.toList.isPrefixOf rest

/-- `str::to_ascii_lowercase`. -/
def toAsciiLowercase (name : String) : String := .ofList (name.toList.map Char.toLower)

/-- `scan::interface_priority`. -/
def interfacePriority (name : String) : Nat :=
  let name := toAsciiLowercase name
  if startsWith name "en" || startsWith name "eth" || startsWith name "wlan"
      || contains name "wi-fi" || contains name "wifi" then 0
  else 1

/-- `scan::is_likely_virtual`. -/
def isLikelyVirtual (name : String) : Bool :=
  let name := toAsciiLowercase name
  ["lo", "utun", "tun", "tap", "docker", "veth", "br-", "virbr", "vmnet", "tailscale", "wg"].any
    fun beginning => startsWith name beginning

/-- The address of an interface that may be scanned. -/
def eligible (candidate : Interface) : Option (String × BitVec 32) :=
  match candidate.ip with
  | .v4 address =>
    if isPrivate address && !(IpAddr.v4 address).isLoopback && !isLikelyVirtual candidate.name then
      some (candidate.name, address)
    else none
  | .v6 _ => none

/-- What interfaces are compared by: the priority, then the name, then the address. -/
def interfaceKey (entry : String × BitVec 32) : Nat ×ₗ String ×ₗ Nat :=
  toLex (interfacePriority entry.1, toLex (entry.1, entry.2.toNat))

/-- `scan::local_scan_interfaces`, of the interfaces that the system lists. -/
def localScanInterfaces (interfaces : List Interface) : List (String × BitVec 32) :=
  (interfaces.filterMap eligible).insertionSort fun left right =>
    interfaceKey left ≤ interfaceKey right

/-! ## Targets -/

/-- `local_addresses` of a scan. -/
def localAddresses (interfaces : List Interface) : List (BitVec 32) :=
  (localScanInterfaces interfaces).map Prod.snd

/-- `subnets` of a scan: a `BTreeSet` of the prefixes, cut to the first two. -/
def subnets (interfaces : List Interface) : List SubnetPrefix :=
  (sortDedup ((localScanInterfaces interfaces).map fun entry => subnetPrefix entry.2)).take
    maxSubnets

/-- `endpoints` of a scan. -/
def endpoints (interfaces : List Interface) : List SocketAddr :=
  (((subnets interfaces).flatMap subnetHosts).filter fun address =>
    !(localAddresses interfaces).contains address).map fun address => .v4 address scanPort

/-! ## The scan -/

/-- `scan::LanScanReport`. -/
structure LanScanReport where
  attemptedEndpoints : Nat := 0
  discoveredDevices : Nat := 0
  scannedSubnets : Nat := 0
  /-- Another scan was started a short time ago. -/
  throttled : Bool := false
deriving DecidableEq, Repr

/-- What a scan shares with the rest of the process. -/
inductive Call where
  /-- `scan_state.lock` and `last_started.elapsed`, in milliseconds. -/
  | lastElapsed
  /-- `last_started = Some(Instant::now())`, under the same lock. -/
  | setStarted
  /-- `scan_cancelled.store`. -/
  | storeCancelled (value : Bool)
  /-- `scan_cancelled.load`. -/
  | loadCancelled
  /-- `if_addrs::get_if_addrs`. -/
  | getIfAddrs
  /-- `JoinSet::spawn` of `probe_endpoint`. -/
  | spawnProbe (endpoint : SocketAddr) (source : EndpointSource) (timeout : Nat)
  /-- `JoinSet::join_next` while a task is left. -/
  | joinNext
  /-- `tokio::time::sleep`. -/
  | sleep (milliseconds : Nat)

/-- What the calls return. A task that panicked is joined as `none`. -/
abbrev Call.Reply : Call → Type
  | .lastElapsed => Option Nat
  | .loadCancelled => Bool
  | .getIfAddrs => Except String (List Interface)
  | .joinNext => Option (Except NetworkError PeerAdvertisement)
  | .setStarted | .storeCancelled _ | .spawnProbe _ _ _ | .sleep _ => Unit

/-- The tasks of a scan, and what has come of them. -/
structure Progress where
  /-- `tasks.len()`. -/
  tasks : Nat := 0
  discovered : List DeviceId := []
  attempted : Nat := 0
deriving DecidableEq, Repr

/-- A task has ended. -/
def Progress.join (progress : Progress) (result : Option (Except NetworkError PeerAdvertisement)) :
    Progress :=
  match result with
  | some (.ok peer) =>
    { progress with
      tasks := progress.tasks - 1
      discovered := progress.discovered.insert peer.deviceId }
  | _ => { progress with tasks := progress.tasks - 1 }

/-- Join tasks while there are so many or more. The first argument is the number of tasks. -/
def joinWhile (limit : Nat) : Nat → Progress → Program Call.Reply Progress
  | 0, progress => .done progress
  | tasks + 1, progress =>
    if limit ≤ tasks + 1 then do
      let result ← Program.perform Call.joinNext
      joinWhile limit tasks (progress.join result)
    else .done progress

/-- The loop over the endpoints. -/
def launch : List SocketAddr → Progress → Program Call.Reply Progress
  | [], progress => .done progress
  | endpoint :: rest, progress => do
    if ← Program.perform Call.loadCancelled then
      return progress
    let progress ← joinWhile scanConcurrency progress.tasks progress
    Program.perform (Call.spawnProbe endpoint .scan scanEndpointTimeout)
    Program.perform (Call.sleep scanLaunchInterval)
    launch rest { progress with tasks := progress.tasks + 1, attempted := progress.attempted + 1 }

/-- The scan of the networks of the interfaces. -/
def sweep (interfaces : List Interface) : Program Call.Reply LanScanReport := do
  let progress ← launch (endpoints interfaces) {}
  let progress ← joinWhile 1 progress.tasks progress
  return {
    attemptedEndpoints := progress.attempted
    discoveredDevices := progress.discovered.length
    scannedSubnets := (subnets interfaces).length }

/-- `NetworkRuntime::scan_local_ipv4`. -/
def scanLocalIpv4 : Async Call.Reply NetworkError LanScanReport := do
  let elapsed ← Async.call Call.lastElapsed
  if elapsed.any (· < scanCooldown) then
    return { throttled := true }
  Async.call Call.setStarted
  Async.call (Call.storeCancelled false)
  let listed ← Async.call Call.getIfAddrs
  let interfaces ← Async.ofExcept (listed.mapError .io)
  ExceptT.lift (sweep interfaces)

end ArcRelay.Scan
