import ArcRelay.Discovery
import ArcRelay.Platform

/-!
# Service records

What a device says about itself in a multicast service and what is read from the
service of another device. The multicast daemon, base64 and the texts of numbers
belong to other crates; a resolved service is what the daemon hands over.
-/

namespace ArcRelay

/-- The parts of other crates that service records are made with. -/
structure Multicast where
  /-- `arcrelay_wire::DISCOVERY_PROTOCOL`. -/
  discoveryProtocol : String
  /-- `arcrelay_wire::DISCOVERY_SERVICE_TYPE`. -/
  discoveryServiceType : String
  /-- `URL_SAFE_NO_PAD.encode`. -/
  encodeBase64 : Bytes → String
  /-- `URL_SAFE_NO_PAD.decode`. -/
  decodeBase64 : String → Option Bytes
  /-- Why `ServiceInfo::new` refuses a service of this type, instance, host and properties. -/
  refusal : String → String → String → List (String × String) → Option String
  decodeBase64_encodeBase64 : ∀ bytes, decodeBase64 (encodeBase64 bytes) = some bytes

/-- Base64 by one character for each byte, and a daemon that accepts every service. -/
def Multicast.sample : Multicast where
  discoveryProtocol := "1"
  discoveryServiceType := "_arcrelay._udp.local."
  encodeBase64 bytes := String.ofList (bytes.map fun byte => Char.ofNat byte.toNat)
  decodeBase64 text := some (text.toList.map fun char => UInt8.ofNat char.toNat)
  refusal _ _ _ _ := none
  decodeBase64_encodeBase64 bytes := by
    have small : ∀ byte : UInt8, (Char.ofNat byte.toNat).toNat = byte.toNat := fun byte => by
      have valid : byte.toNat.isValidChar := Or.inl (by have := byte.toNat_lt; omega)
      simp [Char.ofNat, valid, Char.toNat, Char.ofNatAux]
    simp [Function.comp_def, small]

/-- What `service_info` reads of the `DeviceIdentity`. -/
structure LocalIdentity where
  /-- `DeviceIdentity::device_id`. -/
  deviceId : DeviceId
  /-- `DeviceIdentity::public_key_value`. -/
  publicKey : DevicePublicKey
  /-- `DeviceIdentity::certificate_sha256`. -/
  certificateSha256 : Digest

/-- `mdns_sd::ServiceInfo`, as `service_info` fills it in. -/
structure ServiceInfo where
  serviceType : String
  instanceName : String
  hostName : String
  port : UInt16
  properties : List (String × String)
deriving DecidableEq, Repr

/-- `mdns_sd::ScopedIp`. -/
inductive ScopedIp where
  | v4 (address : BitVec 32)
  /-- An IPv6 address with the index of its interface. -/
  | v6 (address : BitVec 128) (scopeId : UInt32)
deriving DecidableEq, Repr

/-- `mdns_sd::ResolvedService`. -/
structure ResolvedService where
  /-- `get_fullname`. -/
  fullname : String
  /-- `get_property_val_str`. -/
  property : String → Option String
  /-- `get_addresses`, in the order of its iteration. -/
  addresses : List ScopedIp

/-! ## Texts -/

/-- One hexadecimal digit, in lower case. -/
def hexDigit (value : Nat) : Char :=
  if value < 10 then Char.ofNat (48 + value) else Char.ofNat (87 + value)

/-- `discovery::hex`. -/
def hex (bytes : Bytes) : String :=
  String.ofList (bytes.flatMap fun byte => [hexDigit (byte.toNat / 16), hexDigit (byte.toNat % 16)])

/-- The value of a hexadecimal digit of either case. -/
def hexValue (digit : UInt8) : Option Nat :=
  let code := digit.toNat
  if 48 ≤ code ∧ code < 58 then some (code - 48)
  else if 97 ≤ code ∧ code < 103 then some (code - 87)
  else if 65 ≤ code ∧ code < 71 then some (code - 55)
  else none

/-- `u8::from_str_radix(pair, 16)` on two bytes of a text, after `str::from_utf8`. A leading plus
sign is skipped, and two bytes that are one character or cut one are no digits either way. -/
def parseHexPair (first second : UInt8) : Option UInt8 :=
  if first = 43 then (hexValue second).map UInt8.ofNat
  else do
    let high ← hexValue first
    let low ← hexValue second
    return .ofNat (16 * high + low)

/-- The loop of `unhex` over the pairs. -/
def unhexPairs : Bytes → Option Bytes
  | first :: second :: rest => do
    let byte ← parseHexPair first second
    let bytes ← unhexPairs rest
    return byte :: bytes
  | [] | [_] => some []

/-- `discovery::unhex`. -/
def unhex (value : String) : Option Bytes :=
  let bytes := value.toUTF8.toList
  if bytes.length % 2 = 0 then unhexPairs bytes else none

/-- `str::parse` to an unsigned integer below the bound: digits, after a plus sign or not. -/
def parseNumber (bound : Nat) (text : String) : Option Nat :=
  let digits := if text.toList.head? = some '+' then text.toList.tail else text.toList
  if digits ≠ [] ∧ digits.all Char.isDigit then
    let value := digits.foldl (fun value digit => 10 * value + (digit.toNat - 48)) 0
    if value < bound then some value else none
  else none

/-- `str::trim_start_matches("arc-")`, on the characters. -/
def trimArc : List Char → List Char
  | 'a' :: 'r' :: 'c' :: '-' :: rest => trimArc rest
  | text => text

/-! ## Service records -/

variable (platform : Platform) (multicast : Multicast)

/-- The TXT properties of the local service. -/
def serviceProperties (identity : LocalIdentity) (metadata : DeviceMetadata) (port : UInt16) :
    List (String × String) :=
  [("protocol", multicast.discoveryProtocol),
    ("protocol_minor_min", toString platform.minProtocolMinor.toNat),
    ("protocol_minor_max", toString platform.maxProtocolMinor.toNat),
    ("device_id", identity.deviceId.asStr),
    ("device_name", metadata.name),
    ("platform", metadata.platform),
    ("model", metadata.model),
    ("public_key", multicast.encodeBase64 identity.publicKey.asBytes),
    ("port", toString port.toNat),
    ("certificate", hex identity.certificateSha256.toList)]

/-- `discovery::service_info`. -/
def serviceInfo (identity : LocalIdentity) (metadata : DeviceMetadata) (port : UInt16) :
    Except NetworkError ServiceInfo :=
  if port = 0 then .error (.discovery "endpoint port cannot be zero")
  else
    let suffix := trimArc identity.deviceId.asStr.toList
    let info : ServiceInfo :=
      { serviceType := multicast.discoveryServiceType
        instanceName := "arc-" ++ String.ofList (suffix.take 20)
        hostName := "arcrelay-" ++ String.ofList (suffix.take 32) ++ ".local."
        port
        properties := serviceProperties platform multicast identity metadata port }
    match multicast.refusal info.serviceType info.instanceName info.hostName info.properties with
    | some reason => .error (.discovery reason)
    | none => .ok info

/-- `ScopedIp::to_ip_addr`. -/
def ScopedIp.toIpAddr : ScopedIp → IpAddr
  | .v4 address => .v4 address
  | .v6 address _ => .v6 address

/-- The endpoint of an address in `decode_service`: an IPv6 address keeps its interface. -/
def ScopedIp.endpoint (port : UInt16) : ScopedIp → SocketAddr
  | .v4 address => .v4 address port
  | .v6 address scopeId => .v6 address port 0 scopeId

/-- The addresses that `decode_service` keeps. -/
def routable (addresses : List ScopedIp) : List ScopedIp :=
  addresses.filter fun value =>
    !(value.toIpAddr.isLoopback || value.toIpAddr.isUnspecified)

/-- A minor version that the service names, zero if it names none. -/
def minorProperty (info : ResolvedService) (key : String) : Option Nat :=
  parseNumber (2 ^ 32) ((info.property key).getD "0")

/-- `discovery::decode_service`, at a time. -/
def decodeService (info : ResolvedService) (now : Int) : Option PeerAdvertisement := do
  guard (info.property "protocol" = some multicast.discoveryProtocol)
  let remoteMinMinor ← minorProperty info "protocol_minor_min"
  let remoteMaxMinor ← minorProperty info "protocol_minor_max"
  guard (remoteMinMinor ≤ remoteMaxMinor ∧ platform.minProtocolMinor.toNat ≤ remoteMaxMinor ∧
    remoteMinMinor ≤ platform.maxProtocolMinor.toNat)
  let deviceId ← (platform.parseDeviceId (← info.property "device_id")).toOption
  let keyBytes ← multicast.decodeBase64 (← info.property "public_key")
  let publicKey ← (platform.publicKeyFromBytes keyBytes).toOption
  (platform.verifyKey deviceId publicKey).toOption
  let port ← parseNumber (2 ^ 16) (← info.property "port")
  guard (port ≠ 0)
  let certificate ← unhex (← info.property "certificate")
  if exact : certificate.length = 32 then
    let addresses := routable info.addresses
    guard (addresses ≠ [])
    return {
      deviceId
      publicKey
      metadata := {
        name := (info.property "device_name").getD "ArcRelay Device"
        platform := (info.property "platform").getD "unknown"
        model := (info.property "model").getD "unknown" }
      addresses := sortDedup (addresses.map ScopedIp.toIpAddr)
      connectionAddresses := sortDedup (addresses.map (ScopedIp.endpoint (.ofNat port)))
      port := .ofNat port
      certificateSha256 := ⟨certificate.toArray, exact⟩
      lastSeenAtMs := now }
  else none

end ArcRelay
