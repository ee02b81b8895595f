import ArcRelay.Wire

/-!
# What other crates provide

The functions of `arcrelay_peer`, `arcrelay_wire`, `prost`, `serde_json`, `sha2`
and `ed25519_dalek` that this crate calls, as one parameter of the model. Nothing
is assumed of them but the laws stated here: texts, keys, tokens and messages
survive their own encodings, and a device id is bound to one key.
-/

namespace ArcRelay

/-- `arcrelay_peer::RepositoryError`, of which only `Backend` occurs here. -/
inductive RepositoryError where
  /-- `RepositoryError::Backend`. -/
  | backend (reason : String)
deriving DecidableEq, Repr

/-- The functions of other crates, with the laws this crate relies on. -/
structure Platform where
  /-- `DeviceId::parse`. -/
  parseDeviceId : String → Except String DeviceId
  /-- `DeviceId::verify_key`. -/
  verifyKey : DeviceId → DevicePublicKey → Except String Unit
  /-- `DevicePublicKey::from_bytes`. -/
  publicKeyFromBytes : Bytes → Except String DevicePublicKey
  /-- `DeviceSignature::from_bytes`. -/
  signatureFromBytes : Bytes → Except String DeviceSignature
  /-- `SigningContext::domain`. -/
  domain : SigningContext → Bytes
  /-- `CapabilityId::token`. -/
  token : CapabilityId → String
  /-- `CapabilityId::parse_token`. -/
  parseToken : String → Option CapabilityId
  /-- `RepositoryError` as text. -/
  repositoryErrorText : RepositoryError → String
  /-- `SocketAddr` as text. -/
  addressText : SocketAddr → String
  /-- `SocketAddr` from text. -/
  parseAddress : String → Except String SocketAddr
  /-- `serde_json::to_string` on grant constraints. -/
  constraintsToJson : GrantConstraints → Except String String
  /-- `serde_json::from_str` to grant constraints. -/
  constraintsFromJson : String → Except String GrantConstraints
  /-- `Sha256::digest`. -/
  sha256 : Bytes → Digest
  /-- `VerifyingKey::from_bytes` accepts the bytes. -/
  validVerifyingKey : Bytes → Bool
  /-- `VerifyingKey::verify_strict`, on key, message and signature. -/
  verifyStrict : Bytes → Bytes → Bytes → Bool
  /-- `arcrelay_wire::PROTOCOL_MAJOR`. -/
  protocolMajor : UInt32
  /-- `arcrelay_wire::MIN_PROTOCOL_MINOR`. -/
  minProtocolMinor : UInt32
  /-- `arcrelay_wire::MAX_PROTOCOL_MINOR`. -/
  maxProtocolMinor : UInt32
  /-- `arcrelay_wire::MAX_CONTROL_FRAME_SIZE`. -/
  maxControlFrameSize : Nat
  /-- The number of a `common::SessionKind`. -/
  kindNumber : SessionKind → Int
  /-- The number of a `common::GrantDirection`. -/
  directionNumber : GrantDirection → Int
  /-- `SessionHello::encode`. -/
  encodeHello : SessionHello → Bytes
  /-- `SessionHello::decode`. -/
  decodeHello : Bytes → Except String SessionHello
  /-- `SessionAuth::encode`. -/
  encodeAuth : SessionAuth → Bytes
  /-- `SessionAuth::decode`. -/
  decodeAuth : Bytes → Except String SessionAuth
  /-- `SessionAccepted::encode`. -/
  encodeAccepted : SessionAccepted → Bytes
  /-- `SessionAccepted::decode`. -/
  decodeAccepted : Bytes → Except String SessionAccepted
  /-- `FeaturePayload::encode`. -/
  encodeFeaturePayload : FeaturePayload → Bytes
  /-- `PairingRequest::encode_to_vec`. -/
  encodePairingRequest : PairingRequest → Bytes
  /-- `PairingResponse::decode`. -/
  decodePairingResponse : Bytes → Except String PairingResponse
  asStr_parseDeviceId : ∀ text id, parseDeviceId text = .ok id → id.asStr = text
  asBytes_publicKeyFromBytes : ∀ bytes key, publicKeyFromBytes bytes = .ok key →
    key.asBytes = bytes
  /-- A signature read from bytes has these bytes. -/
  asBytes_signatureFromBytes : ∀ bytes signature, signatureFromBytes bytes = .ok signature →
    signature.asBytes = bytes
  verifyKey_unique : ∀ id first second, verifyKey id first = .ok () → verifyKey id second = .ok () →
    first = second
  parseToken_token : ∀ capability, parseToken (token capability) = some capability
  token_parseToken : ∀ text capability, parseToken text = some capability → token capability = text
  /-- The text of an address leaves its flow label out. -/
  addressText_withoutFlow : ∀ address, addressText address.withoutFlow = addressText address
  /-- An address without a flow label survives its text. -/
  parseAddress_addressText : ∀ address, address.flowinfo = 0 →
    parseAddress (addressText address) = .ok address
  constraintsFromJson_toJson : ∀ constraints text, constraintsToJson constraints = .ok text →
    constraintsFromJson text = .ok constraints
  /-- The supported minor versions are a range. -/
  minProtocolMinor_le : minProtocolMinor ≤ maxProtocolMinor
  kindNumber_injective : Function.Injective kindNumber
  directionNumber_injective : Function.Injective directionNumber
  decodeHello_encodeHello : ∀ hello, decodeHello (encodeHello hello) = .ok hello

namespace Platform

variable (platform : Platform)

/-- `SessionKind::encode`. -/
def encodeKind (kind : SessionKind) : Int := platform.kindNumber kind

/-- `SessionKind::decode`. -/
def decodeKind (value : Int) : Except NetworkError SessionKind :=
  match SessionKind.all.find? fun kind => platform.kindNumber kind = value with
  | some kind => .ok kind
  | none => .error (.protocol "invalid session kind")

/-- `common::GrantDirection::try_from`, without the unspecified direction. -/
def decodeWireDirection (value : Int) : Option GrantDirection :=
  if value = platform.directionNumber .inbound then some .inbound
  else if value = platform.directionNumber .outbound then some .outbound
  else none

/-- What a `DeviceIdentity` comes with: its id and its key survive their encodings, and the id is
bound to the key. -/
structure Bound (id : DeviceId) (key : DevicePublicKey) : Prop where
  parsed : platform.parseDeviceId id.asStr = .ok id
  read : platform.publicKeyFromBytes key.asBytes = .ok key
  verified : platform.verifyKey id key = .ok ()

theorem decodeKind_eq_ok {value : Int} {kind : SessionKind} :
    platform.decodeKind value = .ok kind ↔ value = platform.encodeKind kind := by
  unfold decodeKind encodeKind
  constructor
  · intro decoded
    split at decoded
    · rename_i found present
      cases decoded
      simpa [eq_comm] using List.find?_some present
    · cases decoded
  · rintro rfl
    cases found : SessionKind.all.find? fun other =>
        platform.kindNumber other = platform.kindNumber kind with
    | none => simpa using List.find?_eq_none.mp found kind (SessionKind.mem_all kind)
    | some other =>
      have same : platform.kindNumber other = platform.kindNumber kind := by
        simpa using List.find?_some found
      rw [platform.kindNumber_injective same]

/-- The platform with its minor versions disregarded. -/
def unversioned : Platform :=
  { platform with
    minProtocolMinor := 0
    maxProtocolMinor := 0
    minProtocolMinor_le := UInt32.le_refl 0 }

end Platform

/-! ## A platform

The laws are consistent: here is a platform that satisfies them, on which runs can be evaluated. -/

namespace SessionHello

/-- The fields of a hello as lists of numbers. -/
def columns (hello : SessionHello) : List (List Nat) :=
  [[hello.protocolMajor.toNat, hello.minProtocolMinor.toNat, hello.maxProtocolMinor.toNat,
      hello.sessionKind.toNat, (-hello.sessionKind).toNat],
    hello.deviceId.toList.map Char.toNat, hello.deviceName.toList.map Char.toNat,
    hello.platform.toList.map Char.toNat, hello.model.toList.map Char.toNat,
    hello.nonce.map UInt8.toNat, hello.rootPublicKey.map UInt8.toNat,
    hello.endpointCertificateSha256.map UInt8.toNat, hello.endpointBindingSignature.map UInt8.toNat]

/-- The text with these character codes. -/
def text (codes : List Nat) : String := String.ofList (codes.map Char.ofNat)

/-- The bytes with these values. -/
def bytes (values : List Nat) : Bytes := values.map UInt8.ofNat

/-- The hello with these fields. -/
def ofColumns : List (List Nat) → Option SessionHello
  | [[major, min, max, positive, negative], deviceId, deviceName, platform, model, nonce, key,
      certificate, binding] =>
    some ⟨.ofNat major, (positive : Int) - negative, text deviceId, text deviceName, text platform,
      text model, bytes nonce, bytes key, bytes certificate, bytes binding, .ofNat min, .ofNat max⟩
  | _ => none

theorem text_codes (value : String) : text (value.toList.map Char.toNat) = value := by
  simp [text, List.map_map, Function.comp_def]

theorem bytes_values (value : Bytes) : bytes (value.map UInt8.toNat) = value := by
  simp [bytes, List.map_map, Function.comp_def]

theorem ofColumns_columns (hello : SessionHello) : ofColumns hello.columns = some hello := by
  simp [ofColumns, columns, text_codes, bytes_values]

end SessionHello

namespace Platform

/-- Bytes for every hello: the place of a known one, a number for any other. -/
def sampleEncodeHello (known : List SessionHello) (hello : SessionHello) : Bytes :=
  match known.findIdx? fun other => other = hello with
  | some index => 1 :: List.replicate index 0
  | none => 0 :: List.replicate (Encodable.encode hello.columns) 0

/-- The hello with these bytes. -/
def sampleDecodeHello (known : List SessionHello) (bytes : Bytes) : Except String SessionHello :=
  let found := if bytes.head? = some 1 then known[bytes.length - 1]?
    else (Encodable.decode (bytes.length - 1)).bind SessionHello.ofColumns
  match found with
  | some hello => .ok hello
  | none => .error "malformed hello"

theorem sampleDecodeHello_encodeHello (known : List SessionHello) (hello : SessionHello) :
    sampleDecodeHello known (sampleEncodeHello known hello) = .ok hello := by
  unfold sampleEncodeHello
  split
  · rename_i index found
    obtain ⟨bound, same, -⟩ := List.findIdx?_eq_some_iff_getElem.mp found
    simp only [decide_eq_true_eq] at same
    simp [sampleDecodeHello, bound, same]
  · simp [sampleDecodeHello, SessionHello.ofColumns_columns]

/-- The token of a capability. -/
def sampleToken : CapabilityId → String
  | .crossScreenInject => "cross_screen.inject"
  | .remoteFilesRead => "remote_files.read"
  | .remoteFilesWrite => "remote_files.write"
  | .other token => String.ofList ('+' :: token.toList)

/-- The capability of a token. -/
def sampleParseToken (token : String) : Option CapabilityId :=
  if token = "cross_screen.inject" then some .crossScreenInject
  else if token = "remote_files.read" then some .remoteFilesRead
  else if token = "remote_files.write" then some .remoteFilesWrite
  else match token.toList with
    | '+' :: rest => some (.other (String.ofList rest))
    | _ => none

theorem sampleParseToken_token (capability : CapabilityId) :
    sampleParseToken (sampleToken capability) = some capability := by
  cases capability with
  | crossScreenInject => rfl
  | remoteFilesRead => rfl
  | remoteFilesWrite => rfl
  | other token =>
    have differs : ∀ text : String, text.toList.head? ≠ some '+' →
        String.ofList ('+' :: token.toList) ≠ text := by
      rintro text starts rfl
      simp at starts
    rw [sampleToken, sampleParseToken, if_neg (differs _ (by decide)),
      if_neg (differs _ (by decide)), if_neg (differs _ (by decide))]
    simp

theorem sampleToken_parseToken (text : String) (capability : CapabilityId)
    (parsed : sampleParseToken text = some capability) : sampleToken capability = text := by
  unfold sampleParseToken at parsed
  split at parsed
  · cases parsed
    simp [sampleToken, *]
  · split at parsed
    · cases parsed
      simp [sampleToken, *]
    · split at parsed
      · cases parsed
        simp [sampleToken, *]
      · split at parsed
        · rename_i rest starts
          cases parsed
          simp [sampleToken, ← starts]
        · cases parsed

/-- The last 32 bytes, in reverse. -/
def sampleSha256 (bytes : Bytes) : Digest := Vector.ofFn fun index => bytes.reverse.getD index 0

/-- The digits of a number as characters. -/
def sampleDigits (number : Nat) : List Char := (Nat.digits 10 number).map Char.ofNat

/-- Numbers as text, separated by commas. -/
def sampleNumbers (numbers : List Nat) : String :=
  String.ofList ([','].intercalate (numbers.map sampleDigits))

/-- The numbers of a text. -/
def sampleParseNumbers (text : String) : List Nat :=
  (text.toList.splitOn ',').map fun digits => Nat.ofDigits 10 (digits.map Char.toNat)

/-- Numbers survive their text. -/
theorem sampleParseNumbers_numbers {numbers : List Nat} (nonempty : numbers ≠ []) :
    sampleParseNumbers (sampleNumbers numbers) = numbers := by
  have small : ∀ number, ∀ digit ∈ Nat.digits 10 number, digit < 10 := fun number digit member =>
    Nat.digits_lt_base (by decide) member
  have plain : ∀ digits ∈ numbers.map sampleDigits, ',' ∉ digits := by
    intro digits member comma
    obtain ⟨number, -, rfl⟩ := List.mem_map.mp member
    obtain ⟨digit, inside, same⟩ := List.mem_map.mp comma
    have bound := small number digit inside
    interval_cases digit <;> exact absurd same (by decide)
  have digits : ∀ number, (sampleDigits number).map Char.toNat = Nat.digits 10 number := by
    intro number
    rw [sampleDigits, List.map_map]
    conv_rhs => rw [← List.map_id (Nat.digits 10 number)]
    refine List.map_congr_left fun digit member => ?_
    have bound := small number digit member
    interval_cases digit <;> rfl
  rw [sampleParseNumbers, sampleNumbers, String.toList_ofList,
    List.splitOn_intercalate _ plain (by simpa using nonempty), List.map_map]
  conv_rhs => rw [← List.map_id numbers]
  refine List.map_congr_left fun number _ => ?_
  simp only [Function.comp_apply, digits, Nat.ofDigits_digits, id_eq]

/-- An address as text. -/
def sampleAddressText (address : SocketAddr) : String := sampleNumbers address.withoutFlow.sortKey

/-- The address of a text. -/
def sampleParseAddress (text : String) : Except String SocketAddr :=
  match sampleParseNumbers text with
  | [0, ip, port] => .ok (.v4 (.ofNat 32 ip) (.ofNat port))
  | [1, ip, port, flowinfo, scopeId] =>
    .ok (.v6 (.ofNat 128 ip) (.ofNat port) (.ofNat flowinfo) (.ofNat scopeId))
  | _ => .error "invalid socket address"

theorem sampleParseAddress_text (address : SocketAddr) (plain : address.flowinfo = 0) :
    sampleParseAddress (sampleAddressText address) = .ok address := by
  have numbers : sampleParseNumbers (sampleAddressText address) = address.sortKey := by
    rw [sampleAddressText, SocketAddr.withoutFlow_eq_self plain]
    exact sampleParseNumbers_numbers (by cases address <;> simp [SocketAddr.sortKey])
  rw [sampleParseAddress, numbers]
  cases address <;> simp [SocketAddr.sortKey]

/-- A platform on which the digest of a message is its end, a signature is the key followed by the
digest, and a device's key is its name. -/
def sample (known : List SessionHello) (response : PairingResponse) : Platform where
  parseDeviceId text := if text.isEmpty then .error "empty device id" else .ok ⟨text⟩
  verifyKey id key := if key = .sample id.asStr then .ok () else .error "key mismatch"
  publicKeyFromBytes bytes := .ok ⟨bytes⟩
  signatureFromBytes bytes := .ok ⟨bytes⟩
  domain
    | .featurePayload => [0]
    | .sessionAuthentication => [1]
    | .endpointBinding => [2]
  token := sampleToken
  parseToken := sampleParseToken
  repositoryErrorText
    | .backend reason => reason
  addressText := sampleAddressText
  parseAddress := sampleParseAddress
  constraintsToJson
    | .none => .ok "null"
    | .remoteFileShares _ _ => .error "not serializable"
  constraintsFromJson text := if text = "null" then .ok .none else .error "malformed constraints"
  sha256 := sampleSha256
  validVerifyingKey _ := true
  verifyStrict key message signature := signature = key ++ (sampleSha256 message).toList
  protocolMajor := 1
  minProtocolMinor := 0
  maxProtocolMinor := 2
  maxControlFrameSize := 65536
  kindNumber
    | .pairing => 1
    | .control => 2
    | .realtimeInput => 3
    | .fileTransfer => 4
    | .print => 5
    | .discoveryProbe => 6
  directionNumber
    | .inbound => 1
    | .outbound => 2
  encodeHello := sampleEncodeHello known
  decodeHello := sampleDecodeHello known
  encodeAuth auth := ascii auth.deviceId ++ 0 :: auth.signature
  decodeAuth bytes := .ok
    ⟨SessionHello.text ((bytes.takeWhile (· != 0)).map UInt8.toNat),
      (bytes.dropWhile (· != 0)).tail⟩
  encodeAccepted accepted := [.ofNat accepted.protocolMinor.toNat]
  decodeAccepted bytes := .ok ⟨1, 1, 0, .ofNat (bytes.headD 0).toNat, []⟩
  encodeFeaturePayload payload := payload.body
  encodePairingRequest _ := []
  decodePairingResponse _ := .ok response
  asStr_parseDeviceId text id parsed := by
    split at parsed <;> cases parsed
    rfl
  asBytes_publicKeyFromBytes bytes key read := by
    cases read
    rfl
  asBytes_signatureFromBytes bytes signature read := by
    cases read
    rfl
  verifyKey_unique id first second checked checkedSecond := by
    split at checked
    · split at checkedSecond
      · rename_i same sameSecond
        exact same.trans sameSecond.symm
      · cases checkedSecond
    · cases checked
  parseToken_token := sampleParseToken_token
  token_parseToken := sampleToken_parseToken
  addressText_withoutFlow address := by cases address <;> rfl
  parseAddress_addressText := sampleParseAddress_text
  constraintsFromJson_toJson constraints text written := by
    cases constraints with
    | none =>
      cases written
      rfl
    | remoteFileShares shareIds writable => cases written
  minProtocolMinor_le := by decide
  kindNumber_injective := by
    intro first second same
    cases first <;> cases second <;> first | rfl | exact absurd same (by decide)
  directionNumber_injective := by
    intro first second same
    cases first <;> cases second <;> first | rfl | exact absurd same (by decide)
  decodeHello_encodeHello := sampleDecodeHello_encodeHello known

end Platform

end ArcRelay
