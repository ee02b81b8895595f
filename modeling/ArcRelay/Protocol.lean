import ArcRelay.Lib.Fallible
import ArcRelay.Platform
import ArcRelay.Session

/-!
# The session protocol

The computations of the handshake: what makes a hello acceptable, which minor
version two hellos agree on, the transcript both ends sign, and the code both
users compare. None of them awaits anything.
-/

namespace ArcRelay

/-- `HANDSHAKE_FRAME_LIMIT`. -/
def handshakeFrameLimit : Nat := 64 * 1024

/-- `protocol::Direction`. -/
inductive Direction where
  | inbound
  | outbound
deriving DecidableEq, Repr

/-- `u64::to_be_bytes` of a length. -/
def lengthBytes (length : Nat) : Bytes :=
  [56, 48, 40, 32, 24, 16, 8, 0].map fun shift => .ofNat (length / 2 ^ shift)

/-- `<[u8; 32]>::try_from`. -/
def digestOfBytes? (bytes : Bytes) : Option Digest :=
  if length : bytes.length = 32 then some ⟨bytes.toArray, by simpa using length⟩ else none

/-- `<[u8; 16]>::try_from`. -/
def instanceOfBytes? (bytes : Bytes) : Option ProcessInstanceId :=
  if length : bytes.length = 16 then some ⟨bytes.toArray, by simpa using length⟩ else none

/-- `protocol::negotiate_protocol_minor`. -/
def negotiateProtocolMinor (own remote : SessionHello) : Except NetworkError UInt32 :=
  let minimum := max own.minProtocolMinor remote.minProtocolMinor
  let maximum := min own.maxProtocolMinor remote.maxProtocolMinor
  if minimum ≤ maximum then .ok maximum
  else .error (.protocol "no compatible protocol minor version")

/-- `protocol::validate_process_instance_id`. -/
def validateProcessInstanceId (value : Bytes) : Except NetworkError (Option ProcessInstanceId) :=
  if value.isEmpty then .ok none
  else match instanceOfBytes? value with
    | some id => .ok (some id)
    | none => .error (.protocol "invalid peer process instance id")

/-- Two hellos in the order of their device ids, the same at both ends. -/
def orderHellos (own remote : SessionHello) : SessionHello × SessionHello :=
  if own.deviceId ≤ remote.deviceId then (own, remote) else (remote, own)

namespace Platform

variable (platform : Platform)

/-- `identity::signing_transcript`. -/
def signingTranscript (context : SigningContext) (message : Bytes) : Bytes :=
  platform.domain context ++ lengthBytes message.length ++ message

/-- `identity::verify_signature`. -/
def verifySignature (key : DevicePublicKey) (context : SigningContext) (message : Bytes)
    (signature : DeviceSignature) : Except NetworkError Unit :=
  if key.asBytes.length ≠ 32 then .error (.invalidIdentity "public key length")
  else if signature.asBytes.length ≠ 64 then .error (.invalidIdentity "signature length")
  else if !platform.validVerifyingKey key.asBytes then .error (.invalidIdentity "public key")
  else if !platform.verifyStrict key.asBytes (platform.signingTranscript context message)
      signature.asBytes then
    .error (.invalidIdentity "signature verification")
  else .ok ()

/-- The bounds `validate_hello` checks first. -/
def admissibleHello (hello : SessionHello) : Bool :=
  !(hello.protocolMajor != platform.protocolMajor
    || hello.minProtocolMinor > hello.maxProtocolMinor
    || hello.maxProtocolMinor < platform.minProtocolMinor
    || hello.minProtocolMinor > platform.maxProtocolMinor
    || hello.nonce.length != 32
    || hello.endpointCertificateSha256.length != 32
    || hello.deviceName.utf8ByteSize > 255
    || hello.platform.utf8ByteSize > 64
    || hello.model.utf8ByteSize > 255)

/-- A failure of another crate as an identity error. -/
def identityResult {α : Type} (result : Except String α) : Except NetworkError α :=
  result.mapError .invalidIdentity

/-- The certificate digest of a hello. -/
def certificateDigest (bytes : Bytes) : Except NetworkError Digest :=
  match digestOfBytes? bytes with
  | some digest => .ok digest
  | none => .error (.invalidIdentity "certificate digest length")

/-- `protocol::validate_hello`. -/
def validateHello (hello : SessionHello) (expectedKind : Option SessionKind) :
    Except NetworkError SessionPeer := do
  Except.refuse (!platform.admissibleHello hello) (.protocol "invalid session hello")
  let kind ← platform.decodeKind hello.sessionKind
  Except.refuse (expectedKind.any fun expected => expected != kind)
    (.protocol "session kind mismatch")
  let deviceId ← identityResult (platform.parseDeviceId hello.deviceId)
  let publicKey ← identityResult (platform.publicKeyFromBytes hello.rootPublicKey)
  identityResult (platform.verifyKey deviceId publicKey)
  let certificateSha256 ← certificateDigest hello.endpointCertificateSha256
  let signature ← identityResult (platform.signatureFromBytes hello.endpointBindingSignature)
  platform.verifySignature publicKey .endpointBinding certificateSha256.toList signature
  return {
    deviceId
    publicKey
    metadata := ⟨hello.deviceName, hello.platform, hello.model⟩
    certificateSha256
    listenPort := 0 }

/-- `protocol::append_message`: the length in eight bytes, then the message. -/
def messageBytes (hello : SessionHello) : Bytes :=
  lengthBytes (platform.encodeHello hello).length ++ platform.encodeHello hello

/-- The transcript with a given exporter value. -/
def transcriptWith (exporter : Digest) (own remote : SessionHello) : Bytes :=
  ascii "arcrelay.session-transcript.v1" ++ [0] ++
    platform.messageBytes (orderHellos own remote).1 ++
    platform.messageBytes (orderHellos own remote).2 ++ exporter.toList

/-- `protocol::session_transcript`. -/
def sessionTranscript (connection : Connection) (own remote : SessionHello) :
    Except NetworkError Bytes :=
  match connection.exporter with
  | none => .error (.tls "TLS exporter is unavailable")
  | some exporter => .ok (platform.transcriptWith exporter own remote)

/-- `u32::from_be_bytes` of the first four bytes of a digest. -/
def codeNumber (digest : Digest) : Nat :=
  (digest.toList.take 4).foldl (fun number byte => number * 256 + byte.toNat) 0

/-- `protocol::verification_code`: six decimal digits. -/
def verificationCode (transcript : Bytes) : String :=
  let digits := Nat.toDigits 10 (codeNumber (platform.sha256 transcript) % 1000000)
  String.ofList (List.replicate (6 - digits.length) '0' ++ digits)

/-- `protocol::observed_certificate_sha256`. -/
def observedCertificateSha256 (connection : Connection) : Except NetworkError Digest :=
  match connection.peerCertificate with
  | none => .error (.invalidIdentity "peer TLS certificate is missing")
  | some certificate => .ok (platform.sha256 certificate)

end Platform

end ArcRelay
