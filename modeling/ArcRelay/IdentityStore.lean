import ArcRelay.Basic
import ArcRelay.Lib.Crash
import ArcRelay.Lib.Run

/-!
# The identity directory

`DeviceIdentity::load_or_create`: the root key and the endpoint certificate with its
key are read from a directory, or generated and written to it. Every operation on a
file is a step of its own and may fail; the process may be killed between any two of
them. A rename that has been made stays. A temporary file holds what has been written
to it by calls that succeeded; one that was left behind is never opened again.
-/

namespace ArcRelay.Identity

/-- An Ed25519 signing key as its bytes. -/
abbrev SigningKey := Vector UInt8 32

/-- What the cryptographic libraries do. -/
structure Cryptography where
  /-- `Sha256::digest`. -/
  sha256 : Bytes → Digest
  /-- `DeviceId::from_public_key` of the verifying key. -/
  deviceId : SigningKey → DeviceId
  /-- `generate_simple_self_signed` can return this certificate with this key. -/
  generates : Bytes → Bytes → Bool
  /-- `with_single_cert` and `QuicServerConfig::try_from`. -/
  buildConfig : Bytes → Bytes → Except String Unit
  /-- A certificate and a key that were generated together can be served. -/
  serves : ∀ certificate key, generates certificate key = true →
    buildConfig certificate key = .ok ()

/-- The files of an identity. -/
inductive File where
  /-- `ROOT_KEY_FILE`. -/
  | rootKey
  /-- `TLS_CERT_FILE`. -/
  | tlsCert
  /-- `TLS_KEY_FILE`. -/
  | tlsKey
deriving DecidableEq, Repr

/-- A `quinn::ServerConfig`, by the pair it serves. -/
structure ServerConfig where
  certificate : Bytes
  privateKey : Bytes
deriving DecidableEq, Repr

/-- `DeviceIdentity`. -/
structure DeviceIdentity where
  signingKey : SigningKey
  certificateDer : Bytes
  certificateSha256 : Digest
  serverConfig : ServerConfig
deriving DecidableEq

/-- `DeviceIdentity::device_id`. -/
def DeviceIdentity.deviceId (identity : DeviceIdentity) (cryptography : Cryptography) : DeviceId :=
  cryptography.deviceId identity.signingKey

/-- The steps the functions are made of. -/
inductive Call where
  | createDirAll
  /-- `set_permissions` on the directory. -/
  | setPermissions
  /-- `Path::exists`. -/
  | pathExists (file : File)
  /-- `std::fs::read`. -/
  | read (file : File)
  /-- `SigningKey::generate`. -/
  | generateKey
  /-- `generate_simple_self_signed`. -/
  | generateSelfSigned
  | nextU64
  /-- `OpenOptions::open` with `create_new`, of a temporary file. -/
  | createNew (file : File) (number : UInt64)
  | writeAll (file : File) (number : UInt64) (bytes : Bytes)
  /-- `File::sync_all`. -/
  | syncAll (file : File) (number : UInt64)
  /-- `std::fs::rename` of a temporary file. -/
  | rename (file : File) (number : UInt64)
  /-- `File::open` and `sync_all` of the directory. -/
  | syncDirectory
  /-- `remove_file` of a temporary file. -/
  | removeFile (file : File) (number : UInt64)

/-- What a step returns. -/
abbrev Call.Reply : Call → Type
  | .createDirAll | .setPermissions | .createNew _ _ | .writeAll _ _ _ | .syncAll _ _
  | .rename _ _ | .syncDirectory | .removeFile _ _ => Except NetworkError Unit
  | .pathExists _ => Bool
  | .read _ => Except NetworkError Bytes
  | .generateKey => SigningKey
  | .generateSelfSigned => Except NetworkError (Bytes × Bytes)
  | .nextU64 => UInt64

/-- The directory, and what has been generated. -/
structure Directory where
  /-- What the files of the identity hold. -/
  files : File → Option Bytes
  /-- What the temporary files hold, by the file they are for and the number in their name. -/
  temporaries : File → UInt64 → Option Bytes
  /-- The certificates with their keys that were generated together. -/
  generated : List (Bytes × Bytes)

/-- Nothing is there. -/
def Directory.empty : Directory := ⟨fun _ => none, fun _ _ => none, []⟩

/-- Change what a temporary file holds. -/
def Directory.setTemporary (directory : Directory) (file : File) (number : UInt64)
    (content : Option Bytes) : Directory :=
  { directory with
    temporaries := Function.update directory.temporaries file
      (Function.update (directory.temporaries file) number content) }

/-- Change what a file of the identity holds. -/
def Directory.setFile (directory : Directory) (file : File) (content : Bytes) : Directory :=
  { directory with files := Function.update directory.files file (some content) }

section

variable (cryptography : Cryptography)

/-- How the steps are answered. A step that can fail fails if the environment says so. -/
def handle : Program.Handler Directory Call.Reply
  | directory, .createDirAll, reply => some (reply, directory)
  | directory, .setPermissions, reply => some (reply, directory)
  | directory, .pathExists file, _ => some ((directory.files file).isSome, directory)
  | directory, .read _, .error error => some (.error error, directory)
  | directory, .read file, .ok _ => match directory.files file with
    | none => some (.error (.io "No such file or directory"), directory)
    | some content => some (.ok content, directory)
  | directory, .generateKey, key => some (key, directory)
  | directory, .generateSelfSigned, .error error => some (.error error, directory)
  | directory, .generateSelfSigned, .ok pair =>
    if cryptography.generates pair.1 pair.2 then
      some (.ok pair, { directory with generated := directory.generated ++ [pair] })
    else none
  | directory, .nextU64, number => some (number, directory)
  | directory, .createNew _ _, .error error => some (.error error, directory)
  | directory, .createNew file number, .ok _ => match directory.temporaries file number with
    | none => some (.ok (), directory.setTemporary file number (some []))
    | some _ => some (.error (.io "File exists"), directory)
  | directory, .writeAll _ _ _, .error error => some (.error error, directory)
  | directory, .writeAll file number bytes, .ok _ =>
    some (.ok (), directory.setTemporary file number
      ((directory.temporaries file number).map (· ++ bytes)))
  | directory, .syncAll _ _, reply => some (reply, directory)
  | directory, .rename _ _, .error error => some (.error error, directory)
  | directory, .rename file number, .ok _ => match directory.temporaries file number with
    | none => some (.error (.io "No such file or directory"), directory)
    | some content => some (.ok (), (directory.setFile file content).setTemporary file number none)
  | directory, .syncDirectory, reply => some (reply, directory)
  | directory, .removeFile _ _, .error error => some (.error error, directory)
  | directory, .removeFile file number, .ok _ =>
    some (.ok (), directory.setTemporary file number none)

/-- A function on the directory that may fail. -/
abbrev Action := Async Call.Reply NetworkError

/-- One step. -/
abbrev step (request : Call) : Action request.Reply := Async.call request

/-- The closure of `private_write` over the temporary file. -/
def writeAndRename (unix : Bool) (file : File) (number : UInt64) (bytes : Bytes) :
    Action Unit := do
  Async.ofExcept (← step (.writeAll file number bytes))
  Async.ofExcept (← step (.syncAll file number))
  Async.ofExcept (← step (.rename file number))
  Async.whenever unix do Async.ofExcept (← step .syncDirectory)

/-- Take a temporary file away, whether or not that works. -/
def discard (file : File) (number : UInt64) : Action Unit := do
  let _ ← step (.removeFile file number)

/-- `private_write`. -/
def privateWrite (unix : Bool) (file : File) (bytes : Bytes) : Action Unit := do
  let number ← step .nextU64
  Async.ofExcept (← step (.createNew file number))
  let result ← Async.result (writeAndRename unix file number bytes)
  Async.whenever (result.isOk = false) (discard file number)
  Async.ofExcept result

/-- Thirty-two bytes are a signing key. -/
def parseKey (bytes : Bytes) : Except NetworkError SigningKey :=
  if length : bytes.length = 32 then .ok ⟨bytes.toArray, length⟩
  else .error (.invalidIdentity "stored root key length")

/-- `load_or_create_root`. -/
def loadOrCreateRoot (unix : Bool) : Action SigningKey := do
  if ← step (.pathExists .rootKey) then
    let bytes ← Async.ofExcept (← step (.read .rootKey))
    Async.ofExcept (parseKey bytes)
  else
    let key ← step .generateKey
    privateWrite unix .rootKey key.toList
    return key

/-- `certificate_path.exists() && key_path.exists()`. -/
def tlsExists : Action Bool := do
  if ← step (.pathExists .tlsCert) then
    step (.pathExists .tlsKey)
  else
    return false

/-- `load_or_create_tls`. -/
def loadOrCreateTls (unix : Bool) : Action (Bytes × Bytes) := do
  if ← tlsExists then
    let certificate ← Async.ofExcept (← step (.read .tlsCert))
    let key ← Async.ofExcept (← step (.read .tlsKey))
    return (certificate, key)
  else
    let generated ← Async.ofExcept (← step .generateSelfSigned)
    privateWrite unix .tlsCert generated.1
    privateWrite unix .tlsKey generated.2
    return generated

/-- `server_config`. -/
def serverConfig (certificateDer privateKeyDer : Bytes) : Except NetworkError ServerConfig :=
  match cryptography.buildConfig certificateDer privateKeyDer with
  | .error reason => .error (.tls reason)
  | .ok _ => .ok ⟨certificateDer, privateKeyDer⟩

/-- `harden_directory`. -/
def hardenDirectory (unix : Bool) : Action Unit :=
  Async.whenever unix do Async.ofExcept (← step .setPermissions)

/-- `DeviceIdentity::load_or_create`. -/
def loadOrCreate (unix : Bool) : Action DeviceIdentity := do
  Async.ofExcept (← step .createDirAll)
  hardenDirectory unix
  let signingKey ← loadOrCreateRoot unix
  let tls ← loadOrCreateTls unix
  let config ← Async.ofExcept (serverConfig cryptography tls.1 tls.2)
  return ⟨signingKey, tls.1, cryptography.sha256 tls.1, config⟩

/-! ## One run after another -/

/-- A process that calls `load_or_create`. -/
structure Process where
  /-- What the environment proposes for each step. -/
  proposals : Nat → (call : Call) → call.Reply
  /-- After so many steps the process is killed, if it has not returned by then. -/
  steps : Nat

/-- What the process returned, if it did, and the directory it leaves. -/
def launch (unix : Bool) (directory : Directory) (process : Process) :
    Option (Except NetworkError DeviceIdentity) × Directory :=
  match (loadOrCreate cryptography unix).run.advance (handle cryptography) process.proposals
      process.steps 0 directory with
  | (.done result, after) => (some result, after)
  | (.await _ _, after) => (none, after)

/-- The directory after some processes, one at a time, on an empty directory. -/
def afterAll (unix : Bool) (processes : List Process) : Directory :=
  Run.exec (fun directory process => (launch cryptography unix directory process).2) .empty
    processes

end

end ArcRelay.Identity
