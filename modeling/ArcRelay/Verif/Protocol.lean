import ArcRelay.Lib.Fallible
import ArcRelay.Protocol

/-!
# What the protocol's checks establish

One inversion for each computation of the handshake that can refuse: what is
known once `validate_hello`, `verify_signature`, the negotiation or the
transcript have succeeded.
-/

namespace ArcRelay

/-- The device id and the key of a peer survive being stored. -/
structure WellFormed (platform : Platform) (peer : SessionPeer) : Prop where
  parsed : platform.parseDeviceId peer.deviceId.asStr = .ok peer.deviceId
  key : platform.publicKeyFromBytes peer.publicKey.asBytes = .ok peer.publicKey

/-- What `validate_hello` has checked when it returns a peer. -/
structure HelloAccepted (platform : Platform) (hello : SessionHello) (kind : SessionKind)
    (peer : SessionPeer) : Prop where
  admissible : platform.admissibleHello hello = true
  kind : hello.sessionKind = platform.encodeKind kind
  deviceId : platform.parseDeviceId hello.deviceId = .ok peer.deviceId
  publicKey : platform.publicKeyFromBytes hello.rootPublicKey = .ok peer.publicKey
  bound : platform.verifyKey peer.deviceId peer.publicKey = .ok ()
  certificate : digestOfBytes? hello.endpointCertificateSha256 = some peer.certificateSha256
  binding : ∃ signature,
    platform.signatureFromBytes hello.endpointBindingSignature = .ok signature ∧
    platform.verifySignature peer.publicKey .endpointBinding peer.certificateSha256.toList
      signature = .ok ()
  metadata : peer.metadata = ⟨hello.deviceName, hello.platform, hello.model⟩

theorem digestOfBytes?_toList (digest : Digest) : digestOfBytes? digest.toList = some digest := by
  unfold digestOfBytes?
  split
  · simp [Vector.toList]
  · rename_i other
    exact absurd (by simp) other

namespace Platform

variable {platform : Platform}

theorem identityResult_eq_ok {α : Type} {result : Except String α} {value : α} :
    identityResult result = .ok value ↔ result = .ok value :=
  Except.mapError_eq_ok

theorem certificateDigest_eq_ok {bytes : Bytes} {digest : Digest} :
    certificateDigest bytes = .ok digest ↔ digestOfBytes? bytes = some digest := by
  unfold certificateDigest
  split <;> simp_all

/-- A peer returned by `validate_hello` was accepted. -/
theorem validateHello_eq_ok {hello : SessionHello} {kind : SessionKind} {peer : SessionPeer}
    (validated : platform.validateHello hello (some kind) = .ok peer) :
    HelloAccepted platform hello kind peer := by
  obtain ⟨_, admissible, rest⟩ := Except.bind_eq_ok.mp validated
  obtain ⟨decoded, named, rest⟩ := Except.bind_eq_ok.mp rest
  obtain ⟨_, expected, rest⟩ := Except.bind_eq_ok.mp rest
  obtain ⟨deviceId, parsed, rest⟩ := Except.bind_eq_ok.mp rest
  obtain ⟨publicKey, read, rest⟩ := Except.bind_eq_ok.mp rest
  obtain ⟨_, bound, rest⟩ := Except.bind_eq_ok.mp rest
  obtain ⟨certificate, digest, rest⟩ := Except.bind_eq_ok.mp rest
  obtain ⟨signature, signed, rest⟩ := Except.bind_eq_ok.mp rest
  obtain ⟨_, verified, rest⟩ := Except.bind_eq_ok.mp rest
  obtain rfl := Except.pure_eq_ok.mp rest
  have same : kind = decoded := by simpa using Except.refuse_eq_ok.mp expected
  exact {
    admissible := by simpa using Except.refuse_eq_ok.mp admissible
    kind := by rw [same]; exact (platform.decodeKind_eq_ok).mp named
    deviceId := identityResult_eq_ok.mp parsed
    publicKey := identityResult_eq_ok.mp read
    bound := identityResult_eq_ok.mp bound
    certificate := certificateDigest_eq_ok.mp digest
    binding := ⟨signature, identityResult_eq_ok.mp signed, verified⟩
    metadata := rfl }

/-- A hello that passes every check is accepted. -/
theorem validateHello_of_accepted {hello : SessionHello} {kind : SessionKind} {peer : SessionPeer}
    (accepted : HelloAccepted platform hello kind peer) (unlistened : peer.listenPort = 0) :
    platform.validateHello hello (some kind) = .ok peer := by
  obtain ⟨signature, read, verified⟩ := accepted.binding
  obtain ⟨deviceId, publicKey, metadata, certificateSha256, listenPort⟩ := peer
  obtain rfl : listenPort = 0 := unlistened
  obtain rfl : metadata = _ := accepted.metadata
  refine Except.bind_eq_ok.mpr ⟨(), Except.refuse_eq_ok.mpr (by simp [accepted.admissible]), ?_⟩
  refine Except.bind_eq_ok.mpr ⟨kind, platform.decodeKind_eq_ok.mpr accepted.kind, ?_⟩
  refine Except.bind_eq_ok.mpr ⟨(), Except.refuse_eq_ok.mpr (by simp), ?_⟩
  refine Except.bind_eq_ok.mpr ⟨_, identityResult_eq_ok.mpr accepted.deviceId, ?_⟩
  refine Except.bind_eq_ok.mpr ⟨_, identityResult_eq_ok.mpr accepted.publicKey, ?_⟩
  refine Except.bind_eq_ok.mpr ⟨(), identityResult_eq_ok.mpr accepted.bound, ?_⟩
  refine Except.bind_eq_ok.mpr ⟨_, certificateDigest_eq_ok.mpr accepted.certificate, ?_⟩
  refine Except.bind_eq_ok.mpr ⟨signature, identityResult_eq_ok.mpr read, ?_⟩
  exact Except.bind_eq_ok.mpr ⟨(), verified, rfl⟩

end Platform

/-! ## Transcripts -/

/-- Numbers agree from a bit on if they agree eight bits higher and in the byte between. -/
theorem div_eq_of_byte {first second shift : Nat}
    (above : first / 2 ^ (shift + 8) = second / 2 ^ (shift + 8))
    (byte : first / 2 ^ shift % 256 = second / 2 ^ shift % 256) :
    first / 2 ^ shift = second / 2 ^ shift := by
  rw [Nat.pow_add, ← Nat.div_div_eq_div_mul, ← Nat.div_div_eq_div_mul] at above
  omega

/-- Lengths below the limit have different bytes. -/
theorem lengthBytes_inj {first second : Nat} (fits : first < 2 ^ 64) (fitsSecond : second < 2 ^ 64)
    (same : lengthBytes first = lengthBytes second) : first = second := by
  simp only [lengthBytes, List.map_cons, List.map_nil, List.cons.injEq, and_true,
    ← UInt8.toNat_inj, UInt8.toNat_ofNat'] at same
  obtain ⟨byte56, byte48, byte40, byte32, byte24, byte16, byte8, byte0⟩ := same
  have above : first / 2 ^ 64 = second / 2 ^ 64 := by
    rw [Nat.div_eq_of_lt fits, Nat.div_eq_of_lt fitsSecond]
  have from56 : first / 2 ^ 56 = second / 2 ^ 56 := div_eq_of_byte above byte56
  have from48 : first / 2 ^ 48 = second / 2 ^ 48 := div_eq_of_byte from56 byte48
  have from40 : first / 2 ^ 40 = second / 2 ^ 40 := div_eq_of_byte from48 byte40
  have from32 : first / 2 ^ 32 = second / 2 ^ 32 := div_eq_of_byte from40 byte32
  have from24 : first / 2 ^ 24 = second / 2 ^ 24 := div_eq_of_byte from32 byte24
  have from16 : first / 2 ^ 16 = second / 2 ^ 16 := div_eq_of_byte from24 byte16
  have from8 : first / 2 ^ 8 = second / 2 ^ 8 := div_eq_of_byte from16 byte8
  have from0 : first / 2 ^ 0 = second / 2 ^ 0 := div_eq_of_byte from8 byte0
  simpa using from0

theorem length_lengthBytes (length : Nat) : (lengthBytes length).length = 8 := rfl

/-- If a device's own hello is the other's remote one in one order, it is in the other. -/
theorem crossed_of_orderHellos {own remote other own₂ : SessionHello}
    (same : orderHellos own remote = orderHellos own₂ other)
    (differ : own.deviceId ≠ own₂.deviceId) : own = other ∧ remote = own₂ := by
  have distinct : own ≠ own₂ := fun equal => differ (congrArg SessionHello.deviceId equal)
  unfold orderHellos at same
  split at same <;> split at same <;> obtain ⟨first, second⟩ := Prod.mk.inj same
  · exact absurd first distinct
  · exact ⟨first, second⟩
  · exact ⟨second, first⟩
  · exact absurd second distinct

theorem toNat_max (first second : UInt32) :
    (max first second).toNat = max first.toNat second.toNat := by
  have unfolded : max first second = if first ≤ second then second else first := rfl
  rw [unfolded]
  split <;> rename_i order <;> rw [UInt32.le_iff_toNat_le] at order <;> omega

theorem toNat_min (first second : UInt32) :
    (min first second).toNat = min first.toNat second.toNat := by
  have unfolded : min first second = if first ≤ second then first else second := rfl
  rw [unfolded]
  split <;> rename_i order <;> rw [UInt32.le_iff_toNat_le] at order <;> omega

/-- `random_nonzero_u64` is not zero. -/
theorem max_one_ne_zero (id : UInt64) : max id 1 ≠ 0 := by
  have unfolded : max id 1 = if id ≤ 1 then 1 else id := rfl
  rw [unfolded]
  split
  · decide
  · rename_i large
    rintro rfl
    exact large (by decide)

theorem negotiateProtocolMinor_comm (own remote : SessionHello) :
    negotiateProtocolMinor own remote = negotiateProtocolMinor remote own := by
  have minimum : max own.minProtocolMinor remote.minProtocolMinor =
      max remote.minProtocolMinor own.minProtocolMinor := by
    rw [← UInt32.toNat_inj, toNat_max, toNat_max, Nat.max_comm]
  have maximum : min own.maxProtocolMinor remote.maxProtocolMinor =
      min remote.maxProtocolMinor own.maxProtocolMinor := by
    rw [← UInt32.toNat_inj, toNat_min, toNat_min, Nat.min_comm]
  unfold negotiateProtocolMinor
  rw [minimum, maximum]

/-- A minor version lies in the range a hello advertises. -/
def Speaks (hello : SessionHello) (minor : UInt32) : Prop :=
  hello.minProtocolMinor ≤ minor ∧ minor ≤ hello.maxProtocolMinor

/-- The negotiated minor version is the largest one that lies in both ranges. -/
theorem negotiated_isGreatest {own remote : SessionHello} {minor : UInt32}
    (negotiated : negotiateProtocolMinor own remote = .ok minor) :
    (Speaks own minor ∧ Speaks remote minor) ∧
      ∀ other, Speaks own other → Speaks remote other → other ≤ minor := by
  unfold negotiateProtocolMinor at negotiated
  dsimp only at negotiated
  split at negotiated
  · rename_i compatible
    cases negotiated
    simp only [Speaks, UInt32.le_iff_toNat_le, toNat_max, toNat_min] at compatible ⊢
    refine ⟨by omega, fun other first second => by omega⟩
  · cases negotiated

namespace Platform

variable {platform : Platform}

theorem encodeHello_injective : Function.Injective platform.encodeHello := by
  intro first second same
  have decoded := platform.decodeHello_encodeHello first
  rw [same, platform.decodeHello_encodeHello] at decoded
  exact (Except.ok.inj decoded).symm

theorem messageBytes_append_inj {first second : SessionHello} {rest restSecond : Bytes}
    (fits : (platform.encodeHello first).length < 2 ^ 64)
    (fitsSecond : (platform.encodeHello second).length < 2 ^ 64)
    (same : platform.messageBytes first ++ rest = platform.messageBytes second ++ restSecond) :
    first = second ∧ rest = restSecond := by
  unfold messageBytes at same
  simp only [List.append_assoc] at same
  obtain ⟨lengths, bodies⟩ := List.append_inj same (by simp [length_lengthBytes])
  obtain ⟨encoded, tails⟩ := List.append_inj bodies (lengthBytes_inj fits fitsSecond lengths)
  exact ⟨encodeHello_injective encoded, tails⟩

theorem length_encodeHello_lt {exporter : Digest} {own remote : SessionHello} {limit : Nat}
    (fits : (platform.transcriptWith exporter own remote).length < limit) :
    (platform.encodeHello (orderHellos own remote).1).length < limit ∧
      (platform.encodeHello (orderHellos own remote).2).length < limit := by
  simp only [transcriptWith, messageBytes, List.length_append] at fits
  omega

/-- A transcript determines the exporter value and the hellos in their order. -/
theorem transcriptWith_inj {exporter exporterSecond : Digest}
    {own remote own₂ remote₂ : SessionHello}
    (fits : (platform.encodeHello (orderHellos own remote).1).length < 2 ^ 64 ∧
      (platform.encodeHello (orderHellos own remote).2).length < 2 ^ 64)
    (fitsSecond : (platform.encodeHello (orderHellos own₂ remote₂).1).length < 2 ^ 64 ∧
      (platform.encodeHello (orderHellos own₂ remote₂).2).length < 2 ^ 64)
    (same : platform.transcriptWith exporter own remote =
      platform.transcriptWith exporterSecond own₂ remote₂) :
    exporter = exporterSecond ∧ orderHellos own remote = orderHellos own₂ remote₂ := by
  unfold transcriptWith at same
  simp only [List.append_assoc] at same
  have messages := List.append_cancel_left (List.append_cancel_left same)
  obtain ⟨first, rest⟩ := messageBytes_append_inj fits.1 fitsSecond.1 messages
  obtain ⟨second, exported⟩ := messageBytes_append_inj fits.2 fitsSecond.2 rest
  exact ⟨Vector.toList_inj.mp exported, Prod.ext first second⟩

/-- A transcript of bounded length determines the hellos in their order. -/
theorem orderHellos_of_transcriptWith {exporter exporterSecond : Digest}
    {own remote own₂ remote₂ : SessionHello}
    (same : platform.transcriptWith exporter own remote =
      platform.transcriptWith exporterSecond own₂ remote₂)
    (fits : (platform.transcriptWith exporter own remote).length < 2 ^ 64) :
    orderHellos own remote = orderHellos own₂ remote₂ :=
  (transcriptWith_inj (length_encodeHello_lt fits) (length_encodeHello_lt (same ▸ fits)) same).2

end Platform

/-- Two hellos of different devices are put in the same order from either end. -/
theorem orderHellos_comm {own remote : SessionHello} (differ : own.deviceId ≠ remote.deviceId) :
    orderHellos own remote = orderHellos remote own := by
  unfold orderHellos
  split <;> split
  · rename_i below above
    exact absurd (String.le_antisymm below above) differ
  · rfl
  · rfl
  · rename_i below above
    exact absurd (String.le_total own.deviceId remote.deviceId) (not_or.mpr ⟨below, above⟩)

theorem pair_orderHellos (own remote : SessionHello) :
    ({(orderHellos own remote).1, (orderHellos own remote).2} : Set SessionHello) =
      {own, remote} := by
  unfold orderHellos
  split
  · rfl
  · exact Set.pair_comm remote own

namespace Platform

variable {platform : Platform}

/-- No domain is the beginning of another one. -/
def PrefixFree (platform : Platform) : Prop :=
  ∀ first second, platform.domain first <+: platform.domain second → first = second

theorem PrefixFree.eq_of_append (free : platform.PrefixFree) {first second : SigningContext}
    {rest restSecond : Bytes}
    (same : platform.domain first ++ rest = platform.domain second ++ restSecond) :
    first = second := by
  have begins : platform.domain first <+: platform.domain second ++ restSecond := ⟨rest, same⟩
  have beginsSecond : platform.domain second <+: platform.domain second ++ restSecond :=
    List.prefix_append _ _
  cases List.prefix_or_prefix_of_prefix begins beginsSecond with
  | inl before => exact free _ _ before
  | inr before => exact (free _ _ before).symm

theorem signingTranscript_inj (free : platform.PrefixFree) {first second : SigningContext}
    {message messageSecond : Bytes}
    (same : platform.signingTranscript first message =
      platform.signingTranscript second messageSecond) :
    first = second ∧ message = messageSecond := by
  unfold signingTranscript at same
  simp only [List.append_assoc] at same
  obtain rfl := free.eq_of_append same
  have framed := List.append_cancel_left same
  obtain ⟨-, bodies⟩ := List.append_inj framed (by simp only [length_lengthBytes])
  exact ⟨rfl, bodies⟩

/-- The bytes a device signs determine the context and the message. The two ends of a connection
have one transcript between them, and it determines the keys of the connection and the hellos that
were exchanged on it. -/
theorem signed_bytes_determine (platform : Platform) (free : platform.PrefixFree) :
    (∀ (first second : SigningContext) (message messageSecond : Bytes),
      message.length < 2 ^ 64 → messageSecond.length < 2 ^ 64 →
      platform.signingTranscript first message = platform.signingTranscript second messageSecond →
      first = second ∧ message = messageSecond) ∧
    ∀ (connection other : Connection) (exporter exporterOther : Digest)
      (own remote own₂ remote₂ : SessionHello),
      connection.exporter = some exporter → other.exporter = some exporterOther →
      own.deviceId ≠ remote.deviceId → own₂.deviceId ≠ remote₂.deviceId →
      (∀ hello ∈ [own, remote, own₂, remote₂], (platform.encodeHello hello).length < 2 ^ 64) →
      (∃ transcript, platform.sessionTranscript connection own remote = .ok transcript ∧
        platform.sessionTranscript connection remote own = .ok transcript) ∧
      (platform.sessionTranscript connection own remote =
          platform.sessionTranscript other own₂ remote₂ →
        exporter = exporterOther ∧ ({own, remote} : Set SessionHello) = {own₂, remote₂}) := by
  refine ⟨fun first second message messageSecond _ _ same => signingTranscript_inj free same, ?_⟩
  intro connection other exporter exporterOther own remote own₂ remote₂ exported exportedOther
    differ _ fits
  have ordered : ∀ a b : SessionHello, (platform.encodeHello a).length < 2 ^ 64 →
      (platform.encodeHello b).length < 2 ^ 64 →
      (platform.encodeHello (orderHellos a b).1).length < 2 ^ 64 ∧
        (platform.encodeHello (orderHellos a b).2).length < 2 ^ 64 := by
    intro a b fitsA fitsB
    unfold orderHellos
    split
    · exact ⟨fitsA, fitsB⟩
    · exact ⟨fitsB, fitsA⟩
  have written : ∀ a b : SessionHello, platform.sessionTranscript connection a b =
      .ok (platform.transcriptWith exporter a b) := by
    intro a b
    rw [sessionTranscript, exported]
  have writtenOther : platform.sessionTranscript other own₂ remote₂ =
      .ok (platform.transcriptWith exporterOther own₂ remote₂) := by
    rw [sessionTranscript, exportedOther]
  constructor
  · refine ⟨platform.transcriptWith exporter own remote, written own remote, ?_⟩
    rw [written remote own, transcriptWith, transcriptWith, orderHellos_comm differ]
  · intro same
    rw [written, writtenOther] at same
    obtain ⟨keys, hellos⟩ := transcriptWith_inj
      (ordered own remote (fits own (by simp)) (fits remote (by simp)))
      (ordered own₂ remote₂ (fits own₂ (by simp)) (fits remote₂ (by simp))) (Except.ok.inj same)
    refine ⟨keys, ?_⟩
    rw [← pair_orderHellos own remote, hellos, pair_orderHellos own₂ remote₂]

/-- A hello that says nothing but a name. -/
def plainHello (name : String) : SessionHello :=
  ⟨1, 2, name, "", "", "", [], [], [], [], 0, 0⟩

/-- A platform that encodes the hellos of two devices in a few bytes. -/
def signing : Platform := sample [plainHello "alice", plainHello "bob"] ⟨none, []⟩

/-- On a platform with domains of which none begins another, what is signed determines the context
and the message, and two devices have one transcript between them. -/
theorem signed_bytes_determine_sample :
    signing.PrefixFree ∧
    (∀ (first second : SigningContext) (message messageSecond : Bytes),
      message.length < 2 ^ 64 → messageSecond.length < 2 ^ 64 →
      signing.signingTranscript first message = signing.signingTranscript second messageSecond →
      first = second ∧ message = messageSecond) ∧
    ∃ transcript,
      signing.sessionTranscript ⟨0, .v4 0 0, none, some (Vector.replicate 32 5)⟩
        (plainHello "alice") (plainHello "bob") = .ok transcript ∧
      signing.sessionTranscript ⟨0, .v4 0 0, none, some (Vector.replicate 32 5)⟩
        (plainHello "bob") (plainHello "alice") = .ok transcript := by
  have free : signing.PrefixFree := by
    intro first second begins
    cases first <;> cases second <;> first | rfl | exact absurd begins (by decide)
  obtain ⟨signed, shared⟩ := signed_bytes_determine signing free
  refine ⟨free, signed, ?_⟩
  exact (shared _ ⟨0, .v4 0 0, none, some (Vector.replicate 32 5)⟩ _ (Vector.replicate 32 5)
    (plainHello "alice") (plainHello "bob") (plainHello "alice") (plainHello "bob") rfl rfl
    (by decide) (by decide) (by decide +kernel)).1

end Platform

end ArcRelay
