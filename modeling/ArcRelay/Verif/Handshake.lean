import ArcRelay.Handshake
import ArcRelay.Verif.Protocol
import ArcRelay.Verif.Trusting

/-!
# What a finished handshake has seen

The specifications of the authentication functions, in terms of the calls they
made and the replies they got. They hold whatever the replies are; what the
repository, the other device or an adversary must have done for these replies is
for the users of the specifications to say.
-/

namespace ArcRelay

open Async
open Program (Trail trail_concat)

/-- The calls a handshake makes, besides what it sends, its one signature and the wait for its
selection. -/
def Call.inHandshake : Call → Bool
  | .now | .nonce | .randomId | .metadata | .localPort | .openStream _ | .acceptStream _
  | .receive _ _ | .finish _ | .peer _ | .isDiscoverable | .admitProbe _
  | .acquireProbe => true
  | _ => false

/-- The call waits for the selection. -/
def Selection.AwaitedBy (selection : Selection) (call : Call) : Prop :=
  ∃ race index, selection = .race race index ∧ call = .select race index

namespace Runtime

/-- The frames that open a handshake: a hello or a signature. -/
def Opening (self : Runtime) (frame : Bytes) : Prop :=
  (∃ hello, frame = self.platform.encodeHello hello) ∨
    ∃ auth, frame = self.platform.encodeAuth auth

/-- If there is a race, its selection permit was given. -/
def Chosen (now : List Moment) (selection : Selection) : Prop :=
  ∀ race index, selection = .race race index →
    ∃ world, ⟨world, .select race index, .ok ()⟩ ∈ now

theorem Chosen.mono {now later : List Moment} {selection : Selection} (subset : now ⊆ later)
    (chosen : Chosen now selection) : Chosen later selection := by
  intro race index same
  obtain ⟨world, member⟩ := chosen race index same
  exact ⟨world, subset member⟩

end Runtime

/-- The contract of a part of a handshake that signs nothing, waits for no selection and sends no
other frames. Nothing is assumed of the replies. -/
def handshaking (sends : Bytes → Prop) : Program.Contract World Call.Reply where
  guarantee _ call := call.inHandshake = true ∨
    ∃ connection frame limit, call = .send connection frame limit ∧ sends frame
  rely _ _ := True

/-- The contract of a whole handshake, which only opens before its selection. -/
def signing (self : Runtime) (selection : Selection) : Program.Contract World Call.Reply where
  guarantee past call := (handshaking fun frame => self.Opening frame ∨
      Runtime.Chosen past selection).guarantee past call ∨
    (∃ message, call = .sign .sessionAuthentication message) ∨ selection.AwaitedBy call
  rely _ _ := True

/-- Calls that sign nothing. -/
def Call.unsigned : Call → Bool
  | .sign _ _ => false
  | _ => true

variable {between : List Moment}

/-- Nothing else has been signed since. -/
def SignsOnly (past now : List Moment) (transcript : Bytes) : Prop :=
  ∀ moment ∈ now, moment ∈ past ∨
    ∀ context message, moment.call = .sign context message → message = transcript

theorem SignsOnly.after {past now : List Moment} {transcript : Bytes}
    (since : Trail Call.unsigned past between) (only : SignsOnly between now transcript) :
    SignsOnly past now transcript := by
  intro moment member
  rcases only moment member with earlier | known
  · refine (since.mem earlier).imp_right fun none context message same => ?_
    rw [same] at none
    cases none
  · exact .inr known

theorem SignsOnly.before {past now : List Moment} {transcript : Bytes}
    (only : SignsOnly past between transcript) (since : Trail Call.unsigned between now) :
    SignsOnly past now transcript := by
  intro moment member
  rcases since.mem member with earlier | none
  · exact only moment earlier
  · refine .inr fun context message same => ?_
    rw [same] at none
    cases none

/-- The repository has answered that it stores the device as paired under the key. -/
def CheckedPaired (now : List Moment) (id : DeviceId) (key : DevicePublicKey) : Prop :=
  ∃ record, ReadPaired now id record ∧ record.publicKey = key

/-- A call has been made. -/
def Asked (now : List Moment) (call : Call) : Prop := ∃ moment ∈ now, moment.call = call

/-- A frame has been received that decodes to the message. -/
def Received {α : Type} (now : List Moment) (connection : Connection)
    (decode : Bytes → Except String α) (message : α) : Prop :=
  ∃ world bytes, ⟨world, .receive connection.stableId handshakeFrameLimit, .ok bytes⟩ ∈ now ∧
    decode bytes = .ok message

theorem CheckedPaired.mono {past now : List Moment} {id : DeviceId} {key : DevicePublicKey}
    (subset : past ⊆ now) (checked : CheckedPaired past id key) : CheckedPaired now id key := by
  obtain ⟨record, read, same⟩ := checked
  exact ⟨record, read.mono subset, same⟩

theorem Asked.mono {past now : List Moment} {call : Call} (subset : past ⊆ now)
    (asked : Asked past call) : Asked now call := by
  obtain ⟨moment, member, same⟩ := asked
  exact ⟨moment, subset member, same⟩

theorem Received.mono {α : Type} {past now : List Moment} {connection : Connection}
    {decode : Bytes → Except String α} {message : α} (subset : past ⊆ now)
    (received : Received past connection decode message) :
    Received now connection decode message := by
  obtain ⟨world, bytes, member, decoded⟩ := received
  exact ⟨world, bytes, subset member, decoded⟩

namespace Runtime

variable {self : Runtime} {past : List Moment} {sends : Bytes → Prop}

/-- The program makes only calls of a handshake, and what it returns satisfies the postcondition. -/
abbrev Shakes {α : Type} (sends : Bytes → Prop) (post : List Moment → α → Prop)
    (past : List Moment) (program : Action α) : Prop :=
  Async.Ensures (handshaking sends) post past program

/-- The program makes only calls of a handshake, signs, or waits for the selection. -/
abbrev Signs {α : Type} (self : Runtime) (selection : Selection) (post : List Moment → α → Prop)
    (past : List Moment) (program : Action α) : Prop :=
  Async.Ensures (signing self selection) post past program

variable {selection : Selection}

/-- A part that signs nothing, as part of the whole. -/
theorem signs_of_shakes {α : Type} {post : List Moment → α → Prop} {program : Action α}
    (shakes : Shakes (fun frame => self.Opening frame ∨ Chosen past selection) post past
      program) :
    Signs self selection (fun now value => Trail Call.unsigned past now ∧ post now value) past program := by
  have recorded : Program.Ensures _ (fun now result => _ ∧ Trail Call.unsigned past now) past
      program.run := Program.Ensures.trail shakes (by
    rintro now call (belongs | ⟨_, _, _, rfl, -⟩)
    · cases call <;> first | rfl | cases belongs
    · rfl)
  have relaxed : Program.Ensures (signing self selection) _ past program.run :=
    recorded.relax_along (past ⊆ ·) (List.Subset.refl _)
      (fun now _ grown _ _ member => List.mem_append_left _ (grown member))
      (fun now call grown made => .inl (made.imp_right fun ⟨connection, frame, limit, same, may⟩ =>
        ⟨connection, frame, limit, same, may.imp_right (Chosen.mono grown)⟩)) fun _ _ => id
  exact relaxed.mono fun now result known value returned =>
    ⟨known.2.2, known.2.1 value returned⟩

theorem shakes_ask {call : Call} (belongs : call.inHandshake = true) :
    Shakes sends (fun _ _ => True) past (ask call) :=
  ensures_call (.inl belongs) fun _ _ _ => trivial

theorem shakes_sent {connection limit : Nat} {frame : Bytes} (may : sends frame) :
    Shakes sends (fun now _ => Asked now (.send connection frame limit)) past
      (ask (.send connection frame limit)) :=
  ensures_call (.inr ⟨_, _, _, rfl, may⟩) fun world reply _ =>
    ⟨⟨world, .send connection frame limit, reply⟩, by simp, rfl⟩

/-- `require_paired` as part of a handshake. -/
theorem shakes_requirePaired (id : DeviceId) (key : Option DevicePublicKey) :
    Shakes sends (fun now record => ReadPaired now id record ∧ ∀ expected, key = some expected →
      record.publicKey = expected) past (self.requirePaired id key) :=
  (ensures_requirePaired (fun _ _ => Or.inl rfl) id key).mono fun _ _ known => ⟨known.1, known.2.2⟩

/-- The pairing gate lets a kind for paired devices pass only after the check. -/
theorem shakes_requireTrust (kind : SessionKind) (id : DeviceId) (key : DevicePublicKey) :
    Shakes sends (fun now _ => kind.openToUnpaired = true ∨ CheckedPaired now id key) past
      (self.requireTrust kind id key) := by
  unfold requireTrust
  split
  · rename_i unrestricted
    exact ensures_pure (Or.inl unrestricted)
  · refine ensures_bind (shakes_requirePaired id (some key)) fun now record known => ?_
    exact ensures_pure (Or.inr ⟨record, known.1, known.2 key rfl⟩)

theorem shakes_sendMessage (connection : Connection) {message : Bytes} (may : sends message) :
    Shakes sends (fun now _ => Asked now (.send connection.stableId message handshakeFrameLimit))
      past (sendMessage connection message) := by
  refine ensures_bind (shakes_sent may) fun now sent asked => ?_
  exact ensures_ofExcept fun _ _ => asked

/-- A message has been received. -/
theorem shakes_receiveMessage {α : Type} (connection : Connection)
    (decode : Bytes → Except String α) :
    Shakes sends (fun now message => Received now connection decode message) past
      (receiveMessage connection decode) := by
  have asks : Shakes sends (fun now reply => ∃ world,
      ⟨world, .receive connection.stableId handshakeFrameLimit, reply⟩ ∈ now) past
      (ask (.receive connection.stableId handshakeFrameLimit)) :=
    ensures_call (.inl rfl) fun world reply _ => ⟨world, by simp⟩
  refine ensures_bind asks fun now frame asked => ?_
  refine ensures_bind_since ensures_succeeded fun later bytes grown read => ?_
  refine ensures_ofExcept fun message decoded => ?_
  obtain ⟨world, member⟩ := asked
  rw [read] at member
  exact ⟨world, bytes, grown.subset member, Except.mapError_eq_ok.mp decoded⟩

/-- What the exchange of signatures establishes: this device has signed the transcript, and a
signature of the peer over it has been received and verified. -/
structure Signed (platform : Platform) (connection : Connection) (now : List Moment)
    (peer : SessionPeer) (transcript : Bytes) : Prop where
  own : Asked now (.sign .sessionAuthentication transcript)
  remote : ∃ auth signature, Received now connection platform.decodeAuth auth ∧
    auth.deviceId = peer.deviceId.asStr ∧ platform.signatureFromBytes auth.signature =
      .ok signature ∧ platform.verifySignature peer.publicKey .sessionAuthentication transcript
        signature = .ok ()

theorem Signed.mono {platform : Platform} {connection : Connection} {now later : List Moment}
    {peer : SessionPeer} {transcript : Bytes} (subset : now ⊆ later)
    (signed : Signed platform connection now peer transcript) :
    Signed platform connection later peer transcript := by
  obtain ⟨own, auth, signature, received, verified⟩ := signed
  exact ⟨own.mono subset, auth, signature, received.mono subset, verified⟩

/-- The exchange of signatures. -/
theorem signs_exchangeAuth (connection : Connection) (transcript : Bytes) (peer : SessionPeer) :
    Signs self selection (fun now _ => Signed self.platform connection now peer transcript ∧
      SignsOnly past now transcript) past (self.exchangeAuth connection transcript peer) := by
  have asks : Signs self selection (fun now _ => Asked now (.sign .sessionAuthentication transcript) ∧
      SignsOnly past now transcript) past (ask (.sign .sessionAuthentication transcript)) := by
    refine ensures_call (Or.inr (Or.inl ⟨_, rfl⟩)) fun world reply _ =>
      ⟨⟨_, List.mem_append_right _
      (List.mem_singleton.mpr rfl), rfl⟩, fun moment member => ?_⟩
    rcases List.mem_concat_iff.mp member with earlier | rfl
    · exact Or.inl earlier
    · refine Or.inr fun context message same => ?_
      cases same
      rfl
  refine ensures_bind asks fun now signature known => ?_
  obtain ⟨asked, only⟩ := known
  refine ensures_bind (signs_of_shakes (shakes_sendMessage _ (.inl (.inr ⟨_, rfl⟩)))) fun _ _ sent => ?_
  refine ensures_bind (signs_of_shakes (shakes_receiveMessage _ _)) fun _ remote got => ?_
  refine ensures_bind (signs_of_shakes ensures_passed) fun _ _ named => ?_
  refine ensures_bind (signs_of_shakes ensures_succeeded) fun _ signature parsed => ?_
  have later := named.1.trans parsed.1
  have since := (sent.1.trans got.1).trans later
  exact ensures_ofExcept fun _ verified => ⟨⟨asked.mono since.grown, remote, signature,
    got.2.mono later.grown, by simpa using named.2, Platform.identityResult_eq_ok.mp parsed.2,
    verified⟩, only.before since⟩

theorem shakes_exchangeAccepted (connection : Connection) (accepted : SessionAccepted)
    (all : ∀ frame, sends frame) :
    Shakes sends (fun _ _ => True) past (self.exchangeAccepted connection accepted) := by
  refine ensures_bind (shakes_sendMessage _ (all _)) fun _ _ _ => ?_
  refine ensures_bind (shakes_receiveMessage _ _) fun _ remote _ => ?_
  refine ensures_bind ensures_passed fun _ _ _ => ?_
  refine ensures_bind ensures_passed fun _ _ _ => ?_
  exact ensures_pure trivial

theorem shakes_sessionAccepted (protocolMinor : UInt32) :
    Shakes sends (fun _ _ => True) past (self.sessionAccepted protocolMinor) := by
  refine ensures_bind (shakes_ask rfl) fun _ _ _ => ?_
  refine ensures_bind (shakes_ask rfl) fun _ _ _ => ?_
  refine ensures_bind (shakes_ask rfl) fun _ _ _ => ?_
  exact ensures_pure trivial

theorem signs_awaitSelection (selection : Selection) :
    Signs self selection (fun now _ => Trail Call.unsigned past now ∧ Chosen now selection) past
      (awaitSelection selection) := by
  cases selection with
  | absent => exact ensures_pure ⟨.refl past, nofun⟩
  | own => exact ensures_pure ⟨.refl past, nofun⟩
  | race race index =>
    refine ⟨.inr (.inr ⟨race, index, rfl, rfl⟩), fun world reply _ value same => ?_⟩
    refine ⟨trail_concat rfl, fun _ _ this => ?_⟩
    cases this
    obtain rfl : reply = .ok () := same
    exact ⟨world, by simp⟩

/-- What `finish_authentication` has established about the session it returns. -/
structure Finished (runtime : Runtime) (connection : Connection) (own remote : SessionHello)
    (peer : SessionPeer) (direction : Direction) (past now : List Moment) (session : Session) :
    Prop where
  other : peer.deviceId ≠ runtime.deviceId
  kind : runtime.platform.decodeKind remote.sessionKind = .ok session.kind
  minor : negotiateProtocolMinor own remote = .ok session.protocolMinor
  /-- Both ends signed the transcript, of which the code is made, and this end nothing else. -/
  transcript : ∃ transcript, runtime.platform.sessionTranscript connection own remote =
      .ok transcript ∧ session.verificationCode = runtime.platform.verificationCode transcript ∧
        Signed runtime.platform connection now peer transcript ∧ SignsOnly past now transcript
  /-- A kind for paired devices was checked against the repository. -/
  trusted : session.kind.openToUnpaired = true ∨ CheckedPaired now peer.deviceId peer.publicKey
  /-- The peer is the one of the hello, with the port it said. -/
  samePeer : session.peer = { peer with listenPort := session.peer.listenPort }
  rank : session.rank = runtime.sessionRank direction own remote peer
  sameConnection : session.connection = connection
  direct : session.relayTunnel = none

/-- What follows the signatures: the pairing gate and the exchange of confirmations. -/
theorem signs_confirm (connection : Connection) (kind : SessionKind) (minor : UInt32)
    (peer : SessionPeer) (selection : Selection) {α : Type}
    {next : SessionAccepted → SessionAccepted → Option ProcessInstanceId → α} :
    Signs self selection (fun now value => (Trail Call.unsigned past now ∧ Chosen now selection) ∧
      (kind.openToUnpaired = true ∨ CheckedPaired now peer.deviceId peer.publicKey) ∧
        ∃ accepted remote process, value = next accepted remote process) past (do
      self.requireTrust kind peer.deviceId peer.publicKey
      awaitSelection selection
      let accepted ← self.sessionAccepted minor
      let remoteAccepted ← self.exchangeAccepted connection accepted
      let process ← Async.ofExcept (validateProcessInstanceId remoteAccepted.processInstanceId)
      let finished ← ask (.finish connection.stableId)
      Async.ofExcept (quicResult finished)
      return next accepted remoteAccepted process) := by
  refine ensures_bind (signs_of_shakes (shakes_requireTrust _ _ _)) fun trusted _ checked =>
    ?_
  refine ensures_bind (signs_awaitSelection selection) fun selected _ waited => ?_
  have rest : Shakes (fun frame => self.Opening frame ∨ Chosen selected selection)
      (fun _ value => ∃ accepted remote process, value = next accepted remote process) selected (do
      let accepted ← self.sessionAccepted minor
      let remoteAccepted ← self.exchangeAccepted connection accepted
      let process ← Async.ofExcept (validateProcessInstanceId remoteAccepted.processInstanceId)
      let finished ← ask (.finish connection.stableId)
      Async.ofExcept (quicResult finished)
      return next accepted remoteAccepted process) := by
    refine ensures_bind (shakes_sessionAccepted _) fun _ accepted _ => ?_
    refine ensures_bind (shakes_exchangeAccepted _ _ fun _ => .inr waited.2) fun _ reply _ => ?_
    refine ensures_bind ensures_succeeded fun _ process _ => ?_
    refine ensures_bind (shakes_ask rfl) fun _ finished _ => ?_
    refine ensures_bind ensures_succeeded fun _ _ _ => ?_
    exact ensures_pure ⟨accepted, reply, process, rfl⟩
  refine (signs_of_shakes rest).mono fun last value known => ?_
  have later := waited.1.trans known.1
  exact ⟨⟨checked.1.trans later, waited.2.mono known.1.grown⟩,
    checked.2.imp id (CheckedPaired.mono later.grown), known.2⟩

/-- `finish_authentication`. -/
theorem signs_finishAuthentication (connection : Connection) (own remote : SessionHello)
    (peer : SessionPeer) (direction : Direction) (selection : Selection) :
    Signs self selection (fun now session => Finished self connection own remote peer direction past now
      session ∧ Chosen now selection) past
      (self.finishAuthentication connection own remote peer direction selection) := by
  refine ensures_bind (signs_of_shakes ensures_passed) fun _ _ other => ?_
  refine ensures_bind (signs_of_shakes ensures_succeeded) fun _ kind decoded => ?_
  refine ensures_bind (signs_of_shakes ensures_succeeded) fun _ minor negotiated => ?_
  refine ensures_bind (signs_of_shakes ensures_succeeded) fun _ transcript built => ?_
  refine ensures_bind (signs_exchangeAuth _ _ _) fun _ _ known => ?_
  obtain ⟨signed, only⟩ := known
  refine (signs_confirm connection kind minor peer selection).mono fun now session known => ?_
  obtain ⟨⟨since, chosen⟩, checked, accepted, reply, process, rfl⟩ := known
  refine ⟨⟨by simpa using other.2, decoded.2, negotiated.2, ?_, checked, rfl, rfl, rfl, rfl⟩,
    chosen⟩
  have before := ((other.1.trans decoded.1).trans negotiated.1).trans built.1
  exact ⟨transcript, built.2, rfl, signed.mono since.grown, (only.after before).before since⟩

/-! ## The authentication functions -/

section Authentication

variable {connection : Connection} {kind : SessionKind} {direction : Direction}
  {own remote : SessionHello} {peer : SessionPeer} {now : List Moment} {session : Session}

/-- What the exchange of hellos has established: one was sent and one was received and accepted. -/
structure Greeted (runtime : Runtime) (connection : Connection) (kind : SessionKind)
    (own remote : SessionHello) (peer : SessionPeer) (now : List Moment) : Prop where
  ownHello : ∃ nonce metadata, own = runtime.helloWith kind nonce metadata
  sent : Asked now
    (.send connection.stableId (runtime.platform.encodeHello own) handshakeFrameLimit)
  received : Received now connection runtime.platform.decodeHello remote
  accepted : HelloAccepted runtime.platform remote kind peer

/-- What a handshake has established about the session it returns. -/
structure Authenticated (runtime : Runtime) (connection : Connection) (kind : SessionKind)
    (direction : Direction) (own remote : SessionHello) (peer : SessionPeer)
    (past now : List Moment) (session : Session) : Prop
    extends Greeted runtime connection kind own remote peer now where
  finished : Finished runtime connection own remote peer direction past now session

theorem Greeted.mono (subset : past ⊆ now)
    (greeted : Greeted self connection kind own remote peer past) :
    Greeted self connection kind own remote peer now :=
  ⟨greeted.ownHello, greeted.sent.mono subset, greeted.received.mono subset, greeted.accepted⟩

theorem Finished.after {between : List Moment} (since : Trail Call.unsigned past between)
    (finished : Finished self connection own remote peer direction between now session) :
    Finished self connection own remote peer direction past now session := by
  obtain ⟨transcript, built, code, signed, only⟩ := finished.transcript
  exact ⟨finished.other, finished.kind, finished.minor,
    ⟨transcript, built, code, signed, only.after since⟩, finished.trusted, finished.samePeer,
    finished.rank, finished.sameConnection, finished.direct⟩

/-- The kind of an authenticated session is the one both hellos name. -/
theorem Authenticated.sameKind
    (authenticated : Authenticated self connection kind direction own remote peer past now
      session) :
    session.kind = kind := by
  have named := self.platform.decodeKind_eq_ok.mp authenticated.finished.kind
  rw [authenticated.accepted.kind] at named
  exact (self.platform.kindNumber_injective named).symm

/-- The accepted peer of the handshake is the peer of the session. -/
theorem Authenticated.greets
    (authenticated : Authenticated self connection kind direction own remote peer past now
      session) :
    Greeted self connection session.kind own remote session.peer now := by
  obtain ⟨⟨ownHello, sent, received, accepted⟩, finished⟩ := id authenticated
  rw [authenticated.sameKind, finished.samePeer]
  exact ⟨ownHello, sent, received, ⟨accepted.admissible, accepted.kind, accepted.deviceId,
    accepted.publicKey, accepted.bound, accepted.certificate, accepted.binding, accepted.metadata⟩⟩

/-- The peer of the session has signed the transcript its code is made of. -/
theorem Finished.signs
    (finished : Finished self connection own remote peer direction past now session) :
    ∃ transcript, self.platform.sessionTranscript connection own remote = .ok transcript ∧
      session.verificationCode = self.platform.verificationCode transcript ∧
        Signed self.platform connection now session.peer transcript ∧
          SignsOnly past now transcript := by
  obtain ⟨transcript, built, code, signed, only⟩ := finished.transcript
  refine ⟨transcript, built, code, ?_, only⟩
  rw [finished.samePeer]
  exact ⟨signed.own, signed.remote⟩

theorem shakes_localHello (kind : SessionKind) :
    Shakes sends (fun _ own => ∃ nonce metadata, own = self.helloWith kind nonce metadata) past
      (self.localHello kind) := by
  refine ensures_bind (shakes_ask rfl) fun _ nonce _ => ?_
  refine ensures_bind (shakes_ask rfl) fun _ metadata _ => ?_
  exact ensures_pure ⟨nonce, metadata, rfl⟩

/-- The exchange of hellos at the dialling end. -/
theorem shakes_exchangeHello (connection : Connection) (kind : SessionKind)
    (may : ∀ hello, sends (self.platform.encodeHello hello)) :
    Shakes sends (fun now hellos => Greeted self connection kind hellos.1 hellos.2.1 hellos.2.2 now)
      past (self.exchangeHello connection kind) := by
  refine ensures_bind (shakes_ask rfl) fun _ _ _ => ?_
  refine ensures_bind ensures_succeeded fun _ _ _ => ?_
  refine ensures_bind (shakes_localHello kind) fun _ own ownHello => ?_
  refine ensures_bind (shakes_sendMessage _ (may own)) fun now _ sent => ?_
  refine ensures_bind_since (shakes_receiveMessage _ _) fun later remote grown received => ?_
  have sent := sent.mono grown.subset
  refine ensures_bind_since ensures_succeeded fun last peer grown validated => ?_
  exact ensures_pure ⟨ownHello, sent.mono grown.subset, received.mono grown.subset,
    Platform.validateHello_eq_ok validated⟩

theorem opening_hello (hello : SessionHello) :
    self.Opening (self.platform.encodeHello hello) ∨ Chosen past selection :=
  .inl (.inl ⟨hello, rfl⟩)

/-- After the exchange of hellos the rest completes the handshake. -/
theorem signs_finish {between : List Moment} (direction : Direction) (selection : Selection)
    (since : Trail Call.unsigned past between) (greeted : Greeted self connection kind own remote peer between) :
    Signs self selection (fun now session =>
      Authenticated self connection kind direction own remote peer past now session ∧
        Chosen now selection) between
      (self.finishAuthentication connection own remote peer direction selection) := by
  refine (Program.Ensures.since (signs_finishAuthentication connection own remote peer direction
    selection)).mono fun now result known session returned => ?_
  obtain ⟨finished, chosen⟩ := known.1 session returned
  exact ⟨⟨greeted.mono known.2.subset, finished.after since⟩, chosen⟩

/-- What a dialling handshake that expects a device returns. -/
def Reached (self : Runtime) (connection : Connection) (kind : SessionKind) (id : DeviceId)
    (key : DevicePublicKey) (past now : List Moment) (session : Session) : Prop :=
  ∃ own remote peer, Authenticated self connection kind .outbound own remote peer past now session ∧
    peer.deviceId = id ∧ peer.publicKey = key

/-- `authenticate_outbound`. -/
theorem signs_authenticateOutbound (connection : Connection) (expected : PeerAdvertisement)
    (kind : SessionKind) (selection : Selection) :
    Signs self selection (fun now session =>
      Reached self connection kind expected.deviceId expected.publicKey past now session ∧
        Chosen now selection) past
      (self.authenticateOutbound connection expected kind selection) := by
  refine ensures_bind (signs_of_shakes ensures_succeeded) fun _ observed first => ?_
  refine ensures_bind (signs_of_shakes ensures_passed) fun _ _ second => ?_
  refine ensures_bind (signs_of_shakes (shakes_exchangeHello _ _ opening_hello)) fun _ hellos third => ?_
  obtain ⟨own, remote, peer⟩ := hellos
  refine ensures_bind (signs_of_shakes ensures_passed) fun _ _ fourth => ?_
  refine ensures_bind (signs_of_shakes ensures_passed) fun _ _ fifth => ?_
  have later := fourth.1.trans fifth.1
  have since := ((first.1.trans second.1).trans third.1).trans later
  have same := fifth.2
  simp only [Bool.or_eq_false_iff, bne_eq_false_iff_eq] at same
  refine (signs_finish _ _ since (third.2.mono later.grown)).mono fun now session known => ?_
  exact ⟨⟨own, remote, peer, known.1, same.1.1, same.1.2⟩, known.2⟩

/-- `authenticate_outbound_paired`. -/
theorem signs_authenticateOutboundPaired (connection : Connection) (expected : PeerRecord)
    (kind : SessionKind) (selection : Selection) :
    Signs self selection (fun now session =>
      Reached self connection kind expected.deviceId expected.publicKey past now session ∧
        Chosen now selection) past
      (self.authenticateOutboundPaired connection expected kind selection) := by
  refine ensures_bind (signs_of_shakes ensures_succeeded) fun _ observed first => ?_
  refine ensures_bind (signs_of_shakes (shakes_exchangeHello _ _ opening_hello)) fun _ hellos second => ?_
  obtain ⟨own, remote, peer⟩ := hellos
  refine ensures_bind (signs_of_shakes ensures_passed) fun _ _ third => ?_
  have since := (first.1.trans second.1).trans third.1
  have same := third.2
  simp only [Bool.or_eq_false_iff, bne_eq_false_iff_eq] at same
  refine (signs_finish _ _ since (second.2.mono third.1.grown)).mono fun now session known => ?_
  exact ⟨⟨own, remote, peer, known.1, same.1.2, same.2⟩, known.2⟩

/-- `authenticate_outbound_probe`. -/
theorem signs_authenticateOutboundProbe (connection : Connection) :
    Signs self .absent (fun now session => ∃ own remote peer,
      Authenticated self connection .discoveryProbe
      .outbound own remote peer past now session) past
      (self.authenticateOutboundProbe connection) := by
  refine ensures_bind (signs_of_shakes ensures_succeeded) fun _ observed first => ?_
  refine ensures_bind (signs_of_shakes (shakes_exchangeHello _ _ opening_hello)) fun _ hellos second => ?_
  obtain ⟨own, remote, peer⟩ := hellos
  refine ensures_bind (signs_of_shakes ensures_passed) fun _ _ third => ?_
  have since := (first.1.trans second.1).trans third.1
  refine (signs_finish _ _ since (second.2.mono third.1.grown)).mono fun now session known => ?_
  exact ⟨own, remote, peer, known.1⟩

/-- Whom `authenticate_inbound` admits: a device the repository has called paired, or any device
for an open kind while this one is discoverable; and a probe only within its rate. -/
structure Admitted (connection : Connection) (kind : SessionKind) (peer : SessionPeer)
    (now : List Moment) : Prop where
  /-- The device is paired, or this one is discoverable and the kind is open. -/
  visible : CheckedPaired now peer.deviceId peer.publicKey ∨
    (kind.openToUnpaired = true ∧ ∃ world, ⟨world, .isDiscoverable, true⟩ ∈ now)
  probe : kind = .discoveryProbe →
    ∃ world, ⟨world, .admitProbe connection.remoteAddress.ip, .ok ()⟩ ∈ now

/-- A probe is admitted before it goes on. -/
theorem shakes_admitProbe (kind : SessionKind) (address : SocketAddr) :
    Shakes sends (fun now _ => kind = .discoveryProbe →
      ∃ world, ⟨world, .admitProbe address.ip, .ok ()⟩ ∈ now) past (admitProbe kind address) := by
  unfold admitProbe
  split
  · have asks : Shakes sends (fun now reply => ∃ world, ⟨world, .admitProbe address.ip, reply⟩ ∈
        now) past (ask (.admitProbe address.ip)) :=
      ensures_call (.inl rfl) fun world reply _ => ⟨world, by simp⟩
    refine ensures_bind asks fun now reply asked => ?_
    refine ensures_bind_since ensures_succeeded fun _ _ first admitted => ?_
    refine ensures_bind_since (shakes_ask rfl) fun _ permitted second _ => ?_
    refine (Program.Ensures.since ensures_passed).mono fun last result known _ _ _ => ?_
    obtain ⟨world, member⟩ := asked
    rw [admitted] at member
    exact ⟨world, ((first.trans second).trans known.2).subset member⟩
  · rename_i other
    exact ensures_pure fun probe => absurd probe other

/-- The visibility check of `authenticate_inbound`, with what the repository said. -/
theorem visible_of_checks {discoverable : Bool} {paired : Except NetworkError PeerRecord}
    (passed : (!discoverable && !paired.isOk && kind.openToUnpaired) = false)
    (checked : ∀ record, paired = .ok record → CheckedPaired now peer.deviceId peer.publicKey)
    (asked : ∃ world, ⟨world, .isDiscoverable, discoverable⟩ ∈ now)
    (trusted : kind.openToUnpaired = true ∨ CheckedPaired now peer.deviceId peer.publicKey) :
    CheckedPaired now peer.deviceId peer.publicKey ∨
      (kind.openToUnpaired = true ∧ ∃ world, ⟨world, .isDiscoverable, true⟩ ∈ now) := by
  rcases trusted with unrestricted | needed
  · cases paired with
    | ok record => exact Or.inl (checked record rfl)
    | error error =>
      have shown : discoverable = true := by
        simpa [unrestricted, Except.isOk, Except.toBool] using passed
      exact Or.inr ⟨unrestricted, shown ▸ asked⟩
  · exact Or.inl needed

/-- `authenticate_inbound`. -/
theorem signs_authenticateInbound (connection : Connection) :
    Signs self .absent (fun now session => ∃ own remote peer kind,
      Authenticated self connection kind .inbound
      own remote peer past now session ∧ Admitted connection kind peer now) past
      (self.authenticateInbound connection) := by
  refine ensures_bind (signs_of_shakes (shakes_ask rfl)) fun _ _ opened => ?_
  refine ensures_bind (signs_of_shakes ensures_succeeded) fun _ _ streamed => ?_
  refine ensures_bind (signs_of_shakes (shakes_receiveMessage _ _)) fun _ remote got => ?_
  refine ensures_bind (signs_of_shakes ensures_succeeded) fun _ kind decoded => ?_
  refine ensures_bind (signs_of_shakes ensures_succeeded) fun _ peer validated => ?_
  refine ensures_bind (signs_of_shakes (ensures_result (shakes_requirePaired _ _)))
    fun _ paired checked => ?_
  have asks : ∀ {sends} now, Shakes sends (fun now reply => ∃ world,
      ⟨world, .isDiscoverable, reply⟩ ∈ now) now (ask .isDiscoverable) := fun now =>
    ensures_call (.inl rfl) fun world reply _ => ⟨world, by simp⟩
  refine ensures_bind (signs_of_shakes (asks _)) fun _ discoverable asked => ?_
  refine ensures_bind (signs_of_shakes ensures_passed) fun _ _ passed => ?_
  refine ensures_bind (signs_of_shakes (shakes_admitProbe _ _)) fun _ _ admitted => ?_
  refine ensures_bind (signs_of_shakes (shakes_localHello _)) fun _ own made => ?_
  refine ensures_bind (signs_of_shakes (shakes_sendMessage _ (opening_hello own))) fun _ _ sent => ?_
  -- What each step saw is still there at the end.
  have fromAdmitted := made.1.trans sent.1
  have fromAsked := (passed.1.trans admitted.1).trans fromAdmitted
  have fromChecked := asked.1.trans fromAsked
  have fromReceived := ((decoded.1.trans validated.1).trans checked.1).trans fromChecked
  have since := ((opened.1.trans streamed.1).trans got.1).trans fromReceived
  have greeted := Greeted.mk made.2 sent.2 (got.2.mono fromReceived.grown)
    (Platform.validateHello_eq_ok validated.2)
  refine (Program.Ensures.since (signs_finish .inbound .absent since greeted)).mono
    fun now result known session returned => ?_
  have authenticated := (known.1 session returned).1
  have subset := known.2.subset
  refine ⟨own, remote, peer, kind, authenticated, visible_of_checks passed.2 ?_ ?_ ?_, ?_⟩
  · intro record found
    obtain ⟨read, same⟩ := checked.2 record found
    exact ⟨record, read.mono fun _ member => subset (fromChecked.grown member), same _ rfl⟩
  · obtain ⟨world, member⟩ := asked.2
    exact ⟨world, subset (fromAsked.grown member)⟩
  · exact authenticated.sameKind ▸ authenticated.finished.trusted
  · intro probe
    obtain ⟨world, member⟩ := admitted.2 probe
    exact ⟨world, subset (fromAdmitted.grown member)⟩

end Authentication

end Runtime

end ArcRelay
